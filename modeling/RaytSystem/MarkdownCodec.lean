import Mathlib.Data.List.DropRight
import RaytSystem.PatternMatch
import RaytSystem.JsText

namespace RaytSystem.Markdown
open JsText Pattern

inductive Severity
  | warning
  | error
  deriving DecidableEq, Repr

structure MarkdownIssue where
  code : String
  message : JsText
  severity : Severity
  fromIndex : ℕ
  toIndex : ℕ
  deriving DecidableEq

structure ProtectedMarkdownToken where
  token : JsText
  source : JsText
  deriving DecidableEq

inductive LineEnding
  | lf
  | crlf
  deriving DecidableEq, Repr

structure VisualMarkdownEnvelope (σ : Type) where
  original : JsText
  editorMarkdown : JsText
  frontmatter : JsText
  lineEnding : LineEnding
  finalNewline : Bool
  serialization : σ
  protectedTokens : List ProtectedMarkdownToken
  issues : List MarkdownIssue

abbrev lineFeed : CodeUnit := 10
abbrev carriageReturn : CodeUnit := 13
abbrev tokenMark : CodeUnit := 0xE000
abbrev tokenEnd : CodeUnit := 0xE001

def tokenPrefix : JsText := tokenMark :: units "RAYTSYSTEM"
def tokenSuffix : JsText := [tokenEnd]
def maxVisualEditorCharacters : ℕ := 1000000

variable (content : JsText)

def normalizedLineEnding : LineEnding :=
  if [carriageReturn, lineFeed] <:+: content then .crlf else .lf

def normalizeLf : JsText → JsText
  | [] => []
  | [u] => [if u = carriageReturn then lineFeed else u]
  | u :: v :: rest =>
    if u = carriageReturn then
      if v = lineFeed then lineFeed :: normalizeLf rest else lineFeed :: normalizeLf (v :: rest)
    else u :: normalizeLf (v :: rest)

structure FrontmatterSplit where
  frontmatter : JsText
  body : JsText

def splitFrontmatter : FrontmatterSplit :=
  if units "---\n" <+: content then
    match indexOf (units "\n---") 4 content with
    | none => ⟨[], content⟩
    | some stop =>
      let delimiterEnd := stop + 4
      if content[delimiterEnd]? = some lineFeed then
        ⟨content.take delimiterEnd ++ [lineFeed], content.drop (delimiterEnd + 1)⟩
      else ⟨content.take delimiterEnd, content.drop delimiterEnd⟩
  else ⟨[], content⟩

variable (s : String) (u : CodeUnit)

def noneOf : Bool := !(units s).contains u

def isDigit : Bool := 48 ≤ u && u ≤ 57

def isLetter : Bool := (65 ≤ u && u ≤ 90) || (97 ≤ u && u ≤ 122)

def isWord : Bool := isLetter u || isDigit u || u = 95

def isSpace : Bool :=
  (9 ≤ u && u ≤ 13) || u = 0x20 || u = 0xA0 || u = 0x1680 || (0x2000 ≤ u && u ≤ 0x200A) ||
    u = 0x2028 || u = 0x2029 || u = 0x202F || u = 0x205F || u = 0x3000 || u = 0xFEFF

def chars : Pattern CodeUnit := text (units s)

def charsIgnoreCase : Pattern CodeUnit :=
  (units s).foldr (fun u r =>
    .seq (.unit fun v => v = u || (isLetter u && isLetter v && v = u - 32)) r) .empty

def lineStart : Pattern CodeUnit :=
  .alt (.assert fun before _ => before.isEmpty) (.unit fun u => u = lineFeed)

def textEnd : Pattern CodeUnit := .assert fun _ rest => rest.isEmpty

def wordBoundary : Pattern CodeUnit :=
  .assert fun before rest => before.head?.any isWord != rest.head?.any isWord

def seqAll (rs : List (Pattern CodeUnit)) : Pattern CodeUnit := rs.foldr .seq .empty

def htmlFragment : Pattern CodeUnit :=
  seqAll [lineStart, .star (.unit isSpace), chars "<", opt (chars "/"), .unit isLetter,
    .star (.unit (noneOf ">")), chars ">"]

def directive : Pattern CodeUnit :=
  seqAll [lineStart, .star (.unit isSpace), chars ":::", .unit isLetter,
    .star (.unit (noneOf "\n"))]

def mathBlock : Pattern CodeUnit :=
  seqAll [lineStart, .star (.unit isSpace), chars "$$", .lazyStar (.unit fun _ => true),
    chars "$$"]

def blockId : Pattern CodeUnit :=
  seqAll [lineStart, .star (.unit (noneOf "\n")), .unit isSpace, chars "^",
    plus (.unit fun u => isLetter u || isDigit u || u = 45), .star (.unit isSpace), textEnd]

def executableFence : Pattern CodeUnit :=
  seqAll [text [backtick, backtick, backtick],
    .alt (charsIgnoreCase "dataview") (.alt (charsIgnoreCase "query") (charsIgnoreCase "tasks")),
    wordBoundary]

def templateExpression : Pattern CodeUnit :=
  seqAll [text [123, 123], plus (.unit fun u => u ≠ lineFeed && u ≠ 123 && u ≠ 125),
    text [125, 125]]

def wikilink : Pattern CodeUnit :=
  seqAll [opt (chars "!"), chars "[[", plus (.unit (noneOf "]\n")), chars "]]"]

def isCalloutName : Bool := isWord u || u = 45

def callout : Pattern CodeUnit :=
  seqAll [chars "[!", plus (.unit isCalloutName), chars "]", .star (.unit (noneOf "\n"))]

def strayToken : Pattern CodeUnit :=
  seqAll [text tokenPrefix, .star (.unit fun u => u ≠ tokenEnd), text tokenSuffix]

def issuesAt (code : String) (message : JsText) (severity : Severity) :
    ℕ → List (CodeUnit ⊕ JsText) → List MarkdownIssue
  | _, [] => []
  | index, .inl _ :: ps => issuesAt code message severity (index + 1) ps
  | index, .inr hit :: ps =>
    ⟨code, message, severity, index, index + max hit.length 1⟩ ::
      issuesAt code message severity (index + hit.length) ps

def issueForMatch (regex : Pattern CodeUnit) (code message : String) : List MarkdownIssue :=
  issuesAt code (units message) .error 0 (regex.pieces content)

def inspectMarkdownForVisualEditing : List MarkdownIssue :=
  let body := (splitFrontmatter (normalizeLf content)).body
  issueForMatch body htmlFragment "html_fragment" "HTML-фрагмент требует Source mode." ++
  issueForMatch body directive "directive"
    "Неизвестная Markdown-директива требует Source mode." ++
  issueForMatch body mathBlock "math_block"
    "Математический блок не квалифицирован для визуального сохранения." ++
  issueForMatch body blockId "block_id" "Obsidian block ID требует Source mode." ++
  issueForMatch body executableFence "executable_fence"
    "Исполняемое community-расширение доступно только как исходный Markdown." ++
  issueForMatch body templateExpression "template_expression"
    "Шаблонное выражение не исполняется и требует Source mode."

def tokenAt (index : ℕ) : JsText := tokenPrefix ++ toString36 index ++ tokenSuffix

def protect (tokens : List ProtectedMarkdownToken) (source : JsText) :
    JsText × List ProtectedMarkdownToken :=
  let token := tokenAt tokens.length
  (token, tokens ++ [⟨token, source⟩])

def replaceWith {σ : Type} (f : σ → JsText → JsText × σ) : σ → List (CodeUnit ⊕ JsText) → JsText × σ
  | s, [] => ([], s)
  | s, .inl u :: ps => ((replaceWith f s ps).1.cons u, (replaceWith f s ps).2)
  | s, .inr hit :: ps =>
    ((f s hit).1 ++ (replaceWith f (f s hit).2 ps).1, (replaceWith f (f s hit).2 ps).2)

structure ProtectedMarkdown where
  markdown : JsText
  tokens : List ProtectedMarkdownToken

def protectAgentExtensions (body : JsText) : ProtectedMarkdown :=
  let links := replaceWith protect [] (wikilink.pieces body)
  let callouts := replaceWith protect links.2 (callout.pieces links.1)
  ⟨callouts.1, callouts.2⟩

section
variable {σ : Type}

def prepareVisualMarkdown (visualMarkdownSerializationProfile : JsText → σ) (content : JsText) :
    VisualMarkdownEnvelope σ :=
  let split := splitFrontmatter (normalizeLf content)
  let protectedBody := protectAgentExtensions split.body
  { original := content
    editorMarkdown := protectedBody.markdown
    frontmatter := split.frontmatter
    lineEnding := normalizedLineEnding content
    finalNewline := content.getLast? = some lineFeed
    serialization := visualMarkdownSerializationProfile split.body
    protectedTokens := protectedBody.tokens
    issues := inspectMarkdownForVisualEditing content }

structure RestoredMarkdown where
  content : JsText
  issues : List MarkdownIssue
  deriving DecidableEq

def tokenLost (source : JsText) : MarkdownIssue :=
  { code := "protected_token_lost"
    message := units "Визуальный редактор изменил защищённую конструкцию: " ++ source
    severity := .error
    fromIndex := 0
    toIndex := 0 }

def restoreToken (state : JsText × List MarkdownIssue) (item : ProtectedMarkdownToken) :
    JsText × List MarkdownIssue :=
  if item.token <:+: state.1 then (replaceAll item.token item.source state.1, state.2)
  else (state.1, state.2 ++ [tokenLost item.source])

def removeStrayTokens (body : JsText) : JsText :=
  (strayToken.pieces body).flatMap (Sum.elim (fun u => [u]) fun _ => [])

def stripNewlines (normalized : JsText) : JsText :=
  normalized.rdropWhile fun u => u = lineFeed

def toCrlf (normalized : JsText) : JsText :=
  normalized.flatMap fun u => if u = lineFeed then [carriageReturn, lineFeed] else [u]

def finishMarkdown (envelope : VisualMarkdownEnvelope σ) (body : JsText) : JsText :=
  let stripped := stripNewlines (envelope.frontmatter ++ body)
  let normalized := if envelope.finalNewline then stripped ++ [lineFeed] else stripped
  match envelope.lineEnding with
  | .crlf => toCrlf normalized
  | .lf => normalized

def restoreVisualMarkdown (editorMarkdown : JsText) (envelope : VisualMarkdownEnvelope σ) :
    RestoredMarkdown :=
  let restored := envelope.protectedTokens.foldl restoreToken
    (normalizeLf editorMarkdown, envelope.issues)
  ⟨finishMarkdown envelope (removeStrayTokens restored.1), restored.2⟩
end

structure VisualQualification where
  canOpen : Bool
  deriving DecidableEq

def visualEditorBlockReason (serverQualification : Option VisualQualification) : Option String :=
  if content.length > maxVisualEditorCharacters then
    some "Документ превышает безопасный лимит визуального редактора. Используйте Source mode."
  else if serverQualification.any (!·.canOpen) then
    some "Серверная квалификация запретила открывать этот документ в визуальном редакторе."
  else if (inspectMarkdownForVisualEditing content).any (·.severity = .error) then
    some "Документ содержит конструкции, которые нужно редактировать в Source mode."
  else none

end RaytSystem.Markdown
