import RaytSystem.Frontmatter

/-! What the index takes from a Markdown text: title, headings, tags, aliases, properties and
links. -/
namespace RaytSystem.Extraction
open Pattern

variable (env : ExtractionEnv)

def maxLinks : ℕ := 20000
def maxContext : ℕ := 320
def maxHeadings : ℕ := 10000
def maxTitle : ℕ := 512

inductive LinkType
  | wikilink
  | markdownImage
  | markdown
  deriving DecidableEq, Repr

structure ExtractedLink where
  rawTarget : Text
  target : Text
  heading : Option Text
  aliasText : Option Text
  linkType : LinkType
  embed : Bool
  context : Text
  deriving DecidableEq, Repr

structure MarkdownMetadata where
  title : Text
  headings : List Text := []
  tags : List Text := []
  aliases : List Text := []
  properties : List (Text × Value) := []
  links : List ExtractedLink := []
  warnings : List Text := []

def among (s : String) (c : CodePoint) : Bool := (chars s).contains c

def isBlank (c : CodePoint) : Bool := c = 0x20 || c = 0x09

def literal (s : String) : Pattern CodePoint := text (chars s)

def upTo (accepts : CodePoint → Bool) : ℕ → Pattern CodePoint
  | 0 => .empty
  | n + 1 => opt (.seq (.unit accepts) (upTo accepts n))

def wikilinkPattern : Pattern CodePoint :=
  .seq (opt (literal "!")) (.seq (literal "[[")
    (.seq (plus (.unit fun c => !among "]\r\n" c)) (literal "]]")))

def bracketPattern : Pattern CodePoint :=
  .seq (literal "[") (.seq (.star (.unit fun c => !among "]" c)) (.seq (literal "](")
    (.seq (plus (.unit fun c => !among ")\r\n" c)) (literal ")"))))

def markdownImagePattern : Pattern CodePoint := .seq (literal "!") bracketPattern

def markdownLinkPattern : Pattern CodePoint :=
  .seq (.assert fun before _ => before.head? ≠ some 0x21) bracketPattern

def inlineTagPattern : Pattern CodePoint :=
  .seq (.assert fun before _ => !before.head?.any fun c => env.isWord c || among "/#" c)
    (.seq (literal "#") (.seq (.unit env.isWord) (upTo (fun c => env.isWord c || among "/-" c) 127)))

def findAll (r : Pattern CodePoint) (line : Text) : List Text :=
  (r.pieces line).filterMap fun piece => piece.getRight?

def fenceMarker (line : Text) : Option CodePoint :=
  let rest := line.dropWhile isBlank
  if line.length ≤ rest.length + 3 then
    match rest with
    | a :: b :: c :: _ => if a = b && b = c && among "`~" a then some a else none
    | _ => none
  else none

def closesHeading (rest : Text) : Bool :=
  ((rest.dropWhile isBlank).dropWhile (· = 0x23)).all isBlank

def headingText (line : Text) : Option Text :=
  let marks := line.takeWhile (· = 0x23)
  let afterMarks := line.drop marks.length
  let rest := afterMarks.dropWhile isBlank
  let blanks := afterMarks.length - rest.length
  if 1 ≤ marks.length ∧ marks.length ≤ 6 ∧ 1 ≤ blanks then
    if rest = [] then
      if 2 ≤ blanks then some (afterMarks.drop (blanks - 1)) else none
    else
      ((List.range rest.length).find? fun n => closesHeading (rest.drop (n + 1))).map fun n =>
        rest.take (n + 1)
  else none

def strippedOrNone (part : Text) : Option Text := if strip part = [] then none else some (strip part)

def contextOf (line : Text) : Text :=
  let words := (line.splitOnP isSpace).filter (· ≠ [])
  let compact := (words.intersperse [0x20]).flatten
  if compact.length ≤ maxContext then compact
  else rstrip (compact.take (maxContext - 1)) ++ [0x2026]

def wikilinkOf (line hit : Text) : Option ExtractedLink :=
  let embed := hit.head? = some 0x21
  let inner := (if embed then hit.drop 3 else hit.drop 2).dropLast.dropLast
  let (targetPart, separator, aliasPart) := partition 0x7c inner
  let (target, headingSeparator, heading) := partition 0x23 targetPart
  if strip target = [] then none
  else some
    { rawTarget := inner
      target := strip target
      heading := if headingSeparator then strippedOrNone heading else none
      aliasText := if separator then strippedOrNone aliasPart else none
      linkType := .wikilink
      embed := embed
      context := contextOf line }

def bracketLinkOf (linkType : LinkType) (embed : Bool) (schemes : List String)
    (line hit : Text) : Option ExtractedLink :=
  let (aliasPart, _, inner) := partition 0x5d (hit.dropWhile (· = 0x21)).tail
  let rawTarget := strip inner.tail.dropLast
  let (target, _, heading) := partition 0x23 rawTarget
  let target := strip target
  if target = [] ∨ chars "://" <:+: target ∨
      schemes.any (fun scheme => (chars scheme).isPrefixOf target) = true then none
  else some
    { rawTarget, target
      heading := strippedOrNone heading
      aliasText := strippedOrNone aliasPart
      linkType, embed
      context := contextOf line }

def addLinks (links : List ExtractedLink) : List (Option ExtractedLink) → List ExtractedLink
  | [] => links
  | link :: rest => if maxLinks ≤ links.length then links else addLinks (links ++ link.toList) rest

structure ScanState where
  headings : List Text := []
  tags : List Text
  links : List ExtractedLink := []
  fence : Option CodePoint := none

def scanLine (s : ScanState) (line : Text) : ScanState :=
  match fenceMarker line, s.fence with
  | some marker, none => {s with fence := some marker}
  | some marker, some fence => if marker = fence then {s with fence := none} else s
  | none, some _ => s
  | none, none =>
    let wikilinks := (findAll wikilinkPattern line).map (wikilinkOf line)
    let images := (findAll markdownImagePattern line).map
      (bracketLinkOf .markdownImage true ["data:", "javascript:"] line)
    let markdownLinks := (findAll markdownLinkPattern line).map
      (bracketLinkOf .markdown false ["mailto:", "tel:", "data:", "javascript:"] line)
    { s with
      headings := s.headings ++ (headingText line).toList.map strip
      tags := s.tags ++ (findAll (inlineTagPattern env) line).map List.tail
      links := addLinks (addLinks (addLinks s.links wikilinks) images) markdownLinks }

variable (payload : List (Text × Value))

def aliasValue : Value :=
  if (getValue payload "aliases").truthy then getValue payload "aliases"
  else getValue payload "alias"

def titleOf (headings : List Text) (stem : Text) : Text :=
  let first := headings.head?.getD stem
  match getValue payload "title" with
  | .str title => if strip title = [] then first else strip title
  | _ => first

def extractMarkdownMetadata (text stem : Text) : Except Fault MarkdownMetadata := do
  let (frontmatter, body, warnings) ← parseFrontmatter env text
  let tags ← strings env (getValue frontmatter "tags")
  let aliases ← strings env (aliasValue frontmatter)
  let scanned := (splitLines body).foldl (scanLine env) { tags }
  let title := titleOf frontmatter scanned.headings stem
  pure
    { title := if maxTitle < title.length then rstrip (title.take (maxTitle - 1)) ++ [0x2026]
        else title
      headings := scanned.headings.take maxHeadings
      tags := sortedFolded env scanned.tags.dedup
      aliases := sortedFolded env aliases
      properties := plainProperties frontmatter
      links := scanned.links
      warnings := warnings ++
        (if maxLinks ≤ scanned.links.length then [chars "link_limit_reached"] else []) ++
        if maxTitle < title.length then [chars "title_truncated"] else [] }

end RaytSystem.Extraction
