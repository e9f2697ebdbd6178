import RaytSystem.ExceptRules
import RaytSystem.PyText

/-! Answers to knowledge queries: the facts of a corpus that the hits name, the rendering of an
answer, and the citations whose spans are searched for in a rendering with placeholders. -/
namespace RaytSystem.Querying

abbrev Text := List Char

def htmlEscape : Char → Text
  | '&' => ['&', 'a', 'm', 'p', ';']
  | '<' => ['&', 'l', 't', ';']
  | '>' => ['&', 'g', 't', ';']
  | '"' => ['&', 'q', 'u', 'o', 't', ';']
  | '\'' => ['&', '#', 'x', '2', '7', ';']
  | c => [c]

def markdownMeta : Text :=
  ['\\', '`', '*', '_', '\x7b', '\x7d', '[', ']', '(', ')', '<', '>', '#', '+', '.', '!', '|', '~',
    '-']

def join (separator : Text) : List Text → Text
  | [] => []
  | [t] => t
  | t :: rest => t ++ separator ++ join separator rest

def escapeUntrustedMarkdown (value : Text) : Text :=
  ((join [' '] (PyText.splitLinesList value [])).flatMap htmlEscape).flatMap fun c =>
    if markdownMeta.contains c then ['\\', c] else [c]

def find (pattern : Text) : Text → Option ℕ
  | [] => if pattern = [] then some 0 else none
  | c :: rest =>
    if pattern.isPrefixOf (c :: rest) then some 0 else (find pattern rest).map (· + 1)

def rstrip (t : Text) : Text := (t.reverse.dropWhile PyText.isSpace).reverse

def trim (t : Text) : Text := PyText.stripList PyText.isWhiteSpace t

def isNonEmptyStr (t : Text) : Bool := 1 ≤ t.length && t.length ≤ 4096

inductive Failure
  | rejected (text : String)
  | invalid (model : String)
  | integrity (code : String)
  deriving DecidableEq

structure Hit where
  kind : String
  logicalId : String

structure Claim where
  claimId : String
  status : String
  statement : Text
  evidenceIds : List String

structure Evidence where
  sourceRevisionId : String
  normalizationId : String
  segmentId : String
  excerptSha256 : String
  sourceLocator : Text
  deriving DecidableEq

structure Corpus where
  generationId : String
  generationSha256 : String
  claims : String → Option Claim
  evidence : String → Option Evidence

structure AnswerMaterial where
  runId : String
  generationId : String
  generationSha256 : String
  querySha256 : String
  intent : String
  facts : List Text
  gaps : List Text

structure CitationMaterial where
  answerProposalId : String
  generationId : String
  generationSha256 : String
  answerCharStart : ℕ
  answerCharEnd : ℕ
  claimId : String
  evidence : Evidence

structure QueryRules where
  sha256 : Text → String
  runId : String → String → ℕ → String
  answerId : AnswerMaterial → String
  citationId : CitationMaterial → String
  casefold : Text → Text

structure AnswerSection where
  text : Text
  citationIds : List String

def makeSection (text : Text) (citationIds : List String) : Except Failure AnswerSection :=
  if isNonEmptyStr (trim text) && !(trim text).any (fun c => ['\x00', '\r', '\n'].contains c) then
    .ok ⟨trim text, citationIds⟩
  else .error (.invalid "AnswerSection")

structure QueryCitation where
  queryCitationId : String
  material : CitationMaterial

def makeCitation (rules : QueryRules) (material : CitationMaterial) :
    Except Failure QueryCitation :=
  if isNonEmptyStr (trim material.evidence.sourceLocator) &&
      trim material.evidence.sourceLocator = material.evidence.sourceLocator &&
      material.answerCharStart ≤ material.answerCharEnd then
    .ok ⟨rules.citationId material, material⟩
  else .error (.invalid "QueryCitation")

def classify (rules : QueryRules) (query : Text) : String :=
  let normalized := rules.casefold query
  let mentions (tokens : List String) : Bool :=
    tokens.any fun token => (find token.toList normalized).isSome
  if mentions [" vs ", "compare", "comparison", "сравн"] then "comparison"
  else if mentions ["relationship", "related", "relation", "связ"] then "relationship"
  else if mentions ["when", "latest", "history", "когда", "последн"] then "temporal"
  else if mentions ["all ", "every", "corpus", "все ", "сколько"] then "corpus_wide"
  else if mentions ["should", "decision", "решен", "стоит ли"] then "workflow_decision"
  else "fact"

variable (ids : List String)

def labelIndex (id : String) : ℕ := ids.length - ids.reverse.idxOf id

def reference (n : ℕ) : Text := ['[', 'S'] ++ (toString n).toList ++ [']']

def referenceSuffix (labels : List ℕ) : Text :=
  if labels = [] then [] else ' ' :: join [' '] (labels.map reference)

def sectionLine (s : AnswerSection) : Text :=
  ['-', ' '] ++ s.text ++ referenceSuffix (s.citationIds.map (labelIndex ids))

def heading (name : String) : Text := ['#', '#', ' '] ++ name.toList

def sectionLines (name : String) (sections : List AnswerSection) : List Text :=
  heading name :: (if sections = [] then ["_None._".toList] else sections.map (sectionLine ids)) ++
    [[]]

def sourceLines : List Text :=
  if ids = [] then []
  else heading "Sources" :: ids.map fun id =>
    ['-', ' '] ++ reference (labelIndex ids id) ++ [' ', '`'] ++ id.toList ++ ['`']

def renderSections (facts inferences gaps : List AnswerSection) (ids : List String) : Text :=
  rstrip (join ['\n'] (sectionLines ids "Facts" facts ++ (sectionLines ids "Inferences" inferences ++
    (sectionLines ids "Gaps" gaps ++ sourceLines ids))))

section
variable (rules : QueryRules) (corpus : Corpus)

structure Fact where
  claimId : String
  statement : Text
  evidenceIds : List String
  deriving DecidableEq

def candidate (hit : Hit) : Option Fact := do
  if hit.kind ≠ "claim" then none
  let claim ← corpus.claims hit.logicalId
  if (claim.status = "supported" ∨ claim.status = "confirmed") ∧ claim.evidenceIds ≠ [] then
    some ⟨claim.claimId, escapeUntrustedMarkdown claim.statement, PyText.sorted claim.evidenceIds⟩
  else none

def candidates (hits : List Hit) : List Fact := hits.filterMap (candidate corpus)

def gapText : Text := "No supported claim in the active generation matches this query.".toList

variable (facts : List Fact)

def gapSections : List AnswerSection :=
  if facts = [] then [⟨gapText, []⟩] else []

def placeholder (n : ℕ) : String := "qcit_placeholder_" ++ toString n

def placeholderGroups : ℕ → List Fact → List (List String)
  | _, [] => []
  | n, fact :: rest =>
    ((List.range fact.evidenceIds.length).map fun k => placeholder (n + k + 1)) ::
      placeholderGroups (n + fact.evidenceIds.length) rest

def regroup : List Fact → List String → List (List String)
  | [], _ => []
  | fact :: rest, ids =>
    ids.take fact.evidenceIds.length :: regroup rest (ids.drop fact.evidenceIds.length)

def makeSections : List Fact → List (List String) → Except Failure (List AnswerSection)
  | fact :: facts, group :: groups => do
    let s ← makeSection fact.statement group
    let rest ← makeSections facts groups
    pure (s :: rest)
  | _, _ => .ok []

def citeFact (answerId : String) (fact : Fact) (start : ℕ) :
    List String → Except Failure (List QueryCitation)
  | [] => .ok []
  | evidenceId :: rest =>
    match corpus.evidence evidenceId with
    | none => .error (.integrity "claim_unresolved_evidence")
    | some evidence => do
      let citation ← makeCitation rules ⟨answerId, corpus.generationId, corpus.generationSha256,
        start, start + fact.statement.length, fact.claimId, evidence⟩
      let others ← citeFact answerId fact start rest
      pure (citation :: others)

def cite (answerId : String) (rendered : Text) : ℕ → List Fact → Except Failure (List QueryCitation)
  | _, [] => .ok []
  | cursor, fact :: rest =>
    match find fact.statement (rendered.drop cursor) with
    | none => .error (.rejected "Structured answer renderer lost a factual section")
    | some offset => do
      let group ← citeFact rules corpus answerId fact (cursor + offset) fact.evidenceIds
      let others ← cite answerId rendered (cursor + offset + fact.statement.length) rest
      pure (group ++ others)

structure AnswerProposal where
  answerProposalId : String
  querySha256 : String
  queryText : Text
  facts : List AnswerSection
  gaps : List AnswerSection
  renderedAnswer : Text
  citationIds : List String

def createAnswer (answerId : String) (queryText : Text) (facts gaps : List AnswerSection)
    (ids : List String) : Except Failure AnswerProposal :=
  if isNonEmptyStr (trim queryText) && isNonEmptyStr (trim (renderSections facts [] gaps ids)) &&
      facts.all (fun s => !s.citationIds.isEmpty) && gaps.all (fun s => s.citationIds.isEmpty) &&
      decide ids.Nodup && ids.all ((facts.flatMap AnswerSection.citationIds).contains ·) &&
      (facts.flatMap AnswerSection.citationIds).all (ids.contains ·) &&
      rules.sha256 queryText = rules.sha256 (trim queryText) &&
      trim (renderSections facts [] gaps ids) = renderSections facts [] gaps ids then
    .ok ⟨answerId, rules.sha256 queryText, trim queryText, facts, gaps,
      renderSections facts [] gaps ids, ids⟩
  else .error (.invalid "AnswerProposal")

structure QueryResult where
  answer : AnswerProposal
  citations : List QueryCitation

def statementOf (claimId : String) : Option Text :=
  (facts.reverse.find? (·.claimId == claimId)).map Fact.statement

def spanAgrees (rendered : Text) (c : QueryCitation) : Bool :=
  statementOf facts c.material.claimId == some ((rendered.drop c.material.answerCharStart).take
    (c.material.answerCharEnd - c.material.answerCharStart))

def answerIdentity (queryText : Text) (limit : ℕ) (facts gaps : List AnswerSection) : String :=
  rules.answerId ⟨rules.runId corpus.generationId (rules.sha256 queryText) limit,
    corpus.generationId, corpus.generationSha256, rules.sha256 queryText, classify rules queryText,
    facts.map AnswerSection.text, gaps.map AnswerSection.text⟩

def checkAnswer (answerId : String) (facts : List Fact) (citations : List QueryCitation)
    (proposal : AnswerProposal) : Except Failure QueryResult :=
  if proposal.answerProposalId ≠ answerId then
    .error (.rejected "Answer identity changed after citation verification")
  else if citations.all (spanAgrees facts proposal.renderedAnswer) then .ok ⟨proposal, citations⟩
  else .error (.rejected "Verified citation answer span changed during rendering")

def answer (queryText : Text) (hits : List Hit) (limit : ℕ) : Except Failure QueryResult := do
  let facts := candidates corpus hits
  let gaps := gapSections facts
  let bare ← makeSections facts (facts.map fun _ => [])
  let answerId := answerIdentity rules corpus queryText limit bare gaps
  let groups := placeholderGroups 0 facts
  let placed ← makeSections facts groups
  let citations ← cite rules corpus answerId (renderSections placed [] gaps groups.flatten) 0 facts
  let ids := citations.map QueryCitation.queryCitationId
  let sections ← makeSections facts (regroup facts ids)
  let proposal ← createAnswer rules (answerIdentity rules corpus queryText limit sections gaps)
    queryText sections gaps ids
  checkAnswer answerId facts citations proposal
end
end RaytSystem.Querying
