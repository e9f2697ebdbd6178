import RaytSystem.CanonicalIdentity

/-! What the extractor hands over for one file: how it is written, read back and validated. -/
namespace RaytSystem.CodeGraph
open JsonText Canonical

inductive CodeNodeKind
  | repository | directory | file | module | package | cls | function | method | apiEndpoint
  | databaseTable | databaseSchema | configuration | test | adr | rationale | dependency
  deriving DecidableEq, Repr

def CodeNodeKind.value : CodeNodeKind → String
  | repository => "repository"
  | directory => "directory"
  | file => "file"
  | module => "module"
  | package => "package"
  | cls => "class"
  | function => "function"
  | method => "method"
  | apiEndpoint => "api_endpoint"
  | databaseTable => "database_table"
  | databaseSchema => "database_schema"
  | configuration => "configuration"
  | test => "test"
  | adr => "adr"
  | rationale => "rationale"
  | dependency => "dependency"

inductive CodeRelation
  | contains | defines | imports | calls | inherits | implements | references | dependsOn
  | configuredBy | tests | explainedBy | implementedBy | explains | verifies | changed | touches
  | operatesOn
  deriving DecidableEq, Repr

def CodeRelation.value : CodeRelation → String
  | contains => "contains"
  | defines => "defines"
  | imports => "imports"
  | calls => "calls"
  | inherits => "inherits"
  | implements => "implements"
  | references => "references"
  | dependsOn => "depends_on"
  | configuredBy => "configured_by"
  | tests => "tests"
  | explainedBy => "explained_by"
  | implementedBy => "implemented_by"
  | explains => "explains"
  | verifies => "verifies"
  | changed => "changed"
  | touches => "touches"
  | operatesOn => "operates_on"

def CodeRelation.all : List CodeRelation :=
  [contains, defines, imports, calls, inherits, implements, references, dependsOn, configuredBy,
    tests, explainedBy, implementedBy, explains, verifies, changed, touches, operatesOn]

inductive EdgeConfidence
  | extracted | inferred | ambiguous
  deriving DecidableEq, Repr

def EdgeConfidence.value : EdgeConfidence → String
  | extracted => "EXTRACTED"
  | inferred => "INFERRED"
  | ambiguous => "AMBIGUOUS"

def EdgeConfidence.all : List EdgeConfidence := [extracted, inferred, ambiguous]

structure SourceLocation where
  startLine : ℕ
  startColumn : ℕ
  endLine : ℕ
  endColumn : ℕ
  deriving DecidableEq

structure DetectedFile where
  path : String
  data : ByteArray
  contentSha256 : String
  sizeBytes : ℕ
  mtimeNs : ℕ
  language : String

structure CodeNode where
  nodeId : String
  kind : CodeNodeKind
  label : String
  qualifiedName : String
  path : Option String
  location : Option SourceLocation
  contentFingerprint : String
  extractor : String
  extractorVersion : String
  communityId : Option ℕ
  isGod : Bool
  isBridge : Bool
  metadata : PyDict String String

structure CodeEdge where
  edgeId : String
  source : String
  target : String
  relation : CodeRelation
  confidence : EdgeConfidence
  sourceFile : String
  sourceLocation : Option SourceLocation
  extractor : String
  extractorVersion : String
  contentFingerprint : String
  metadata : PyDict String String

structure PendingEdge where
  source : String
  targetRef : String
  relation : CodeRelation
  confidence : EdgeConfidence
  sourceFile : String
  sourceLocation : Option SourceLocation
  contentFingerprint : String
  metadata : PyDict String String

structure FileExtraction where
  path : String
  contentSha256 : String
  language : String
  nodes : List CodeNode
  edges : List CodeEdge
  pendingEdges : List PendingEdge
  diagnostics : List String

def extractorName : String := "raytsystem_codegraph"
def extractorVersion : String := "1.2.0"

inductive LoadFault
  | pathPolicy | jsonDecode | validation
  | security (message : String)
  | unicodeDecode | typeError | attributeError | valueError
  | keyError (key : String)
  deriving DecidableEq, Repr

def LoadFault.caught : LoadFault → Bool
  | pathPolicy | jsonDecode | validation | security _ => true
  | unicodeDecode | typeError | attributeError | valueError | keyError _ => false

structure ExtractionRules where
  canonical : CanonicalEnv
  /-- `model_validate`; `none` is a `ValidationError`. -/
  validateNode : Value → Option CodeNode
  validateEdge : Value → Option CodeEdge
  validateLocation : Value → Option SourceLocation
  dumpNode : CodeNode → Value
  dumpEdge : CodeEdge → Value
  dumpLocation : SourceLocation → Value
  /-- `_CONTROL.sub("", _).strip()` -/
  stripControl : String → String
  /-- `_SCANNER.scan(_).blocks_processing` -/
  containsSensitiveText : String → Bool
  /-- `str` of a list or of a dictionary. -/
  strOf : Value → String
  /-- What `json.loads` and the canonical check make of a text with floats or without a value: a
  miss or another exception. -/
  unread : ByteArray → LoadFault
  /-- The worker process that runs the parsers, with what `json.loads` reads of its output. -/
  worker : DetectedFile → ℕ → ℕ → Except LoadFault Value

variable (rules : ExtractionRules)

def safeSourceName (limit : ℕ) (value : String) : String :=
  let normalized := rules.stripControl (rules.canonical.nfc value)
  if normalized = "" then "unknown"
  else if rules.containsSensitiveText normalized then "[redacted sensitive value]"
  else String.ofList (normalized.toList.take limit)

def sanitizeMetadata (value : PyDict String String) : Except LoadFault (PyDict String String) :=
  if value.size > 32 then
    .error (.security "Code graph metadata exceeds its field-count limit")
  else
    (value.entries.insertionSort fun a b => a.1 ≤ b.1).foldlM (fun result kv =>
      let key := safeSourceName rules 64 kv.1
      if key = "" then .error (.security "Code graph metadata key is empty")
      else .ok (result.set key (safeSourceName rules 1024 kv.2))) PyDict.empty

def sameMetadata (a b : PyDict String String) : Bool :=
  a.size == b.size && a.keys.all fun k => a.get k == b.get k

def isSanitized (m : PyDict String String) : Except LoadFault Bool := do
  let s ← sanitizeMetadata rules m
  pure (sameMetadata s m)

def locationDict (l : Option SourceLocation) : Value := l.elim .null rules.dumpLocation

def PendingEdge.toDict (e : PendingEdge) : Value := .map [
  ("source", .str e.source), ("target_ref", .str e.targetRef),
  ("relation", .str e.relation.value), ("confidence", .str e.confidence.value),
  ("source_file", .str e.sourceFile), ("source_location", locationDict rules e.sourceLocation),
  ("content_fingerprint", .str e.contentFingerprint),
  ("metadata", .map (e.metadata.entries.map fun kv => (kv.1, .str kv.2)))]

def FileExtraction.toDict (x : FileExtraction) : Value := .map [
  ("path", .str x.path), ("content_sha256", .str x.contentSha256), ("language", .str x.language),
  ("nodes", .list (x.nodes.map rules.dumpNode)), ("edges", .list (x.edges.map rules.dumpEdge)),
  ("pending_edges", .list (x.pendingEdges.map (PendingEdge.toDict rules))),
  ("diagnostics", .list (x.diagnostics.map Value.str)),
  ("extractor", .str extractorName), ("extractor_version", .str extractorVersion)]

def pyStr : Value → String
  | .str s => s
  | .null => "None"
  | .bool b => if b then "True" else "False"
  | .int n => toString n
  | v => rules.strOf v

variable (entries : List (String × Value))

def strField (key : String) : Except LoadFault String :=
  match entries.lookup key with
  | some v => .ok (pyStr rules v)
  | none => .error (.keyError key)

def iterate : Value → Except LoadFault (List Value)
  | .list items => .ok items
  | .str s => .ok (s.toList.map fun c => .str (String.singleton c))
  | .map entries => .ok (entries.map fun kv => .str kv.1)
  | _ => .error .typeError

def itemsOf (key : String) : Except LoadFault (List Value) :=
  match entries.lookup key with
  | some v => iterate v
  | none => .ok []

inductive PyKey
  | none
  | number (n : Int)
  | text (s : String)
  deriving DecidableEq

def keyOf : Value → Except LoadFault PyKey
  | .null => .ok .none
  | .bool b => .ok (.number (if b then 1 else 0))
  | .int n => .ok (.number n)
  | .str s => .ok (.text s)
  | _ => .error .typeError

def pairOf (v : Value) : Except LoadFault (Value × Value) := do
  match ← iterate v with
  | [key, value] => pure (key, value)
  | _ => .error .valueError

def pairsOf : Value → Except LoadFault (List (Value × Value))
  | .map entries => .ok (entries.map fun kv => (.str kv.1, kv.2))
  | v => do (← iterate v).mapM pairOf

def addPair (d : PyDict PyKey (String × String)) (kv : Value × Value) :
    Except LoadFault (PyDict PyKey (String × String)) := do
  let key ← keyOf kv.1
  let written := ((d.get key).map Prod.fst).getD (pyStr rules kv.1)
  pure (d.set key (written, pyStr rules kv.2))

def metadataOf (v : Value) : Except LoadFault (PyDict String String) := do
  let d ← (← pairsOf v).foldlM (addPair rules) PyDict.empty
  pure (d.entries.foldl (fun m kv => m.set kv.2.1 kv.2.2) PyDict.empty)

def locationOf : Except LoadFault (Option SourceLocation) :=
  match (entries.lookup "source_location").getD .null with
  | .null => .ok none
  | v =>
    match rules.validateLocation v with
    | some l => .ok (some l)
    | none => .error .validation

def memberOf {α : Type} (all : List α) (value : α → String) (s : String) : Except LoadFault α :=
  match all.find? fun a => value a == s with
  | some a => .ok a
  | none => .error .valueError

def PendingEdge.fromDict : Value → Except LoadFault PendingEdge
  | .map entries => do
    let source ← strField rules entries "source"
    let targetRef ← strField rules entries "target_ref"
    let relation ← strField rules entries "relation"
    let relation ← memberOf CodeRelation.all CodeRelation.value relation
    let confidence ← strField rules entries "confidence"
    let confidence ← memberOf EdgeConfidence.all EdgeConfidence.value confidence
    let sourceFile ← strField rules entries "source_file"
    let sourceLocation ← locationOf rules entries
    let contentFingerprint ← strField rules entries "content_fingerprint"
    let metadata ← metadataOf rules ((entries.lookup "metadata").getD (.map []))
    let metadata ← sanitizeMetadata rules metadata
    pure ⟨source, targetRef, relation, confidence, sourceFile, sourceLocation,
      contentFingerprint, metadata⟩
  | _ => .error .attributeError

def modelValidate {α : Type} (f : Value → Option α) (v : Value) : Except LoadFault α :=
  match f v with
  | some a => .ok a
  | none => .error .validation

def isText (v : Option Value) (s : String) : Bool :=
  match v with
  | some (.str t) => t == s
  | _ => false

def FileExtraction.fromDict (entries : List (String × Value)) :
    Except LoadFault FileExtraction := do
  if !isText (entries.lookup "extractor") extractorName ||
      !isText (entries.lookup "extractor_version") extractorVersion then
    .error (.security "Code graph cache uses an incompatible extractor")
  else
    let path ← strField rules entries "path"
    let contentSha256 ← strField rules entries "content_sha256"
    let language ← strField rules entries "language"
    let nodes ← (← itemsOf entries "nodes").mapM (modelValidate rules.validateNode)
    let edges ← (← itemsOf entries "edges").mapM (modelValidate rules.validateEdge)
    let pendingEdges ← (← itemsOf entries "pending_edges").mapM (PendingEdge.fromDict rules)
    let diagnostics ← itemsOf entries "diagnostics"
    pure ⟨path, contentSha256, language, nodes, edges, pendingEdges,
      diagnostics.map (pyStr rules)⟩

def ensure (holds : Bool) (message : String) : Except LoadFault Unit :=
  if holds then .ok () else .error (.security message)

def derived (kind : String) (identity : PyValue) : Except LoadFault String :=
  match boundedId rules.canonical kind identity with
  | .ok name => .ok name
  | .error (.valueError _) => .error .valueError
  | .error (.typeError _) => .error .typeError

def orNone (s : Option String) : PyValue := s.elim .none .str

def stableNodeId (kind : CodeNodeKind) (path : Option String) (qualifiedName : String)
    (ordinal : ℕ) : Except LoadFault String :=
  derived rules "cnode" (.mapping [("kind", .str kind.value), ("path", orNone path),
    ("qualified_name", .str qualifiedName), ("ordinal", .int ordinal)])

def locationIdentity : Option SourceLocation → PyValue
  | none => .none
  | some l => .mapping [("start_line", .int l.startLine), ("start_column", .int l.startColumn),
    ("end_line", .int l.endLine), ("end_column", .int l.endColumn)]

def stableEdgeId (e : CodeEdge) : Except LoadFault String :=
  derived rules "cedge" (.mapping [("source", .str e.source), ("target", .str e.target),
    ("relation", .str e.relation.value), ("source_file", .str e.sourceFile),
    ("source_location", locationIdentity e.sourceLocation)])

def sortedUnique (ids : List String) : Bool := ids.insertionSort (· ≤ ·) == ids && ids.dedup == ids

def nodeKey (n : CodeNode) : CodeNodeKind × Option String × String :=
  (n.kind, n.path, n.qualifiedName)

def expectedNodeIds (nodes : List CodeNode) : Except LoadFault (List String) := do
  let keys := nodes.map nodeKey
  let groups ← keys.dedup.mapM fun key =>
    (List.range (keys.count key)).mapM fun k =>
      stableNodeId rules key.1 key.2.1 key.2.2 (k + 1)
  pure groups.flatten

def sameMembers (xs ys : List String) : Bool := xs.all (ys.contains ·) && ys.all (xs.contains ·)

def lineCount (data : ByteArray) : ℕ := max 1 (data.toList.count 0x0a + 1)

def within (l : Option SourceLocation) (lines : ℕ) : Bool := l.elim true fun l => l.endLine ≤ lines

variable (file : DetectedFile)

def validateNode (n : CodeNode) : Except LoadFault Unit := do
  ensure (n.path == some file.path && n.extractor == extractorName)
    "Code graph extraction node provenance is invalid"
  ensure (n.extractorVersion == extractorVersion) "Code graph extraction node version is invalid"
  ensure (!rules.containsSensitiveText n.label && !rules.containsSensitiveText n.qualifiedName)
    "Code graph extraction contains sensitive node text"
  ensure (← isSanitized rules n.metadata) "Code graph extraction metadata is not sanitized"
  ensure (within n.location (lineCount file.data))
    "Code graph extraction location exceeds the source"

def validateEdge (known : List String) (e : CodeEdge) : Except LoadFault Unit := do
  ensure (known.contains e.source && known.contains e.target)
    "Per-file code graph extraction is not closed"
  ensure (e.sourceFile == file.path && e.extractor == extractorName)
    "Code graph extraction edge provenance is invalid"
  ensure (e.extractorVersion == extractorVersion) "Code graph extraction edge version is invalid"
  ensure (← isSanitized rules e.metadata) "Code graph edge metadata is not sanitized"
  ensure (e.edgeId == (← stableEdgeId rules e)) "Code graph extraction contains a forged edge ID"
  ensure (within e.sourceLocation (lineCount file.data))
    "Code graph edge location exceeds the source"

def validatePending (known : List String) (e : PendingEdge) : Except LoadFault Unit := do
  ensure (known.contains e.source && e.sourceFile == file.path && 1 ≤ e.targetRef.length &&
    e.targetRef.length ≤ 2048) "Code graph pending edge provenance is invalid"
  ensure (within e.sourceLocation (lineCount file.data))
    "Code graph pending edge location exceeds the source"
  -- `or` scans the target before the metadata, which may itself raise.
  ensure (!rules.containsSensitiveText e.targetRef)
    "Code graph pending edge text is not sanitized"
  ensure (← isSanitized rules e.metadata) "Code graph pending edge text is not sanitized"

def validateFileExtraction (x : FileExtraction) (file : DetectedFile) (maxNodes maxEdges : ℕ) :
    Except LoadFault Unit := do
  ensure (x.path == file.path && x.contentSha256 == file.contentSha256 &&
    x.language == file.language) "Code graph extraction does not match its input"
  ensure (x.nodes.length ≤ maxNodes && x.edges.length + x.pendingEdges.length ≤ maxEdges)
    "Per-file code graph extraction exceeds its limits"
  let nodeIds := x.nodes.map CodeNode.nodeId
  ensure (sortedUnique nodeIds) "Code graph extraction node IDs are not sorted and unique"
  ensure (sortedUnique (x.edges.map CodeEdge.edgeId))
    "Code graph extraction edge IDs are not sorted and unique"
  ensure (sameMembers nodeIds (← expectedNodeIds rules x.nodes))
    "Code graph extraction contains a forged node ID"
  x.nodes.forM (validateNode rules file)
  x.edges.forM (validateEdge rules file nodeIds)
  x.pendingEdges.forM (validatePending rules file nodeIds)
  ensure (x.diagnostics.length ≤ 64 && x.diagnostics.all fun d => d.length ≤ 256)
    "Code graph extraction diagnostics exceed their limits"

def LoadFault.malformed : LoadFault → LoadFault
  | security message => .security message
  | attributeError => .attributeError
  | _ => .security "Code graph parser returned malformed output"

def extractFileIsolated (maxNodes maxEdges : ℕ) : Except LoadFault FileExtraction := do
  match ← rules.worker file maxNodes maxEdges with
  | .map entries => do
    let x ← (FileExtraction.fromDict rules entries).mapError LoadFault.malformed
    validateFileExtraction rules x file maxNodes maxEdges
    pure x
  | _ => .error (.security "Code graph parser returned malformed output")

end RaytSystem.CodeGraph
