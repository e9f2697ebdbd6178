import RaytSystem.CanonicalIdentity
import RaytSystem.PyText

/-! Deterministic evaluation: the assertions of a case, judged on an observation and on the files
of the workspace. -/
namespace RaytSystem.Evals
open Canonical PyText

section

inductive AssertionType
  | exactMatch | contains | regex | jsonSchema | fileExists | fileHash | artifactType | testResult
  | commandExitStatus | citationExists | sourceLocationExists | taskTransition
  | approvalCompliance | forbiddenActionAbsent | budgetNotExceeded | noSecretLeak
  | noProtectedPathModification
  deriving DecidableEq, Repr

abbrev PyDecimal := Int × Int

def decimalLe (a b : PyDecimal) : Bool :=
  let low := min a.2 b.2
  a.1 * 10 ^ (a.2 - low).toNat ≤ b.1 * 10 ^ (b.2 - low).toNat

structure EvalAssertion where
  assertionId : String
  assertionType : AssertionType
  target : String
  expected : PyValue
  configuration : List (String × PyValue)

structure EvalCase where
  caseId : String
  tokenBudget : Option Int
  costBudget : Option PyDecimal
  assertions : List EvalAssertion

structure EvalSuite where
  suiteId : String
  targetIds : List String
  caseIds : List String
  manifestSha256 : String
  enabled : Bool

structure EvalObservation where
  text : String
  jsonValue : PyValue
  artifactTypes : PyDict String String
  testResults : PyDict String Bool
  commandExitStatuses : PyDict String Int
  citationIds : List String
  sourceLocationIds : List String
  taskTransitions : PyDict String String
  approvalCompliance : PyDict String Bool
  actions : List String
  tokensUsed : Int
  cost : PyDecimal
  changedPaths : List String
  secretScanPayloads : List String
  resultSha256 : Option String

structure EvalScore where
  scoreId : String
  name : String
  value : PyDecimal
  maximum : PyDecimal
  deterministic : Bool

structure EvalResult where
  resultId : String
  evalRunId : String
  caseId : String
  passed : Bool
  assertionResults : PyDict String Bool
  scores : List EvalScore
  failedAssertionIds : List String
  durationMs : ℕ
  cost : PyDecimal
  createdAt : Int

structure EvalRules where
  enabled : Bool
  canonical : CanonicalEnv
  pyStr : PyValue → String
  pyInt : PyValue → Option Int
  pyBool : PyValue → Bool
  pyEq : PyValue → PyValue → Bool
  casefold : String → String
  /-- `re.search`, unless the pattern is malformed. -/
  search : String → String → Option Bool
  blocksProcessing : ByteArray → Bool
  /-- The quotient of two numbers as decimals. -/
  quotient : ℕ → ℕ → PyDecimal
  dumpScore : EvalScore → PyValue
  dumpResult : EvalResult → PyValue

variable (rules : EvalRules)

def canonicalBytes (v : PyValue) : Except String ByteArray :=
  (boundedJsonBytes rules.canonical v).mapError faultText

def sha256 (v : PyValue) : Except String String :=
  (canonicalBytes rules v).map rules.canonical.sha256Hex

def derive (kind : String) (identity : PyValue) : Except String String :=
  (boundedId rules.canonical kind identity).mapError faultText

def textSha256 (s : String) : String := rules.canonical.sha256Hex s.toUTF8

def table {α : Type} (f : α → PyValue) (d : PyDict String α) : PyValue :=
  .mapping (d.entries.map fun kv => (kv.1, f kv.2))
end

section
variable (rules : EvalRules)

abbrev SchemaCheck := PyValue → Except String Bool

def isType (name : String) (value : PyValue) : Bool :=
  match name, value with
  | "object", .mapping _ => true
  | "array", .sequence _ => true
  | "string", .str _ => true
  | "string", .enum _ => true
  | "integer", .int _ => true
  | "number", .int _ => true
  | "number", .float _ => true
  | "number", .bool _ => true
  | "boolean", .bool _ => true
  | "null", .none => true
  | _, _ => false

def typeHolds (value : PyValue) : Option PyValue → Except String Bool
  | none => .ok true
  | some .none => .ok true
  | some (.str name) => .ok (isType name value)
  | some (.enum name) => .ok (isType name value)
  | some (.mapping _) => .error "unhashable type"
  | some (.sequence _) => .error "unhashable type"
  | some (.set _) => .error "unhashable type"
  | some _ => .ok false

def enumHolds (value : PyValue) : Option PyValue → Bool
  | none => true
  | some (.sequence items) => items.any (rules.pyEq value)
  | some _ => false

def supportedKeywords : List String :=
  ["type", "required", "properties", "items", "enum", "const"]

def requiredKeys : Option PyValue → Except String (List String)
  | none => .ok []
  | some (.sequence items) =>
    items.mapM fun item => match item with
      | .str s => .ok s
      | .enum s => .ok s
      | _ => .error "JSON Schema required must be a string list"
  | some _ => .error "JSON Schema required must be a string list"

def propertiesHold (members : List (String × SchemaCheck)) :
    List (String × PyValue) → Except String Bool
  | [] => .ok true
  | (key, child) :: rest =>
    match members.lookup key with
    | none => propertiesHold members rest
    | some check => do
      let holds ← check child
      if holds then propertiesHold members rest else pure false

def itemsHold (schema : PyValue) : List SchemaCheck → Except String Bool
  | [] => .ok true
  | check :: rest => do
    let holds ← check schema
    if holds then itemsHold schema rest else pure false

def membersHold (members : List (String × SchemaCheck)) (keywords : List (String × PyValue)) :
    Except String Bool := do
  let required ← requiredKeys (keywords.lookup "required")
  if required.any (fun key => (members.lookup key).isNone) then pure false
  else match keywords.lookup "properties" with
    | none => pure true
    | some (.mapping properties) => propertiesHold members properties
    | some _ => .error "JSON Schema properties must be an object"

def childrenHold (value : PyValue) (members : List (String × SchemaCheck))
    (items : List SchemaCheck) (keywords : List (String × PyValue)) : Except String Bool :=
  match value, keywords.lookup "items" with
  | .mapping _, _ => membersHold members keywords
  | .sequence _, some schema => itemsHold schema items
  | _, _ => .ok true

def checkSchema (value schema : PyValue) (members : List (String × SchemaCheck))
    (items : List SchemaCheck) : Except String Bool :=
  match schema with
  | .mapping keywords => do
    let bytes ← canonicalBytes rules schema
    if 16384 < bytes.size then .error "JSON Schema assertion must be a bounded object"
    else if keywords.any (fun kv => !supportedKeywords.contains kv.1) then
      .error "JSON Schema assertion uses an unsupported keyword"
    else do
      let typed ← typeHolds value (keywords.lookup "type")
      if typed && (keywords.lookup "const").elim true (rules.pyEq value) &&
          enumHolds rules value (keywords.lookup "enum") then
        childrenHold value members items keywords
      else pure false
  | _ => .error "JSON Schema assertion must be a bounded object"

mutual
def schemaHolds : PyValue → SchemaCheck
  | .mapping entries => fun schema =>
    checkSchema rules (.mapping entries) schema (schemaMembers entries) []
  | .sequence items => fun schema =>
    checkSchema rules (.sequence items) schema [] (schemaItems items)
  | value => fun schema => checkSchema rules value schema [] []
def schemaMembers : List (String × PyValue) → List (String × SchemaCheck)
  | [] => []
  | (key, value) :: rest => (key, schemaHolds value) :: schemaMembers rest
def schemaItems : List PyValue → List SchemaCheck
  | [] => []
  | value :: rest => schemaHolds value :: schemaItems rest
end
end

section
variable (rules : EvalRules)

def forbiddenKeys : List String :=
  ["javascript", "python", "script", "command", "exec", "shell", "provider", "remote"]

def folded (s : String) : String := rules.casefold (String.ofList (s.toList.filter (· != '_')))

def isForbidden (s : String) : Bool := (forbiddenKeys.map (folded rules)).contains (folded rules s)

def forbiddenEntry (key : String) (item : PyValue) : Bool :=
  isForbidden rules key ||
    (["type", "provider", "method"].contains (folded rules key) &&
      match item with
      | .str s => isForbidden rules (String.ofList (s.toList.takeWhile (· != ':')))
      | .enum s => isForbidden rules (String.ofList (s.toList.takeWhile (· != ':')))
      | _ => false)

mutual
def forbiddenValue : PyValue → Bool
  | .mapping entries => forbiddenEntries entries
  | .sequence items => forbiddenItems items
  | _ => false
def forbiddenEntries : List (String × PyValue) → Bool
  | [] => false
  | (key, item) :: rest =>
    forbiddenEntry rules key item || forbiddenValue item || forbiddenEntries rest
def forbiddenItems : List PyValue → Bool
  | [] => false
  | item :: rest => forbiddenValue item || forbiddenItems rest
end

def validateAssertion (a : EvalAssertion) : Except String Unit :=
  if forbiddenValue rules (.mapping a.configuration) then
    .error "Eval assertion attempts to execute code or use a provider"
  else .ok ()
end

section
variable (rules : EvalRules)

abbrev Files := String → Option ByteArray

def isIn (needle text : String) : Bool :=
  text.toList.tails.any fun rest => needle.toList.isPrefixOf rest

def unsafePattern : String := "\\([^)]*[+*][^)]*\\)[+*\x7b]"

def unsafeRegex (pattern : String) : Bool :=
  rules.search unsafePattern pattern == some true || isIn "(?" pattern

def regexHolds (pattern text : String) : Except String Bool :=
  if 512 < pattern.length || unsafeRegex rules pattern then
    .error "Unsafe or oversized regex assertion"
  else match rules.search pattern text with
    | none => .error "malformed regex"
    | some found => .ok found

variable (o : EvalObservation)

def secretMaterial : PyValue :=
  .mapping [("text", .str o.text), ("json_value", o.jsonValue),
    ("artifact_types", table .str o.artifactTypes), ("test_results", table .bool o.testResults),
    ("command_exit_statuses", table .int o.commandExitStatuses),
    ("task_transitions", table .str o.taskTransitions),
    ("approval_compliance", table .bool o.approvalCompliance),
    ("secret_scan_payloads", texts o.secretScanPayloads)]

def noSecretLeak : Except String Bool :=
  match canonicalBytes rules (secretMaterial o) with
  | .error _ => .error "Eval observation is not canonical"
  | .ok rendered => .ok !rules.blocksProcessing rendered

def protectedPrefixes : List String :=
  ["_raw/", "ledger/objects/", "ledger/generations/", "knowledge/claims/", "knowledge/entities/",
    "knowledge/sources/"]

def isProtected (path : String) : Bool :=
  protectedPrefixes.any fun pre =>
    path.toList == pre.toList.dropLast || startsWith path pre

def pathsUnprotected : List String → Except String Bool
  | [] => .ok true
  | path :: rest =>
    match relativePath path with
    | .error (.valueError _) => .ok false
    | .error .indexError => .error "tuple index out of range"
    | .ok normalized => if isProtected normalized then .ok false else pathsUnprotected rest

def withinBudget (c : EvalCase) (o : EvalObservation) : Bool :=
  c.tokenBudget.elim true (o.tokensUsed ≤ ·) && c.costBudget.elim true (decimalLe o.cost)

def evaluate (a : EvalAssertion) (c : EvalCase) (o : EvalObservation) (files : Files) :
    Except String Bool :=
  match a.assertionType with
  | .exactMatch => .ok (o.text == rules.pyStr a.expected)
  | .contains => .ok (isIn (rules.pyStr a.expected) o.text)
  | .regex => regexHolds rules (rules.pyStr a.expected) o.text
  | .jsonSchema => schemaHolds rules o.jsonValue a.expected
  | .fileExists => .ok (files a.target).isSome
  | .fileHash =>
    .ok ((files a.target).elim false fun data =>
      rules.canonical.sha256Hex data == rules.pyStr a.expected)
  | .artifactType => .ok (o.artifactTypes.get a.target == some (rules.pyStr a.expected))
  | .testResult => .ok (o.testResults.get a.target == some (rules.pyBool a.expected))
  | .commandExitStatus =>
    match rules.pyInt a.expected with
    | none => .error "invalid literal for int()"
    | some n => .ok (o.commandExitStatuses.get a.target == some n)
  | .citationExists => .ok (o.citationIds.contains a.target)
  | .sourceLocationExists => .ok (o.sourceLocationIds.contains a.target)
  | .taskTransition => .ok (o.taskTransitions.get a.target == some (rules.pyStr a.expected))
  | .approvalCompliance => .ok (o.approvalCompliance.get a.target == some true)
  | .forbiddenActionAbsent => .ok !o.actions.contains a.target
  | .budgetNotExceeded => .ok (withinBudget c o)
  | .noSecretLeak => noSecretLeak rules o
  | .noProtectedPathModification => pathsUnprotected o.changedPaths

def verdictsFrom (c : EvalCase) (o : EvalObservation) (files : Files) :
    List EvalAssertion → PyDict String Bool → Except String (PyDict String Bool)
  | [], verdicts => .ok verdicts
  | a :: rest, verdicts => do
    validateAssertion rules a
    let holds ← evaluate rules a c o files
    verdictsFrom c o files rest (verdicts.set a.assertionId holds)

def verdicts (c : EvalCase) (o : EvalObservation) (files : Files) :
    Except String (PyDict String Bool) := verdictsFrom rules c o files c.assertions PyDict.empty

def allPassed (verdicts : PyDict String Bool) : Bool := verdicts.entries.all (·.2)

def observationIdentity : Except String PyValue := do
  let json ← sha256 rules o.jsonValue
  pure (.mapping [("text_sha256", .str (textSha256 rules o.text)), ("json_sha256", .str json),
    ("artifact_types", table .str o.artifactTypes), ("test_results", table .bool o.testResults),
    ("command_exit_statuses", table .int o.commandExitStatuses),
    ("citation_ids", texts (sorted o.citationIds)),
    ("source_location_ids", texts (sorted o.sourceLocationIds)),
    ("task_transitions", table .str o.taskTransitions),
    ("approval_compliance", table .bool o.approvalCompliance),
    ("actions", texts (sorted o.actions)), ("tokens_used", .int o.tokensUsed),
    ("cost", .decimal o.cost.1 o.cost.2), ("changed_paths", texts o.changedPaths),
    ("secret_payload_hashes", texts (o.secretScanPayloads.map (textSha256 rules))),
    ("result_sha256", o.resultSha256.elim .none .str)])

def evalRunId (suite : EvalSuite) (c : EvalCase) (o : EvalObservation) (targetId : String) :
    Except String String := do
  let identity ← observationIdentity rules o
  let observation ← sha256 rules identity
  derive rules "erun" (.mapping [("suite_id", .str suite.suiteId), ("case_id", .str c.caseId),
    ("target_id", .str targetId), ("observation_sha256", .str observation)])
end
end RaytSystem.Evals
