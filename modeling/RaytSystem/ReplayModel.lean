import RaytSystem.CanonicalIdentity
import RaytSystem.PyText
import RaytSystem.RecordTable
import RaytSystem.StepProgram

/-! The replay service: execution records, recorded results of side effects, staged plans and
the record that a ready plan materializes. -/
namespace RaytSystem.Replay
open Canonical Interleaving RecordTable PyText

section

structure VersionedModel where
  schemaName : String
  schemaVersion : String
  idSchemeVersion : String
  extensions : List (String × PyValue)

inductive ForkField
  | runtimeId | model | instructionHashes | skillHashes | toolsetSha256 | tokenBudget | costBudget
  | graphSnapshotId
  deriving DecidableEq, Repr

def ForkField.key : ForkField → String
  | runtimeId => "runtime_id"
  | model => "model"
  | instructionHashes => "instruction_hashes"
  | skillHashes => "skill_hashes"
  | toolsetSha256 => "toolset_sha256"
  | tokenBudget => "token_budget"
  | costBudget => "cost_budget"
  | graphSnapshotId => "graph_snapshot_id"

def ForkField.all : List ForkField :=
  [runtimeId, model, instructionHashes, skillHashes, toolsetSha256, tokenBudget, costBudget,
    graphSnapshotId]

def ForkField.ofKey (key : String) : Option ForkField := ForkField.all.find? fun f => f.key == key

/-- An execution record, or the payload that one is validated from. Its fork fields hold the
values that a caller of `plan_fork` may have chosen. -/
structure ExecutionRecord extends VersionedModel where
  executionRecordId : String
  runId : String
  taskId : Option String
  taskRevision : Option Int
  repositorySnapshotSha256 : String
  knowledgeGenerationId : Option String
  policySha256 : String
  runtimeConfigurationSha256 : String
  fork : ForkField → PyValue
  sideEffectIds : List String
  approvalIds : List String
  traceId : Option String
  resultSha256 : Option String
  manifestPath : Option String
  createdAt : Int

structure RecordedSideEffectResult extends VersionedModel where
  recordedResultId : String
  originalRunId : String
  sideEffectId : String
  invocationSha256 : String
  resultSha256 : String
  recordedAt : Int

inductive ReplayMode
  | replay | fork
  deriving DecidableEq, Repr

def ReplayMode.value : ReplayMode → String
  | replay => "replay"
  | fork => "fork"

structure ReplayPlan extends VersionedModel where
  replayPlanId : String
  mode : ReplayMode
  originalRunId : String
  originalExecutionRecordSha256 : String
  newRunId : String
  recordedResultToolIds : List String
  blockedSideEffectToolIds : List String
  requiredApprovalIds : List String
  differences : List (String × PyValue)
  planSha256 : String
  createdAt : Int

structure ReplayRules where
  enabled : Bool
  canonical : CanonicalEnv
  validateField : ForkField → PyValue → Option PyValue
  dumpRecord : ExecutionRecord → PyValue
  dumpResult : RecordedSideEffectResult → PyValue
  dumpPlan : ReplayPlan → PyValue
  reread : PyValue → PyValue

variable (rules : ReplayRules)

def sha256 (v : PyValue) : Except String String :=
  ((boundedJsonBytes rules.canonical v).mapError faultText).map rules.canonical.sha256Hex

def derive (kind : String) (identity : PyValue) : Except String String :=
  (boundedId rules.canonical kind identity).mapError faultText
end

section

def text (ok : String → Bool) (s : String) : Option String :=
  if ok (trim s) then some (trim s) else none

def identifier : String → Option String := text isIdentifier

def sha256Text : String → Option String := text isSha256

def optional {α : Type} (f : α → Option α) : Option α → Option (Option α)
  | none => some none
  | some a => (f a).map some

def positive (n : Int) : Option Int := if 1 ≤ n then some n else none

def currentMajor (s : String) : Bool := s.toList.takeWhile (· != '.') == ['1']

def textKeys (entries : List (String × PyValue)) : List (String × PyValue) :=
  entries.foldl (fun d kv => PyDict.setEntries (trim kv.1) kv.2 d) []

def manifest (s : String) : Option String := (relativePath (trim s)).toOption

def validateVersioned (name : String) (v : VersionedModel) : Option VersionedModel :=
  if v.schemaName = name ∧ currentMajor (trim v.schemaVersion) = true then
    some ⟨v.schemaName, trim v.schemaVersion, trim v.idSchemeVersion,
      textKeys v.extensions⟩
  else none

def identifiers : List String → Option (List String)
  | [] => some []
  | s :: rest => do
    let s ← identifier s
    let rest ← identifiers rest
    some (s :: rest)

variable (rules : ReplayRules)

def validateFork (fork : ForkField → PyValue) : Option (ForkField → PyValue) :=
  if ForkField.all.all fun f => (rules.validateField f (fork f)).isSome then
    some fun f => (rules.validateField f (fork f)).getD .none
  else none

def validateRecord (r : ExecutionRecord) : Option ExecutionRecord := do
  let versioned ← validateVersioned "ExecutionRecordV1" r.toVersionedModel
  let executionRecordId ← identifier r.executionRecordId
  let runId ← identifier r.runId
  let taskId ← optional identifier r.taskId
  let taskRevision ← optional positive r.taskRevision
  let repositorySnapshotSha256 ← sha256Text r.repositorySnapshotSha256
  let knowledgeGenerationId ← optional identifier r.knowledgeGenerationId
  let policySha256 ← sha256Text r.policySha256
  let runtimeConfigurationSha256 ← sha256Text r.runtimeConfigurationSha256
  let fork ← validateFork rules r.fork
  let sideEffectIds ← identifiers r.sideEffectIds
  let approvalIds ← identifiers r.approvalIds
  let traceId ← optional identifier r.traceId
  let resultSha256 ← optional sha256Text r.resultSha256
  let manifestPath ← optional manifest r.manifestPath
  some ⟨versioned, executionRecordId, runId, taskId, taskRevision, repositorySnapshotSha256,
    knowledgeGenerationId, policySha256, runtimeConfigurationSha256, fork, sideEffectIds,
    approvalIds, traceId, resultSha256, manifestPath, r.createdAt⟩

def validateResult (r : RecordedSideEffectResult) : Option RecordedSideEffectResult := do
  let versioned ← validateVersioned "RecordedSideEffectResultV1" r.toVersionedModel
  let recordedResultId ← identifier r.recordedResultId
  let originalRunId ← identifier r.originalRunId
  let sideEffectId ← identifier r.sideEffectId
  let invocationSha256 ← sha256Text r.invocationSha256
  let resultSha256 ← sha256Text r.resultSha256
  some ⟨versioned, recordedResultId, originalRunId, sideEffectId, invocationSha256, resultSha256,
    r.recordedAt⟩

def differenceKeys : List (String × PyValue) → List (String × PyValue) →
    Option (List (String × PyValue))
  | [], read => some read
  | (key, difference) :: rest, read => do
    let key ← identifier key
    differenceKeys rest (PyDict.setEntries key difference read)

def validatePlanFields (p : ReplayPlan) : Option ReplayPlan := do
  let versioned ← validateVersioned "ReplayPlanV1" p.toVersionedModel
  let replayPlanId ← identifier p.replayPlanId
  let originalRunId ← identifier p.originalRunId
  let originalExecutionRecordSha256 ← sha256Text p.originalExecutionRecordSha256
  let newRunId ← identifier p.newRunId
  let recordedResultToolIds ← identifiers p.recordedResultToolIds
  let blockedSideEffectToolIds ← identifiers p.blockedSideEffectToolIds
  let requiredApprovalIds ← identifiers p.requiredApprovalIds
  let differences ← differenceKeys p.differences []
  let planSha256 ← sha256Text p.planSha256
  some ⟨versioned, replayPlanId, p.mode, originalRunId, originalExecutionRecordSha256, newRunId,
    recordedResultToolIds, blockedSideEffectToolIds, requiredApprovalIds, differences, planSha256,
    p.createdAt⟩
end

section

def VersionedModel.fields (v : VersionedModel) : List (String × PyValue) :=
  [("schema_name", .str v.schemaName), ("schema_version", .str v.schemaVersion),
    ("id_scheme_version", .str v.idSchemeVersion), ("extensions", .mapping v.extensions)]

def optionalText : Option String → PyValue
  | none => .none
  | some s => .str s

def ExecutionRecord.identityPayload (r : ExecutionRecord) : PyValue :=
  .mapping (r.toVersionedModel.fields ++ ForkField.all.map (fun f => (f.key, r.fork f)) ++
    [("run_id", .str r.runId), ("task_id", optionalText r.taskId),
      ("task_revision", r.taskRevision.elim .none .int),
      ("repository_snapshot_sha256", .str r.repositorySnapshotSha256),
      ("knowledge_generation_id", optionalText r.knowledgeGenerationId),
      ("policy_sha256", .str r.policySha256),
      ("runtime_configuration_sha256", .str r.runtimeConfigurationSha256),
      ("side_effect_ids", texts r.sideEffectIds), ("approval_ids", texts r.approvalIds),
      ("trace_id", optionalText r.traceId), ("result_sha256", optionalText r.resultSha256),
      ("manifest_path", optionalText r.manifestPath), ("created_at", .datetime true r.createdAt)])

def RecordedSideEffectResult.identityPayload (r : RecordedSideEffectResult) : PyValue :=
  .mapping (r.toVersionedModel.fields ++
    [("original_run_id", .str r.originalRunId), ("side_effect_id", .str r.sideEffectId),
      ("invocation_sha256", .str r.invocationSha256), ("result_sha256", .str r.resultSha256),
      ("recorded_at", .datetime true r.recordedAt)])

def ReplayPlan.material (p : ReplayPlan) : PyValue :=
  .mapping (p.toVersionedModel.fields ++
    [("mode", .enum p.mode.value), ("original_run_id", .str p.originalRunId),
      ("original_execution_record_sha256", .str p.originalExecutionRecordSha256),
      ("new_run_id", .str p.newRunId),
      ("recorded_result_tool_ids", texts p.recordedResultToolIds),
      ("blocked_side_effect_tool_ids", texts p.blockedSideEffectToolIds),
      ("required_approval_ids", texts p.requiredApprovalIds),
      ("differences", .mapping p.differences), ("created_at", .datetime true p.createdAt)])

def ReplayPlan.identity (p : ReplayPlan) : PyValue :=
  .mapping [("original_run_id", .str p.originalRunId), ("new_run_id", .str p.newRunId),
    ("mode", .str p.mode.value), ("plan_sha256", .str p.planSha256)]

variable (rules : ReplayRules)

def verifyRecord (r : ExecutionRecord) : Except String Bool :=
  (derive rules "xrec" r.identityPayload).map (r.executionRecordId == ·)

def verifyResult (r : RecordedSideEffectResult) : Except String Bool :=
  (derive rules "rside" r.identityPayload).map (r.recordedResultId == ·)

def planCorrupted : String := "Replay plan is forged or corrupted"

def replayInvariants (p : ReplayPlan) : Except String Unit := do
  if p.originalRunId = p.newRunId then .error planCorrupted
  else if p.mode = .replay ∧ p.differences.isEmpty = false then .error planCorrupted
  else do
    let calculated ← sha256 rules p.material
    if calculated = p.planSha256 then .ok () else .error planCorrupted

def validatedPlan (p : ReplayPlan) : Except String ReplayPlan :=
  match validatePlanFields p with
  | none => .error planCorrupted
  | some p => do
    replayInvariants rules p
    let expected ← derive rules "rplan" p.identity
    if p.replayPlanId = expected then .ok p else .error "Replay plan identity is invalid"

def freshApprovals (runId newRunId : String) : ℕ → List String → Except String (List String)
  | _, [] => .ok []
  | index, _ :: rest => do
    let id ← derive rules "aprq" (.mapping [("original_run_id", .str runId),
      ("new_run_id", .str newRunId), ("sequence", .int index)])
    let ids ← freshApprovals runId newRunId (index + 1) rest
    pure (id :: ids)
end
end RaytSystem.Replay
