import RaytSystem.ReplayModel

/-! The calls of the replay service on its store. Every read and every append is one access;
other calls, or the loss of the process, may come between two of them. -/
namespace RaytSystem.Replay
open Canonical Interleaving RecordTable

section

structure Row (ρ : Type) where
  state : String
  payload : ρ
  payloadSha256 : String

structure AuditEvent where
  streamId : String
  aggregateId : String
  eventType : String
  actorId : String
  payload : List (String × String)

structure ReplayWorld where
  /-- Whether the store has been created. -/
  created : Bool
  executions : Table String (Row ExecutionRecord)
  results : Table String (Row RecordedSideEffectResult)
  plans : Table String (Row ReplayPlan)
  events : List AuditEvent

abbrev ReplayProg := Prog ReplayWorld Unit String

variable (rules : ReplayRules)

def VersionedModel.stored (v : VersionedModel) : VersionedModel :=
  let nfc := rules.canonical.nfc
  ⟨nfc v.schemaName, nfc v.schemaVersion, nfc v.idSchemeVersion,
    v.extensions.map fun kv => (kv.1, rules.reread kv.2)⟩

def ExecutionRecord.stored (r : ExecutionRecord) : ExecutionRecord :=
  let nfc := rules.canonical.nfc
  ⟨r.toVersionedModel.stored rules, nfc r.executionRecordId, nfc r.runId, r.taskId.map nfc,
    r.taskRevision, nfc r.repositorySnapshotSha256, r.knowledgeGenerationId.map nfc,
    nfc r.policySha256, nfc r.runtimeConfigurationSha256, fun f => rules.reread (r.fork f),
    r.sideEffectIds.map nfc, r.approvalIds.map nfc, r.traceId.map nfc, r.resultSha256.map nfc,
    r.manifestPath.map nfc, r.createdAt⟩

def RecordedSideEffectResult.stored (r : RecordedSideEffectResult) : RecordedSideEffectResult :=
  let nfc := rules.canonical.nfc
  ⟨r.toVersionedModel.stored rules, nfc r.recordedResultId, nfc r.originalRunId,
    nfc r.sideEffectId, nfc r.invocationSha256, nfc r.resultSha256, r.recordedAt⟩

def ReplayPlan.stored (p : ReplayPlan) : ReplayPlan :=
  let nfc := rules.canonical.nfc
  ⟨p.toVersionedModel.stored rules, nfc p.replayPlanId, p.mode, nfc p.originalRunId,
    nfc p.originalExecutionRecordSha256, nfc p.newRunId, p.recordedResultToolIds.map nfc,
    p.blockedSideEffectToolIds.map nfc, p.requiredApprovalIds.map nfc,
    p.differences.map fun kv => (kv.1, rules.reread kv.2), nfc p.planSha256, p.createdAt⟩
end

def isToken (s : String) : Bool :=
  1 ≤ s.length && s.length ≤ 256 && !s.toList.any PyText.isSpace

def readHead {ρ : Type} (table : ReplayWorld → Table String (Row ρ)) (id : String) :
    ReplayProg (Option (Row ρ)) := do
  Prog.require (isToken id = true) "Invalid record ID"
  Prog.get () fun w => (head (table w) id).map Stored.value

def openReadOnly (unavailable : String) : ReplayProg Unit := do
  let created ← Prog.get () ReplayWorld.created
  Prog.require (created = true) unavailable

def openStore : ReplayProg Unit := Prog.set () fun w => {w with created := true}

def appendEvent (e : AuditEvent) : ReplayProg Unit :=
  Prog.set () fun w => {w with events := w.events ++ [e]}

def revisionChanged : String := "Record revision changed"

def storeExecution (id : String) (row : Row ExecutionRecord) (w : ReplayWorld) :
    Except String (Unit × ReplayWorld) :=
  match append w.executions id none row with
  | some executions => .ok ((), {w with executions := executions})
  | none => .error revisionChanged

def storeResult (id : String) (row : Row RecordedSideEffectResult) (w : ReplayWorld) :
    Except String (Unit × ReplayWorld) :=
  match append w.results id none row with
  | some results => .ok ((), {w with results := results})
  | none => .error revisionChanged

def storePlan (id : String) (row : Row ReplayPlan) (w : ReplayWorld) :
    Except String (Unit × ReplayWorld) :=
  match append w.plans id none row with
  | some plans => .ok ((), {w with plans := plans})
  | none => .error revisionChanged

section
variable (rules : ReplayRules)

def requireEnabled : ReplayProg Unit := Prog.require (rules.enabled = true) "Replay is disabled"

def recordExecution (record : ExecutionRecord) : ReplayProg ExecutionRecord := do
  requireEnabled rules
  let bound ← Prog.ofExcept (verifyRecord rules record)
  Prog.require (bound = true) "Execution record ID is not hash-bound"
  openStore
  let existing ← readHead ReplayWorld.executions record.runId
  let renderedHash ← Prog.ofExcept (sha256 rules (rules.dumpRecord record))
  match existing with
  | some row => do
    Prog.require (row.payloadSha256 = renderedHash) "Execution record for this run is immutable"
    pure record
  | none => do
    Prog.attempt () (storeExecution record.runId ⟨"recorded", record.stored rules, renderedHash⟩)
    appendEvent ⟨record.runId, record.runId, "execution_recorded", "raytsystem_kernel",
      [("run_id", record.runId), ("execution_record_id", record.executionRecordId),
        ("trace_id", record.traceId.getD "")]⟩
    pure record

def loadExecution (runId : String) : ReplayProg (ExecutionRecord × String) := do
  openReadOnly "Execution record store is unavailable"
  let stored ← readHead ReplayWorld.executions runId
  let row ← Prog.ofOption stored "Execution record does not exist"
  let execution ← Prog.ofOption (validateRecord rules row.payload) "Execution record is invalid"
  let bound ← Prog.ofExcept (verifyRecord rules execution)
  Prog.require (bound = true) "Execution record was forged or corrupted"
  pure (execution, row.payloadSha256)

def resultKey (runId sideEffectId : String) : String := runId ++ ":" ++ sideEffectId

def recordSideEffectResult (result : RecordedSideEffectResult) :
    ReplayProg RecordedSideEffectResult := do
  requireEnabled rules
  let bound ← Prog.ofExcept (verifyResult rules result)
  Prog.require (bound = true) "Recorded side-effect result ID is not hash-bound"
  let original ← loadExecution rules result.originalRunId
  Prog.require (result.sideEffectId ∈ original.1.sideEffectIds)
    "Recorded result is not an original side effect"
  let renderedHash ← Prog.ofExcept (sha256 rules (rules.dumpResult result))
  openStore
  let existing ← readHead ReplayWorld.results (resultKey result.originalRunId result.sideEffectId)
  match existing with
  | some row => do
    Prog.require (row.payloadSha256 = renderedHash) "Recorded side-effect result is immutable"
    pure result
  | none => do
    Prog.attempt () (storeResult (resultKey result.originalRunId result.sideEffectId)
      ⟨"recorded", result.stored rules, renderedHash⟩)
    appendEvent ⟨result.originalRunId, result.recordedResultId, "side_effect_result_recorded",
      "raytsystem_replay", [("side_effect_id", result.sideEffectId),
        ("recorded_result_id", result.recordedResultId), ("result_sha256", result.resultSha256)]⟩
    pure result
end

section
variable (rules : ReplayRules)

def loadResult (runId sideEffectId : String) : ReplayProg RecordedSideEffectResult := do
  let stored ← readHead ReplayWorld.results (resultKey runId sideEffectId)
  let row ← Prog.ofOption stored "Recorded side-effect evidence is missing"
  let result ← Prog.ofOption (validateResult row.payload)
    "Recorded side-effect evidence is invalid"
  let bound ← Prog.ofExcept (verifyResult rules result)
  Prog.require (bound = true ∧ result.originalRunId = runId ∧ result.sideEffectId = sideEffectId)
    "Recorded side-effect evidence was forged"
  pure result

def verifyEach (runId : String) : List String → PyDict String String →
    ReplayProg (PyDict String String)
  | [], hashes => pure hashes
  | sideEffectId :: rest, hashes => do
    let result ← loadResult rules runId sideEffectId
    verifyEach runId rest (hashes.set sideEffectId result.resultSha256)

def verifyRecordedResults (runId : String) (sideEffectIds : List String) :
    ReplayProg (PyDict String String) :=
  if sideEffectIds = [] then pure PyDict.empty
  else do
    openReadOnly "Recorded side-effect result store is unavailable"
    verifyEach rules runId sideEffectIds PyDict.empty

def recordedBindingKey : String := "recorded_result_sha256_by_side_effect"

def isText : PyValue → String → Bool
  | .str s, t => s == t
  | .enum s, t => s == t
  | _, _ => false

def bindsResults (hashes : PyDict String String) : List (String × PyValue) → Bool
  | [] => hashes.entries.isEmpty
  | [(key, .mapping entries)] =>
    !hashes.entries.isEmpty && key == recordedBindingKey && entries.length == hashes.size &&
      hashes.entries.all fun kv => (entries.lookup kv.1).elim false (isText · kv.2)
  | _ => false

def blockedEffects (original : ExecutionRecord) (recorded : List String) : List String :=
  PyText.sortedSet (original.sideEffectIds.filter (· ∉ recorded))

def assertPlanAuthority (plan : ReplayPlan) (original : ExecutionRecord) : ReplayProg Unit := do
  let recorded := PyText.sorted plan.recordedResultToolIds
  let hashes ← verifyRecordedResults rules original.runId recorded
  let approvals ← Prog.ofExcept
    (freshApprovals rules original.runId plan.newRunId 0 original.approvalIds)
  Prog.require (plan.blockedSideEffectToolIds = blockedEffects original recorded ∧
      plan.requiredApprovalIds = approvals ∧ bindsResults hashes plan.extensions = true)
    "Replay plan attempts to bypass side effects or fresh approvals"
end

section
variable (rules : ReplayRules)

structure StagedReplay where
  replayPlanId : String
  state : String
  newRunId : String
  originalRunId : String
  blockedSideEffects : List String
  oldApprovalsTransferred : Bool

variable (plan : ReplayPlan)

def stagedState (original : ExecutionRecord) : String :=
  if original.approvalIds ≠ [] ∧ plan.requiredApprovalIds ≠ [] then "approval_required"
  else if plan.blockedSideEffectToolIds ≠ [] then "blocked_side_effects"
  else "ready"

def report (state : String) : StagedReplay :=
  ⟨plan.replayPlanId, state, plan.newRunId, plan.originalRunId, plan.blockedSideEffectToolIds, false⟩

def storeOnce (state actorId : String) (existing : Option (Row ReplayPlan)) : ReplayProg Unit :=
  match existing with
  | some _ => pure ()
  | none => do
    let renderedHash ← Prog.ofExcept (sha256 rules (rules.dumpPlan plan))
    Prog.attempt () (storePlan plan.replayPlanId ⟨state, plan.stored rules, renderedHash⟩)
    appendEvent ⟨plan.replayPlanId, plan.replayPlanId, "replay_staged", actorId,
      [("original_run_id", plan.originalRunId), ("new_run_id", plan.newRunId),
        ("mode", plan.mode.value), ("state", state), ("old_approvals_transferred", "false")]⟩

def stage (actorId : String) : ReplayProg StagedReplay := do
  requireEnabled rules
  let plan ← Prog.ofExcept (validatedPlan rules plan)
  let original ← loadExecution rules plan.originalRunId
  Prog.require (original.2 = plan.originalExecutionRecordSha256)
    "Original execution record changed"
  assertPlanAuthority rules plan original.1
  openStore
  let taken ← readHead ReplayWorld.executions plan.newRunId
  Prog.require (taken.isNone = true) "Replay run ID already exists"
  let existing ← readHead ReplayWorld.plans plan.replayPlanId
  storeOnce rules plan (stagedState plan original.1) actorId existing
  pure (report plan (stagedState plan original.1))
end

section
variable (rules : ReplayRules)

def modifiedValue (key : String) : PyValue → Option PyValue
  | .mapping entries =>
    if (entries.lookup "field").elim false (isText · key) = true then entries.lookup "modified"
    else none
  | _ => none

def applyDifferences : List (String × PyValue) → (ForkField → PyValue) →
    Except String (ForkField → PyValue)
  | [], fork => .ok fork
  | (key, difference) :: rest, fork =>
    match ForkField.ofKey key with
    | none => .error "Fork attempts to change unsupported fields"
    | some field =>
      match modifiedValue key difference with
      | none => .error "Fork differences are malformed"
      | some value => applyDifferences rest (Function.update fork field value)

variable (plan : ReplayPlan)

def originStamp : List (String × PyValue) :=
  [("replay_origin", .mapping [("original_run_id", .str plan.originalRunId),
    ("original_execution_record_sha256", .str plan.originalExecutionRecordSha256),
    ("replay_plan_id", .str plan.replayPlanId), ("mode", .str plan.mode.value)])]

def replayPayload (original : ExecutionRecord) (now : Int) (fork : ForkField → PyValue) :
    ExecutionRecord :=
  {original with
    executionRecordId := "xrec_pending", runId := plan.newRunId, approvalIds := [],
    sideEffectIds := [], traceId := none, resultSha256 := none, manifestPath := none,
    createdAt := now, extensions := originStamp plan, fork := fork}

def materialized (original : ExecutionRecord) (now : Int) : Except String ExecutionRecord := do
  let fork ← applyDifferences plan.differences original.fork
  match validateRecord rules (replayPayload plan original now fork) with
  | none => .error "Fork differences produce an invalid execution record"
  | some draft => do
    let id ← derive rules "xrec" draft.identityPayload
    let bound ← verifyRecord rules {draft with executionRecordId := id}
    if bound = true then .ok {draft with executionRecordId := id}
    else .error "Materialized execution record is not hash-bound"

def requireReady (staged : Option (Row ReplayPlan)) : Except String Unit :=
  match staged with
  | none => .error "Replay plan is not an immutable ready staged plan"
  | some row => do
    let planHash ← sha256 rules (rules.dumpPlan plan)
    if row.state = "ready" ∧ row.payloadSha256 = planHash then .ok ()
    else .error "Replay plan is not an immutable ready staged plan"

def materializeExecutionRecord : ReplayProg ExecutionRecord := do
  requireEnabled rules
  let plan ← Prog.ofExcept (validatedPlan rules plan)
  Prog.require (plan.blockedSideEffectToolIds = [] ∧ plan.requiredApprovalIds = [])
    "Replay cannot materialize with blocked effects or approvals"
  let original ← loadExecution rules plan.originalRunId
  Prog.require (original.2 = plan.originalExecutionRecordSha256)
    "Original execution record changed"
  assertPlanAuthority rules plan original.1
  openReadOnly "Staged replay plan store is unavailable"
  let staged ← readHead ReplayWorld.plans plan.replayPlanId
  Prog.ofExcept (requireReady rules plan staged)
  let now ← Prog.any Int
  Prog.ofExcept (materialized rules plan original.1 now)
end

inductive ReplayCall
  | recordExecution (record : ExecutionRecord)
  | recordSideEffectResult (result : RecordedSideEffectResult)
  | stage (plan : ReplayPlan) (actorId : String)
  | materialize (plan : ReplayPlan)

inductive ReplayReply
  | recorded (record : ExecutionRecord)
  | evidence (result : RecordedSideEffectResult)
  | staged (report : StagedReplay)
  | materialized (record : ExecutionRecord)

def ReplayCall.program (rules : ReplayRules) : ReplayCall → ReplayProg ReplayReply
  | recordExecution record => do return .recorded (← Replay.recordExecution rules record)
  | recordSideEffectResult result => do
    return .evidence (← Replay.recordSideEffectResult rules result)
  | stage plan actorId => do return .staged (← Replay.stage rules plan actorId)
  | materialize plan => do return .materialized (← materializeExecutionRecord rules plan)

end RaytSystem.Replay
