import RaytSystem.ExecutionPolicy
import RaytSystem.FocusedProgram
import RaytSystem.HeartbeatService

/-! The execution service over all runs: heartbeats of any assignments, the recovery of
stale runs, and the requests to pause or cancel a run. A heartbeat works on the part of the
stores that belongs to its task, its operation and its run. The writes of run records and of
budget usages are labelled. -/
namespace RaytSystem.Execution
open Control Tasking Interleaving

structure ExecutionWorld where
  leases : LeaseTable
  records : RecordTable.Table RecordKey ExecutionRecord
  generationId : Nat
  tasks : String → BoardTask
  dependenciesDone : String → Bool
  events : String → List BoardEvent
  operations : String → Option OperationRow
  receipts : String → Option (String × HeartbeatReceipt)
  assignmentReceipts : String → Option (String × String)
  transcripts : String → List TranscriptEvent
  /-- An observer's list of the reservations that succeeded: the policy and the run. -/
  reservations : List (String × String)

inductive ExecutionAccess where
  | fetchRun (runId : String)
  | storeUsage (policyId : String) (base : Option BudgetUsage) (reservedFor : Option String)
  | other

abbrev ExecutionProg (α : Type) := Prog ExecutionWorld ExecutionAccess HeartbeatError α

structure Place where
  taskId : String
  operationKey : String
  runId : String

def Place.lens (p : Place) : Lens ExecutionWorld HeartbeatWorld where
  view w :=
    { stores :=
        { leases := w.leases
          operation := w.operations p.operationKey
          receipt := w.receipts p.operationKey
          records := w.records
          transcript := w.transcripts p.runId
          board := ⟨w.generationId, w.tasks p.taskId, w.dependenciesDone p.taskId,
            w.events p.taskId⟩ }
      seen := .initial }
  update v w := {w with
    leases := v.stores.leases
    operations := Function.update w.operations p.operationKey v.stores.operation
    receipts := Function.update w.receipts p.operationKey v.stores.receipt
    records := v.stores.records
    transcripts := Function.update w.transcripts p.runId v.stores.transcript
    generationId := v.stores.board.generationId
    tasks := Function.update w.tasks p.taskId v.stores.board.task
    events := Function.update w.events p.taskId v.stores.board.events}

def Place.run {α : Type} (place : Place) (p : HeartbeatProg α) : ExecutionProg α :=
  p.focus place.lens .other

structure BudgetPolicies where
  policy : String → BudgetPolicy
  named : ∀ policyId, (policy policyId).budgetPolicyId = policyId

structure HeartbeatRequest where
  heartbeat : HeartbeatEnv
  taskId : String
  approvals : String → ExecutionApproval
  policyRequest : Preparation → BoardTask → ExecutionPolicyRequest
  flags : FeatureFlags
  policyDecisionId : PolicyOutcome × List String → Time → String

def HeartbeatRequest.place (request : HeartbeatRequest) : Place :=
  ⟨request.taskId, request.heartbeat.key, request.heartbeat.runId⟩

def fetchRun (runId : String) : ExecutionProg (Option Nat) :=
  Prog.attempt (.fetchRun runId) fun w =>
    .ok ((RecordTable.head w.records (.run,runId)).map RecordTable.Stored.revision, w)

def storeRun (env : HeartbeatEnv) (place : Place) (run : ExecutionRun) : ExecutionProg Unit := do
  place.run (mayFail .database)
  let revision ← fetchRun run.runId
  let _ ← place.run (put env (.run run) revision)

/-- The `put` of a budget usage; `base` is the usage that the new one was computed from, and
`reservedFor` the run that it counts. -/
def putUsage (policyId : String) (base : Option BudgetUsage) (usage : BudgetUsage)
    (expected : Option Nat) (reservedFor : Option String) : ExecutionProg Unit :=
  Prog.attempt (.storeUsage policyId base reservedFor) fun w =>
    match putRecord w.records (.budgetUsage usage) expected with
    | .ok (_,records) => .ok ((), {w with
        records := records
        reservations := (reservedFor.toList.map fun runId => (policyId,runId)) ++ w.reservations})
    | .error e => .error e

def storeUsage (env : HeartbeatEnv) (place : Place) (policyId : String) (base : Option BudgetUsage)
    (usage : BudgetUsage) (reservedFor : Option String) : ExecutionProg Unit := do
  let revision ← place.run (headRevision (.budgetUsage,policyId))
  place.run (requirePersistable env (.budgetUsage usage))
  place.run (mayFail .database)
  putUsage policyId base usage revision reservedFor

variable (policies : BudgetPolicies) (request : HeartbeatRequest)
variable (budget : Option (String × Option BudgetUsage))

def HeartbeatRequest.reserveBudget (now : Time) : ExecutionProg Unit :=
  match budget with
  | none => pure ()
  | some (policyId,usage) =>
    let current := usage.getD ⟨policyId, {}, 0, 0, now⟩
    let reserved := {current with
      heartbeatCount := current.heartbeatCount + 1
      runCount := current.runCount + 1
      updatedAt := now}
    storeUsage request.heartbeat request.place policyId usage reserved request.heartbeat.runId

def HeartbeatRequest.addBudgetUsage (usage : ExecutionUsage) (now : Time) : ExecutionProg Unit :=
  match budget with
  | none => pure ()
  | some (policyId,_) => do
    let found ← request.place.run (getRecord (.budgetUsage,policyId))
    let current ← Prog.ofOption (budgetUsageOf found) (.service "Reserved budget usage is missing")
    let updated := {current with
      usage := addUsage current.usage usage
      updatedAt := now}
    storeUsage request.heartbeat request.place policyId (some current) updated none

def HeartbeatRequest.terminalizeException (run : ExecutionRun) (errorCode : String) :
    ExecutionProg ExecutionRun := do
  let env := request.heartbeat
  let endedAt ← request.place.run (timestamp none (some run.startedAt))
  let failed := {run with
    endedAt := some endedAt
    errorCode := some errorCode
    status := ExecutionRunStatus.failed
    summary := "Execution failed closed during orchestration."}
  storeRun env request.place failed
  request.place.run do
    let snapshot ← taskSnapshot
    if snapshot.task.status = .running then do
      let transitioned ← transitionBlocked env .first snapshot errorCode (some endedAt)
      rebindAssignment env transitioned.generationId transitioned.task endedAt
    else pure ()
  pure failed

def HeartbeatRequest.collectResult (st : Started) (c : Checkout) (outcome : ProcessOutcome)
    (intent : Option Intent) (endedAt : Time) : HeartbeatProg (RunEnd × List String) := do
  let env := request.heartbeat
  let snapshot ← taskSnapshot
  let live ← verifyLease c.taskLease.token endedAt
  Prog.require (c.taskLease.status = .active ∧ c.taskLease.taskRevision = snapshot.task.revision ∧
    live = true) (.service "Task fence changed before result collection")
  let sequence ← appendOutcome env endedAt 1 outcome.transcript
  appendTranscript ⟨sequence, "result", "runtime_result", outcome.terminationReason, endedAt⟩
  let files ← changedFiles env st.run outcome intent
  let ended := runEnd env outcome intent
  let transitioned ← transition .first
    ⟨ended.target, "employee:" ++ st.run.employeeId, stateKey env ended.target,
      ended.blockedReason⟩
    snapshot.generationId (max endedAt snapshot.task.updatedAt)
  rebindAssignment env transitioned.generationId transitioned.task endedAt
  pure (ended,files)

def HeartbeatRequest.finishRun (st : Started) (budget : Option (String × Option BudgetUsage))
    (c : Checkout) (outcome : ProcessOutcome) (intent : Option Intent) (endedAt : Time) :
    ExecutionProg HeartbeatResult := do
  let env := request.heartbeat
  let collected ← request.place.run (request.collectResult st c outcome intent endedAt)
  let ended := collected.1
  let summary := env.summary ended.status outcome
  let finalRun := {st.run with
    changedFiles := collected.2
    endedAt := some endedAt
    errorCode := ended.errorCode
    exitCode := outcome.exitCode
    status := ended.status
    summary := summary
    usage := outcome.usage}
  storeRun env request.place finalRun
  let _ ← request.place.run (putHead env (.session {st.session with
    lastResumedAt :=
      if st.run.sessionIdBefore.isSome then some endedAt else st.session.lastResumedAt
    providerSessionId := outcome.providerSessionId.or st.session.providerSessionId
    previousRunId := some st.run.runId
    status := ended.sessionStatus
    usageTotals := addUsage st.session.usageTotals outcome.usage}))
  request.addBudgetUsage budget outcome.usage endedAt
  let result : HeartbeatResult := ⟨st.run.runId, ended.status,
    st.preflight.assignment.assignmentId, some finalRun, some st.invocation, some st.decision,
    false, false, ended.errorCode⟩
  request.place.run do
    comment env (if ended.status = .review then .review else .blocked) st.run.employeeId summary
      endedAt
    finalizeReceipt env result
  pure result

def HeartbeatRequest.handleError (p : Preflight) (decision : PolicyDecision) (startedAt : Time)
    (run : Option ExecutionRun) (e : HeartbeatError) : ExecutionProg HeartbeatResult :=
  match run with
  | some run =>
    if e = .cancelled then do
      let _ ← request.terminalizeException run "service_cancelled"
      throw e
    else do
      let failed ← request.terminalizeException run ("runtime_" ++ e.typeName.toLower)
      request.place.run (resultForRun request.heartbeat failed false)
  | none => request.place.run (Execution.handleError request.heartbeat .first p decision startedAt
      none e)

def HeartbeatRequest.guarded {α : Type} (handler : HeartbeatError → ExecutionProg HeartbeatResult)
    (c : Checkout) (p : ExecutionProg α) (k : α → ExecutionProg HeartbeatResult) :
    ExecutionProg HeartbeatResult := do
  let r ← p.toExcept
  match r with
  | .ok a => k a
  | .error e =>
    (handler e).tryFinally (request.place.run (releaseCheckout request.heartbeat .first c))

def HeartbeatRequest.runStarted (st : Started) (budget : Option (String × Option BudgetUsage))
    (c : Checkout) (startedAt : Time) : ExecutionProg HeartbeatResult :=
  let handler := request.handleError st.preflight st.decision startedAt (some st.run)
  let start : ExecutionProg Unit := do
    request.place.run (appendTranscript
      ⟨0, "system", "runtime_started", "Runtime started", startedAt⟩)
    request.reserveBudget budget startedAt
  request.guarded handler c start fun _ => do
    let executed ← request.place.run (executeWithRenewal request.heartbeat .first st.run c)
    let finish : ExecutionProg HeartbeatResult := do
      let outcome ← Prog.ofExcept executed.2
      let endedAt ← request.place.run (timestamp none (some st.run.startedAt))
      request.finishRun st budget executed.1 outcome.1 outcome.2 endedAt
    request.guarded handler executed.1 finish fun result =>
      (Prog.pure result).tryFinally
        (request.place.run (releaseCheckout request.heartbeat .first executed.1))

variable (p : Preflight)

def HeartbeatRequest.runHeartbeat (decision : PolicyDecision)
    (budget : Option (String × Option BudgetUsage)) (existing : Option ExecutionSession)
    (startedAt : Time) : ExecutionProg HeartbeatResult := do
  let env := request.heartbeat
  let handler := request.handleError p decision startedAt none
  let checkout : HeartbeatProg Checkout := do
    mayFail .emergency
    checkoutTask env .first p.assignment p.employee p.snapshot startedAt
  let acquired ← (request.place.run checkout).toExcept
  match acquired with
  | .error e => handler e
  | .ok c =>
    let rebind : HeartbeatProg TaskLease := do
      let transitioned ← transition .first
        ⟨.running, "employee:" ++ p.employee.employeeId, stateKey env .running, none⟩
        p.snapshot.generationId startedAt
      rebindTaskLease env c.taskLease transitioned.generationId transitioned.task.revision
        startedAt
    request.guarded handler c (request.place.run rebind) fun lease =>
      let c := {c with taskLease := lease}
      request.guarded handler c
        (request.place.run (startRun env p decision existing lease startedAt)) fun session =>
          let st := startedFor env p decision budget existing lease startedAt session
          request.guarded (request.handleError p decision startedAt (some st.run)) c
            (request.place.run (putRun env .first st.run))
            fun _ => request.runStarted st budget c startedAt

def HeartbeatRequest.decide (budget : Option (String × Option BudgetUsage)) (at_ : Time) :
    PolicyOutcome × List String :=
  evaluateExecutionPolicy
    {request.policyRequest p.prepared p.snapshot.task with
      budgetPolicy := budget.map fun b => policies.policy b.1
      budgetUsage := budget.bind Prod.snd
      approval := request.heartbeat.approvalId.map request.approvals}
    request.flags at_

def HeartbeatRequest.decideHeartbeat (startedAt : Time) : ExecutionProg HeartbeatResult := do
  let env := request.heartbeat
  let blocked (b : Blocked) := request.place.run (blockedPreflight env .first p.assignment b
    startedAt)
  if env.adapterKnown p.assignment.runtimeAdapterId = false then
    blocked {errorCode := "runtime_adapter_unavailable"}
  else do
    let budget ← request.place.run (budgetOf p.assignment)
    let approval ← request.place.run (approvalRecord env)
    if env.approvalId.isSome ∧ approval.isNone then blocked {errorCode := "approval_missing"}
    else do
      let judged := request.decide policies p budget startedAt
      let decision : PolicyDecision :=
        ⟨request.policyDecisionId judged startedAt, judged.1, startedAt⟩
      let _ ← request.place.run (put env (.policyDecision decision) none)
      if judged.1 = .requireApproval then
        blocked
          { errorCode := "approval_required"
            policy := some decision
            approvalRequired := true }
      else if judged.1 = .deny then
        blocked
          { errorCode := "policy_denied"
            policy := some decision
            transitionTask := true }
      else do
        let available ← Prog.any Bool
        if available = false then
          blocked {errorCode := "runtime_adapter_unhealthy", policy := some decision}
        else do
          let existing ← request.place.run (readStores fun s => env.existingSession s.records)
          request.place.run (mayFail (.runtime "Runtime request is invalid"))
          request.runHeartbeat p decision budget existing startedAt

def HeartbeatRequest.startHeartbeat : ExecutionProg HeartbeatResult := do
  let env := request.heartbeat
  let startedAt ← request.place.run (timestamp env.now none)
  let a ← request.place.run (assignment env)
  let blocked (b : Blocked) := request.place.run (blockedPreflight env .first a b startedAt)
  if env.heartbeatsEnabled = false then blocked {errorCode := "heartbeats_disabled"}
  else if env.runtimeExecutionEnabled = false then
    blocked {errorCode := "runtime_execution_disabled"}
  else do
    let allowed ← (request.place.run (mayFail .emergency)).toExcept
    match allowed with
    | .error _ => blocked {errorCode := "emergency_runtime_disabled"}
    | .ok () => do
      let preflight ← (request.place.run (preflightWorkspace env a startedAt)).toExcept
      match preflight with
      | .ok p => request.decideHeartbeat policies p startedAt
      | .error e =>
        if e.preflight = true then
          blocked
            { errorCode := "workspace_preflight_failed"
              detail := some e.typeName
              transitionTask := true }
        else throw e

def findReceipt (env : HeartbeatEnv) : HeartbeatProg (Option HeartbeatReceipt) := access fun s =>
  match s.receipt with
  | none => .ok (none,s)
  | some (requestSha256,receipt) =>
    if requestSha256 = env.requestSha256 then .ok (some receipt,s)
    else .error (.storeConflict "Idempotency key belongs to another request")

def HeartbeatRequest.manualHeartbeat : ExecutionProg HeartbeatResult := do
  let env := request.heartbeat
  let receipt ← request.place.run (findReceipt env)
  match receipt with
  | some receipt => request.place.run (heartbeatFromReceipt env receipt)
  | none => do
    let _ ← request.place.run (timestamp env.now none)
    let claimed ← request.place.run (claimOperation env)
    Prog.require (claimed.runId = env.runId)
      (.storeConflict "Heartbeat idempotency key has different bindings")
    let existing ← request.place.run (getRecord (.run,env.runId))
    match runOf existing with
    | some run => request.place.run do
      let result ← resultForRun env run true
      if run.status.terminal = true then finalizeReceipt env result else pure ()
      pure result
    | none => request.startHeartbeat policies

/-! Pause, cancel and recovery. -/

def requestStop (env : HeartbeatEnv) (runId : String) : ExecutionProg ExecutionRun := do
  let place : Place := ⟨"", "", runId⟩
  let found ← place.run (getRecord (.run,runId))
  let run ← Prog.ofOption (runOf found) (.service "Run is not cancellable")
  Prog.require (run.status = .running ∨ run.status = .cancelling)
    (.service "Run is not cancellable")
  -- the run has to be active in this service process
  let active ← Prog.any Bool
  Prog.require (active = true) (.service "Run is not active in this service process")
  let cancelling := {run with status := ExecutionRunStatus.cancelling}
  storeRun env place cancelling
  pure cancelling

def leaseOf : Option ExecutionRecord → Option TaskLease
  | some (.lease l) => some l
  | _ => none

def leaseValid (lease : Option TaskLease) (snapshot : TaskBoard) (now : Time) :
    HeartbeatProg Bool :=
  match lease with
  | none => pure false
  | some l =>
    if l.status = .active ∧ l.taskRevision = snapshot.task.revision then verifyLease l.token now
    else pure false

def recoverRun (env : HeartbeatEnv) (observedAt : Time) (run : ExecutionRun) :
    ExecutionProg (List ExecutionRun) := do
  let place : Place := ⟨run.taskId, "", run.runId⟩
  let found ← place.run (getRecord (.lease,run.taskLeaseId))
  let lease := leaseOf found
  let snapshot ← place.run taskSnapshot
  let valid ← place.run (leaseValid lease snapshot observedAt)
  if valid = true then pure []
  else do
    let failed := {run with
      status := ExecutionRunStatus.failed
      endedAt := some (max observedAt run.startedAt)
      errorCode := some "stale_lease_recovered"
      summary := "Recovered after the execution lease became stale."}
    storeRun env place failed
    match lease with
    | some l =>
      if l.status = .active then do
        let _ ← place.run (putHead env (.lease {l with status := .expired}))
      else pure ()
    | none => pure ()
    if snapshot.task.status = .running then do
      let _ ← place.run (transitionBlocked {env with runId := run.runId} .first snapshot
        "stale_execution_lease" none)
    else pure ()
    pure [failed]

def recoverEach (env : HeartbeatEnv) (observedAt : Time) :
    List ExecutionRun → ExecutionProg (List ExecutionRun)
  | [] => pure []
  | run :: rest => do
    let first ← recoverRun env observedAt run
    let others ← recoverEach env observedAt rest
    pure (first ++ others)

def listRuns (runIds : Nat → List String) (status : ExecutionRunStatus) :
    ExecutionProg (List ExecutionRun) := do
  let order ← Prog.any Nat
  Prog.get .other fun w => ((runIds order).filterMap fun runId =>
    (runOf ((RecordTable.head w.records (.run,runId)).map RecordTable.Stored.value)).filter
      (·.status = status)).take 500

def recoverStates (env : HeartbeatEnv) (runIds : Nat → List String) (observedAt : Time) :
    List ExecutionRunStatus → ExecutionProg (List ExecutionRun)
  | [] => pure []
  | status :: rest => do
    let runs ← listRuns runIds status
    let first ← recoverEach env observedAt runs
    let others ← recoverStates env runIds observedAt rest
    pure (first ++ others)

def recoverStaleRuns (env : HeartbeatEnv) (runIds : Nat → List String) :
    ExecutionProg (List ExecutionRun) := do
  let observedAt ← (⟨"", "", ""⟩ : Place).run (timestamp env.now none)
  recoverStates env runIds observedAt [.queued, .preparing, .running, .cancelling]

/-! Assignment. -/

structure AssignRequest where
  key : String
  requestSha256 : String
  taskId : String
  assignmentId : String
  employeeId : String
  /-- The adapter of the employee, and whether he is disabled or terminated. -/
  employee : Option (String × Bool)
  budgetPolicyId : Option String
  expectedGenerationId : Nat
  now : Option Time

def findAssignmentReceipt (r : AssignRequest) : ExecutionProg (Option String) :=
  Prog.attempt .other fun w => match w.assignmentReceipts r.key with
    | none => .ok (none,w)
    | some (requestSha256,assignmentId) =>
      if requestSha256 = r.requestSha256 then .ok (some assignmentId,w)
      else .error (.storeConflict "Idempotency key belongs to another request")

def storeAssignmentReceipt (r : AssignRequest) : ExecutionProg Unit :=
  Prog.attempt .other fun w => match w.assignmentReceipts r.key with
    | none =>
      let receipts := Function.update w.assignmentReceipts r.key
        (some (r.requestSha256,r.assignmentId))
      .ok ((), {w with assignmentReceipts := receipts})
    | some existing =>
      if existing = (r.requestSha256,r.assignmentId) then .ok ((),w)
      else .error (.storeConflict "Idempotency key was reused for another request")

def requireBudgetPolicy (budgetPolicyId : Option String) : HeartbeatProg Unit :=
  match budgetPolicyId with
  | none => pure ()
  | some policyId => do
    let policy ← getRecord (.budgetPolicy,policyId)
    Prog.require policy.isSome (.assignment "Assignment budget policy is unavailable")

def bindAssignment (env : HeartbeatEnv) (r : AssignRequest) (runtimeAdapterId : String)
    (snapshot : TaskBoard) (at_ : Time) : HeartbeatProg TaskAssignment := do
  let found ← getRecord (.assignment,r.assignmentId)
  let current := assignmentOf found
  let bound := current.filter fun a => a.taskGenerationId == snapshot.generationId &&
    a.taskRevision == snapshot.task.revision && a.employeeId == r.employeeId &&
    a.runtimeAdapterId == runtimeAdapterId && a.budgetPolicyId == r.budgetPolicyId && a.active
  match bound with
  | some a => pure a
  | none => do
    let a : TaskAssignment := ⟨r.assignmentId, r.taskId, snapshot.generationId,
      snapshot.task.revision, r.employeeId, runtimeAdapterId, r.budgetPolicyId, none, true,
      current.elim 1 fun c => c.revision + 1, at_⟩
    let _ ← putHead env (.assignment a)
    pure a

def assignTask (env : HeartbeatEnv) (r : AssignRequest) : ExecutionProg TaskAssignment := do
  let place : Place := ⟨r.taskId, "", ""⟩
  let receipt ← findAssignmentReceipt r
  match receipt with
  | some assignmentId => do
    let found ← place.run (getRecord (.assignment,assignmentId))
    Prog.ofOption (assignmentOf found) (.service "Assignment receipt points to missing state")
  | none => do
    let snapshot ← place.run taskSnapshot
    Prog.require (snapshot.generationId = r.expectedGenerationId)
      (.assignment "Task board generation changed before assignment")
    Prog.require (snapshot.task.status ≠ .done ∧ snapshot.task.status ≠ .cancelled)
      (.assignment "Terminal tasks cannot be assigned")
    let e ← Prog.ofOption r.employee (.assignment "Employee is missing or ambiguous")
    Prog.require (e.2 = false) (.assignment "Employee is disabled")
    Prog.require (env.adapterKnown e.1 = true)
      (.assignment "Employee runtime adapter is unavailable")
    place.run (requireBudgetPolicy r.budgetPolicyId)
    let at_ ← place.run (timestamp r.now (some snapshot.task.updatedAt))
    let a ← place.run (bindAssignment env r e.1 snapshot at_)
    -- the record of the employee is stored, too
    place.run (mayFail .database)
    storeAssignmentReceipt r
    pure a

inductive ExecutionCall where
  | assignTask (env : HeartbeatEnv) (r : AssignRequest)
  | manualHeartbeat (request : HeartbeatRequest)
  | pauseRun (env : HeartbeatEnv) (runId : String)
  | cancelRun (env : HeartbeatEnv) (runId : String)
  | recoverStaleRuns (env : HeartbeatEnv) (runIds : Nat → List String)

def ExecutionCall.prog (policies : BudgetPolicies) : ExecutionCall → ExecutionProg Unit
  | .assignTask env r => do let _ ← Execution.assignTask env r
  | .manualHeartbeat request => do let _ ← request.manualHeartbeat policies
  | .pauseRun env runId => do let _ ← requestStop env runId
  | .cancelRun env runId => do let _ ← requestStop env runId
  | .recoverStaleRuns env runIds => do let _ ← Execution.recoverStaleRuns env runIds

end RaytSystem.Execution
