import RaytSystem.HeartbeatModel

/-! `manual_heartbeat`, cut at its accesses to the shared stores. An observer notes which
leases a call acquired and released, how it moved the task, and when it ran the adapter. -/
namespace RaytSystem.Execution
open Control Tasking Interleaving

inductive Caller where
  | first | second
  deriving DecidableEq, Repr

/-- Where a call stands: between its check of the run record and the record it makes
itself it is in its window. -/
inductive CallStage where
  | outside | window | bystander | recorded | ended
  deriving DecidableEq, Repr

inductive HeartbeatEvent where
  | acquired (call : Caller) (partitionKey : String)
  | released (call : Caller) (partitionKey : String)
  | moved (call : Caller) (source target : TaskStatus)
  | executed (call : Caller)
  | left (call : Caller)
  deriving DecidableEq, Repr

structure Observer where
  stage : Caller → CallStage
  log : List HeartbeatEvent

namespace Observer

def initial : Observer := ⟨fun _ => .outside, []⟩

def note (o : Observer) (e : HeartbeatEvent) : Observer := {o with log := e :: o.log}

def enter (o : Observer) (call : Caller) (stage : CallStage) : Observer :=
  {o with stage := Function.update o.stage call stage}

end Observer

structure HeartbeatWorld where
  stores : HeartbeatStores
  seen : Observer

inductive HeartbeatAccess where
  | checkRun
  | other
  deriving DecidableEq, Repr

abbrev HeartbeatProg (α : Type) := Prog HeartbeatWorld HeartbeatAccess HeartbeatError α

structure Employee where
  employeeId : String
  concurrencyLimit : Nat
  configurationRevision : String
  filesystemMode : String

structure Preparation where
  taskGenerationId : Nat
  taskRevision : Nat
  employeeConfigurationRevision : String
  graphScope : TaskGraphScope
  workspace : TaskWorkspace

structure SessionResolution where
  compatible : Bool
  reasonCode : Option String

structure ProcessOutcome where
  ok : Bool
  terminationReason : String
  exitCode : Option Int
  usage : ExecutionUsage
  transcript : List (String × String)
  providerSessionId : Option String

/-- The arguments of the calls, the configuration of the service, and what its other parts
compute from given inputs. -/
structure HeartbeatEnv where
  assignmentId : String
  runId : String
  key : String
  requestSha256 : String
  approvalId : Option String
  resumedFromRunId : Option String
  now : Option Time
  heartbeatsEnabled : Bool
  runtimeExecutionEnabled : Bool
  maxConcurrentRuns : Nat
  ttlMs : Int
  maxTranscriptEvents : Nat
  employee : Option Employee
  adapterKnown : String → Bool
  persistable : ExecutionRecord → Bool
  prepare : Nat → Except HeartbeatError Preparation
  policy : Preparation → BoardTask → Option BudgetUsage → Option String → Time → PolicyDecision
  existingSession : RecordTable.Table RecordKey ExecutionRecord → Option ExecutionSession
  resolveSession : Option ExecutionSession → Preparation → PolicyDecision → SessionResolution
  createSession : Preparation → PolicyDecision → Time → ExecutionSession
  leaseId : TaskLease → String
  invocationId : ExecutionInvocation → String
  commentId : ExecutionComment → String
  outcome : Nat → ProcessOutcome
  changedFiles : Nat → Except HeartbeatError (List String)
  summary : ExecutionRunStatus → ProcessOutcome → String

section
variable {α : Type}

def mayFail (e : HeartbeatError) : HeartbeatProg Unit := do
  let failed ← Prog.any Bool
  Prog.require (failed = false) e

def noting (l : HeartbeatAccess) (f : HeartbeatStores → Except HeartbeatError (α × HeartbeatStores))
    (note : HeartbeatStores → α → Observer → Observer) : HeartbeatProg α := do
  mayFail .database
  Prog.attempt l fun w => match f w.stores with
    | .ok (a,s) => .ok (a, ⟨s, note w.stores a w.seen⟩)
    | .error e => .error e

def access (f : HeartbeatStores → Except HeartbeatError (α × HeartbeatStores)) :
    HeartbeatProg α := noting .other f fun _ _ o => o

def readStores (f : HeartbeatStores → α) : HeartbeatProg α := access fun s => .ok (f s, s)

def timestamp (value floor : Option Time) : HeartbeatProg Time := do
  let t ← match value with
    | some t => pure t
    | none => Prog.any Int
  pure (floor.elim t (max t))
end

variable (env : HeartbeatEnv) (call : Caller)

def claimOperation : HeartbeatProg OperationRow := access fun s =>
  match s.operation with
  | some row => .ok (row,s)
  | none =>
    let row : OperationRow := ⟨env.runId, "running", none, none⟩
    .ok (row, {s with operation := some row})

def updateOperation (state : String) (result : Option HeartbeatReceipt)
    (errorCode : Option String) : HeartbeatProg Unit := access fun s =>
  match s.operation with
  | none => .error .keyError
  | some row => .ok ((), {s with operation := some ⟨row.runId, state, result, errorCode⟩})

def acquireLease (partitionKey : String) (now : Time) : HeartbeatProg LeaseToken :=
  noting .other
    (fun s => match Control.acquireLease s.leases partitionKey env.runId env.ttlMs
        (milliseconds now) with
      | .ok (token,t) => .ok (token, {s with leases := t})
      | .error e => .error (.control e))
    fun _ _ o => o.note (.acquired call partitionKey)

def renewLease (token : LeaseToken) (now : Time) : HeartbeatProg LeaseToken :=
  access fun s => match Control.renewLease s.leases token env.ttlMs (milliseconds now) with
    | .ok (token,t) => .ok (token, {s with leases := t})
    | .error e => .error (.control e)

def verifyLease (token : LeaseToken) (now : Time) : HeartbeatProg Bool :=
  readStores fun s => Control.verifyLease s.leases token (milliseconds now)

def releaseLease (token : LeaseToken) : HeartbeatProg Bool :=
  noting .other
    (fun s => let r := Control.releaseLease s.leases token; .ok (r.1, {s with leases := r.2}))
    fun _ released o => if released then o.note (.released call token.partitionKey) else o

/-! The records of the execution store. -/

def getRecord (k : RecordKey) : HeartbeatProg (Option ExecutionRecord) :=
  readStores fun s => (RecordTable.head s.records k).map RecordTable.Stored.value

def headRevision (k : RecordKey) : HeartbeatProg (Option Nat) :=
  readStores fun s => (RecordTable.head s.records k).map RecordTable.Stored.revision

variable (record : ExecutionRecord)

def putStores (expected : Option Nat) (s : HeartbeatStores) :
    Except HeartbeatError (Nat × HeartbeatStores) :=
  match putRecord s.records record expected with
  | .ok (revision,records) => .ok (revision, {s with records := records})
  | .error e => .error e

def requirePersistable : HeartbeatProg Unit :=
  Prog.require (env.persistable record = true)
    (.storeError "Sensitive execution content must be redacted first")

def put (expected : Option Nat) : HeartbeatProg Nat := do
  requirePersistable env record
  access (putStores record expected)

def putHead : HeartbeatProg Nat := do
  let revision ← headRevision record.key
  put env record revision

def putRun (run : ExecutionRun) : HeartbeatProg Nat := do
  requirePersistable env (.run run)
  noting .other (putStores (.run run) none) fun _ _ o => o.enter call .recorded

def assignmentOf : Option ExecutionRecord → Option TaskAssignment
  | some (.assignment a) => some a
  | _ => none

def runOf : Option ExecutionRecord → Option ExecutionRun
  | some (.run r) => some r
  | _ => none

def invocationOf : Option ExecutionRecord → Option ExecutionInvocation
  | some (.invocation i) => some i
  | _ => none

def policyDecisionOf : Option ExecutionRecord → Option PolicyDecision
  | some (.policyDecision d) => some d
  | _ => none

def budgetUsageOf : Option ExecutionRecord → Option BudgetUsage
  | some (.budgetUsage u) => some u
  | _ => none

def assignment : HeartbeatProg TaskAssignment := do
  let found ← getRecord (.assignment,env.assignmentId)
  match assignmentOf found with
  | some a =>
    if a.active = true then pure a
    else throw (.assignment "Active assignment is unavailable")
  | none => throw (.assignment "Active assignment is unavailable")

/-! The task board. -/

/-- `_task`: the board and its task are read in one snapshot. -/
def taskSnapshot : HeartbeatProg TaskBoard := do
  mayFail (.ledger "Task board generation is unsafe or invalid")
  readStores HeartbeatStores.board

def transition (c : TransitionCommand) (expectedGenerationId : Nat) (now : Time) :
    HeartbeatProg TransitionResult := do
  mayFail (.ledger "Task immutable object publication failed")
  let result ← noting .other
    (fun s => match transitionTask s.board c expectedGenerationId now with
      | .ok (result,board) => .ok (result, {s with board := board})
      | .error e => .error e)
    fun s result o =>
      if result.noOp then o else o.note (.moved call s.board.task.status result.task.status)
  mayFail (.ledger "Task board pointer commit failed")
  pure result

def stateKey (target : TaskStatus) : String := env.runId ++ ":" ++ target.value

def transitionBlocked (snapshot : TaskBoard) (reason : String) (at_ : Option Time) :
    HeartbeatProg TransitionResult := do
  let now ← timestamp at_ (some snapshot.task.updatedAt)
  transition call ⟨.blocked, "raytsystem:execution", stateKey env .blocked, some reason⟩
    snapshot.generationId now

def rebindAssignment (generationId : Nat) (task : BoardTask) (at_ : Time) : HeartbeatProg Unit := do
  let current ← assignment env
  let _ ← putHead env (.assignment {current with
    graphScopeId := none
    revision := current.revision + 1
    taskGenerationId := generationId
    taskRevision := task.revision
    updatedAt := max at_ current.updatedAt})

def comment (kind : CommentKind) (actor body : String) (createdAt : Time) : HeartbeatProg Unit := do
  let seed : ExecutionComment := ⟨"comment_pending", kind, actor, body, createdAt⟩
  let _ ← put env (.comment {seed with commentId := env.commentId seed}) none

structure HeartbeatResult where
  runId : String
  status : ExecutionRunStatus
  assignmentId : String
  run : Option ExecutionRun
  invocation : Option ExecutionInvocation
  policyDecision : Option PolicyDecision
  approvalRequired : Bool
  noOp : Bool
  errorCode : Option String

def HeartbeatResult.receipt (r : HeartbeatResult) : HeartbeatReceipt :=
  ⟨r.assignmentId, r.errorCode, r.invocation.map ExecutionInvocation.invocationId,
    r.policyDecision.map PolicyDecision.policyDecisionId, r.runId, r.status⟩

structure Blocked where
  errorCode : String
  policy : Option PolicyDecision := none
  approvalRequired : Bool := false
  detail : Option String := none
  transitionTask : Bool := false

variable (a : TaskAssignment)

def blockedPreflight (b : Blocked) (at_ : Time) : HeartbeatProg HeartbeatResult := do
  if b.transitionTask = true then do
    let snapshot ← taskSnapshot
    if snapshot.task.status = .planned ∨ snapshot.task.status = .ready ∨
        snapshot.task.status = .running then do
      let transitioned ← transitionBlocked env call snapshot b.errorCode (some at_)
      rebindAssignment env transitioned.generationId transitioned.task at_
    else pure ()
  else pure ()
  let body := b.detail.elim b.errorCode fun d => b.errorCode ++ ":" ++ d
  comment env .blocked a.employeeId body at_
  let result : HeartbeatResult :=
    ⟨env.runId, .blocked, a.assignmentId, none, none, b.policy, b.approvalRequired, false,
      some b.errorCode⟩
  updateOperation "blocked" (some result.receipt) (some b.errorCode)
  pure result

def resultForRun (run : ExecutionRun) (noOp : Bool) : HeartbeatProg HeartbeatResult := do
  let invocation ← getRecord (.invocation,run.invocationId)
  let policy ← getRecord (.policyDecision,run.policyDecisionId)
  let assignment ← getRecord (.assignment,env.assignmentId)
  match invocationOf invocation, policyDecisionOf policy, assignmentOf assignment with
  | some i, some d, some a =>
    pure ⟨run.runId, run.status, a.assignmentId, some run, some i, some d, false, noOp,
      run.errorCode⟩
  | _, _, _ => throw (.service "Run bindings are incomplete")

def heartbeatFromReceipt (receipt : HeartbeatReceipt) : HeartbeatProg HeartbeatResult := do
  let run ← getRecord (.run,receipt.runId)
  match runOf run with
  | none => throw (.service "Heartbeat receipt points to a missing run")
  | some run => resultForRun env run true

def storeReceipt (receipt : HeartbeatReceipt) : HeartbeatProg Unit := access fun s =>
  match s.receipt with
  | none => .ok ((), {s with receipt := some (env.requestSha256,receipt)})
  | some existing =>
    if existing = (env.requestSha256,receipt) then .ok ((),s)
    else .error (.storeConflict "Idempotency key was reused for another request")

def finalizeReceipt (result : HeartbeatResult) : HeartbeatProg Unit := do
  storeReceipt env result.receipt
  let _ ← timestamp none none
  updateOperation "complete" (some result.receipt) none

def appendTranscript (e : TranscriptEvent) : HeartbeatProg Unit := access fun s =>
  match s.transcript.find? (·.sequence == e.sequence) with
  | some existing =>
    if existing = e then .ok ((),s)
    else .error (.storeConflict "Transcript sequence collision")
  | none =>
    if e.sequence = s.transcript.length then .ok ((), {s with transcript := s.transcript ++ [e]})
    else .error (.storeConflict "Transcript sequence must be contiguous")

/-! Leases. -/

structure Checkout where
  taskLease : TaskLease
  globalSlot : LeaseToken
  employeeSlot : LeaseToken

def TaskLease.token (l : TaskLease) : LeaseToken :=
  ⟨"task:" ++ l.taskId, l.controlEpoch, l.runId, l.fencingToken, milliseconds l.expiresAt⟩

def slot (name : String) (now : Time) : Nat → Nat → HeartbeatProg LeaseToken
  | 0, _ => throw (.concurrency "Execution concurrency limit is reached")
  | count + 1, index => do
    let acquired ← (acquireLease env call s!"{name}:{index}" now).toExcept
    match acquired with
    | .ok token => pure token
    | .error (.control (.leaseBusy _)) => slot name now count (index + 1)
    | .error e => throw e

def acquireTaskLease (snapshot : TaskBoard) (now : Time) : HeartbeatProg TaskLease := do
  let token ← acquireLease env call ("task:" ++ a.taskId) now
  let seed : TaskLease := ⟨"", a.taskId, a.employeeId, env.runId, snapshot.generationId,
    snapshot.task.revision, token.controlEpoch, token.fencingToken, now,
    token.expiresAtMs * 1000, .active⟩
  pure {seed with leaseId := env.leaseId seed}

variable (lease : TaskLease)

def rebindTaskLease (generationId taskRevision : Nat) (now : Time) : HeartbeatProg TaskLease := do
  let live ← verifyLease lease.token now
  Prog.require (live = true) (.runtime "Task lease changed before task-version binding")
  let bound := {lease with taskGenerationId := generationId, taskRevision := taskRevision}
  pure {bound with leaseId := env.leaseId bound}

def renewTaskLease (now : Time) : HeartbeatProg TaskLease := do
  let token ← renewLease env lease.token now
  pure {lease with expiresAt := token.expiresAtMs * 1000}

/-- `_checkout`: slots that were taken are given back when a later lease is refused. -/
def checkoutTask (e : Employee) (snapshot : TaskBoard) (now : Time) : HeartbeatProg Checkout := do
  let globalSlot ← slot env call "execution:global" now env.maxConcurrentRuns 0
  let employeeSlot ← (slot env call s!"execution:employee:{e.employeeId}" now
      e.concurrencyLimit 0).tryCatch fun error => do
    let _ ← releaseLease call globalSlot
    throw error
  let taskLease ← (acquireTaskLease env call a snapshot now).tryCatch fun error => do
    let _ ← releaseLease call employeeSlot
    let _ ← releaseLease call globalSlot
    throw error
  pure ⟨taskLease, globalSlot, employeeSlot⟩

def releaseTaskLease : HeartbeatProg Unit := do
  let released ← releaseLease call lease.token
  let revision ← headRevision (.lease,lease.leaseId)
  match revision with
  | none => pure ()
  | some revision => do
    let status := if released then TaskLeaseStatus.released else .revoked
    let _ ← put env (.lease {lease with status := status}) (some revision)

def releaseCheckout (c : Checkout) : HeartbeatProg Unit :=
  (releaseTaskLease env call c.taskLease).tryFinally do
    let _ ← releaseLease call c.employeeSlot
    let _ ← releaseLease call c.globalSlot

def requireBinding (snapshot : TaskBoard) : HeartbeatProg Unit :=
  Prog.require (a.taskGenerationId = snapshot.generationId ∧
      a.taskRevision = snapshot.task.revision)
    (.assignment "Assignment is stale for the current task revision")

def findEmployee : HeartbeatProg Employee :=
  Prog.ofOption env.employee (.assignment "Employee is missing or ambiguous")

def bindGraphScope (graphScopeId : String) (now : Time) : HeartbeatProg TaskAssignment :=
  if a.graphScopeId = some graphScopeId then pure a
  else do
    let at_ ← timestamp (some now) (some a.updatedAt)
    let bound := {a with
      graphScopeId := some graphScopeId
      revision := a.revision + 1
      updatedAt := at_}
    let _ ← putHead env (.assignment bound)
    pure bound

def Preparation.fits (p : Preparation) (a : TaskAssignment) (e : Employee) : Bool :=
  p.taskGenerationId == a.taskGenerationId && p.taskRevision == a.taskRevision &&
    p.employeeConfigurationRevision == e.configurationRevision &&
    p.workspace.taskId == a.taskId && p.workspace.mode == e.filesystemMode &&
    p.graphScope.taskId == a.taskId &&
    p.graphScope.graphSnapshotId == p.workspace.graphSnapshotId

def prepareWorkspace (now : Time) : HeartbeatProg (TaskAssignment × Preparation) := do
  let a ← assignment env
  let snapshot ← taskSnapshot
  requireBinding a snapshot
  let e ← findEmployee env
  let input ← Prog.any Nat
  let prepared ← Prog.ofExcept (env.prepare input)
  Prog.require (prepared.fits a e = true)
    (.service "Prepared workspace bindings are inconsistent")
  let _ ← put env (.graphScope prepared.graphScope) none
  let _ ← putHead env (.workspace prepared.workspace)
  let bound ← bindGraphScope env a prepared.graphScope.graphScopeId now
  pure (bound,prepared)

structure Preflight where
  snapshot : TaskBoard
  employee : Employee
  assignment : TaskAssignment
  prepared : Preparation

def preflightWorkspace (startedAt : Time) : HeartbeatProg Preflight := do
  let snapshot ← taskSnapshot
  requireBinding a snapshot
  Prog.require (snapshot.task.status = .ready ∨ snapshot.task.status = .blocked)
    (.service "Task must be ready or blocked for a heartbeat")
  let e ← findEmployee env
  let prepared ← prepareWorkspace env startedAt
  pure ⟨snapshot, e, prepared.1, prepared.2⟩

def terminalizeException (run : ExecutionRun) (errorCode : String) :
    HeartbeatProg ExecutionRun := do
  let endedAt ← timestamp none (some run.startedAt)
  let failed := {run with
    endedAt := some endedAt
    errorCode := some errorCode
    status := ExecutionRunStatus.failed
    summary := "Execution failed closed during orchestration."}
  let _ ← putHead env (.run failed)
  let snapshot ← taskSnapshot
  if snapshot.task.status = .running then do
    let transitioned ← transitionBlocked env call snapshot errorCode (some endedAt)
    rebindAssignment env transitioned.generationId transitioned.task endedAt
  else pure ()
  pure failed

/-! The run itself. -/

inductive Intent where
  | pause | cancel | emergency
  deriving DecidableEq, Repr

def intentOf : Nat → Option Intent
  | 1 => some .pause
  | 2 => some .cancel
  | _ => none

def orStop {α : Type} (c : Checkout) (p : HeartbeatProg α)
    (k : α → HeartbeatProg (Checkout × Option HeartbeatError)) :
    HeartbeatProg (Checkout × Option HeartbeatError) := do
  let r ← p.toExcept
  match r with
  | .ok a => k a
  | .error e => pure (c, some e)

def renewals (run : ExecutionRun) : Nat → Checkout →
    HeartbeatProg (Checkout × Option HeartbeatError)
  | 0, c => pure (c,none)
  | rounds + 1, c =>
    orStop c (mayFail .emergency) fun _ =>
    orStop c (timestamp none (some run.startedAt)) fun now =>
    orStop c (renewTaskLease env c.taskLease now) fun lease =>
    let c := {c with taskLease := lease}
    orStop c (putHead env (.lease lease)) fun _ =>
    orStop c (renewLease env c.globalSlot now) fun globalSlot =>
    let c := {c with globalSlot := globalSlot}
    orStop c (renewLease env c.employeeSlot now) fun employeeSlot =>
    renewals run rounds {c with employeeSlot := employeeSlot}

def executeWithRenewal (run : ExecutionRun) (c : Checkout) :
    HeartbeatProg (Checkout × Except HeartbeatError (ProcessOutcome × Option Intent)) := do
  Prog.set .other fun w => {w with seen := w.seen.note (.executed call)}
  let rounds ← Prog.any Nat
  let renewed ← renewals env run rounds c
  let cancelled ← Prog.any Bool
  let raised ← Prog.any Bool
  let outcome ← Prog.any Nat
  let intent ← Prog.any Nat
  pure (renewed.1,
    if cancelled then .error .cancelled
    else if raised then .error (.runtime "Runtime adapter failed")
    else match renewed.2 with
      | some .emergency => .ok (env.outcome outcome, some .emergency)
      | some _ => .error (.service "Execution lease renewal failed")
      | none => .ok (env.outcome outcome, intentOf intent))

def appendOutcome (at_ : Time) : Nat → List (String × String) → HeartbeatProg Nat
  | sequence, [] => pure sequence
  | sequence, (stream,text) :: rest =>
    if env.maxTranscriptEvents - 1 ≤ sequence then pure sequence
    else do
      appendTranscript ⟨sequence, stream, "runtime_" ++ stream, text, at_⟩
      appendOutcome at_ (sequence + 1) rest

structure RunEnd where
  status : ExecutionRunStatus
  errorCode : Option String
  target : TaskStatus
  blockedReason : Option String
  sessionStatus : ExecutionSessionStatus

def runEnd (outcome : ProcessOutcome) (intent : Option Intent) : RunEnd :=
  if intent = some .emergency then
    ⟨.cancelled, some "emergency_stop", .blocked, some s!"emergency_stop:{env.runId}", .paused⟩
  else if intent = some .pause then
    ⟨.cancelled, some "paused_by_user", .blocked, some s!"execution_paused:{env.runId}", .paused⟩
  else if intent = some .cancel ∨ outcome.terminationReason = "cancelled" then
    ⟨.cancelled, some "cancelled_by_user", .cancelled, none, .completed⟩
  else if outcome.ok = true then ⟨.review, none, .review, none, .active⟩
  else
    let code := s!"runtime_{outcome.terminationReason}"
    ⟨.failed, some code, .blocked, some code, .error⟩

def budgetOf : HeartbeatProg (Option (String × Option BudgetUsage)) :=
  match a.budgetPolicyId with
  | none => pure none
  | some policyId => do
    let policy ← getRecord (.budgetPolicy,policyId)
    Prog.require policy.isSome (.service "Assignment budget policy disappeared")
    let usage ← getRecord (.budgetUsage,policyId)
    pure (some (policyId, budgetUsageOf usage))

variable (budget : Option (String × Option BudgetUsage))

def reserveBudget (now : Time) : HeartbeatProg Unit :=
  match budget with
  | none => pure ()
  | some (policyId,usage) => do
    let current := usage.getD ⟨policyId, {}, 0, 0, now⟩
    let _ ← putHead env (.budgetUsage {current with
      heartbeatCount := current.heartbeatCount + 1
      runCount := current.runCount + 1
      updatedAt := now})

def addBudgetUsage (usage : ExecutionUsage) (now : Time) : HeartbeatProg Unit :=
  match budget with
  | none => pure ()
  | some (policyId,_) => do
    let found ← getRecord (.budgetUsage,policyId)
    let current ← Prog.ofOption (budgetUsageOf found) (.service "Reserved budget usage is missing")
    let _ ← putHead env (.budgetUsage {current with
      usage := addUsage current.usage usage
      updatedAt := now})

structure Started where
  preflight : Preflight
  decision : PolicyDecision
  budget : Option (String × Option BudgetUsage)
  invocation : ExecutionInvocation
  session : ExecutionSession
  run : ExecutionRun

def changedFiles (run : ExecutionRun) (outcome : ProcessOutcome) (intent : Option Intent) :
    HeartbeatProg (List String) :=
  if outcome.ok = true ∧ intent = none then do
    let workspace ← getRecord (.workspace,run.workspaceId)
    Prog.require workspace.isSome (.service "Run workspace record is missing")
    let input ← Prog.any Nat
    Prog.ofExcept (env.changedFiles input)
  else pure []

def recordEnd (st : Started) (outcome : ProcessOutcome) (ended : RunEnd) (files : List String)
    (endedAt : Time) : HeartbeatProg HeartbeatResult := do
  let run := st.run
  let summary := env.summary ended.status outcome
  let finalRun := {run with
    changedFiles := files
    endedAt := some endedAt
    errorCode := ended.errorCode
    exitCode := outcome.exitCode
    status := ended.status
    summary := summary
    usage := outcome.usage}
  let _ ← putHead env (.run finalRun)
  let _ ← putHead env (.session {st.session with
    lastResumedAt := if run.sessionIdBefore.isSome then some endedAt else st.session.lastResumedAt
    providerSessionId := outcome.providerSessionId.or st.session.providerSessionId
    previousRunId := some run.runId
    status := ended.sessionStatus
    usageTotals := addUsage st.session.usageTotals outcome.usage})
  addBudgetUsage env st.budget outcome.usage endedAt
  comment env (if ended.status = .review then .review else .blocked) run.employeeId summary endedAt
  let result : HeartbeatResult := ⟨run.runId, ended.status, st.preflight.assignment.assignmentId,
    some finalRun, some st.invocation, some st.decision, false, false, ended.errorCode⟩
  finalizeReceipt env result
  pure result

def finishRun (st : Started) (c : Checkout) (outcome : ProcessOutcome) (intent : Option Intent)
    (endedAt : Time) : HeartbeatProg HeartbeatResult := do
  let snapshot ← taskSnapshot
  let live ← verifyLease c.taskLease.token endedAt
  Prog.require (c.taskLease.status = .active ∧ c.taskLease.taskRevision = snapshot.task.revision ∧
    live = true) (.service "Task fence changed before result collection")
  let sequence ← appendOutcome env endedAt 1 outcome.transcript
  appendTranscript ⟨sequence, "result", "runtime_result", outcome.terminationReason, endedAt⟩
  let files ← changedFiles env st.run outcome intent
  let ended := runEnd env outcome intent
  let transitioned ← transition call
    ⟨ended.target, "employee:" ++ st.run.employeeId, stateKey env ended.target,
      ended.blockedReason⟩
    snapshot.generationId (max endedAt snapshot.task.updatedAt)
  rebindAssignment env transitioned.generationId transitioned.task endedAt
  recordEnd env st outcome ended files endedAt

variable (p : Preflight) (decision : PolicyDecision)

def invocationFor (createdAt : Time) : ExecutionInvocation :=
  let seed : ExecutionInvocation := ⟨"xinv_pending",
    if env.resumedFromRunId.isNone then "manual" else "resume", p.assignment.taskGenerationId,
    p.assignment.taskRevision, p.prepared.workspace.workspaceId,
    p.prepared.graphScope.graphScopeId, decision.policyDecisionId, env.approvalId, env.key,
    createdAt⟩
  {seed with invocationId := env.invocationId seed}

def sessionFor (existing : Option ExecutionSession) (startedAt : Time) :
    HeartbeatProg ExecutionSession := do
  let resolution := env.resolveSession existing p.prepared decision
  let session ← match existing with
    | none => pure (env.createSession p.prepared decision startedAt)
    | some s =>
      if resolution.compatible = true then pure s
      else do
        let _ ← putHead env (.session {s with
          status := .incompatible
          incompatibilityReason := some (resolution.reasonCode.getD "compatibility_changed")})
        pure (env.createSession p.prepared decision startedAt)
  let _ ← putHead env (.session session)
  pure session

def startRun (existing : Option ExecutionSession) (lease : TaskLease) (startedAt : Time) :
    HeartbeatProg ExecutionSession := do
  let _ ← put env (.lease lease) none
  let _ ← put env (.invocation (invocationFor env p decision startedAt)) none
  sessionFor env p decision existing startedAt

def runFor (existing : Option ExecutionSession) (lease : TaskLease) (startedAt : Time)
    (session : ExecutionSession) : ExecutionRun :=
  let invocation := invocationFor env p decision startedAt
  let compatible := (env.resolveSession existing p.prepared decision).compatible
  { runId := env.runId
    invocationId := invocation.invocationId
    invocationSource := invocation.source
    employeeId := p.employee.employeeId
    taskId := p.assignment.taskId
    workspaceId := p.prepared.workspace.workspaceId
    graphScopeId := p.prepared.graphScope.graphScopeId
    sessionIdBefore := if compatible then existing.map ExecutionSession.sessionId else none
    sessionIdAfter := session.sessionId
    policyDecisionId := decision.policyDecisionId
    approvalId := env.approvalId
    taskLeaseId := lease.leaseId
    fencingToken := lease.fencingToken
    status := .running
    startedAt := startedAt
    endedAt := none
    exitCode := none
    usage := {}
    changedFiles := []
    summary := ""
    errorCode := none
    resumedFromRunId := env.resumedFromRunId }

def startedFor (budget : Option (String × Option BudgetUsage)) (existing : Option ExecutionSession)
    (lease : TaskLease) (startedAt : Time) (session : ExecutionSession) : Started :=
  ⟨p, decision, budget, invocationFor env p decision startedAt, session,
    runFor env p decision existing lease startedAt session⟩

def handleError (startedAt : Time) (run : Option ExecutionRun) (e : HeartbeatError) :
    HeartbeatProg HeartbeatResult :=
  match run with
  | some run =>
    if e = .cancelled then do
      let _ ← terminalizeException env call run "service_cancelled"
      throw e
    else do
      let failed ← terminalizeException env call run ("runtime_" ++ e.typeName.toLower)
      resultForRun env failed false
  | none =>
    if e = .cancelled then throw e
    else do
      let at_ ← timestamp none (some startedAt)
      blockedPreflight env call p.assignment
        { errorCode := "checkout_failed"
          policy := some decision
          detail := some e.typeName
          transitionTask := true } at_

/-- One stretch of the `try` body. When it raises, its handler runs, and then the
`finally` clause with the checkout of that moment. -/
def guarded {α : Type} (handler : HeartbeatError → HeartbeatProg HeartbeatResult) (c : Checkout)
    (p : HeartbeatProg α) (k : α → HeartbeatProg HeartbeatResult) :
    HeartbeatProg HeartbeatResult := do
  let r ← p.toExcept
  match r with
  | .ok a => k a
  | .error e => (handler e).tryFinally (releaseCheckout env call c)

def runStarted (st : Started) (c : Checkout) (startedAt : Time) : HeartbeatProg HeartbeatResult :=
  let handler := handleError env call st.preflight st.decision startedAt (some st.run)
  let start : HeartbeatProg Unit := do
    appendTranscript ⟨0, "system", "runtime_started", "Runtime started", startedAt⟩
    reserveBudget env st.budget startedAt
  guarded env call handler c start fun _ => do
    let executed ← executeWithRenewal env call st.run c
    let finish : HeartbeatProg HeartbeatResult := do
      let outcome ← Prog.ofExcept executed.2
      let endedAt ← timestamp none (some st.run.startedAt)
      finishRun env call st executed.1 outcome.1 outcome.2 endedAt
    guarded env call handler executed.1 finish fun result =>
      (Prog.pure result).tryFinally (releaseCheckout env call executed.1)

def runHeartbeat (budget : Option (String × Option BudgetUsage))
    (existing : Option ExecutionSession) (startedAt : Time) : HeartbeatProg HeartbeatResult := do
  let handler := handleError env call p decision startedAt none
  let checkout : HeartbeatProg Checkout := do
    mayFail .emergency
    checkoutTask env call p.assignment p.employee p.snapshot startedAt
  let acquired ← checkout.toExcept
  match acquired with
  | .error e => handler e
  | .ok c =>
    let rebind : HeartbeatProg TaskLease := do
      let transitioned ← transition call
        ⟨.running, "employee:" ++ p.employee.employeeId, stateKey env .running, none⟩
        p.snapshot.generationId startedAt
      rebindTaskLease env c.taskLease transitioned.generationId transitioned.task.revision
        startedAt
    guarded env call handler c rebind fun lease =>
      let c := {c with taskLease := lease}
      guarded env call handler c (startRun env p decision existing lease startedAt) fun session =>
        let st := startedFor env p decision budget existing lease startedAt session
        -- The run is bound before it is stored, so a failing put ends it.
        guarded env call (handleError env call p decision startedAt (some st.run)) c
          (putRun env call st.run) fun _ => runStarted env call st c startedAt

def approvalRecord : HeartbeatProg (Option ExecutionRecord) :=
  match env.approvalId with
  | none => pure none
  | some id => getRecord (.approval,id)

def decideHeartbeat (startedAt : Time) : HeartbeatProg HeartbeatResult := do
  let blocked (b : Blocked) := blockedPreflight env call p.assignment b startedAt
  if env.adapterKnown p.assignment.runtimeAdapterId = false then
    blocked {errorCode := "runtime_adapter_unavailable"}
  else do
    let budget ← budgetOf p.assignment
    let approval ← approvalRecord env
    if env.approvalId.isSome ∧ approval.isNone then blocked {errorCode := "approval_missing"}
    else do
      let decision := env.policy p.prepared p.snapshot.task (budget.bind Prod.snd) env.approvalId
        startedAt
      let _ ← put env (.policyDecision decision) none
      if decision.outcome = .requireApproval then
        blocked
          { errorCode := "approval_required"
            policy := some decision
            approvalRequired := true }
      else if decision.outcome = .deny then
        blocked
          { errorCode := "policy_denied"
            policy := some decision
            transitionTask := true }
      else do
        let available ← Prog.any Bool
        if available = false then
          blocked {errorCode := "runtime_adapter_unhealthy", policy := some decision}
        else do
          let existing ← readStores fun s => env.existingSession s.records
          mayFail (.runtime "Runtime request is invalid")
          runHeartbeat env call p decision budget existing startedAt

def startHeartbeat : HeartbeatProg HeartbeatResult := do
  let startedAt ← timestamp env.now none
  let a ← assignment env
  let blocked (b : Blocked) := blockedPreflight env call a b startedAt
  if env.heartbeatsEnabled = false then blocked {errorCode := "heartbeats_disabled"}
  else if env.runtimeExecutionEnabled = false then
    blocked {errorCode := "runtime_execution_disabled"}
  else do
    let allowed ← (mayFail .emergency).toExcept
    match allowed with
    | .error _ => blocked {errorCode := "emergency_runtime_disabled"}
    | .ok () => do
      let preflight ← (preflightWorkspace env a startedAt).toExcept
      match preflight with
      | .ok p => decideHeartbeat env call p startedAt
      | .error e =>
        if e.preflight = true then
          blocked
            { errorCode := "workspace_preflight_failed"
              detail := some e.typeName
              transitionTask := true }
        else throw e

def checkRun : HeartbeatProg (Option ExecutionRun) :=
  noting .checkRun
    (fun s => match RecordTable.head s.records (.run,env.runId) with
      | none => .ok (none,s)
      | some ⟨_,.run r⟩ => .ok (some r,s)
      | some _ => .error (.storeError "Stored execution record is malformed"))
    fun _ found o => o.enter call (if found.isSome then .bystander else .window)

def manualHeartbeat : HeartbeatProg HeartbeatResult := do
  let receipt ← access fun s => match s.receipt with
    | none => .ok (none,s)
    | some (request,receipt) =>
      if request = env.requestSha256 then .ok (some receipt,s)
      else .error (.storeConflict "Idempotency key belongs to another request")
  match receipt with
  | some receipt => heartbeatFromReceipt env receipt
  | none => do
    let _ ← timestamp env.now none
    let claimed ← claimOperation env
    Prog.require (claimed.runId = env.runId)
      (.storeConflict "Heartbeat idempotency key has different bindings")
    let existing ← checkRun env call
    match existing with
    | some run => do
      let result ← resultForRun env run true
      if run.status.terminal = true then finalizeReceipt env result else pure ()
      pure result
    | none => startHeartbeat env call

def heartbeatCall : HeartbeatProg HeartbeatResult :=
  (manualHeartbeat env call).tryFinally
    (Prog.set .other fun w => {w with seen := (w.seen.enter call .ended).note (.left call)})

end RaytSystem.Execution
