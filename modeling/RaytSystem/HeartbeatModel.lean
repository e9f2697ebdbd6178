import RaytSystem.ControlLease
import RaytSystem.RecordTable
import RaytSystem.StepProgram
import RaytSystem.TaskModel

/-! What a heartbeat reads and writes: the operation row and the leases of the control
database, the typed records of the execution store, and the task on the board. -/
namespace RaytSystem.Execution
open Control Tasking RecordTable

inductive ExecutionRunStatus where
  | queued | preparing | running | paused | cancelling | cancelled | succeeded | review
  | blocked | failed
  deriving DecidableEq, Repr

def ExecutionRunStatus.terminal (s : ExecutionRunStatus) : Bool :=
  s == .cancelled || s == .succeeded || s == .review || s == .blocked || s == .failed

inductive TaskLeaseStatus where
  | active | frozen | released | expired | revoked
  deriving DecidableEq, Repr

inductive ExecutionSessionStatus where
  | active | paused | completed | incompatible | error
  deriving DecidableEq, Repr

inductive CommentKind where
  | blocked | review
  deriving DecidableEq, Repr

inductive PolicyOutcome where
  | allow | requireApproval | deny
  deriving DecidableEq, Repr

abbrev Time := Int

def milliseconds (t : Time) : Int := t / 1000

structure ExecutionUsage where
  inputTokens : Nat := 0
  outputTokens : Nat := 0
  cachedTokens : Nat := 0
  estimatedCostMicros : Option Nat := none
  actualCostMicros : Option Nat := none
  deriving DecidableEq

def sumOptional (left right : Option Nat) : Option Nat :=
  if left = none ∧ right = none then none else some (left.getD 0 + right.getD 0)

def addUsage (left right : ExecutionUsage) : ExecutionUsage where
  inputTokens := left.inputTokens + right.inputTokens
  outputTokens := left.outputTokens + right.outputTokens
  cachedTokens := left.cachedTokens + right.cachedTokens
  estimatedCostMicros := sumOptional left.estimatedCostMicros right.estimatedCostMicros
  actualCostMicros := sumOptional left.actualCostMicros right.actualCostMicros

structure TaskAssignment where
  assignmentId : String
  taskId : String
  taskGenerationId : Nat
  taskRevision : Nat
  employeeId : String
  runtimeAdapterId : String
  budgetPolicyId : Option String
  graphScopeId : Option String
  active : Bool
  revision : Nat
  updatedAt : Time
  deriving DecidableEq

structure TaskGraphScope where
  graphScopeId : String
  taskId : String
  graphSnapshotId : String
  deriving DecidableEq

structure TaskWorkspace where
  workspaceId : String
  taskId : String
  mode : String
  graphSnapshotId : String
  manifestSha256 : String
  deriving DecidableEq

structure PolicyDecision where
  policyDecisionId : String
  outcome : PolicyOutcome
  evaluatedAt : Time
  deriving DecidableEq

structure TaskLease where
  leaseId : String
  taskId : String
  employeeId : String
  runId : String
  taskGenerationId : Nat
  taskRevision : Nat
  controlEpoch : String
  fencingToken : Nat
  acquiredAt : Time
  expiresAt : Time
  status : TaskLeaseStatus
  deriving DecidableEq

structure ExecutionInvocation where
  invocationId : String
  source : String
  taskGenerationId : Nat
  taskRevision : Nat
  workspaceId : String
  graphScopeId : String
  policyDecisionId : String
  approvalId : Option String
  idempotencyKey : String
  createdAt : Time
  deriving DecidableEq

structure ExecutionSession where
  sessionId : String
  providerSessionId : Option String
  compatibilitySha256 : String
  startedAt : Time
  lastResumedAt : Option Time
  status : ExecutionSessionStatus
  previousRunId : Option String
  usageTotals : ExecutionUsage
  incompatibilityReason : Option String
  deriving DecidableEq

structure ExecutionRun where
  runId : String
  invocationId : String
  invocationSource : String
  employeeId : String
  taskId : String
  workspaceId : String
  graphScopeId : String
  sessionIdBefore : Option String
  sessionIdAfter : String
  policyDecisionId : String
  approvalId : Option String
  taskLeaseId : String
  fencingToken : Nat
  status : ExecutionRunStatus
  startedAt : Time
  endedAt : Option Time
  exitCode : Option Int
  usage : ExecutionUsage
  changedFiles : List String
  summary : String
  errorCode : Option String
  resumedFromRunId : Option String
  deriving DecidableEq

structure BudgetUsage where
  budgetPolicyId : String
  usage : ExecutionUsage
  runCount : Nat
  heartbeatCount : Nat
  updatedAt : Time
  deriving DecidableEq

structure ExecutionComment where
  commentId : String
  kind : CommentKind
  actor : String
  body : String
  createdAt : Time
  deriving DecidableEq

inductive ExecutionRecord where
  | assignment (a : TaskAssignment)
  | approval (approvalId : String)
  | budgetPolicy (budgetPolicyId : String)
  | budgetUsage (u : BudgetUsage)
  | comment (c : ExecutionComment)
  | graphScope (g : TaskGraphScope)
  | invocation (i : ExecutionInvocation)
  | lease (l : TaskLease)
  | policyDecision (d : PolicyDecision)
  | run (r : ExecutionRun)
  | session (s : ExecutionSession)
  | workspace (w : TaskWorkspace)
  deriving DecidableEq

inductive RecordKind where
  | assignment | approval | budgetPolicy | budgetUsage | comment | graphScope | invocation
  | lease | policyDecision | run | session | workspace
  deriving DecidableEq, Repr

abbrev RecordKey := RecordKind × String

namespace ExecutionRecord

def key : ExecutionRecord → RecordKey
  | assignment a => (.assignment,a.assignmentId)
  | approval id => (.approval,id)
  | budgetPolicy id => (.budgetPolicy,id)
  | budgetUsage u => (.budgetUsage,u.budgetPolicyId)
  | comment c => (.comment,c.commentId)
  | graphScope g => (.graphScope,g.graphScopeId)
  | invocation i => (.invocation,i.invocationId)
  | lease l => (.lease,l.leaseId)
  | policyDecision d => (.policyDecision,d.policyDecisionId)
  | run r => (.run,r.runId)
  | session s => (.session,s.sessionId)
  | workspace w => (.workspace,w.workspaceId)

def carries (revision : Nat) : ExecutionRecord → Bool
  | assignment a => a.revision == revision
  | _ => true

end ExecutionRecord

def RecordKind.immutable : RecordKind → Bool
  | approval | budgetPolicy | comment | graphScope | invocation | policyDecision => true
  | assignment | budgetUsage | lease | run | session | workspace => false

inductive HeartbeatError where
  | service (message : String)
  | assignment (message : String)
  | concurrency (message : String)
  | workspace
  | storeConflict (message : String)
  | storeError (message : String)
  | database
  | ledger (message : String)
  | conflict (message : String)
  | transitionRejected (message : String)
  | emergency
  | control (e : ControlError)
  | runtime (message : String)
  | keyError
  | cancelled
  deriving DecidableEq

namespace HeartbeatError

def typeName : HeartbeatError → String
  | service _ => "ExecutionServiceError"
  | assignment _ => "ExecutionAssignmentError"
  | concurrency _ => "ExecutionConcurrencyError"
  | workspace => "WorkspaceError"
  | storeConflict _ => "ExecutionStoreConflict"
  | storeError _ => "ExecutionStoreError"
  | database => "OperationalError"
  | ledger _ => "TaskLedgerError"
  | conflict _ => "TaskConflict"
  | transitionRejected _ => "TaskTransitionRejected"
  | emergency => "EmergencyError"
  | control (.leaseBusy _) => "LeaseBusy"
  | control (.valueError _) => "ValueError"
  | runtime _ => "RuntimeError"
  | keyError => "KeyError"
  | cancelled => "CancelledError"

def preflight : HeartbeatError → Bool
  | service _ | assignment _ | concurrency _ | workspace => true
  | _ => false

end HeartbeatError

def putRecord (records : RecordTable.Table RecordKey ExecutionRecord) (record : ExecutionRecord)
    (expected : Option Nat) :
    Except HeartbeatError (Nat × RecordTable.Table RecordKey ExecutionRecord) :=
  let head := head records record.key
  let revision := head.elim 1 fun h => h.revision + 1
  if head.map RecordTable.Stored.value = some record then
    .ok (head.elim 0 RecordTable.Stored.revision, records)
  else if record.key.1.immutable = true ∧ head.isSome then
    .error (.storeConflict "Immutable execution record identity collision")
  else if expected ≠ head.map RecordTable.Stored.revision then
    .error (.storeConflict "Execution record revision changed")
  else if record.carries revision = false then
    .error (.storeConflict "Assignment revision must advance exactly once")
  else .ok (revision, push records record.key record)

theorem putRecord_extends {t t' : RecordTable.Table RecordKey ExecutionRecord}
    {record : ExecutionRecord} {expected : Option Nat} {revision : Nat}
    (h : putRecord t record expected = .ok (revision,t')) :
    RecordTable.Extends t t' ∧ head t' record.key ≠ none := by
  simp only [putRecord] at h
  split at h
  next hsame =>
    cases h
    refine ⟨extends_refl t, ?_⟩
    intro hnone
    rw [hnone] at hsame
    cases hsame
  next =>
    split at h
    · cases h
    · split at h
      · cases h
      · split at h
        · cases h
        · cases h
          refine ⟨push_extends _ _ _, ?_⟩
          rw [head_push]
          exact Option.some_ne_none _

structure BoardTask where
  status : TaskStatus
  revision : Nat
  updatedAt : Time
  deriving DecidableEq

structure TransitionCommand where
  target : TaskStatus
  actor : String
  idempotencyKey : String
  blockedReason : Option String
  deriving DecidableEq

structure TransitionResult where
  generationId : Nat
  task : BoardTask
  noOp : Bool
  deriving DecidableEq

structure BoardEvent where
  command : TransitionCommand
  result : TransitionResult
  deriving DecidableEq

structure TaskBoard where
  generationId : Nat
  task : BoardTask
  dependenciesDone : Bool
  events : List BoardEvent
  deriving DecidableEq

def TransitionCommand.sameKey (c c' : TransitionCommand) : Bool :=
  c.actor == c'.actor && c.idempotencyKey == c'.idempotencyKey

def findOperation (c : TransitionCommand) :
    List BoardEvent → Except HeartbeatError (Option TransitionResult)
  | [] => .ok none
  | e :: older =>
    if e.command = c then .ok (some e.result)
    else if e.command.sameKey c = true then
      .error (.conflict "Idempotency key was already used for another command")
    else findOperation c older

def transitionTask (b : TaskBoard) (c : TransitionCommand) (expectedGenerationId : Nat)
    (now : Time) : Except HeartbeatError (TransitionResult × TaskBoard) :=
  match findOperation c b.events with
  | .error e => .error e
  | .ok (some result) => .ok ({result with noOp := true}, b)
  | .ok none =>
    if expectedGenerationId ≠ b.generationId then
      .error (.conflict "Task board generation changed")
    else if c.target ∉ b.task.status.transitions then
      .error (.transitionRejected
        s!"Illegal task transition: {b.task.status.value} -> {c.target.value}")
    else if c.target.gated = true ∧ b.dependenciesDone = false then
      .error (.transitionRejected "Task dependencies are not complete")
    else if now < b.task.updatedAt then
      .error (.transitionRejected "Task transition timestamp cannot move backwards")
    else if c.target = .blocked ∧ c.blockedReason = none then
      .error (.transitionRejected "Task transition payload is invalid")
    else
      let result : TransitionResult := ⟨b.generationId + 1, ⟨c.target, b.task.revision + 1, now⟩,
        false⟩
      .ok (result, {b with
        generationId := result.generationId
        task := result.task
        events := ⟨c,result⟩ :: b.events})

structure HeartbeatReceipt where
  assignmentId : String
  errorCode : Option String
  invocationId : Option String
  policyDecisionId : Option String
  runId : String
  status : ExecutionRunStatus
  deriving DecidableEq

structure OperationRow where
  runId : String
  state : String
  result : Option HeartbeatReceipt
  errorCode : Option String
  deriving DecidableEq

structure TranscriptEvent where
  sequence : Nat
  stream : String
  eventType : String
  text : String
  createdAt : Time
  deriving DecidableEq

structure HeartbeatStores where
  leases : LeaseTable
  operation : Option OperationRow
  receipt : Option (String × HeartbeatReceipt)
  records : RecordTable.Table RecordKey ExecutionRecord
  transcript : List TranscriptEvent
  board : TaskBoard

end RaytSystem.Execution
