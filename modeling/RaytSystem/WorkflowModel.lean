import Mathlib
import RaytSystem.PyText
import RaytSystem.RecordTable

/-! Workflow revisions, runs and step runs, and the acceptance of a revision's graph. -/
namespace RaytSystem.Workflow
open RecordTable

inductive NodeType where
  | task | agent | deterministicCommand | review | approval | condition | wait | artifact
  | notification | subworkflow
  deriving DecidableEq, Repr

structure WorkflowNode where
  nodeId : String
  nodeType : NodeType
  operationId : Option String
  approvalGateId : Option String
  retryPolicyId : Option String
  timeoutSeconds : Nat
  deriving DecidableEq, Repr

structure WorkflowEdge where
  sourceNodeId : String
  targetNodeId : String
  noSelfCycle : sourceNodeId ≠ targetNodeId

structure WorkflowRevision where
  revisionId : String
  workflowId : String
  nodes : List WorkflowNode
  edges : List WorkflowEdge
  nonempty : nodes ≠ []
  unique : (nodes.map WorkflowNode.nodeId).Nodup
  known : ∀ e ∈ edges, e.sourceNodeId ∈ nodes.map WorkflowNode.nodeId ∧
    e.targetNodeId ∈ nodes.map WorkflowNode.nodeId

namespace WorkflowRevision

variable (rev : WorkflowRevision) (nodeId : String)

def node : Option WorkflowNode :=
  rev.nodes.find? (·.nodeId == nodeId)

def outgoing : List String :=
  (rev.edges.filter (·.sourceNodeId == nodeId)).map WorkflowEdge.targetNodeId

def dependencies : List String :=
  (rev.edges.filter (·.targetNodeId == nodeId)).map WorkflowEdge.sourceNodeId

def indegree : Nat :=
  rev.edges.countP (·.targetNodeId == nodeId)

theorem mem_dependencies {rev : WorkflowRevision} {nodeId parent : String} :
    parent ∈ rev.dependencies nodeId ↔
      ∃ e ∈ rev.edges, e.targetNodeId = nodeId ∧ e.sourceNodeId = parent := by
  simp [dependencies, and_assoc]

end WorkflowRevision

inductive WorkflowFault where
  | workflowError (message : String)
  | platformStoreError (message : String)
  | valueError (message : String)
  | emergencyError
  | keyError (key : String)
  deriving DecidableEq, Repr

def releaseTargets : List String → (String → Int) → (String → Int) × List String
  | [], indegree => (indegree, [])
  | target :: rest, indegree =>
    let next := Function.update indegree target (indegree target - 1)
    let tail := releaseTargets rest next
    (tail.1, if next target = 0 then target :: tail.2 else tail.2)

/-- The queue loop of `validate_dag`. Each round takes one node that no later round
queues again, so the number of nodes bounds the rounds. -/
def drainQueue (outgoing : String → List String) :
    Nat → List String → (String → Int) → List String → List String
  | 0, _, _, ordered => ordered
  | _ + 1, [], _, ordered => ordered
  | fuel + 1, nodeId :: queue, indegree, ordered =>
    let released := releaseTargets (PyText.sorted (outgoing nodeId)) indegree
    drainQueue outgoing fuel (queue ++ released.2) released.1 (ordered ++ [nodeId])

def forbiddenTokens : List Char := [' ', ';', '|', '&', '$', Char.ofNat 0x60]

def checkNode (registered : String → Bool) (node : WorkflowNode) : Except WorkflowFault Unit :=
  if node.nodeType = .deterministicCommand then
    match node.operationId with
    | none =>
      .error (.workflowError "Deterministic commands require a registered operation ID")
    | some operationId =>
      if !registered operationId then
        .error (.workflowError "Deterministic commands require a registered operation ID")
      else if operationId.toList.any (forbiddenTokens.contains ·) then
        .error (.workflowError "Raw shell commands are forbidden")
      else .ok ()
  else .ok ()

def checkNodes (registered : String → Bool) : List WorkflowNode → Except WorkflowFault Unit
  | [] => .ok ()
  | node :: rest => match checkNode registered node with
    | .ok () => checkNodes registered rest
    | .error e => .error e

def validateDag (registered : String → Bool) (rev : WorkflowRevision) :
    Except WorkflowFault (List String) :=
  if ¬(rev.edges.map fun e => (e.sourceNodeId, e.targetNodeId)).Nodup then
    .error (.workflowError "Duplicate workflow edge")
  else
    let nodeIds := rev.nodes.map WorkflowNode.nodeId
    let queue := PyText.sorted (nodeIds.filter (rev.indegree · == 0))
    let ordered := drainQueue rev.outgoing rev.nodes.length queue (fun n => rev.indegree n) []
    if ordered.length ≠ rev.nodes.length then
      .error (.workflowError "Workflow DAG contains a cycle")
    else match checkNodes registered rev.nodes with
      | .ok () => .ok ordered
      | .error e => .error e

inductive RunState where
  | planned | running | paused | cancelled | succeeded | failed
  deriving DecidableEq, Repr

inductive StepState where
  | pending | running | waiting | paused | skipped | succeeded | failed | cancelled
  deriving DecidableEq, Repr

def RunState.cancellable (s : RunState) : Bool :=
  s == .planned || s == .running || s == .paused

def StepState.done (s : StepState) : Bool := s == .succeeded || s == .skipped

structure WorkflowStepRun where
  stepRunId : String
  workflowRunId : String
  nodeId : String
  state : StepState
  attempt : Nat
  idempotencyKey : String
  inputSha256 : String
  outputSha256 : Option String
  approvalId : Option String
  startedAt : Option Int
  completedAt : Option Int
  deriving DecidableEq, Repr

structure WorkflowRun where
  workflowRunId : String
  revisionId : String
  state : RunState
  inputSha256 : String
  stepRunIds : List String
  replayOfRunId : Option String
  startedAt : Int
  completedAt : Option Int
  deriving DecidableEq, Repr

structure StepRecord (J : Type) where
  step : WorkflowStepRun
  output : Option J
  failureReason : Option String

structure RunRecord (J : Type) where
  run : WorkflowRun
  inputs : List (String × J)

structure WorkflowApprovalGate where
  requiredRole : String
  expiresAfterSeconds : Nat

inductive Backoff where
  | none | linear | exponential
  deriving DecidableEq, Repr

structure WorkflowRetryPolicy where
  maxAttempts : Nat
  initialDelayMs : Nat
  maximumDelayMs : Nat
  backoff : Backoff

def retryDelayMs (policy : WorkflowRetryPolicy) (attempt : Nat) : Nat :=
  let delay := match policy.backoff with
    | .linear => policy.initialDelayMs * attempt
    | .exponential => policy.initialDelayMs * 2 ^ (attempt - 1)
    | .none => policy.initialDelayMs
  if policy.maximumDelayMs = 0 then delay else min delay policy.maximumDelayMs

inductive EventValue where
  | text (s : String)
  | number (n : Nat)
  deriving DecidableEq, Repr

structure AuditEvent where
  streamId : String
  aggregateId : String
  eventType : String
  actorId : String
  payloadSchema : String
  payload : List (String × EventValue)
  deriving DecidableEq, Repr

structure WorkflowWorld (J : Type) where
  steps : Table String (StepRecord J)
  runs : Table String (RunRecord J)
  events : List AuditEvent

def WorkflowWorld.empty (J : Type) : WorkflowWorld J := ⟨fun _ => [], fun _ => [], []⟩

def stepState {J : Type} (w : WorkflowWorld J) (stepRunId : String) : Option StepState :=
  (head w.steps stepRunId).map fun s => s.value.step.state

end RaytSystem.Workflow
