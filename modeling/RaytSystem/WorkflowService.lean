import RaytSystem.RelyGuarantee
import RaytSystem.WorkflowModel

/-! The commands of the workflow service, cut at their reads and transactions of the
platform store. Every command may be interleaved with any other at each access. -/
namespace RaytSystem.Workflow
open Interleaving RecordTable

structure StartRequest where
  revisionId : String
  inputsSha256 : String
  replayOfRunId : Option String
  idempotencyKey : String
  deriving DecidableEq, Repr

structure WorkflowEnv (J : Type) where
  enabled : Bool
  operation : String → Option (List (String × J) → Except Unit (Option J))
  revision : String → Option WorkflowRevision
  approvalGate : String → Option WorkflowApprovalGate
  retryPolicy : String → Option WorkflowRetryPolicy
  safePayload : String → J → Except WorkflowFault String
  object : List (String × String) → J
  inputsObject : List (String × J) → J
  workflowRunId : StartRequest → String
  stepRunId : String → String → String
  idempotencyKey : String → String → String

abbrev WorkflowProg (J α : Type) := Prog (WorkflowWorld J) Unit WorkflowFault α

variable {J : Type}

def validToken (value : String) : Bool :=
  !value.isEmpty && value.length ≤ 256 && !value.toList.any PyText.isSpace

variable (env : WorkflowEnv J)

def requireEnabled : WorkflowProg J Unit :=
  Prog.require (env.enabled = true) (.workflowError "Workflow engine is disabled")

def assertRuntimeAllowed : WorkflowProg J Unit := do
  let allowed ← Prog.any Bool
  Prog.require (allowed = true) .emergencyError

variable (workflowRunId : String)

def headRun : WorkflowProg J (Option (Stored (RunRecord J))) := do
  Prog.require (validToken workflowRunId = true) (.valueError "Invalid record ID")
  Prog.get () fun w => head w.runs workflowRunId

def headStep (stepRunId : String) : WorkflowProg J (Option (Stored (StepRecord J))) := do
  Prog.require (validToken stepRunId = true) (.valueError "Invalid record ID")
  Prog.get () fun w => head w.steps stepRunId

def appendStep (stepRunId : String) (expected : Option Nat) (r : StepRecord J) :
    WorkflowProg J Nat := do
  Prog.require (validToken stepRunId = true) (.valueError "Invalid record ID")
  Prog.attempt () fun w => match append w.steps stepRunId expected r with
    | some steps => .ok ((w.steps stepRunId).length + 1, {w with steps := steps})
    | none => .error (.platformStoreError "Record revision changed")

def appendRun (expected : Option Nat) (r : RunRecord J) : WorkflowProg J Unit := do
  Prog.require (validToken workflowRunId = true) (.valueError "Invalid record ID")
  Prog.attempt () fun w => match append w.runs workflowRunId expected r with
    | some runs => .ok ((), {w with runs := runs})
    | none => .error (.platformStoreError "Record revision changed")

def appendEvent (e : AuditEvent) : WorkflowProg J Unit := do
  Prog.require (validToken e.streamId = true) (.valueError "Invalid stream ID")
  Prog.require (validToken e.aggregateId = true) (.valueError "Invalid aggregate ID")
  Prog.require (validToken e.actorId = true) (.valueError "Invalid actor ID")
  Prog.set () fun w => {w with events := w.events ++ [e]}

def engineActor : String := "raytsystem_workflow_engine"

def persistRun (run : WorkflowRun) (expectedRevision : Nat) (inputs : List (String × J)) :
    WorkflowProg J Unit :=
  appendRun run.workflowRunId (some expectedRevision) ⟨run, inputs⟩

def persistStep (step : WorkflowStepRun) (expectedRevision : Nat) (output : Option J)
    (failureReason : Option String) : WorkflowProg J Nat :=
  appendStep step.stepRunId (some expectedRevision) ⟨step, output, failureReason⟩

def runNotIn (expected : String) : WorkflowFault :=
  .workflowError s!"Workflow run must be {expected} for this transition"

def loadRun : WorkflowProg J (Stored (RunRecord J)) := do
  let record ← headRun workflowRunId
  Prog.ofOption record (.workflowError "Workflow run does not exist")

def loadRunningRun : WorkflowProg J (Stored (RunRecord J)) := do
  let record ← loadRun workflowRunId
  Prog.require (record.value.run.state = .running) (runNotIn "running")
  pure record

def stepRecords : List String → (String → Option (Stored (StepRecord J))) →
    WorkflowProg J (String → Option (Stored (StepRecord J)))
  | [], records => pure records
  | stepId :: rest, records => do
    let found ← headStep stepId
    let record ← Prog.ofOption found (.workflowError "Workflow step record is missing")
    stepRecords rest (Function.update records record.value.step.nodeId (some record))

def loadRevision (revisionId : String) : WorkflowProg J WorkflowRevision :=
  Prog.ofOption (env.revision revisionId) (.workflowError "Workflow revision does not exist")

variable (node : WorkflowNode)

def loadRetryPolicy : WorkflowProg J (Option WorkflowRetryPolicy) :=
  match node.retryPolicyId with
  | none => pure none
  | some retryPolicyId => do
    let policy ← Prog.ofOption (env.retryPolicy retryPolicyId)
      (.workflowError "Workflow retry policy is missing")
    pure (some policy)

def loadApprovalGate : WorkflowProg J WorkflowApprovalGate := do
  let approvalGateId ← Prog.ofOption node.approvalGateId
    (.workflowError "Approval nodes require a typed approval gate")
  Prog.ofOption (env.approvalGate approvalGateId)
    (.workflowError "Workflow approval gate is missing")

def limitReached (step : WorkflowStepRun) (seconds : Nat) (now : Int) : Bool :=
  step.startedAt.any fun started => started + 1000000 * seconds ≤ now

def stepEvent (step : WorkflowStepRun) (eventType actorId : String)
    (payload : List (String × EventValue)) : AuditEvent :=
  ⟨step.workflowRunId, step.stepRunId, eventType, actorId, "workflow_step_run_v1", payload⟩

def runEvent (workflowRunId eventType actorId : String)
    (payload : List (String × EventValue)) : AuditEvent :=
  ⟨workflowRunId, workflowRunId, eventType, actorId, "workflow_run_v1", payload⟩

def failStep (step : WorkflowStepRun) (expectedRevision : Nat) (now : Int) (reason : String) :
    WorkflowProg J Unit := do
  let started := step.startedAt.getD now
  let _ ← persistStep
    {step with state := .failed, startedAt := some started, completedAt := some now}
    expectedRevision none (some reason)
  appendEvent (stepEvent step "workflow_step_failed" engineActor
    [("node_id", .text step.nodeId), ("reason", .text reason), ("attempt", .number step.attempt)])

def completeStep (current : WorkflowStepRun) (revision : Nat) (now : Int) (output : J) :
    WorkflowProg J (Option J) :=
  match env.safePayload "Workflow output" output with
  | .error _ => do
    failStep current revision now "output_rejected"
    pure none
  | .ok outputSha256 => do
    let completed := {current with
      state := .succeeded
      outputSha256 := some outputSha256
      startedAt := some now
      completedAt := some now}
    let _ ← persistStep completed revision (some output) none
    appendEvent (stepEvent current "workflow_step_succeeded" engineActor
      [("node_id", .text current.nodeId), ("output_sha256", .text outputSha256)])
    pure (some output)

def driveAttempts (env : WorkflowEnv J) (policy : Option WorkflowRetryPolicy)
    (operation : List (String × J) → Except Unit (Option J)) (inputs : List (String × J))
    (now : Int) : Nat → WorkflowStepRun → Nat → WorkflowProg J (Option J)
  | retries, current, revision =>
    match operation inputs with
    | .error () => match retries, policy with
      | retries + 1, some policy => do
        let next := {current with attempt := current.attempt + 1, startedAt := some now}
        let revision ← persistStep next revision none none
        appendEvent (stepEvent current "workflow_step_retry" engineActor
          [("node_id", .text current.nodeId), ("attempt", .number (current.attempt + 1)),
            ("delay_ms", .number (retryDelayMs policy current.attempt))])
        driveAttempts env (some policy) operation inputs now retries next revision
      | _, _ => do
        failStep current revision now "operation_error"
        pure none
    | .ok none => do
      failStep current revision now "invalid_output"
      pure none
    | .ok (some output) => completeStep env current revision now output

variable (record : Stored (StepRecord J))

def driveDeterministic (inputs : List (String × J)) (now : Int) : WorkflowProg J (Option J) := do
  let operation ← Prog.ofOption (node.operationId.bind env.operation)
    (.workflowError "Registered operation disappeared")
  let step := record.value.step
  if limitReached step node.timeoutSeconds now then do
    failStep step record.revision now "timeout"
    pure none
  else do
    let policy ← loadRetryPolicy env node
    let maxAttempts := policy.elim 1 WorkflowRetryPolicy.maxAttempts
    driveAttempts env policy operation inputs now (maxAttempts - step.attempt) step
      record.revision

def expiryLimit : WorkflowProg J (Nat × String) :=
  if node.nodeType = .approval then do
    let gate ← loadApprovalGate env node
    pure (gate.expiresAfterSeconds, "approval_expired")
  else pure (node.timeoutSeconds, "timeout")

def expireStep (now : Int) : WorkflowProg J Bool := do
  let limit ← expiryLimit env node
  if limitReached record.value.step limit.1 now then do
    failStep record.value.step record.revision now limit.2
    pure true
  else pure false

def setInput (inputs : List (String × J)) (key : String) (value : J) : List (String × J) :=
  if inputs.any (·.1 == key) then
    inputs.map fun kv => if kv.1 == key then (key,value) else kv
  else inputs ++ [(key,value)]

structure PassResult where
  states : String → Option StepState
  failed : Bool
  blocked : Bool

def parkStep (state : StepState) (now : Int) : WorkflowProg J Nat :=
  persistStep {record.value.step with state := state, startedAt := some now} record.revision
    none none

def passSteps (env : WorkflowEnv J) (rev : WorkflowRevision)
    (records : String → Option (Stored (StepRecord J))) (now : Int) :
    List String → (String → Option StepState) → List (String × J) → WorkflowProg J PassResult
  | [], states, _ => pure ⟨states, false, false⟩
  | nodeId :: rest, states, inputs => do
    let state ← Prog.ofOption (states nodeId) (.keyError nodeId)
    if state.done then passSteps env rev records now rest states inputs
    else if state = .failed ∨ state = .cancelled then pure ⟨states, true, false⟩
    else if !(rev.dependencies nodeId).all (fun parent => (states parent).any StepState.done) then
      passSteps env rev records now rest states inputs
    else do
      let node ← Prog.ofOption (rev.node nodeId) (.keyError nodeId)
      let record ← Prog.ofOption (records nodeId) (.keyError nodeId)
      if state = .waiting ∨ state = .running then do
        let expired ← expireStep env node record now
        pure ⟨states, expired, !expired⟩
      else if state = .paused then pure ⟨states, false, true⟩
      else if node.nodeType = .approval ∨ node.nodeType = .wait then do
        let _ ← parkStep record .waiting now
        pure ⟨Function.update states nodeId (some .waiting), false, true⟩
      else if node.nodeType ≠ .deterministicCommand then do
        let _ ← parkStep record .paused now
        pure ⟨Function.update states nodeId (some .paused), false, true⟩
      else do
        let output ← driveDeterministic env node record inputs now
        match output with
        | none => pure ⟨states, true, false⟩
        | some output =>
          passSteps env rev records now rest
            (Function.update states nodeId (some .succeeded)) (setInput inputs nodeId output)

def priorInputs (records : String → Option (Stored (StepRecord J))) :
    List String → List (String × J) → List (String × J)
  | [], inputs => inputs
  | nodeId :: rest, inputs =>
    match records nodeId with
    | some ⟨_, ⟨step, some output, _⟩⟩ =>
      priorInputs records rest
        (if step.state = .succeeded then setInput inputs nodeId output else inputs)
    | _ => priorInputs records rest inputs

def runReadySteps (now : Int) : WorkflowProg J WorkflowRun := do
  requireEnabled env
  assertRuntimeAllowed
  let record ← loadRun workflowRunId
  let run := record.value.run
  if run.state ≠ .running then pure run
  else do
    let rev ← loadRevision env run.revisionId
    let order ← Prog.ofExcept (validateDag (fun op => (env.operation op).isSome) rev)
    let records ← stepRecords run.stepRunIds fun _ => none
    let states := fun nodeId => (records nodeId).map fun r => r.value.step.state
    let result ← passSteps env rev records now order states
      (priorInputs records order record.value.inputs)
    let finalState : RunState :=
      if result.failed then .failed
      else if !result.blocked && order.all (fun n => (result.states n).any StepState.done) then
        .succeeded
      else .running
    let updated := {run with
      state := finalState
      completedAt := if finalState = .running then none else some now}
    persistRun updated record.revision record.value.inputs
    appendEvent (runEvent workflowRunId "workflow_state_changed" engineActor
      [("state", .text (match finalState with
        | .failed => "failed"
        | .succeeded => "succeeded"
        | _ => "running"))])
    pure updated

def waitingStep (run : WorkflowRun) (nodeId : String) (expected : NodeType) :
    WorkflowProg J (WorkflowNode × Stored (StepRecord J)) := do
  let refused : WorkflowFault := .workflowError "Workflow node does not accept this transition"
  let rev ← loadRevision env run.revisionId
  let node ← Prog.ofOption (rev.node nodeId) refused
  Prog.require (node.nodeType = expected) refused
  let records ← stepRecords run.stepRunIds fun _ => none
  let record ← Prog.ofOption (records nodeId) (.workflowError "Workflow step is not waiting")
  Prog.require (record.value.step.state = .waiting) (.workflowError "Workflow step is not waiting")
  pure (node,record)

def grantApproval (workflowRunId nodeId approvalId actorId : String) (now : Int) :
    WorkflowProg J WorkflowRun := do
  requireEnabled env
  assertRuntimeAllowed
  Prog.require (approvalId.isEmpty = false)
    (.workflowError "Workflow approval requires an explicit approval ID")
  let run ← loadRunningRun workflowRunId
  let (node, record) ← waitingStep env run.value.run nodeId .approval
  let gate ← loadApprovalGate env node
  let step := record.value.step
  if limitReached step gate.expiresAfterSeconds now then do
    let _ ← persistStep {step with state := .failed, completedAt := some now} record.revision
      none (some "approval_expired")
    Prog.fail (.workflowError "Workflow approval gate has expired")
  else do
    -- the authority resolver may accept or refuse the approval
    let authorized ← Prog.any Bool
    Prog.require (authorized = true) (.workflowError "Workflow approval authority is invalid")
    let output := env.object [("approval_id",approvalId), ("granted_by",actorId)]
    let outputSha256 ← Prog.ofExcept (env.safePayload "Workflow output" output)
    let granted := {step with
      state := .succeeded
      approvalId := some approvalId
      outputSha256 := some outputSha256
      completedAt := some now}
    let _ ← persistStep granted record.revision (some output) none
    appendEvent (stepEvent step "workflow_approval_granted" actorId
      [("node_id", .text nodeId), ("approval_id", .text approvalId)])
    pure run.value.run

def denyApproval (workflowRunId nodeId actorId : String) (now : Int) :
    WorkflowProg J WorkflowRun := do
  requireEnabled env
  assertRuntimeAllowed
  let run ← loadRunningRun workflowRunId
  let (_, record) ← waitingStep env run.value.run nodeId .approval
  let step := record.value.step
  let _ ← persistStep {step with state := .failed, completedAt := some now} record.revision
    none (some "approval_denied")
  let failedRun := {run.value.run with state := .failed, completedAt := some now}
  persistRun failedRun run.revision run.value.inputs
  appendEvent (stepEvent step "workflow_approval_denied" actorId [("node_id", .text nodeId)])
  pure failedRun

def wake (workflowRunId nodeId actorId : String) (now : Int) : WorkflowProg J WorkflowRun := do
  requireEnabled env
  assertRuntimeAllowed
  let run ← loadRunningRun workflowRunId
  let (node, record) ← waitingStep env run.value.run nodeId .wait
  let step := record.value.step
  if limitReached step node.timeoutSeconds now then do
    let _ ← persistStep {step with state := .failed, completedAt := some now} record.revision
      none (some "timeout")
    Prog.fail (.workflowError "Workflow wait step has timed out")
  else do
    let output := env.object [("woken_by",actorId)]
    let outputSha256 ← Prog.ofExcept (env.safePayload "Workflow output" output)
    let woken := {step with
      state := .succeeded
      outputSha256 := some outputSha256
      completedAt := some now}
    let _ ← persistStep woken record.revision (some output) none
    appendEvent (stepEvent step "workflow_step_woken" actorId [("node_id", .text nodeId)])
    pure run.value.run

def transitionRun (workflowRunId actorId : String) (expected next : RunState)
    (expectedName nextName eventType : String) : WorkflowProg J WorkflowRun := do
  let record ← loadRun workflowRunId
  Prog.require (record.value.run.state = expected) (runNotIn expectedName)
  let updated := {record.value.run with state := next}
  persistRun updated record.revision record.value.inputs
  appendEvent (runEvent workflowRunId eventType actorId [("state", .text nextName)])
  pure updated

def pause (workflowRunId actorId : String) : WorkflowProg J WorkflowRun := do
  requireEnabled env
  transitionRun workflowRunId actorId .running .paused "running" "paused" "workflow_paused"

def resume (workflowRunId actorId : String) : WorkflowProg J WorkflowRun := do
  requireEnabled env
  transitionRun workflowRunId actorId .paused .running "paused" "running" "workflow_resumed"

def StepState.cancellable (s : StepState) : Bool :=
  s == .pending || s == .waiting || s == .paused || s == .running

def cancelSteps (now : Int) : List String → WorkflowProg J Unit
  | [] => pure ()
  | stepId :: rest => do
    let found ← headStep stepId
    let record ← Prog.ofOption found (.workflowError "Workflow step record is missing")
    if record.value.step.state.cancellable then do
      let _ ← persistStep
        {record.value.step with state := .cancelled, completedAt := some now} record.revision
        none none
      cancelSteps now rest
    else cancelSteps now rest

def cancel (workflowRunId actorId : String) (now : Int) : WorkflowProg J WorkflowRun := do
  requireEnabled env
  let record ← loadRun workflowRunId
  Prog.require (record.value.run.state.cancellable = true)
    (.workflowError "Terminal workflow runs cannot be cancelled")
  cancelSteps now record.value.run.stepRunIds
  let cancelled := {record.value.run with state := .cancelled, completedAt := some now}
  persistRun cancelled record.revision record.value.inputs
  appendEvent (runEvent workflowRunId "workflow_cancelled" actorId
    [("workflow_run_id", .text workflowRunId)])
  pure cancelled

def createSteps (env : WorkflowEnv J) (workflowRunId inputSha256 : String) :
    List String → WorkflowProg J Unit
  | [] => pure ()
  | nodeId :: rest => do
    let stepRunId := env.stepRunId workflowRunId nodeId
    let step : WorkflowStepRun := ⟨stepRunId, workflowRunId, nodeId, .pending, 1,
      env.idempotencyKey workflowRunId nodeId, inputSha256, none, none, none, none⟩
    let _ ← appendStep stepRunId none ⟨step, none, none⟩
    createSteps env workflowRunId inputSha256 rest

def start (revisionId actorId idempotencyKey : String) (inputs : List (String × J))
    (replayOfRunId : Option String) (now : Int) : WorkflowProg J WorkflowRun := do
  requireEnabled env
  assertRuntimeAllowed
  let inputSha256 ← Prog.ofExcept (env.safePayload "Workflow inputs" (env.inputsObject inputs))
  let workflowRunId := env.workflowRunId ⟨revisionId, inputSha256, replayOfRunId, idempotencyKey⟩
  let existing ← headRun workflowRunId
  match existing with
  | some record => pure record.value.run
  | none => do
    let rev ← loadRevision env revisionId
    let current ← Prog.any Bool
    Prog.require (current = true)
      (.workflowError "Workflow revision is not the enabled current revision")
    let order ← Prog.ofExcept (validateDag (fun op => (env.operation op).isSome) rev)
    createSteps env workflowRunId inputSha256 order
    let run : WorkflowRun := ⟨workflowRunId, revisionId, .running, inputSha256,
      order.map (env.stepRunId workflowRunId), replayOfRunId, now, none⟩
    appendRun workflowRunId none ⟨run, inputs⟩
    appendEvent (runEvent workflowRunId "workflow_started" actorId
      [("revision_id", .text revisionId), ("step_count", .number order.length)])
    pure run

inductive WorkflowCommand (J : Type) where
  | start (revisionId actorId idempotencyKey : String) (inputs : List (String × J))
      (replayOfRunId : Option String) (now : Int)
  | runReadySteps (workflowRunId : String) (now : Int)
  | grantApproval (workflowRunId nodeId approvalId actorId : String) (now : Int)
  | denyApproval (workflowRunId nodeId actorId : String) (now : Int)
  | wake (workflowRunId nodeId actorId : String) (now : Int)
  | pause (workflowRunId actorId : String)
  | resume (workflowRunId actorId : String)
  | cancel (workflowRunId actorId : String) (now : Int)

def WorkflowCommand.prog : WorkflowCommand J → WorkflowProg J WorkflowRun
  | .start revisionId actorId key inputs replay now =>
    Workflow.start env revisionId actorId key inputs replay now
  | .runReadySteps workflowRunId now => Workflow.runReadySteps env workflowRunId now
  | .grantApproval workflowRunId nodeId approvalId actorId now =>
    Workflow.grantApproval env workflowRunId nodeId approvalId actorId now
  | .denyApproval workflowRunId nodeId actorId now =>
    Workflow.denyApproval env workflowRunId nodeId actorId now
  | .wake workflowRunId nodeId actorId now => Workflow.wake env workflowRunId nodeId actorId now
  | .pause workflowRunId actorId => Workflow.pause env workflowRunId actorId
  | .resume workflowRunId actorId => Workflow.resume env workflowRunId actorId
  | .cancel workflowRunId actorId now => Workflow.cancel env workflowRunId actorId now

end RaytSystem.Workflow
