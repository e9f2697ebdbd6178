import RaytSystem.EmergencyModel
import RaytSystem.RelyGuarantee

/-! The emergency service: activation and recovery of emergency actions, the observation and
the manual closing of circuit breakers, and the gate of the runtime. One access is one
transaction of the platform store; clock readings and the verdicts of the approval registry
are inputs. -/
namespace RaytSystem.Emergency
open PyText Interleaving EmergencyAction

inductive EmergencyFault where
  | disabled | noAction | changedConcurrently | noRecoveryApproval | recoveryApprovalInvalid
  | noActiveState | inactiveActions | securityBreakersOpen | recoveryInvalid | unknownTrigger
  | noCloseApproval | closeApprovalInvalid | unknownBreaker | storedBreakerInvalid
  | breakerChangedConcurrently | invalidModel | revisionChanged | keyReused
  | invalidToken (label : String)
  deriving DecidableEq, Repr

inductive EmergencyIdentity where
  | activation (actions : List EmergencyAction) (revision : Nat) (actorId reason : String)
  | recovery (remaining : List EmergencyAction) (revision : Nat) (reason : String)

structure EmergencyEnv where
  enabled : Bool
  circuitBreakers : PyDict String Nat
  requestSha256 : EmergencyRequest → Sha256
  stateSha256 : EmergencyIdentity → Sha256
  breakerSha256 : String → String → Sha256
  openingSha256 : String → Nat → CircuitBreakerState → Sha256

abbrev EmergencyProg (α : Type) := Prog PlatformStore Unit EmergencyFault α

def Heads.append {ρ : Type} (heads : Heads ρ) (recordId : String) (payload : ρ) (state : String)
    (expectedRevision : Option Nat) (createdAt : Time) : Option (Heads ρ) :=
  let head := heads.get recordId
  if head.map StoredRecord.revision = expectedRevision then
    some (heads.set recordId ⟨(head.elim 0 StoredRecord.revision) + 1, payload, state, createdAt⟩)
  else none

def emergencyHead : EmergencyProg (Option (StoredRecord EmergencyState)) :=
  .get () fun s => s.emergency.get emergencyGlobal

def breakerHead (breakerId : String) : EmergencyProg (Option (StoredRecord CircuitBreaker)) :=
  .get () fun s => s.breakers.get breakerId

def appendEmergency (payload : EmergencyState) (state : String) (expectedRevision : Option Nat)
    (fault : EmergencyFault) : EmergencyProg Unit := do
  let createdAt ← .any Int
  .attempt () fun s =>
    match s.emergency.append emergencyGlobal payload state expectedRevision createdAt with
    | some emergency => .ok ((), {s with emergency})
    | none => .error fault

def appendBreaker (payload : CircuitBreaker) (breakerId : String)
    (expectedRevision : Option Nat) (fault : EmergencyFault) : EmergencyProg Unit := do
  let createdAt ← .any Int
  .attempt () fun s =>
    match s.breakers.append breakerId payload payload.state.value expectedRevision createdAt with
    | some breakers => .ok ((), {s with breakers})
    | none => .error fault

def appendEvent (event : AuditEvent) : EmergencyProg Unit := do
  .require (isToken event.actorId) (.invalidToken "actor ID")
  .set () fun s => {s with events := s.events ++ [event]}

variable (env : EmergencyEnv)

def idempotentReceipt (env : EmergencyEnv) (scope : ReceiptScope) (idempotencyKey : String)
    (request : EmergencyRequest) : EmergencyProg (Option EmergencyReceipt) := do
  .require (isToken idempotencyKey) (.invalidToken "idempotency key")
  .attempt () fun s =>
    match s.receipts.get (scope,idempotencyKey) with
    | none => .ok (none, s)
    | some (sha256,receipt) =>
      if sha256 = env.requestSha256 request then .ok (some receipt, s) else .error .keyReused

def storeReceipt (scope : ReceiptScope) (idempotencyKey : String) (request : EmergencyRequest)
    (receipt : EmergencyReceipt) : EmergencyProg Unit := do
  .require (isToken idempotencyKey) (.invalidToken "idempotency key")
  .attempt () fun s =>
    match s.receipts.get (scope,idempotencyKey) with
    | none =>
      let receipts := s.receipts.set (scope,idempotencyKey) (env.requestSha256 request, receipt)
      .ok ((), {s with receipts})
    | some (sha256,_) =>
      if sha256 = env.requestSha256 request then .ok ((), s) else .error .keyReused

variable (prior : Option (StoredRecord EmergencyState))

def activationStamps (current : List EmergencyAction) (now : Time) :
    List (EmergencyAction × Time) :=
  current.map fun action =>
    match prior with
    | none => (action, now)
    | some record =>
      match record.payload.actionActivatedAt.lookup action with
      | some stamp => (action, stamp)
      | none =>
        if action ∈ record.payload.activeActions then (action, record.payload.activatedAt)
        else (action, now)

variable (actions : List EmergencyAction)

def emergencyRequest (reason actorId : String) (approvalId : Option String) : EmergencyRequest :=
  ⟨sorted (actions.map value), reason, actorId, approvalId⟩

def activatedState (reason actorId : String) (approvalId : Option String) (now : Time) :
    EmergencyState :=
  let current := sortedActions ((prior.elim [] (·.payload.activeActions)) ++ actions)
  let revision := (prior.elim 0 StoredRecord.revision) + 1
  { emergencyStateId :=
      derivedId "emergency" (env.stateSha256 (.activation current revision actorId reason))
    activeActions := current
    reason := reason
    activatedBy := actorId
    approvalId := approvalId
    securityLock := true
    revision := revision
    activatedAt := now
    recoveredAt := none
    recoveredBy := none
    actionActivatedAt := activationStamps prior current now }

variable (reason actorId idempotencyKey : String)

def activateFresh (approvalId : Option String) : EmergencyProg EmergencyReceipt := do
  let prior ← emergencyHead
  let now ← .any Int
  let state ← .ofOption (activatedState env prior actions reason actorId approvalId now).validate
    .invalidModel
  appendEmergency state "active" (prior.map StoredRecord.revision) .changedConcurrently
  appendEvent ⟨emergencyGlobal, "emergency_activated", actorId,
    .activated state.emergencyStateId state.activeActions reason⟩
  let approvalStatus :=
    if approvalId.all (· == "") then "local_emergency_authority" else "recorded"
  let receipt : EmergencyReceipt := ⟨"active", some (prior.elim 0 StoredRecord.revision + 1),
    state.activeActions, approvalStatus, "manual_recovery_required"⟩
  storeReceipt env .emergencyActivate idempotencyKey
    (emergencyRequest actions reason actorId approvalId) receipt
  pure receipt

def activate (approvalId : Option String) : EmergencyProg EmergencyReceipt := do
  .require env.enabled .disabled
  .require (actions ≠ []) .noAction
  let request := emergencyRequest actions reason actorId approvalId
  match ← idempotentReceipt env .emergencyActivate idempotencyKey request with
  | some receipt => pure receipt
  | none => activateFresh env actions reason actorId idempotencyKey approvalId

def openSecurityBreakers (s : PlatformStore) : Bool :=
  (listHeads s.breakers (some "open") 200 0).any fun row =>
    row.2.payload.securityBreaker && row.2.state == "open"

structure RecoveryRequest where
  actions : List EmergencyAction
  actorId : String
  approvalId : String
  reason : String
  idempotencyKey : String

variable (r : RecoveryRequest)

def RecoveryRequest.request : EmergencyRequest :=
  emergencyRequest r.actions r.reason r.actorId (some r.approvalId)

def recoveredState (prior : StoredRecord EmergencyState) (r : RecoveryRequest) (now : Time) :
    EmergencyState :=
  let remaining := sortedActions (prior.payload.activeActions.filter (· ∉ r.actions))
  {prior.payload with
    emergencyStateId :=
      derivedId "emergency" (env.stateSha256 (.recovery remaining (prior.revision + 1) r.reason))
    activeActions := remaining
    reason := r.reason
    revision := prior.revision + 1
    recoveredAt := some now
    recoveredBy := some r.actorId
    approvalId := some r.approvalId
    actionActivatedAt := prior.payload.actionActivatedAt.filter (·.1 ∈ remaining)}

def recoveryChecks (securityOpen : Bool) (r : RecoveryRequest) :
    Except EmergencyFault (StoredRecord EmergencyState) :=
  match prior with
  | none => .error .noActiveState
  | some record =>
    if record.state ≠ "active" then .error .noActiveState
    else if ¬∀ a ∈ r.actions, a ∈ record.payload.activeActions then .error .inactiveActions
    else if securityOpen = true ∧ .disableRuntimeExecution ∈ r.actions then
      .error .securityBreakersOpen
    else .ok record

def recoverFresh : EmergencyProg EmergencyReceipt := do
  let prior ← emergencyHead
  let securityOpen ← .get () openSecurityBreakers
  let record ← .ofExcept (recoveryChecks prior securityOpen r)
  let now ← .any Int
  let state ← .ofOption (recoveredState env record r now).validate .recoveryInvalid
  let finalState := if state.activeActions = [] then "recovered" else "active"
  appendEmergency state finalState (some record.revision) .revisionChanged
  appendEvent ⟨emergencyGlobal, "emergency_recovered", r.actorId,
    .recovered (sortedActions r.actions) state.activeActions r.reason⟩
  let receipt : EmergencyReceipt := ⟨finalState, none, sortedActions r.actions,
    "fresh_approval_recorded", "manual_recovery_applied"⟩
  storeReceipt env .emergencyRecover r.idempotencyKey r.request receipt
  pure receipt

def recover : EmergencyProg EmergencyReceipt := do
  .require env.enabled .disabled
  .require (r.approvalId ≠ "") .noRecoveryApproval
  -- `AuthorityResolver.require_approval`
  let approved ← .any Bool
  .require approved .recoveryApprovalInvalid
  match ← idempotentReceipt env .emergencyRecover r.idempotencyKey r.request with
  | some receipt => pure receipt
  | none => recoverFresh env r

def securityTriggers : List String :=
  ["protected_path", "forbidden_egress", "policy_violations", "failed_approvals"]

structure Observation where
  trigger : String
  observed : Int
  scope : String
  actorId : String := "raytsystem_kernel"

variable (o : Observation)

def Observation.breakerId : String :=
  derivedId "breaker" (env.breakerSha256 o.trigger o.scope)

def recoveryLimit (trigger : String) : Nat := if trigger ∈ securityTriggers then 0 else 1

def nextState (trigger : String) (tripped : Bool) (prior : Option (StoredRecord CircuitBreaker)) :
    CircuitBreakerState × Nat :=
  let used := prior.elim 0 (·.payload.automaticRecoveriesUsed)
  if tripped then (.opened, used)
  else if prior.any (·.state == "open") then
    if used < recoveryLimit trigger then (.halfOpen, used + 1) else (.opened, used)
  else (.closed, used)

def observedBreaker (threshold : Nat) (prior : Option (StoredRecord CircuitBreaker)) (now : Time) :
    CircuitBreaker :=
  let tripped := decide ((threshold : Int) ≤ o.observed)
  let next := nextState o.trigger tripped prior
  let observed :=
    if next.1 = .opened ∧ tripped = false then
      prior.elim o.observed fun record => max o.observed record.payload.observed
    else o.observed
  let reason :=
    match next.1 with
    | .opened => some s!"{o.trigger}:{observed}/{threshold}"
    | .halfOpen => some s!"{o.trigger}:automatic_recovery_probe"
    | .closed => none
  { breakerId := o.breakerId env
    scope := o.scope
    trigger := o.trigger
    state := next.1
    threshold := threshold
    observed := observed
    reason := reason
    automaticRecoveryLimit := recoveryLimit o.trigger
    securityBreaker := decide (o.trigger ∈ securityTriggers)
    revision := (prior.elim 0 StoredRecord.revision) + 1
    openedAt := if next.1 = .opened then some now else none
    updatedAt := now
    automaticRecoveriesUsed := next.2 }

def openingKey (breakerId : String) (prior : Option (StoredRecord CircuitBreaker)) : String :=
  derivedId "idem" (env.openingSha256 breakerId (prior.elim 0 StoredRecord.revision + 1) .opened)

def observeBreaker : EmergencyProg CircuitBreaker := do
  .require env.enabled .disabled
  let threshold ← .ofOption (env.circuitBreakers.get o.trigger) .unknownTrigger
  let prior ← breakerHead (o.breakerId env)
  let now ← .any Int
  let breaker ← .ofOption (observedBreaker env o threshold prior now).validate .invalidModel
  appendBreaker breaker (o.breakerId env) (prior.map StoredRecord.revision) .revisionChanged
  appendEvent ⟨o.breakerId env, "circuit_breaker_observed", o.actorId, .observed o.trigger
    breaker.observed breaker.state breaker.reason breaker.automaticRecoveriesUsed⟩
  -- the stop is activated only when the breaker was not open before
  if breaker.state = .opened ∧ prior.all (·.state != "open") then
    let _ ← activate env [.disableRuntimeExecution] s!"Circuit breaker opened: {o.trigger}"
      o.actorId (openingKey env (o.breakerId env) prior) none
    pure breaker
  else pure breaker

def closedBreaker (prior : StoredRecord CircuitBreaker) (now : Time) : CircuitBreaker :=
  {prior.payload with
    state := .closed
    observed := 0
    reason := none
    revision := prior.revision + 1
    openedAt := none
    updatedAt := now
    automaticRecoveriesUsed := 0}

def closeBreaker (breakerId approvalId reason actorId : String) : EmergencyProg CircuitBreaker := do
  .require env.enabled .disabled
  .require (approvalId ≠ "") .noCloseApproval
  -- `AuthorityResolver.require_approval`
  let approved ← .any Bool
  .require approved .closeApprovalInvalid
  .require (isToken breakerId) (.invalidToken "record ID")
  let record ← .ofOption (← breakerHead breakerId) .unknownBreaker
  let now ← .any Int
  let breaker ← .ofOption (closedBreaker record now).validate .storedBreakerInvalid
  appendBreaker breaker breakerId (some record.revision) .breakerChangedConcurrently
  appendEvent ⟨breakerId, "circuit_breaker_closed", actorId,
    .closed record.payload.trigger approvalId reason⟩
  pure breaker

inductive PlatformDatabase where
  | absent | unreadable
  | ready (store : PlatformStore)

def assertRuntimeAllowed : PlatformDatabase → Except String Unit
  | .absent => .error "Emergency state is unavailable; runtime fails closed"
  | .unreadable => .error "Emergency state is unavailable; runtime fails closed"
  | .ready s =>
    let blocking := (sortedActions s.activeActions).filter blocksRuntime
    if blocking = [] then .ok ()
    else .error ("Runtime is stopped by emergency controls: " ++
      ",".intercalate (blocking.map value))

theorem assertRuntimeAllowed_ready {s : PlatformStore} :
    assertRuntimeAllowed (.ready s) = .ok () ↔ s.runtimeStopped = false := by
  have hnone : (sortedActions s.activeActions).filter blocksRuntime = [] ↔
      s.runtimeStopped = false := by
    rw [List.filter_eq_nil_iff, PlatformStore.runtimeStopped, List.any_eq_false]
    simp only [mem_sortedActions]
  rw [← hnone]
  unfold assertRuntimeAllowed
  dsimp only
  split
  next h => simp [h]
  next h => simp [h]

end RaytSystem.Emergency
