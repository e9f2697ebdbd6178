import RaytSystem.PyDict
import RaytSystem.PyText
import RaytSystem.RowListing
import RaytSystem.StepProgram

/-! Emergency controls and circuit breakers, as their models accept them and as the platform
store keeps them. -/
namespace RaytSystem.Emergency
open PyText

abbrev Time := Int

inductive EmergencyAction where
  | pauseAllEmployees | cancelActiveRuns | disableRuntimeExecution | disableNetworkAdapters
  | disableExternalProviders | freezeTaskCheckout | revokeRuntimeSessions
  | revokePendingApprovals | emergencyBudgetStop
  deriving DecidableEq, Repr

namespace EmergencyAction

def value : EmergencyAction → String
  | pauseAllEmployees => "pause_all_employees"
  | cancelActiveRuns => "cancel_active_runs"
  | disableRuntimeExecution => "disable_runtime_execution"
  | disableNetworkAdapters => "disable_network_adapters"
  | disableExternalProviders => "disable_external_providers"
  | freezeTaskCheckout => "freeze_task_checkout"
  | revokeRuntimeSessions => "revoke_runtime_sessions"
  | revokePendingApprovals => "revoke_pending_approvals"
  | emergencyBudgetStop => "emergency_budget_stop"

def blocksRuntime (a : EmergencyAction) : Bool :=
  a == pauseAllEmployees || a == cancelActiveRuns || a == disableRuntimeExecution ||
    a == emergencyBudgetStop

end EmergencyAction

def sortedActions (actions : List EmergencyAction) : List EmergencyAction :=
  actions.dedup.insertionSort fun a b => a.value ≤ b.value

@[simp] theorem mem_sortedActions {actions : List EmergencyAction} {a : EmergencyAction} :
    a ∈ sortedActions actions ↔ a ∈ actions := by
  rw [sortedActions, (List.perm_insertionSort _ _).mem_iff, List.mem_dedup]

structure EmergencyState where
  emergencyStateId : String
  activeActions : List EmergencyAction
  reason : String
  activatedBy : String
  approvalId : Option String
  securityLock : Bool
  revision : Nat
  activatedAt : Time
  recoveredAt : Option Time
  recoveredBy : Option String
  /-- `extensions["action_activated_at"]`. -/
  actionActivatedAt : List (EmergencyAction × Time)
  deriving DecidableEq

namespace EmergencyState

def mapText (f : String → String) (e : EmergencyState) : EmergencyState :=
  {e with
    emergencyStateId := f e.emergencyStateId
    reason := f e.reason
    activatedBy := f e.activatedBy
    approvalId := e.approvalId.map f
    recoveredBy := e.recoveredBy.map f}

def fieldsValid (e : EmergencyState) : Bool :=
  isIdentifier e.emergencyStateId && isNonEmptyStr e.reason && isIdentifier e.activatedBy &&
    e.approvalId.all isIdentifier && 1 ≤ e.revision && e.recoveredBy.all isIdentifier

def invariants (e : EmergencyState) : Prop :=
  (e.activeActions = [] → e.recoveredAt ≠ none) ∧ e.activeActions.Nodup ∧
    (e.recoveredAt = none ↔ e.recoveredBy = none) ∧ ∀ t ∈ e.recoveredAt, e.activatedAt ≤ t

instance (e : EmergencyState) : Decidable e.invariants := by
  unfold invariants
  infer_instance

def validate (e : EmergencyState) : Option EmergencyState :=
  let stripped := e.mapText trim
  if stripped.fieldsValid = true ∧ stripped.invariants then some stripped else none

variable {e stripped : EmergencyState}

theorem validate_some (h : e.validate = some stripped) : stripped = e.mapText trim := by
  unfold validate at h
  dsimp only at h
  split at h
  · exact (Option.some.inj h).symm
  · cases h

theorem validate_actions (h : e.validate = some stripped) :
    stripped.activeActions = e.activeActions := by
  rw [validate_some h]
  rfl

end EmergencyState

inductive CircuitBreakerState where
  | closed | opened | halfOpen
  deriving DecidableEq, Repr

def CircuitBreakerState.value : CircuitBreakerState → String
  | closed => "closed"
  | opened => "open"
  | halfOpen => "half_open"

structure CircuitBreaker where
  breakerId : String
  scope : String
  trigger : String
  state : CircuitBreakerState
  threshold : Nat
  observed : Int
  reason : Option String
  automaticRecoveryLimit : Nat
  securityBreaker : Bool
  revision : Nat
  openedAt : Option Time
  updatedAt : Time
  /-- `extensions["automatic_recoveries_used"]`. -/
  automaticRecoveriesUsed : Nat
  deriving DecidableEq

namespace CircuitBreaker

def mapText (f : String → String) (b : CircuitBreaker) : CircuitBreaker :=
  {b with
    breakerId := f b.breakerId
    scope := f b.scope
    trigger := f b.trigger
    reason := b.reason.map f}

def fieldsValid (b : CircuitBreaker) : Bool :=
  isIdentifier b.breakerId && isIdentifier b.scope && isIdentifier b.trigger &&
    1 ≤ b.threshold && 0 ≤ b.observed && b.reason.all isNonEmptyStr &&
    b.automaticRecoveryLimit ≤ 10 && 1 ≤ b.revision

def validate (b : CircuitBreaker) : Option CircuitBreaker :=
  let stripped := b.mapText trim
  if stripped.fieldsValid then some stripped else none

theorem validate_some {b stripped : CircuitBreaker} (h : b.validate = some stripped) :
    stripped = b.mapText trim := by
  unfold validate at h
  dsimp only at h
  split at h
  · exact (Option.some.inj h).symm
  · cases h

end CircuitBreaker

structure StoredRecord (ρ : Type) where
  revision : Nat
  payload : ρ
  state : String
  createdAt : Time
  deriving DecidableEq

abbrev Heads (ρ : Type) := PyDict String (StoredRecord ρ)

def listingKey {ρ : Type} (row : String × StoredRecord ρ) : Int ×ₗ String :=
  toLex (-(row.2.createdAt / 1000), row.1)

def listHeads {ρ : Type} (heads : Heads ρ) (state : Option String) (limit offset : Nat) :
    List (String × StoredRecord ρ) :=
  RowListing.page listingKey (heads.entries.filter fun row => state.all (row.2.state == ·))
    limit offset

theorem nodup_listingKey {ρ : Type} (heads : Heads ρ) (p : String × StoredRecord ρ → Bool) :
    ((heads.entries.filter p).map listingKey).Nodup := by
  have hkeys : ((heads.entries.filter p).map Prod.fst).Nodup :=
    heads.unique.sublist (List.filter_sublist.map Prod.fst)
  apply List.Nodup.of_map fun k : Int ×ₗ String => (ofLex k).2
  rw [List.map_map]
  exact hkeys

structure EmergencyRequest where
  actions : List String
  reason : String
  actorId : String
  approvalId : Option String
  deriving DecidableEq

structure EmergencyReceipt where
  state : String
  revision : Option Nat
  expectedEffect : List EmergencyAction
  approvalStatus : String
  recovery : String
  deriving DecidableEq

inductive EventPayload where
  | activated (emergencyStateId : String) (actions : List EmergencyAction) (reason : String)
  | recovered (recovered remaining : List EmergencyAction) (reason : String)
  | observed (trigger : String) (observed : Int) (state : CircuitBreakerState)
      (reason : Option String) (recoveriesUsed : Nat)
  | closed (trigger approvalId reason : String)
  deriving DecidableEq

structure AuditEvent where
  streamId : String
  eventType : String
  actorId : String
  payload : EventPayload
  deriving DecidableEq

inductive ReceiptScope where
  | emergencyActivate | emergencyRecover
  deriving DecidableEq, Repr

structure PlatformStore where
  emergency : Heads EmergencyState
  breakers : Heads CircuitBreaker
  /-- The digest of the request and its receipt, by scope and idempotency key. -/
  receipts : PyDict (ReceiptScope × String) (Sha256 × EmergencyReceipt)
  events : List AuditEvent

def PlatformStore.empty : PlatformStore := ⟨.empty, .empty, .empty, []⟩

def emergencyGlobal : String := "emergency_global"

def PlatformStore.activeActions (s : PlatformStore) : List EmergencyAction :=
  match s.emergency.get emergencyGlobal with
  | some record => if record.state = "active" then record.payload.activeActions else []
  | none => []

def PlatformStore.runtimeStopped (s : PlatformStore) : Bool :=
  s.activeActions.any EmergencyAction.blocksRuntime

def PlatformStore.breakerOpen (s : PlatformStore) (breakerId : String) : Bool :=
  (s.breakers.get breakerId).any (·.state == "open")

end RaytSystem.Emergency
