import RaytSystem.AccessRules
import RaytSystem.HeartbeatService

/-! The accesses of a heartbeat by kind. A kind says which accesses it admits, and from the few
instances it has follow those of what a heartbeat is made of. The first of the kinds are the
routine accesses, which all but three are: they lose no record and no stage, and what the
observer notes of them is the call's own doing. -/
namespace RaytSystem.Execution
open Control Tasking Interleaving RecordTable

def HeartbeatEvent.call : HeartbeatEvent → Caller
  | acquired c _ | released c _ | moved c _ _ | executed c | left c => c

def HeartbeatEvent.routine : HeartbeatEvent → Bool
  | acquired .. | released .. | moved .. => true
  | executed _ | left _ => false

def Routine (call : Caller) (loud : Bool) : AccessKind HeartbeatWorld HeartbeatAccess :=
  fun _ l f => l = .other ∧ ∀ w, (f w).2.seen.stage = w.seen.stage ∧
    RecordTable.Extends w.stores.records (f w).2.stores.records ∧
    ((f w).2.seen.log = w.seen.log ∨ loud = true ∧ ∃ e : HeartbeatEvent,
      e.call = call ∧ e.routine = true ∧ (f w).2.seen.log = e :: w.seen.log)

abbrev HeartbeatKind := AccessKind HeartbeatWorld HeartbeatAccess

class Quiet (P : HeartbeatKind) : Prop where
  aside {α : Type} {f : HeartbeatStores → Except HeartbeatError (α × HeartbeatStores)} :
    (∀ s a s', f s = .ok (a,s') → s'.board = s.board ∧ s'.records = s.records) →
      Within P (access f)

class Loud (P : HeartbeatKind) (call : Caller) : Prop where
  own {α : Type} {f : HeartbeatStores → Except HeartbeatError (α × HeartbeatStores)}
    {note : HeartbeatStores → α → Observer → Observer} :
    (∀ s a s', f s = .ok (a,s') → s'.board = s.board ∧ s'.records = s.records) →
      (∀ s a o, note s a o = o ∨ ∃ e : HeartbeatEvent,
        e.call = call ∧ e.routine = true ∧ note s a o = o.note e) → Within P (noting .other f note)

class Books (P : HeartbeatKind) : Prop extends Quiet P where
  book (env : HeartbeatEnv) (record : ExecutionRecord) (expected : Option Nat) :
    record.key.1 ≠ .run → record.key.1 ≠ .budgetUsage → Within P (put env record expected)

section
set_option synthInstance.maxSize 1000
variable (env : HeartbeatEnv) (call : Caller) {P : HeartbeatKind}

instance mayFail_within (e : HeartbeatError) : Within P (mayFail e) := by
  unfold mayFail
  infer_instance

instance requirePersistable_within (record : ExecutionRecord) :
    Within P (requirePersistable env record) := by
  unfold requirePersistable
  infer_instance

theorem orStop_within {α : Type} (c : Checkout) (p : HeartbeatProg α)
    (k : α → HeartbeatProg (Checkout × Option HeartbeatError)) (hp : Within P p)
    (hk : ∀ a, Within P (k a)) : Within P (orStop c p k) := by
  unfold orStop
  refine .andThen fun r => ?_
  cases r with
  | ok a => exact hk a
  | error e => infer_instance

section
variable [Quiet P]

instance readStores_within {α : Type} (f : HeartbeatStores → α) : Within P (readStores f) := by
  apply Quiet.aside
  rintro s a s' ⟨⟩
  exact ⟨rfl, rfl⟩

instance timestamp_within (value floor : Option Time) :
    Within P (timestamp value floor) := by
  unfold timestamp
  cases value <;> infer_instance

instance claimOperation_within : Within P (claimOperation env) := by
  apply Quiet.aside
  intro s a s' h
  cases hop : s.operation <;> simp only [hop] at h <;> cases h <;> exact ⟨rfl, rfl⟩

instance updateOperation_within (state : String) (result : Option HeartbeatReceipt)
    (errorCode : Option String) :
    Within P (updateOperation state result errorCode) := by
  apply Quiet.aside
  intro s a s' h
  cases hop : s.operation <;> simp only [hop] at h <;> cases h
  exact ⟨rfl, rfl⟩

instance renewLease_within (token : LeaseToken) (now : Time) :
    Within P (renewLease env token now) := by
  apply Quiet.aside
  intro s a s' h
  split at h <;> cases h
  exact ⟨rfl, rfl⟩

instance verifyLease_within (token : LeaseToken) (now : Time) :
    Within P (verifyLease token now) := readStores_within _

instance getRecord_within (k : RecordKey) : Within P (getRecord k) :=
  readStores_within _

instance headRevision_within (k : RecordKey) : Within P (headRevision k) :=
  readStores_within _

instance putHead_within (record : ExecutionRecord)
    [∀ expected, Within P (put env record expected)] : Within P (putHead env record) := by
  unfold putHead
  infer_instance

instance assignment_within : Within P (assignment env) := by
  unfold assignment
  refine .andThen ?_
  intro found
  split <;> infer_instance

instance taskSnapshot_within : Within P taskSnapshot := by
  unfold taskSnapshot
  infer_instance

instance resultForRun_within (run : ExecutionRun) (noOp : Bool) :
    Within P (resultForRun env run noOp) := by
  unfold resultForRun
  refine .andThen fun i => ?_
  refine .andThen fun d => ?_
  refine .andThen fun a => ?_
  split <;> infer_instance

instance heartbeatFromReceipt_within (receipt : HeartbeatReceipt) :
    Within P (heartbeatFromReceipt env receipt) := by
  unfold heartbeatFromReceipt
  refine .andThen fun run => ?_
  split <;> infer_instance

instance storeReceipt_within (receipt : HeartbeatReceipt) :
    Within P (storeReceipt env receipt) := by
  apply Quiet.aside
  intro s a s' h
  split at h
  · cases h
    exact ⟨rfl, rfl⟩
  · split at h <;> cases h
    exact ⟨rfl, rfl⟩

instance finalizeReceipt_within (result : HeartbeatResult) :
    Within P (finalizeReceipt env result) := by
  unfold finalizeReceipt
  infer_instance

instance appendTranscript_within (e : TranscriptEvent) :
    Within P (appendTranscript e) := by
  apply Quiet.aside
  intro s a s' h
  split at h <;> split at h <;> cases h <;> exact ⟨rfl, rfl⟩

instance requireBinding_within (a : TaskAssignment) (snapshot : TaskBoard) :
    Within P (requireBinding a snapshot) := by
  unfold requireBinding
  infer_instance

instance findEmployee_within : Within P (findEmployee env) := by
  unfold findEmployee
  infer_instance

instance appendOutcome_within (at_ : Time) (sequence : Nat) (chunks : List (String × String)) :
    Within P (appendOutcome env at_ sequence chunks) := by
  induction chunks generalizing sequence with
  | nil => exact inferInstanceAs (Within _ (pure _))
  | cons chunk rest ih =>
    have hrest := ih (sequence + 1)
    unfold appendOutcome
    infer_instance

instance budgetOf_within (a : TaskAssignment) : Within P (budgetOf a) := by
  unfold budgetOf
  split <;> infer_instance

instance approvalRecord_within : Within P (approvalRecord env) := by
  unfold approvalRecord
  split <;> infer_instance

instance changedFiles_within (run : ExecutionRun) (outcome : ProcessOutcome)
    (intent : Option Intent) : Within P (changedFiles env run outcome intent) := by
  unfold changedFiles
  infer_instance

instance transitionBlocked_within [∀ c g now, Within P (transition call c g now)]
    (snapshot : TaskBoard) (reason : String) (at_ : Option Time) :
    Within P (transitionBlocked env call snapshot reason at_) := by
  unfold transitionBlocked
  infer_instance

instance comment_within [∀ c expected, Within P (put env (.comment c) expected)]
    (kind : CommentKind) (actor body : String) (createdAt : Time) :
    Within P (comment env kind actor body createdAt) := by
  unfold comment
  infer_instance

section
variable [Loud P call]

instance acquireLease_within (partitionKey : String) (now : Time) :
    Within P (acquireLease env call partitionKey now) := by
  refine @Loud.own P call _ _ _ _ ?_ ?_
  · intro s a s' h
    split at h <;> cases h
    exact ⟨rfl, rfl⟩
  · exact fun _ _ _ => Or.inr ⟨_, rfl, rfl, rfl⟩

instance releaseLease_within (token : LeaseToken) : Within P (releaseLease call token) := by
  refine @Loud.own P call _ _ _ _ ?_ ?_
  · rintro s a s' ⟨⟩
    exact ⟨rfl, rfl⟩
  · intro s released o
    cases released with
    | false => exact Or.inl rfl
    | true => exact Or.inr ⟨_, rfl, rfl, rfl⟩

instance slot_within (name : String) (now : Time) (count index : Nat) :
    Within P (slot env call name now count index) := by
  induction count generalizing index with
  | zero => exact inferInstanceAs (Within _ (throw _))
  | succ count ih =>
    unfold slot
    refine .andThen fun acquired => ?_
    split
    · infer_instance
    · exact ih (index + 1)
    · infer_instance

end

section
variable [∀ l expected, Within P (put env (.lease l) expected)]

instance rebindTaskLease_within (lease : TaskLease) (generationId taskRevision : Nat)
    (now : Time) :
    Within P (rebindTaskLease env lease generationId taskRevision now) := by
  unfold rebindTaskLease
  infer_instance

instance renewTaskLease_within (lease : TaskLease) (now : Time) :
    Within P (renewTaskLease env lease now) := by
  unfold renewTaskLease
  infer_instance

instance renewals_within (run : ExecutionRun) (rounds : Nat) (c : Checkout) :
    Within P (renewals env run rounds c) := by
  induction rounds generalizing c with
  | zero => exact inferInstanceAs (Within _ (pure _))
  | succ rounds ih =>
    unfold renewals
    apply orStop_within _ _ _ inferInstance
    intro _
    apply orStop_within _ _ _ inferInstance
    intro now
    apply orStop_within _ _ _ inferInstance
    intro lease
    apply orStop_within _ _ _ inferInstance
    intro _
    apply orStop_within _ _ _ inferInstance
    intro globalSlot
    apply orStop_within _ _ _ inferInstance
    exact fun employeeSlot => ih _

variable [Loud P call]

instance acquireTaskLease_within (a : TaskAssignment) (snapshot : TaskBoard) (now : Time) :
    Within P (acquireTaskLease env call a snapshot now) := by
  unfold acquireTaskLease
  infer_instance

instance checkoutTask_within (a : TaskAssignment) (e : Employee) (snapshot : TaskBoard)
    (now : Time) : Within P (checkoutTask env call a e snapshot now) := by
  unfold checkoutTask
  infer_instance

instance releaseTaskLease_within (lease : TaskLease) :
    Within P (releaseTaskLease env call lease) := by
  unfold releaseTaskLease
  refine .andThen fun released => ?_
  refine .andThen fun revision => ?_
  cases revision <;> infer_instance

instance releaseCheckout_within (c : Checkout) :
    Within P (releaseCheckout env call c) := by
  unfold releaseCheckout
  infer_instance

end
end

section
variable [h : Books P]

instance (x : TaskAssignment) (expected : Option Nat) :
    Within P (put env (.assignment x) expected) := h.book env _ _ nofun nofun

instance (x : ExecutionComment) (expected : Option Nat) :
    Within P (put env (.comment x) expected) := h.book env _ _ nofun nofun

instance (x : TaskGraphScope) (expected : Option Nat) :
    Within P (put env (.graphScope x) expected) := h.book env _ _ nofun nofun

instance (x : ExecutionInvocation) (expected : Option Nat) :
    Within P (put env (.invocation x) expected) := h.book env _ _ nofun nofun

instance (x : TaskLease) (expected : Option Nat) :
    Within P (put env (.lease x) expected) := h.book env _ _ nofun nofun

instance (x : PolicyDecision) (expected : Option Nat) :
    Within P (put env (.policyDecision x) expected) := h.book env _ _ nofun nofun

instance (x : ExecutionSession) (expected : Option Nat) :
    Within P (put env (.session x) expected) := h.book env _ _ nofun nofun

instance (x : TaskWorkspace) (expected : Option Nat) :
    Within P (put env (.workspace x) expected) := h.book env _ _ nofun nofun

instance rebindAssignment_within (generationId : Nat) (task : BoardTask) (at_ : Time) :
    Within P (rebindAssignment env generationId task at_) := by
  unfold rebindAssignment
  infer_instance

instance bindGraphScope_within (a : TaskAssignment) (graphScopeId : String) (now : Time) :
    Within P (bindGraphScope env a graphScopeId now) := by
  unfold bindGraphScope
  infer_instance

instance prepareWorkspace_within (now : Time) :
    Within P (prepareWorkspace env now) := by
  unfold prepareWorkspace
  infer_instance

instance preflightWorkspace_within (a : TaskAssignment) (startedAt : Time) :
    Within P (preflightWorkspace env a startedAt) := by
  unfold preflightWorkspace
  infer_instance

instance sessionFor_within (p : Preflight) (decision : PolicyDecision)
    (existing : Option ExecutionSession) (startedAt : Time) :
    Within P (sessionFor env p decision existing startedAt) := by
  unfold sessionFor
  cases existing <;> infer_instance

instance blockedPreflight_within [∀ c g now, Within P (transition call c g now)]
    (a : TaskAssignment) (b : Blocked) (at_ : Time) :
    Within P (blockedPreflight env call a b at_) := by
  unfold blockedPreflight
  infer_instance

instance startRun_within (p : Preflight) (decision : PolicyDecision)
    (existing : Option ExecutionSession) (lease : TaskLease) (startedAt : Time) :
    Within P (startRun env p decision existing lease startedAt) := by
  unfold startRun
  infer_instance

end
end

abbrev IsRoutine (call : Caller) (loud : Bool) {α : Type} (p : HeartbeatProg α) : Prop :=
  Within (Routine call loud) p

section
set_option synthInstance.maxSize 1000
variable (env : HeartbeatEnv) (call : Caller) (loud : Bool)
variable {α : Type} {f : HeartbeatStores → Except HeartbeatError (α × HeartbeatStores)}

theorem noting_routine {note : HeartbeatStores → α → Observer → Observer}
    (hf : ∀ s a s', f s = .ok (a,s') → RecordTable.Extends s.records s'.records)
    (hnote : ∀ s a o, note s a o = o ∨ loud = true ∧ ∃ e : HeartbeatEvent,
      e.call = call ∧ e.routine = true ∧ note s a o = o.note e) :
    IsRoutine call loud (noting .other f note) := by
  unfold noting
  refine .andThen fun _ => Within.attempt ⟨rfl, fun w => ?_⟩
  unfold Prog.attemptStep
  cases hfw : f w.stores with
  | error e =>
    simp only [hfw, true_and, true_or, and_true]
    exact extends_refl _
  | ok r =>
    simp only [hfw]
    refine ⟨?_, hf _ _ _ hfw, ?_⟩
    · rcases hnote w.stores r.1 w.seen with hn | ⟨_, e, _, _, hn⟩
      · rw [hn]
      · rw [hn]
        rfl
    · rcases hnote w.stores r.1 w.seen with hn | ⟨hloud, e, hcall, hroutine, hn⟩
      · exact Or.inl (congrArg Observer.log hn)
      · exact Or.inr ⟨hloud, e, hcall, hroutine, congrArg Observer.log hn⟩

theorem access_records (hf : ∀ s a s', f s = .ok (a,s') → s'.records = s.records) :
    IsRoutine call loud (access f) :=
  noting_routine call loud (fun s a s' h => hf s a s' h ▸ extends_refl _)
    fun _ _ _ => Or.inl rfl

instance : Quiet (Routine call loud) := ⟨fun hf => access_records call loud fun s a s' h =>
  (hf s a s' h).2⟩

instance : Loud (Routine call true) call := ⟨fun hf hnote => noting_routine call true
  (fun s a s' h => (hf s a s' h).2 ▸ extends_refl _)
  fun s a o => (hnote s a o).imp_right fun h => ⟨rfl, h⟩⟩

theorem putStores_extends {record : ExecutionRecord} {expected : Option Nat}
    {s s' : HeartbeatStores} {revision : Nat}
    (h : putStores record expected s = .ok (revision,s')) :
    RecordTable.Extends s.records s'.records ∧
      head s'.records record.key ≠ none := by
  unfold putStores at h
  split at h
  next hput =>
    cases h
    exact putRecord_extends hput
  next => cases h

instance put_routine (record : ExecutionRecord) (expected : Option Nat) :
    IsRoutine call loud (put env record expected) := by
  have haccess : IsRoutine call loud (access (putStores record expected)) :=
    noting_routine call loud (fun s a s' h => (putStores_extends h).1) fun _ _ _ => Or.inl rfl
  unfold put
  infer_instance

instance : Books (Routine call loud) := ⟨fun env _ _ _ _ => put_routine env call loud _ _⟩

instance transition_routine (c : TransitionCommand) (expectedGenerationId : Nat) (now : Time) :
    IsRoutine call true (transition call c expectedGenerationId now) := by
  have hnoting : IsRoutine call true (noting .other
      (fun s => match transitionTask s.board c expectedGenerationId now with
        | .ok (result,board) => .ok (result, {s with board := board})
        | .error e => .error e)
      fun s result o =>
        if result.noOp then o
        else o.note (.moved call s.board.task.status result.task.status)) := by
    apply noting_routine
    · intro s a s' h
      split at h <;> cases h
      exact extends_refl _
    · intro s result o
      cases hno : result.noOp with
      | true => exact Or.inl (by simp)
      | false => exact Or.inr ⟨rfl, .moved call s.board.task.status result.task.status, rfl, rfl,
          by simp⟩
  unfold transition
  infer_instance

instance terminalizeException_routine (run : ExecutionRun) (errorCode : String) :
    IsRoutine call true (terminalizeException env call run errorCode) := by
  unfold terminalizeException
  infer_instance

instance reserveBudget_routine (budget : Option (String × Option BudgetUsage)) (now : Time) :
    IsRoutine call loud (reserveBudget env budget now) := by
  unfold reserveBudget
  split <;> infer_instance

instance addBudgetUsage_routine (budget : Option (String × Option BudgetUsage))
    (usage : ExecutionUsage) (now : Time) :
    IsRoutine call loud (addBudgetUsage env budget usage now) := by
  unfold addBudgetUsage
  split <;> infer_instance

instance recordEnd_routine (st : Started) (outcome : ProcessOutcome) (ended : RunEnd)
    (files : List String) (endedAt : Time) :
    IsRoutine call loud (recordEnd env st outcome ended files endedAt) := by
  unfold recordEnd
  infer_instance

instance finishRun_routine (st : Started) (c : Checkout) (outcome : ProcessOutcome)
    (intent : Option Intent) (endedAt : Time) :
    IsRoutine call true (finishRun env call st c outcome intent endedAt) := by
  unfold finishRun
  infer_instance

instance handleError_routine (p : Preflight) (decision : PolicyDecision) (startedAt : Time)
    (run : Option ExecutionRun) (e : HeartbeatError) :
    IsRoutine call true (handleError env call p decision startedAt run e) := by
  unfold handleError
  cases run <;> infer_instance

end

end RaytSystem.Execution
