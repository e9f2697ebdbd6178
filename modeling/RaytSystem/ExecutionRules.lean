import RaytSystem.ExecutionService
import RaytSystem.HeartbeatRules

/-! The accesses of the execution service by what they leave alone. Outside the labelled
writes, a heartbeat and a recovery write no budget usage, and of run records only the first
revision. -/
namespace RaytSystem.Execution
open Control Tasking Interleaving RecordTable

abbrev RecordHistory := RecordTable.Table RecordKey ExecutionRecord

variable (kind : RecordKind)

def Spared (t t' : RecordHistory) : Prop :=
  RecordTable.Extends t t' ∧ ∀ recordId, t' (kind,recordId) = t (kind,recordId) ∨
    kind = .run ∧ t (kind,recordId) = []

theorem spared_refl (t : RecordHistory) :
    Spared kind t t := ⟨extends_refl t, fun _ => Or.inl rfl⟩

variable {t t' : RecordHistory} {record : ExecutionRecord} {expected : Option Nat} {revision : Nat}

theorem putRecord_cases (h : putRecord t record expected = .ok (revision,t')) :
    (t' = t ∧ (head t record.key).map RecordTable.Stored.value = some record) ∨
      t' = push t record.key record ∧
        expected = (head t record.key).map RecordTable.Stored.revision := by
  simp only [putRecord] at h
  split at h
  next hsame =>
    cases h
    exact Or.inl ⟨rfl, hsame⟩
  next =>
    split at h
    · cases h
    · split at h
      · cases h
      next hexpected =>
        split at h
        · cases h
        · cases h
          exact Or.inr ⟨rfl, not_not.mp hexpected⟩

theorem putRecord_spared {kind : RecordKind} (hkind : record.key.1 ≠ kind)
    (h : putRecord t record expected = .ok (revision,t')) : Spared kind t t' := by
  rcases putRecord_cases h with ⟨rfl, _⟩ | ⟨rfl, _⟩
  · exact spared_refl kind t'
  · refine ⟨push_extends _ _ _, fun recordId => Or.inl ?_⟩
    apply push_other
    intro hkey
    exact hkind (congrArg Prod.fst hkey).symm

theorem putRecord_first {run : ExecutionRun} (h : putRecord t (.run run) none = .ok (revision,t')) :
    Spared .run t t' := by
  rcases putRecord_cases h with ⟨rfl, _⟩ | ⟨rfl, hnone⟩
  · exact spared_refl .run t'
  · refine ⟨push_extends _ _ _, fun recordId => ?_⟩
    by_cases hkey : (RecordKind.run, recordId) = (ExecutionRecord.run run).key
    · rw [hkey]
      refine Or.inr ⟨rfl, head_eq_none.mp ?_⟩
      simpa using hnone.symm
    · exact Or.inl (push_other t _ hkey)

class Labelled (kind : RecordKind) : Prop where
  cases : kind = .run ∨ kind = .budgetUsage

instance : Labelled .run := ⟨Or.inl rfl⟩

instance : Labelled .budgetUsage := ⟨Or.inr rfl⟩

def OnRecords (K : RecordHistory → RecordHistory → Prop) :
    AccessKind HeartbeatWorld HeartbeatAccess :=
  fun _ _ f => ∀ w, K w.stores.records (f w).2.stores.records

abbrev Spares {α : Type} (p : HeartbeatProg α) : Prop :=
  Within (OnRecords (Spared kind)) p

section
set_option synthInstance.maxSize 1000
variable (env : HeartbeatEnv) (call : Caller) (kind : RecordKind)
variable {α : Type} {f : HeartbeatStores → Except HeartbeatError (α × HeartbeatStores)}
variable {note : HeartbeatStores → α → Observer → Observer}

theorem noting_onRecords {K : RecordHistory → RecordHistory → Prop} {l : HeartbeatAccess}
    (hrefl : ∀ t, K t t) (hf : ∀ s a s', f s = .ok (a,s') → K s.records s'.records) :
    Within (OnRecords K) (noting l f note) := by
  unfold noting
  refine .andThen fun _ => Within.attempt fun w => ?_
  unfold Prog.attemptStep
  cases hfw : f w.stores with
  | error e => simpa only [hfw] using hrefl w.stores.records
  | ok r => simpa only [hfw] using hf _ _ _ hfw

theorem noting_aside {l : HeartbeatAccess}
    (hf : ∀ s a s', f s = .ok (a,s') → s'.records = s.records) : Spares kind (noting l f note) :=
  noting_onRecords (spared_refl kind) fun s a s' h => hf s a s' h ▸ spared_refl kind s.records

instance : Quiet (OnRecords (Spared kind)) := ⟨fun hf => noting_aside kind fun s a s' h =>
  (hf s a s' h).2⟩

instance : Loud (OnRecords (Spared kind)) call := ⟨fun hf _ => noting_aside kind fun s a s' h =>
  (hf s a s' h).2⟩

theorem putStores_cases {record : ExecutionRecord} {expected : Option Nat} {s s' : HeartbeatStores}
    {revision : Nat} (h : putStores record expected s = .ok (revision,s')) :
    putRecord s.records record expected = .ok (revision,s'.records) := by
  unfold putStores at h
  split at h
  next hput =>
    cases h
    exact hput
  next => cases h

theorem put_apart (record : ExecutionRecord) (expected : Option Nat) (hkind : record.key.1 ≠ kind) :
    Spares kind (put env record expected) := by
  have haccess : Spares kind (access (putStores record expected)) :=
    noting_onRecords (spared_refl kind) fun s a s' hput =>
      putRecord_spared hkind (putStores_cases hput)
  unfold put
  infer_instance

instance (run : ExecutionRun) (expected : Option Nat) :
    Spares .budgetUsage (put env (.run run) expected) := put_apart env _ _ _ nofun

instance (usage : BudgetUsage) (expected : Option Nat) :
    Spares .run (put env (.budgetUsage usage) expected) := put_apart env _ _ _ nofun

instance [h : Labelled kind] : Books (OnRecords (Spared kind)) where
  book env record expected hrun hbudget := by
    apply put_apart
    rcases h.cases with rfl | rfl
    · exact hrun
    · exact hbudget

instance putRun_spares [h : Labelled kind] (run : ExecutionRun) :
    Spares kind (putRun env call run) := by
  have hnoting : Spares kind (noting .other (putStores (.run run) none)
      fun _ _ o => o.enter call .recorded) := by
    apply noting_onRecords (spared_refl kind)
    intro s a s' hput
    rcases h.cases with rfl | rfl
    · exact putRecord_first (putStores_cases hput)
    · exact putRecord_spared (nofun : (ExecutionRecord.run run).key.1 ≠ .budgetUsage)
        (putStores_cases hput)
  unfold putRun
  infer_instance

instance transition_spares (c : TransitionCommand) (expectedGenerationId : Nat) (now : Time) :
    Spares kind (transition call c expectedGenerationId now) := by
  have hnoting : Spares kind (noting .other
      (fun s => match transitionTask s.board c expectedGenerationId now with
        | .ok (result,board) => .ok (result, {s with board := board})
        | .error e => .error e)
      fun s result o =>
        if result.noOp then o
        else o.note (.moved call s.board.task.status result.task.status)) := by
    apply noting_aside
    intro s a s' h
    split at h <;> cases h
    rfl
  unfold transition
  infer_instance

instance findReceipt_spares : Spares kind (findReceipt env) := by
  apply Quiet.aside
  intro s a s' h
  split at h
  · cases h
    exact ⟨rfl, rfl⟩
  · split at h <;> cases h
    exact ⟨rfl, rfl⟩

instance leaseValid_spares (lease : Option TaskLease) (snapshot : TaskBoard) (now : Time) :
    Spares kind (leaseValid lease snapshot now) := by
  unfold leaseValid
  split <;> infer_instance

instance requireBudgetPolicy_spares (budgetPolicyId : Option String) :
    Spares kind (requireBudgetPolicy budgetPolicyId) := by
  unfold requireBudgetPolicy
  cases budgetPolicyId <;> infer_instance

section
variable [Labelled kind]

instance executeWithRenewal_spares (run : ExecutionRun) (c : Checkout) :
    Spares kind (executeWithRenewal env call run c) := by
  have hset : Spares kind
      (Prog.set .other fun w => {w with seen := w.seen.note (.executed call)} :
        HeartbeatProg Unit) := Within.step fun w => spared_refl kind w.stores.records
  unfold executeWithRenewal
  infer_instance

instance checkoutFailed_spares (p : Preflight) (decision : PolicyDecision) (startedAt : Time)
    (e : HeartbeatError) : Spares kind (handleError env call p decision startedAt none e) := by
  unfold handleError
  infer_instance

instance collectResult_spares (request : HeartbeatRequest) (st : Started) (c : Checkout)
    (outcome : ProcessOutcome) (intent : Option Intent) (endedAt : Time) :
    Spares kind (request.collectResult st c outcome intent endedAt) := by
  unfold HeartbeatRequest.collectResult
  infer_instance

instance bindAssignment_spares (r : AssignRequest) (runtimeAdapterId : String)
    (snapshot : TaskBoard) (at_ : Time) :
    Spares kind (bindAssignment env r runtimeAdapterId snapshot at_) := by
  unfold bindAssignment
  refine .andThen fun found => ?_
  dsimp only
  split <;> infer_instance
end
end

end RaytSystem.Execution
