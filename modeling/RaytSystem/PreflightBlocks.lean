import RaytSystem.ExecutionRules
import RaytSystem.ProgramReturns

/-! What a heartbeat leaves of its task and of its assignment when its preflight is blocked. -/
namespace RaytSystem.Execution
open Control Tasking Interleaving

section

def Keyed (t : RecordHistory) : Prop :=
  ∀ id r, r ∈ t (.assignment,id) → r.key = (.assignment,id)

def Fresh (env : HeartbeatEnv) (b : TaskBoard) : Prop :=
  ∀ e ∈ b.events, ¬(e.command.actor = "raytsystem:execution" ∧
    e.command.idempotencyKey = stateKey env .blocked)

structure Follows (env : HeartbeatEnv) (still keep : Bool) (s s' : HeartbeatStores) : Prop where
  keyed : Keyed s.records → Keyed s'.records
  fresh : Fresh env s.board → Fresh env s'.board
  status : s'.board.task.status = s.board.task.status ∨ s'.board.task.status = .running
  still : still = true → s'.board = s.board
  keep : keep = true → ∀ id, s'.records (.assignment,id) = s.records (.assignment,id)

variable {env : HeartbeatEnv} {still keep : Bool} {s s' s'' : HeartbeatStores}

theorem follows_refl (env : HeartbeatEnv) (still keep : Bool) (s : HeartbeatStores) :
    Follows env still keep s s where
  keyed := id
  fresh := id
  status := Or.inl rfl
  still _ := rfl
  keep _ _ := rfl

theorem Follows.trans (h : Follows env still keep s s') (h' : Follows env still keep s' s'') :
    Follows env still keep s s'' where
  keyed hs := h'.keyed (h.keyed hs)
  fresh hs := h'.fresh (h.fresh hs)
  status := by
    rcases h'.status with hsame | hrunning
    · rw [hsame]
      exact h.status
    · exact Or.inr hrunning
  still hstill := (h'.still hstill).trans (h.still hstill)
  keep hkeep id := (h'.keep hkeep id).trans (h.keep hkeep id)

theorem follows_aside (hboard : s'.board = s.board) (hrecords : s'.records = s.records) :
    Follows env still keep s s' where
  keyed hs := hrecords ▸ hs
  fresh hs := hboard ▸ hs
  status := Or.inl (by rw [hboard])
  still _ := hboard
  keep _ _ := by rw [hrecords]

theorem putRecord_keyed {t t' : RecordHistory} {record : ExecutionRecord} {expected : Option Nat}
    {revision : Nat} (h : putRecord t record expected = .ok (revision,t')) (hkeyed : Keyed t) :
    Keyed t' := by
  rcases putRecord_cases h with ⟨rfl, -⟩ | ⟨rfl, -⟩
  · exact hkeyed
  · intro id r hr
    by_cases hkey : (RecordKind.assignment, id) = record.key
    · rw [hkey, RecordTable.push_same, List.mem_append, List.mem_singleton] at hr
      rcases hr with hr | rfl
      · rw [← hkey] at hr
        exact hkeyed id r hr
      · exact hkey.symm
    · rw [RecordTable.push_other t record hkey] at hr
      exact hkeyed id r hr
end

section

def OnStores (K : HeartbeatStores → HeartbeatStores → Prop) :
    AccessKind HeartbeatWorld HeartbeatAccess :=
  fun _ _ f => ∀ w, K w.stores (f w).2.stores

variable {α : Type} {w w' : HeartbeatWorld}

theorem onStores_returns {K : HeartbeatStores → HeartbeatStores → Prop} (hrefl : ∀ s, K s s)
    (htrans : ∀ s s' s'', K s s' → K s' s'' → K s s'') (p : HeartbeatProg α)
    [hp : Within (OnStores K) p] {a : α} (h : Returns p w a w') : K w.stores w'.stores := by
  have hevery := hp.every
  clear hp
  induction p generalizing w with
  | pure b =>
    obtain ⟨-, rfl⟩ := returns_pure.mp h
    exact hrefl _
  | fail e => exact absurd h returns_fail
  | act l f k ih =>
    exact htrans _ _ _ (hevery.1 w) (ih _ (returns_act.mp h) (hevery.2 _))
  | choose input k ih =>
    obtain ⟨b, hb⟩ := returns_choose.mp h
    exact ih b hb (hevery b)

abbrev Following (env : HeartbeatEnv) (still keep : Bool) {α : Type} (p : HeartbeatProg α) : Prop :=
  Within (OnStores (Follows env still keep)) p

theorem following_returns {env : HeartbeatEnv} {still keep : Bool} {p : HeartbeatProg α}
    (hp : Following env still keep p) {a : α} (h : Returns p w a w') :
    Follows env still keep w.stores w'.stores :=
  onStores_returns (follows_refl env still keep) (fun _ _ _ => Follows.trans) p h

set_option synthInstance.maxSize 1000
variable (env : HeartbeatEnv) (call : Caller) (still keep : Bool)

theorem returns_follows {p : HeartbeatProg α} [hp : Following env still keep p] {a : α}
    (h : Returns p w a w') : Follows env still keep w.stores w'.stores := following_returns hp h

variable {f : HeartbeatStores → Except HeartbeatError (α × HeartbeatStores)}
variable {note : HeartbeatStores → α → Observer → Observer}

theorem noting_follows {l : HeartbeatAccess}
    (hf : ∀ s a s', f s = .ok (a,s') → Follows env still keep s s') :
    Following env still keep (noting l f note) := by
  unfold noting
  refine .andThen fun _ => Within.attempt fun w => ?_
  unfold Prog.attemptStep
  cases hfw : f w.stores with
  | error e => simpa only [hfw] using follows_refl env still keep w.stores
  | ok r => simpa only [hfw] using hf _ _ _ hfw

theorem noting_follows_aside {l : HeartbeatAccess}
    (hf : ∀ s a s', f s = .ok (a,s') → s'.board = s.board ∧ s'.records = s.records) :
    Following env still keep (noting l f note) :=
  noting_follows env still keep fun s a s' h => follows_aside (hf s a s' h).1 (hf s a s' h).2

instance : Quiet (OnStores (Follows env still keep)) := ⟨noting_follows_aside env still keep⟩

instance : Loud (OnStores (Follows env still keep)) call :=
  ⟨fun hf _ => noting_follows_aside env still keep hf⟩

theorem putStores_follows {record : ExecutionRecord} {expected : Option Nat} {s s' : HeartbeatStores}
    {revision : Nat} (hkeep : keep = true → record.key.1 ≠ .assignment)
    (h : putStores record expected s = .ok (revision,s')) : Follows env still keep s s' := by
  have hput := putStores_cases h
  have hboard : s'.board = s.board := by
    unfold putStores at h
    split at h <;> cases h
    rfl
  refine ⟨putRecord_keyed hput, fun hs => hboard ▸ hs, Or.inl (by rw [hboard]), fun _ => hboard, ?_⟩
  intro hk id
  rcases putRecord_cases hput with ⟨hsame, -⟩ | ⟨hpush, -⟩
  · rw [hsame]
  · rw [hpush]
    apply RecordTable.push_other
    intro hkey
    exact hkeep hk (congrArg Prod.fst hkey).symm

theorem put_follows (env' : HeartbeatEnv) (record : ExecutionRecord) (expected : Option Nat)
    (hkeep : keep = true → record.key.1 ≠ .assignment) :
    Following env still keep (put env' record expected) := by
  have haccess : Following env still keep (access (putStores record expected)) :=
    noting_follows env still keep fun s a s' hput => putStores_follows env still keep hkeep hput
  unfold put
  infer_instance

instance (l : TaskLease) (expected : Option Nat) :
    Following env still keep (put env (.lease l) expected) :=
  put_follows env still keep _ _ _ fun _ => nofun

instance (c : ExecutionComment) (expected : Option Nat) :
    Following env still keep (put env (.comment c) expected) :=
  put_follows env still keep _ _ _ fun _ => nofun

instance : Books (OnStores (Follows env still false)) :=
  ⟨fun env' _ _ _ _ => put_follows env still false env' _ _ Bool.false_ne_true.elim⟩

instance putRun_follows (run : ExecutionRun) : Following env still false (putRun env call run) := by
  have hnoting : Following env still false (noting .other (putStores (.run run) none)
      fun _ _ o => o.enter call .recorded) :=
    noting_follows env still false fun s a s' hput => putStores_follows env still false nofun hput
  unfold putRun
  infer_instance

instance checkRun_follows : Following env still keep (checkRun env call) := by
  apply noting_follows_aside
  intro s a s' h
  split at h <;> cases h <;> exact ⟨rfl, rfl⟩
end
end RaytSystem.Execution
