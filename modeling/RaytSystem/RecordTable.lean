import Mathlib.Data.List.Infix
import Mathlib.Logic.Function.Basic

/-! Append-only record tables. A key's revisions are numbered from one, and a writer
names the revision it has read: the append is refused when the head has moved. -/
namespace RecordTable

structure Stored (ρ : Type) where
  revision : Nat
  value : ρ
  deriving DecidableEq, Repr

abbrev Table (κ ρ : Type) := κ → List ρ

variable {κ ρ : Type}

def head (t : Table κ ρ) (k : κ) : Option (Stored ρ) :=
  (t k).getLast?.map fun r => ⟨(t k).length, r⟩

def Extends (t t' : Table κ ρ) : Prop := ∀ k, t k <+: t' k

def Seen (t : Table κ ρ) (k : κ) (s : Stored ρ) : Prop :=
  ∃ older, older ++ [s.value] <+: t k ∧ older.length + 1 = s.revision

theorem extends_refl (t : Table κ ρ) : Extends t t := fun k => List.prefix_refl (t k)

theorem extends_trans {a b c : Table κ ρ} (hab : Extends a b) (hbc : Extends b c) :
    Extends a c := fun k => (hab k).trans (hbc k)

variable {k : κ} {r : ρ}

theorem extends_mem {t t' : Table κ ρ} (h : Extends t t') (hr : r ∈ t k) :
    r ∈ t' k := (h k).subset hr

variable {t : Table κ ρ} {s : Stored ρ}

theorem head_eq_some :
    head t k = some s ↔ ∃ older, t k = older ++ [s.value] ∧ older.length + 1 = s.revision := by
  constructor
  · intro h
    obtain ⟨r, hr, rfl⟩ := Option.map_eq_some_iff.mp h
    obtain ⟨older, ho⟩ := List.getLast?_eq_some_iff.mp hr
    exact ⟨older, ho, by simp [ho]⟩
  · rintro ⟨older, ho, hl⟩
    simp [head, ho, hl]

theorem head_eq_none : head t k = none ↔ t k = [] := by
  simp [head]

theorem head_mem (h : head t k = some s) : s.value ∈ t k := by
  obtain ⟨older, ho, _⟩ := head_eq_some.mp h
  simp [ho]

theorem seen_head (h : head t k = some s) : Seen t k s := by
  obtain ⟨older, ho, hl⟩ := head_eq_some.mp h
  exact ⟨older, ho ▸ List.prefix_refl _, hl⟩

theorem seen_extends {t t' : Table κ ρ} (h : Seen t k s) (ht : Extends t t') : Seen t' k s := by
  obtain ⟨older, ho, hl⟩ := h
  exact ⟨older, ho.trans (ht k), hl⟩

theorem seen_mem (h : Seen t k s) : s.value ∈ t k := by
  obtain ⟨older, ho, _⟩ := h
  exact ho.subset (by simp)

variable [DecidableEq κ]

def push (t : Table κ ρ) (k : κ) (r : ρ) : Table κ ρ := Function.update t k (t k ++ [r])

def append (t : Table κ ρ) (k : κ) (expected : Option Nat) (r : ρ) : Option (Table κ ρ) :=
  if (head t k).map Stored.revision = expected then some (push t k r) else none

@[simp] theorem push_same (t : Table κ ρ) (k : κ) (r : ρ) : push t k r k = t k ++ [r] := by
  rw [push, Function.update_self]

theorem push_other (t : Table κ ρ) {k k' : κ} (r : ρ) (h : k' ≠ k) : push t k r k' = t k' := by
  rw [push, Function.update_of_ne h]

theorem mem_push {k k' : κ} {r r' : ρ} (h : r' ∈ push t k r k') :
    r' ∈ t k' ∨ (k' = k ∧ r' = r) := by
  by_cases hk : k' = k
  · subst hk
    rw [push_same, List.mem_append, List.mem_singleton] at h
    exact h.imp_right fun hr => ⟨rfl, hr⟩
  · rw [push_other t r hk] at h
    exact Or.inl h

theorem push_extends (t : Table κ ρ) (k : κ) (r : ρ) : Extends t (push t k r) := by
  intro k'
  by_cases h : k' = k
  · subst h
    rw [push_same]
    exact List.prefix_append _ _
  · rw [push_other t r h]

theorem head_push (t : Table κ ρ) (k : κ) (r : ρ) :
    head (push t k r) k = some ⟨(t k).length + 1, r⟩ := by
  simp [head]

theorem head_push_other (t : Table κ ρ) {k k' : κ} (r : ρ) (h : k' ≠ k) :
    head (push t k r) k' = head t k' := by
  simp only [head, push_other t r h]

theorem append_eq_some {t t' : Table κ ρ} {expected : Option Nat} :
    append t k expected r = some t' ↔
      (head t k).map Stored.revision = expected ∧ t' = push t k r := by
  unfold append
  split <;> simp_all [eq_comm]

theorem append_first {t t' : Table κ ρ} (h : append t k none r = some t') :
    t k = [] ∧ t' = push t k r := by
  obtain ⟨hrev, ht⟩ := append_eq_some.mp h
  exact ⟨head_eq_none.mp (by simpa using hrev), ht⟩

theorem append_seen {t t' : Table κ ρ} (hs : Seen t k s)
    (h : append t k (some s.revision) r = some t') : head t k = some s ∧ t' = push t k r := by
  obtain ⟨hrev, ht⟩ := append_eq_some.mp h
  refine ⟨?_, ht⟩
  obtain ⟨s', hs', hr⟩ := Option.map_eq_some_iff.mp hrev
  obtain ⟨older', ho', hl'⟩ := head_eq_some.mp hs'
  obtain ⟨older, ho, hl⟩ := hs
  -- a prefix of the same length as the whole history is the history
  have hlen : (older ++ [s.value]).length = (t k).length := by
    simp only [ho', List.length_append, List.length_singleton]
    omega
  exact head_eq_some.mpr ⟨older, (ho.eq_of_length hlen).symm, hl⟩

end RecordTable
