import Mathlib.Data.List.Basic
import Mathlib.Data.List.Infix
import Mathlib.Logic.Function.Basic

/-! Numbered revisions in two tables: the rows of all revisions under a primary key, and the head
of each record with the digest of its row. -/
namespace RevisionTables

structure Row (κ η δ : Type) where
  key : κ
  revision : Nat
  digest : η
  data : δ
  deriving DecidableEq

structure Tables (κ η δ : Type) where
  rows : List (Row κ η δ)
  heads : κ → Option (Nat × η)

variable {κ η δ : Type}

def empty : Tables κ η δ := ⟨[], fun _ => none⟩

def headRevision (t : Tables κ η δ) (k : κ) : Option Nat := (t.heads k).map Prod.fst

variable [DecidableEq κ]

def rowsOf (t : Tables κ η δ) (k : κ) : List (Row κ η δ) := t.rows.filter (·.key = k)

def rowAt (t : Tables κ η δ) (k : κ) (revision : Nat) : Option (Row κ η δ) :=
  (rowsOf t k).find? (·.revision = revision)

def insert (t : Tables κ η δ) (k : κ) (revision : Nat) (digest : η) (data : δ) :
    Option (Tables κ η δ) :=
  if (rowsOf t k).any (·.revision = revision) then none
  else some ⟨t.rows ++ [⟨k, revision, digest, data⟩],
    Function.update t.heads k (some (revision, digest))⟩

def Versioned (t : Tables κ η δ) : Prop :=
  ∀ k, (rowsOf t k).map Row.revision = List.range' 1 ((headRevision t k).getD 0) ∧
    t.heads k = (rowsOf t k).getLast?.map fun row => (row.revision, row.digest)

theorem versioned_empty : Versioned (empty : Tables κ η δ) := fun _ => ⟨rfl, rfl⟩

theorem rowsOf_same (t : Tables κ η δ) (row : Row κ η δ) (heads : κ → Option (Nat × η)) :
    rowsOf ⟨t.rows ++ [row], heads⟩ row.key = rowsOf t row.key ++ [row] := by
  simp [rowsOf]

theorem rowsOf_other (t : Tables κ η δ) (row : Row κ η δ) {k : κ} (h : row.key ≠ k)
    (heads : κ → Option (Nat × η)) : rowsOf ⟨t.rows ++ [row], heads⟩ k = rowsOf t k := by
  simp [rowsOf, h]

theorem insert_next {t : Tables κ η δ} (h : Versioned t) (k : κ) (digest : η) (data : δ) :
    ∃ t', insert t k ((headRevision t k).getD 0 + 1) digest data = some t' ∧ Versioned t' ∧
      t'.rows = t.rows ++ [⟨k, (headRevision t k).getD 0 + 1, digest, data⟩] ∧
      t'.heads = Function.update t.heads k (some ((headRevision t k).getD 0 + 1, digest)) := by
  obtain ⟨hrevisions, -⟩ := h k
  have hfree : (rowsOf t k).any (·.revision = (headRevision t k).getD 0 + 1) = false := by
    rw [List.any_eq_false]
    intro row hrow htaken
    have hmem : row.revision ∈ (rowsOf t k).map Row.revision := List.mem_map_of_mem hrow
    rw [hrevisions, List.mem_range'_1] at hmem
    have htaken := of_decide_eq_true htaken
    omega
  refine ⟨⟨t.rows ++ [⟨k, (headRevision t k).getD 0 + 1, digest, data⟩],
    Function.update t.heads k (some ((headRevision t k).getD 0 + 1, digest))⟩, ?_, ?_, rfl, rfl⟩
  · rw [insert, hfree, if_neg Bool.false_ne_true]
  · intro k'
    by_cases hk : k = k'
    · subst hk
      have hrows := rowsOf_same t ⟨k, (headRevision t k).getD 0 + 1, digest, data⟩
        (Function.update t.heads k (some ((headRevision t k).getD 0 + 1, digest)))
      have hhead : headRevision (⟨t.rows ++ [⟨k, (headRevision t k).getD 0 + 1, digest, data⟩],
          Function.update t.heads k (some ((headRevision t k).getD 0 + 1, digest))⟩ :
          Tables κ η δ) k = some ((headRevision t k).getD 0 + 1) := by
        simp [headRevision]
      rw [hrows, hhead]
      constructor
      · rw [List.map_append, hrevisions, Option.getD_some, List.range'_concat]
        simp [Nat.add_comm]
      · simp
    · have hrows := rowsOf_other t ⟨k, (headRevision t k).getD 0 + 1, digest, data⟩ hk
        (Function.update t.heads k (some ((headRevision t k).getD 0 + 1, digest)))
      have hheads : Function.update t.heads k (some ((headRevision t k).getD 0 + 1, digest)) k' =
          t.heads k' := Function.update_of_ne (Ne.symm hk) _ _
      have hhead : headRevision (⟨t.rows ++ [⟨k, (headRevision t k).getD 0 + 1, digest, data⟩],
          Function.update t.heads k (some ((headRevision t k).getD 0 + 1, digest))⟩ :
          Tables κ η δ) k' = headRevision t k' := congrArg (Option.map Prod.fst) hheads
      rw [hrows, hhead]
      exact ⟨(h k').1, hheads.trans (h k').2⟩

theorem Versioned.head {t : Tables κ η δ} (h : Versioned t) {k : κ} {revision : Nat} {digest : η}
    (hhead : t.heads k = some (revision, digest)) :
    ∃ older row, rowsOf t k = older ++ [row] ∧ rowAt t k revision = some row ∧
      row.revision = revision ∧ row.digest = digest := by
  obtain ⟨hrevisions, hlast⟩ := h k
  rw [hhead] at hlast
  obtain ⟨row, hrow, hpair⟩ := Option.map_eq_some_iff.mp hlast.symm
  obtain ⟨older, holder⟩ := List.getLast?_eq_some_iff.mp hrow
  obtain ⟨hrevision, hdigest⟩ := Prod.mk.inj hpair
  have hcount : (headRevision t k).getD 0 = revision := by simp [headRevision, hhead]
  have hbefore : older.find? (fun r => decide (r.revision = revision)) = none := by
    rw [List.find?_eq_none]
    intro other hother hsame
    have hsame := of_decide_eq_true hsame
    rw [holder, List.map_append, hcount] at hrevisions
    have hnodup : (older.map Row.revision ++ [row.revision]).Nodup := by
      have hrange : (List.range' 1 revision).Nodup := List.nodup_range'
      rwa [← hrevisions] at hrange
    have hdisjoint := (List.nodup_append.mp hnodup).2.2 other.revision
      (List.mem_map_of_mem hother) row.revision (List.mem_singleton_self _)
    exact hdisjoint (hsame.trans hrevision.symm)
  refine ⟨older, row, holder, ?_, hrevision, hdigest⟩
  rw [rowAt, holder, List.find?_append, hbefore]
  simp [hrevision]

end RevisionTables
