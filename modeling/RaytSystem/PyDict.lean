import Mathlib

/-! Dictionaries in insertion order. -/
namespace RaytSystem

structure PyDict (κ ν : Type) where
  entries : List (κ × ν)
  unique : (entries.map Prod.fst).Nodup
  deriving DecidableEq

namespace PyDict
variable {κ ν : Type}

def keys (d : PyDict κ ν) : List κ := d.entries.map Prod.fst

def size (d : PyDict κ ν) : Nat := d.entries.length

def empty : PyDict κ ν := ⟨[], List.nodup_nil⟩

variable [DecidableEq κ]

def get (d : PyDict κ ν) (k : κ) : Option ν := d.entries.lookup k

def setEntries (k : κ) (v : ν) : List (κ × ν) → List (κ × ν)
  | [] => [(k,v)]
  | kv :: rest => if kv.1 = k then (k,v) :: rest else kv :: setEntries k v rest

theorem setEntries_keys (k : κ) (v : ν) (es : List (κ × ν)) : (setEntries k v es).map Prod.fst =
      if k ∈ es.map Prod.fst then es.map Prod.fst else es.map Prod.fst ++ [k] := by
  induction es with
  | nil => simp [setEntries]
  | cons kv rest ih =>
    unfold setEntries
    by_cases hk : kv.1 = k
    · simp [hk]
    · have hk' : ¬k = kv.1 := fun h => hk h.symm
      simp only [hk, if_false, List.map_cons, ih, List.mem_cons, hk', false_or]
      split <;> simp

theorem setEntries_unique (k : κ) (v : ν) {es : List (κ × ν)}
    (h : (es.map Prod.fst).Nodup) : ((setEntries k v es).map Prod.fst).Nodup := by
  rw [setEntries_keys]
  split
  · exact h
  next hk =>
    rw [List.nodup_append]
    refine ⟨h, List.nodup_singleton k, ?_⟩
    intro a ha b hb hab
    rw [List.mem_singleton] at hb
    exact hk (hb ▸ hab ▸ ha)

def set (d : PyDict κ ν) (k : κ) (v : ν) : PyDict κ ν :=
  ⟨setEntries k v d.entries, setEntries_unique k v d.unique⟩

theorem lookup_cons (k : κ) (kv : κ × ν) (rest : List (κ × ν)) :
    (kv :: rest).lookup k = if k = kv.1 then some kv.2 else rest.lookup k := by
  by_cases h : k = kv.1
  · simp [List.lookup, h]
  · rw [List.lookup, beq_false_of_ne h, if_neg h]

theorem lookup_setEntries (k k' : κ) (v : ν) (es : List (κ × ν)) :
    (setEntries k v es).lookup k' = if k' = k then some v else es.lookup k' := by
  induction es with
  | nil => rw [setEntries, lookup_cons]
  | cons kv rest ih =>
    unfold setEntries
    split
    next hk =>
      simp only [lookup_cons, hk]
      split <;> rfl
    next hk =>
      simp only [lookup_cons, ih]
      by_cases h : k' = kv.1
      · have hne : k' ≠ k := fun hkk => hk (h ▸ hkk)
        rw [if_pos h, if_neg hne, if_pos h]
      · rw [if_neg h, if_neg h]

variable {d : PyDict κ ν}

@[simp] theorem get_set (d : PyDict κ ν) (k k' : κ) (v : ν) :
    (d.set k v).get k' = if k' = k then some v else d.get k' :=
  lookup_setEntries k k' v d.entries

@[simp] theorem get_empty (k : κ) : (empty : PyDict κ ν).get k = none := rfl

theorem get_eq_some_iff {k : κ} {v : ν} : d.get k = some v ↔ (k,v) ∈ d.entries := by
  obtain ⟨es, hu⟩ := d
  unfold get
  induction es with
  | nil => simp
  | cons kv rest ih =>
    obtain ⟨hnot, hrest⟩ := List.nodup_cons.mp hu
    rw [lookup_cons, List.mem_cons]
    split
    next h =>
      subst h
      have hout : (kv.1,v) ∉ rest := fun hm => hnot (List.mem_map.mpr ⟨_, hm, rfl⟩)
      simp [hout, Prod.ext_iff, eq_comm]
    next h =>
      have hne : (k,v) ≠ kv := fun he => h (congrArg Prod.fst he)
      rw [ih hrest, or_iff_right hne]

theorem mem_keys_iff {k : κ} : k ∈ d.keys ↔ ∃ v, d.get k = some v := by
  simp [keys, get_eq_some_iff]

theorem mem_keys_set {k k' : κ} {v : ν} : k' ∈ (d.set k v).keys ↔ k' = k ∨ k' ∈ d.keys := by
  simp only [mem_keys_iff, get_set]
  by_cases h : k' = k <;> simp [h]

def same [DecidableEq ν] (d d' : PyDict κ ν) : Bool :=
  d.entries.all (fun kv => d'.get kv.1 == some kv.2) &&
    d'.entries.all (fun kv => d.get kv.1 == some kv.2)

theorem same_iff [DecidableEq ν] {d d' : PyDict κ ν} :
    d.same d' = true ↔ ∀ k, d.get k = d'.get k := by
  simp only [same, Bool.and_eq_true, List.all_eq_true, beq_iff_eq]
  constructor
  · rintro ⟨hd, hd'⟩ k
    cases hk : d.get k with
    | some v => exact (hd (k,v) (get_eq_some_iff.mp hk)).symm
    | none =>
      cases hk' : d'.get k with
      | none => rfl
      | some v =>
        have hv := hd' (k,v) (get_eq_some_iff.mp hk')
        exact hk.symm.trans hv
  · intro h
    constructor
    · rintro ⟨k, v⟩ hkv
      rw [← h k]
      exact get_eq_some_iff.mpr hkv
    · rintro ⟨k, v⟩ hkv
      rw [h k]
      exact get_eq_some_iff.mpr hkv

end PyDict
end RaytSystem
