import Mathlib.Data.List.Dedup
import Mathlib.Data.List.Perm.Subperm

/-! Lists kept under a key: one value for each key, or the first of each key. -/
namespace RaytSystem.KeyedUnion
open List
variable {α κ : Type} [DecidableEq α] [DecidableEq κ] (key : α → κ)

def insert (held : List α) (a : α) : Option (List α) :=
  match held.find? fun b => key b = key a with
  | some b => if b = a then some held else none
  | none => some (held ++ [a])

def insertAll : List α → List α → Option (List α)
  | held, [] => some held
  | held, a :: rest => (insert key held a).bind fun held => insertAll held rest

def keep (held : List α) (a : α) : List α :=
  if key a ∈ held.map key then held else held ++ [a]

def keepAll (held as : List α) : List α := as.foldl (keep key) held

section
variable {key} {held held' as : List α} {a : α}

theorem insert_new (h : key a ∉ held.map key) : insert key held a = some (held ++ [a]) := by
  have hnone : held.find? (fun b => key b = key a) = none := by
    rw [find?_eq_none]
    intro b hb hkey
    exact h (mem_map.mpr ⟨b, hb, by simpa using hkey⟩)
  rw [insert, hnone]

theorem insert_cases (h : insert key held a = some held') :
    (held' = held ∧ a ∈ held) ∨ (held' = held ++ [a] ∧ key a ∉ held.map key) := by
  unfold insert at h
  split at h
  next b hfind =>
    split at h
    next hb =>
      refine Or.inl ⟨(Option.some.inj h).symm, ?_⟩
      exact hb ▸ mem_of_find?_eq_some hfind
    · cases h
  next hfind =>
    refine Or.inr ⟨(Option.some.inj h).symm, ?_⟩
    intro hmem
    obtain ⟨b, hb, hkey⟩ := mem_map.mp hmem
    rw [find?_eq_none] at hfind
    exact hfind b hb (by simpa using hkey)

theorem insertAll_new (h : ((held ++ as).map key).Nodup) :
    insertAll key held as = some (held ++ as) := by
  induction as generalizing held with
  | nil => simp [insertAll]
  | cons a rest ih =>
    have hnew : key a ∉ held.map key := by
      rw [map_append, nodup_append] at h
      intro hmem
      exact h.2.2 _ hmem (key a) (by simp) rfl
    have happend : held ++ a :: rest = (held ++ [a]) ++ rest := by simp
    rw [happend] at h ⊢
    rw [insertAll, insert_new hnew]
    exact ih h

theorem insertAll_held (hheld : (held.map key).Nodup) (h : insertAll key held as = some held') :
    (held'.map key).Nodup ∧ ∀ a, a ∈ held' ↔ a ∈ held ∨ a ∈ as := by
  induction as generalizing held with
  | nil =>
    obtain rfl := Option.some.inj h
    exact ⟨hheld, by simp⟩
  | cons a rest ih =>
    rw [insertAll, Option.bind_eq_some_iff] at h
    obtain ⟨next, hnext, h⟩ := h
    rcases insert_cases hnext with ⟨rfl, ha⟩ | ⟨rfl, ha⟩
    · obtain ⟨hnodup, hmem⟩ := ih hheld h
      refine ⟨hnodup, ?_⟩
      intro b
      rw [hmem, mem_cons]
      constructor
      · rintro (hb | hb)
        · exact Or.inl hb
        · exact Or.inr (Or.inr hb)
      · rintro (hb | rfl | hb)
        · exact Or.inl hb
        · exact Or.inl ha
        · exact Or.inr hb
    · have hgrown : ((held ++ [a]).map key).Nodup := by
        rw [map_append, nodup_append]
        refine ⟨hheld, by simp, ?_⟩
        intro k hk k' hk' heq
        simp only [map_cons, map_nil, mem_singleton] at hk'
        exact ha (hk' ▸ heq ▸ hk)
      obtain ⟨hnodup, hmem⟩ := ih hgrown h
      refine ⟨hnodup, ?_⟩
      intro b
      rw [hmem, mem_append, mem_singleton, mem_cons, or_assoc]
end

section
variable {key} {held as : List α} {a : α}

omit [DecidableEq α] in
theorem mem_keep {b : α} (h : b ∈ keep key held a) : b ∈ held ∨ b = a := by
  unfold keep at h
  split at h
  · exact Or.inl h
  · simpa using h

omit [DecidableEq α] in
theorem keys_keep : ∀ k, k ∈ (keep key held a).map key ↔ k ∈ held.map key ∨ k = key a := by
  intro k
  unfold keep
  split
  next hmem =>
    constructor
    · exact Or.inl
    · rintro (hk | rfl)
      · exact hk
      · exact hmem
  · simp

omit [DecidableEq α] in
theorem mem_keepAll (h : a ∈ keepAll key held as) : a ∈ held ∨ a ∈ as := by
  induction as generalizing held with
  | nil => exact Or.inl h
  | cons b rest ih =>
    have hrest : a ∈ keepAll key (keep key held b) rest := h
    rcases ih hrest with h | h
    · rcases mem_keep h with h | rfl
      · exact Or.inl h
      · exact Or.inr mem_cons_self
    · exact Or.inr (mem_cons_of_mem _ h)

omit [DecidableEq α] in
theorem keys_keepAll (k : κ) :
    k ∈ (keepAll key held as).map key ↔ k ∈ held.map key ∨ k ∈ as.map key := by
  induction as generalizing held with
  | nil => simp [keepAll]
  | cons b rest ih =>
    have hstep : keepAll key held (b :: rest) = keepAll key (keep key held b) rest := rfl
    rw [hstep, ih, keys_keep, map_cons, mem_cons, or_assoc]

omit [DecidableEq α] in
theorem nodup_keepAll (h : (held.map key).Nodup) : ((keepAll key held as).map key).Nodup := by
  induction as generalizing held with
  | nil => exact h
  | cons b rest ih =>
    apply ih
    unfold keep
    split
    · exact h
    next hnew =>
      rw [map_append, nodup_append]
      refine ⟨h, by simp, ?_⟩
      intro k hk k' hk' heq
      simp only [map_cons, map_nil, mem_singleton] at hk'
      exact hnew (hk' ▸ heq ▸ hk)

omit [DecidableEq α] in
theorem length_keepAll : (keepAll key [] as).length = (as.map key).dedup.length := by
  have hperm : ((keepAll key [] as).map key).Perm (as.map key).dedup := by
    rw [perm_ext_iff_of_nodup (nodup_keepAll (by simp)) (nodup_dedup _)]
    intro k
    rw [keys_keepAll, mem_dedup]
    simp
  rw [← hperm.length_eq, length_map]
end

section
variable {key} {as : List α}

omit [DecidableEq α] in
theorem filter_groups (k : κ) (ks : List κ) (hk : k ∉ ks) :
    (as.filter (fun a => key a = k) ++ as.filter fun a => key a ∈ ks).Perm
      (as.filter fun a => key a ∈ k :: ks) := by
  induction as with
  | nil => exact List.Perm.refl _
  | cons a rest ih =>
    by_cases hfirst : key a = k
    · have hrest : key a ∉ ks := hfirst ▸ hk
      simpa [filter_cons, hfirst, hk] using ih.cons a
    · by_cases hmem : key a ∈ ks
      · simp only [filter_cons, hfirst, hmem, mem_cons, or_true, decide_true, if_true,
          decide_false, Bool.false_eq_true, if_false]
        simp only [mem_cons] at ih
        exact perm_middle.trans (ih.cons a)
      · simpa [filter_cons, hfirst, hmem] using ih

omit [DecidableEq α] in
theorem perm_groups {ks : List κ} (hks : ks.Nodup) :
    (ks.flatMap fun k => as.filter fun a => key a = k).Perm (as.filter fun a => key a ∈ ks) := by
  induction ks with
  | nil => simp
  | cons k rest ih =>
    obtain ⟨hk, hrest⟩ := nodup_cons.mp hks
    rw [flatMap_cons]
    exact ((ih hrest).append_left _).trans (filter_groups k rest hk)
end

end RaytSystem.KeyedUnion
