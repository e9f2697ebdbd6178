import Mathlib.Data.List.Basic

/-! Backtracking patterns over lists, and the pieces into which a global pattern cuts a list. -/
universe u

inductive Pattern (α : Type u) where
  | empty
  | unit (accepts : α → Bool)
  | seq (first second : Pattern α)
  | alt (first second : Pattern α)
  | star (body : Pattern α)
  | lazyStar (body : Pattern α)
  | assert (holds : List α → List α → Bool)

namespace Pattern
variable {α : Type u}

abbrev Matcher (α : Type u) := List α → List α → (List α → List α → Option ℕ) → Option ℕ

def most (m : Matcher α) : ℕ → Matcher α
  | 0, before, rest, next => next before rest
  | n + 1, before, rest, next =>
    match m before rest fun before' rest' =>
      if rest'.length < rest.length then most m n before' rest' next else none with
    | some left => some left
    | none => next before rest

def least (m : Matcher α) : ℕ → Matcher α
  | 0, before, rest, next => next before rest
  | n + 1, before, rest, next =>
    match next before rest with
    | some left => some left
    | none => m before rest fun before' rest' =>
      if rest'.length < rest.length then least m n before' rest' next else none

def run : Pattern α → Matcher α
  | .empty, before, rest, next => next before rest
  | .unit _, _, [], _ => none
  | .unit accepts, before, u :: rest, next => if accepts u then next (u :: before) rest else none
  | .seq r s, before, rest, next => r.run before rest fun before' rest' => s.run before' rest' next
  | .alt r s, before, rest, next =>
    match r.run before rest next with
    | some left => some left
    | none => s.run before rest next
  | .star r, before, rest, next => most r.run rest.length before rest next
  | .lazyStar r, before, rest, next => least r.run rest.length before rest next
  | .assert holds, before, rest, next => if holds before rest then next before rest else none

variable (r : Pattern α)

def opt : Pattern α := .alt r .empty

def plus : Pattern α := .seq r (.star r)

def text [DecidableEq α] (s : List α) : Pattern α :=
  s.foldr (fun u r => .seq (.unit fun v => v = u) r) .empty

def matchAt (before rest : List α) : Option (List α) :=
  (r.run before rest fun _ rest' => some rest'.length).map fun left =>
    rest.take (rest.length - left)

/-- The units outside every match and the matches, from the left; `skip` units belong to the
match found last. A match of no units is passed over. -/
def piecesFrom (r : Pattern α) : List α → ℕ → List α → List (α ⊕ List α)
  | _, _, [] => []
  | before, skip + 1, u :: rest => piecesFrom r (u :: before) skip rest
  | before, 0, u :: rest =>
    match r.matchAt before (u :: rest) with
    | some (v :: hit) => .inr (v :: hit) :: piecesFrom r (u :: before) hit.length rest
    | _ => .inl u :: piecesFrom r (u :: before) 0 rest

def pieces (s : List α) : List (α ⊕ List α) := r.piecesFrom [] 0 s

def Spells : Pattern α → List α → Prop
  | .empty, x => x = []
  | .unit accepts, x => ∃ u, accepts u = true ∧ x = [u]
  | .seq r s, x => ∃ y z, x = y ++ z ∧ r.Spells y ∧ s.Spells z
  | .alt r s, x => r.Spells x ∨ s.Spells x
  | .star r, x => ∃ ys : List (List α), x = ys.flatten ∧ ∀ y ∈ ys, r.Spells y
  | .lazyStar r, x => ∃ ys : List (List α), x = ys.flatten ∧ ∀ y ∈ ys, r.Spells y
  | .assert _, x => x = []

theorem spells_text [DecidableEq α] {s x : List α} : (text s).Spells x ↔ x = s := by
  induction s generalizing x with
  | nil => exact Iff.rfl
  | cons u s ih =>
    constructor
    · rintro ⟨y, z, rfl, ⟨v, hv, rfl⟩, hz⟩
      obtain rfl := of_decide_eq_true hv
      obtain rfl := ih.mp hz
      rfl
    · rintro rfl
      exact ⟨[u], s, rfl, ⟨u, decide_eq_true rfl, rfl⟩, ih.mpr rfl⟩

theorem spells_star_unit {accepts : α → Bool} {x : List α} :
    (star (unit accepts)).Spells x ↔ ∀ u ∈ x, accepts u = true := by
  constructor
  · rintro ⟨ys, rfl, hys⟩ u hu
    obtain ⟨y, hy, huy⟩ := List.mem_flatten.mp hu
    obtain ⟨v, hv, rfl⟩ := hys y hy
    obtain rfl := List.mem_singleton.mp huy
    exact hv
  · intro h
    have hflatten : x = (x.map fun u => [u]).flatten := by
      rw [← List.flatMap_def, List.flatMap_singleton']
    refine ⟨x.map fun u => [u], hflatten, ?_⟩
    intro y hy
    obtain ⟨u, hu, rfl⟩ := List.mem_map.mp hy
    exact ⟨u, h u hu, rfl⟩

def Sound (m : Matcher α) (P : List α → Prop) : Prop :=
  ∀ before rest next left, m before rest next = some left →
    ∃ x before' rest', rest = x ++ rest' ∧ P x ∧ next before' rest' = some left

section
variable {m : Matcher α} {P : List α → Prop}

theorem sound_most (h : Sound m P) (n : ℕ) :
    Sound (most m n) fun x => ∃ ys : List (List α), x = ys.flatten ∧ ∀ y ∈ ys, P y := by
  induction n with
  | zero =>
    intro before rest next left hrun
    exact ⟨[], before, rest, rfl, ⟨[], rfl, by simp⟩, hrun⟩
  | succ n ih =>
    intro before rest next left hrun
    simp only [most] at hrun
    split at hrun
    next left' hmatch =>
      obtain rfl := Option.some.inj hrun
      obtain ⟨x, before', rest', rfl, hx, hnext⟩ := h _ _ _ _ hmatch
      have hmore : most m n before' rest' next = some left' := by
        split at hnext
        · exact hnext
        · cases hnext
      obtain ⟨y, before'', rest'', rfl, ⟨ys, rfl, hys⟩, hleft⟩ := ih _ _ _ _ hmore
      refine ⟨x ++ ys.flatten, before'', rest'', by simp, ⟨x :: ys, rfl, ?_⟩, hleft⟩
      exact List.forall_mem_cons.mpr ⟨hx, hys⟩
    next => exact ⟨[], before, rest, rfl, ⟨[], rfl, by simp⟩, hrun⟩

theorem sound_least (h : Sound m P) (n : ℕ) :
    Sound (least m n) fun x => ∃ ys : List (List α), x = ys.flatten ∧ ∀ y ∈ ys, P y := by
  induction n with
  | zero =>
    intro before rest next left hrun
    exact ⟨[], before, rest, rfl, ⟨[], rfl, by simp⟩, hrun⟩
  | succ n ih =>
    intro before rest next left hrun
    simp only [least] at hrun
    split at hrun
    next left' hmatch =>
      obtain rfl := Option.some.inj hrun
      exact ⟨[], before, rest, rfl, ⟨[], rfl, by simp⟩, hmatch⟩
    next =>
      obtain ⟨x, before', rest', rfl, hx, hnext⟩ := h _ _ _ _ hrun
      have hmore : least m n before' rest' next = some left := by
        split at hnext
        · exact hnext
        · cases hnext
      obtain ⟨y, before'', rest'', rfl, ⟨ys, rfl, hys⟩, hleft⟩ := ih _ _ _ _ hmore
      refine ⟨x ++ ys.flatten, before'', rest'', by simp, ⟨x :: ys, rfl, ?_⟩, hleft⟩
      exact List.forall_mem_cons.mpr ⟨hx, hys⟩

theorem sound_run (r : Pattern α) : Sound r.run r.Spells := by
  induction r with
  | empty =>
    intro before rest next left hrun
    exact ⟨[], before, rest, rfl, rfl, hrun⟩
  | unit accepts =>
    intro before rest next left hrun
    cases rest with
    | nil => cases hrun
    | cons u rest =>
      simp only [run] at hrun
      split at hrun
      next hu => exact ⟨[u], _, rest, rfl, ⟨u, hu, rfl⟩, hrun⟩
      next => cases hrun
  | seq r s ihr ihs =>
    intro before rest next left hrun
    obtain ⟨x, before', rest', rfl, hx, hnext⟩ := ihr _ _ _ _ hrun
    obtain ⟨y, before'', rest'', rfl, hy, hleft⟩ := ihs _ _ _ _ hnext
    exact ⟨x ++ y, before'', rest'', by simp, ⟨x, y, rfl, hx, hy⟩, hleft⟩
  | alt r s ihr ihs =>
    intro before rest next left hrun
    simp only [run] at hrun
    split at hrun
    next left' hmatch =>
      obtain rfl := Option.some.inj hrun
      obtain ⟨x, before', rest', hrest, hx, hnext⟩ := ihr _ _ _ _ hmatch
      exact ⟨x, before', rest', hrest, Or.inl hx, hnext⟩
    next =>
      obtain ⟨x, before', rest', hrest, hx, hnext⟩ := ihs _ _ _ _ hrun
      exact ⟨x, before', rest', hrest, Or.inr hx, hnext⟩
  | star r ih => exact fun before rest => sound_most ih rest.length before rest
  | lazyStar r ih => exact fun before rest => sound_least ih rest.length before rest
  | assert holds =>
    intro before rest next left hrun
    simp only [run] at hrun
    split at hrun
    · exact ⟨[], before, rest, rfl, rfl, hrun⟩
    · cases hrun

theorem matchAt_spells {r : Pattern α} {before rest hit : List α}
    (h : r.matchAt before rest = some hit) : r.Spells hit ∧ ∃ rest', rest = hit ++ rest' := by
  obtain ⟨left, hrun, rfl⟩ := Option.map_eq_some_iff.mp h
  obtain ⟨x, before', rest', rfl, hx, hnext⟩ := sound_run r _ _ _ _ hrun
  obtain rfl : rest'.length = left := Option.some.inj hnext
  have htake : (x ++ rest').take ((x ++ rest').length - rest'.length) = x := by simp
  rw [htake]
  exact ⟨hx, rest', rfl⟩
end

section
variable {r : Pattern α}

theorem piecesFrom_skip (n : ℕ) (before s : List α) : ∃ before',
    r.piecesFrom before n s = r.piecesFrom before' 0 (s.drop n) := by
  induction n generalizing before s with
  | zero => exact ⟨before, rfl⟩
  | succ n ih =>
    cases s with
    | nil => exact ⟨before, rfl⟩
    | cons u s => exact ih (u :: before) s

theorem piecesFrom_cons (r : Pattern α) (before : List α) (u : α) (s : List α) :
    (∃ hit rest before', u :: s = hit ++ rest ∧ hit ≠ [] ∧ r.Spells hit ∧
      r.piecesFrom before 0 (u :: s) = .inr hit :: r.piecesFrom before' 0 rest) ∨
    r.piecesFrom before 0 (u :: s) = .inl u :: r.piecesFrom (u :: before) 0 s := by
  simp only [piecesFrom]
  split
  next v hit hmatch =>
    obtain ⟨hspells, rest, hrest⟩ := matchAt_spells hmatch
    obtain ⟨before', hskip⟩ := piecesFrom_skip (r := r) hit.length (u :: before) s
    refine Or.inl ⟨v :: hit, rest, before', hrest, List.cons_ne_nil _ _, hspells, ?_⟩
    have hs : s = hit ++ rest := (List.cons.inj hrest).2
    rw [hskip, hs, List.drop_left]
  next => exact Or.inr rfl

inductive Cuts (r : Pattern α) : List α → List (α ⊕ List α) → Prop
  | nil : Cuts r [] []
  | unit (u : α) {s ps} : Cuts r s ps → Cuts r (u :: s) (.inl u :: ps)
  | hit {h s ps} : r.Spells h → h ≠ [] → Cuts r s ps → Cuts r (h ++ s) (.inr h :: ps)

theorem cuts_piecesFrom (r : Pattern α) (n : ℕ) : ∀ (s before : List α), s.length ≤ n →
    r.Cuts s (r.piecesFrom before 0 s) := by
  induction n with
  | zero =>
    intro s before hn
    obtain rfl := List.length_eq_zero_iff.mp (Nat.le_zero.mp hn)
    exact .nil
  | succ n ih =>
    intro s before hn
    cases s with
    | nil => exact .nil
    | cons u s =>
      rcases piecesFrom_cons r before u s with
        ⟨h, rest, before', hs, hne, hspells, hpieces⟩ | hpieces
      · have hpos : 0 < h.length := List.length_pos_of_ne_nil hne
        have hlen : (u :: s).length = h.length + rest.length := by rw [hs, List.length_append]
        rw [hpieces, hs]
        exact .hit hspells hne (ih rest before' (by omega))
      · rw [hpieces]
        exact .unit u (ih s (u :: before) (by simpa using hn))

theorem cuts_pieces (r : Pattern α) (s : List α) : r.Cuts s (r.pieces s) :=
  cuts_piecesFrom r s.length s [] (Nat.le_refl _)

def join (ps : List (α ⊕ List α)) : List α := ps.flatMap (Sum.elim (fun u => [u]) id)

variable {ps : List (α ⊕ List α)}

theorem Cuts.join_eq {s : List α} (h : r.Cuts s ps) : join ps = s := by
  induction h with
  | nil => rfl
  | unit u _ ih => exact congrArg (u :: ·) ih
  | @hit h s ps _ _ _ ih => exact congrArg (h ++ ·) ih

theorem Cuts.spells {s hit : List α} (h : r.Cuts s ps) (hmem : .inr hit ∈ ps) :
    r.Spells hit ∧ hit ≠ [] ∧ hit <:+: s := by
  induction h with
  | nil => cases hmem
  | unit u _ ih =>
    obtain ⟨hspells, hne, hpart⟩ := ih (by simpa using hmem)
    exact ⟨hspells, hne, hpart.trans (List.suffix_cons u _).isInfix⟩
  | hit hspells hne _ ih =>
    rcases List.mem_cons.mp hmem with hmem | hmem
    · obtain rfl := Sum.inr.inj hmem
      exact ⟨hspells, hne, (List.prefix_append _ _).isInfix⟩
    · obtain ⟨hspells', hne', hpart⟩ := ih hmem
      exact ⟨hspells', hne', hpart.trans (List.suffix_append _ _).isInfix⟩

theorem pieces_eq_map {s : List α} (h : ∀ hit, hit <:+: s → ¬r.Spells hit) :
    r.pieces s = s.map .inl := by
  have hcuts := cuts_pieces r s
  have hmap : ∀ ps : List (α ⊕ List α), (∀ hit, .inr hit ∉ ps) → ps = (join ps).map .inl := by
    intro ps hps
    induction ps with
    | nil => rfl
    | cons p ps ih =>
      have ih' := ih fun hit hmem => hps hit (List.mem_cons_of_mem p hmem)
      cases p with
      | inl u => exact congrArg (.inl u :: ·) ih'
      | inr hit => exact absurd List.mem_cons_self (hps hit)
  have hnone := hmap (r.pieces s) fun hit hmem =>
    h hit (hcuts.spells hmem).2.2 (hcuts.spells hmem).1
  rwa [hcuts.join_eq] at hnone
end

end Pattern
