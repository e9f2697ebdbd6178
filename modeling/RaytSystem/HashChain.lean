import Mathlib.Data.List.Induction

/-! Hash chains: rows of which each one is accepted with its number and the hash of the row
before it. When the hash of a row binds what one sees of it and the hash it names, the last
hash of a chain determines all that one sees of the chain. -/
namespace HashChain

variable {ρ η κ : Type} (hash : ρ → η) (accepts : Nat → Option η → ρ → Prop)

def Valid : Nat → Option η → List ρ → Prop
  | _, _, [] => True
  | n, previous, r :: rest => accepts n previous r ∧ Valid (n + 1) (some (hash r)) rest

variable (previous : Option η) (rows : List ρ)

def headHash : Option η :=
  match rows.getLast? with
  | none => previous
  | some r => some (hash r)

variable {hash accepts}

theorem headHash_cons (r : ρ) (rest : List ρ) :
    headHash hash previous (r :: rest) = headHash hash (some (hash r)) rest := by
  unfold headHash
  rcases List.eq_nil_or_concat rest with rfl | ⟨older, last, rfl⟩
  · rfl
  · simp [List.getLast?_cons]

theorem headHash_snoc (r : ρ) : headHash hash previous (rows ++ [r]) = some (hash r) := by
  simp [headHash]

theorem valid_snoc {n : Nat} {previous : Option η} {rows : List ρ} {r : ρ} :
    Valid hash accepts n previous (rows ++ [r]) ↔ Valid hash accepts n previous rows ∧
      accepts (n + rows.length) (headHash hash previous rows) r := by
  induction rows generalizing n previous with
  | nil => simp [Valid, headHash]
  | cons first rest ih =>
    have hlength : n + 1 + rest.length = n + (first :: rest).length := by
      rw [List.length_cons]
      omega
    rw [List.cons_append, Valid, ih, Valid, headHash_cons, hlength, and_assoc]

def IsHash (hash : ρ → η) (previous : Option η) : Prop := ∀ p ∈ previous, ∃ r, p = hash r

theorem headHash_isHash : IsHash hash (headHash hash none rows) := by
  intro p hp
  unfold headHash at hp
  split at hp
  · cases hp
  next r _ => exact ⟨r, (Option.some.inj hp).symm⟩

theorem valid_determined {view : ρ → κ}
    (hbind : ∀ n n' previous previous' r r', accepts n previous r → accepts n' previous' r' →
      IsHash hash previous → IsHash hash previous' → hash r = hash r' →
      view r = view r' ∧ previous = previous') {rows rows' : List ρ}
    (h : Valid hash accepts 1 none rows) (h' : Valid hash accepts 1 none rows')
    (hhead : headHash hash none rows = headHash hash none rows') :
    rows.map view = rows'.map view := by
  induction rows using List.reverseRecOn generalizing rows' with
  | nil =>
    rcases List.eq_nil_or_concat rows' with rfl | ⟨older, last, rfl⟩
    · rfl
    · rw [List.concat_eq_append, headHash_snoc] at hhead
      cases hhead
  | append_singleton rows r ih =>
    rcases List.eq_nil_or_concat rows' with rfl | ⟨older, last, rfl⟩
    · rw [headHash_snoc] at hhead
      cases hhead
    · rw [List.concat_eq_append] at h' hhead ⊢
      rw [headHash_snoc, headHash_snoc] at hhead
      obtain ⟨hrows, hr⟩ := valid_snoc.mp h
      obtain ⟨holder, hlast⟩ := valid_snoc.mp h'
      obtain ⟨hview, hprevious⟩ := hbind _ _ _ _ r last hr hlast (headHash_isHash rows)
        (headHash_isHash older) (Option.some.inj hhead)
      rw [List.map_append, List.map_append, ih hrows holder hprevious, List.map_singleton,
        List.map_singleton, hview]

end HashChain
