import RaytSystem.JsText

/-! Texts in which tokens stand for other texts. -/

structure TokenCode where
  mark : CodeUnit
  tail : ℕ → JsText
  mark_not_mem : ∀ i, mark ∉ tail i
  tail_starts : ∀ i j s, tail i <+: tail j ++ s → i = j

namespace TokenCode
open List

variable (c : TokenCode)

def token (i : ℕ) : JsText := c.mark :: c.tail i

variable (f : ℕ → JsText)

def spell (xs : List (CodeUnit ⊕ ℕ)) : JsText :=
  xs.flatMap (Sum.elim (fun u => [u]) f)

@[simp] theorem spell_nil : spell f [] = [] := rfl

@[simp] theorem spell_unit (u : CodeUnit) (xs : List (CodeUnit ⊕ ℕ)) :
    spell f (.inl u :: xs) = u :: spell f xs := rfl

@[simp] theorem spell_token (i : ℕ) (xs : List (CodeUnit ⊕ ℕ)) :
    spell f (.inr i :: xs) = f i ++ spell f xs := rfl

theorem spell_token_cons (i : ℕ) (xs : List (CodeUnit ⊕ ℕ)) :
    spell c.token (.inr i :: xs) = c.mark :: (c.tail i ++ spell c.token xs) := rfl

variable {xs : List (CodeUnit ⊕ ℕ)}

@[simp] theorem spell_append (xs ys : List (CodeUnit ⊕ ℕ)) :
    spell f (xs ++ ys) = spell f xs ++ spell f ys := flatMap_append

@[simp] theorem spell_units (s : JsText) : spell f (s.map .inl) = s := by
  induction s with
  | nil => rfl
  | cons u s ih => exact congrArg (u :: ·) ih

theorem spell_congr {f g : ℕ → JsText} (h : ∀ i, .inr i ∈ xs → f i = g i) :
    spell f xs = spell g xs := by
  apply flatMap_congr
  intro x hx
  cases x with
  | inl u => rfl
  | inr i => exact h i hx

variable {i : ℕ}

theorem infix_spell {f : ℕ → JsText} (h : .inr i ∈ xs) : f i <:+: spell f xs := by
  obtain ⟨a, b, rfl⟩ := append_of_mem h
  exact ⟨spell f a, spell f b, by simp⟩

def Clear (n : ℕ) (src : ℕ → JsText) (xs : List (CodeUnit ⊕ ℕ)) : Prop :=
  ∀ i < n, ¬c.token i <:+: spell src xs

variable {c} {n : ℕ} {src : ℕ → JsText}

theorem Clear.tail {x : CodeUnit ⊕ ℕ} (h : c.Clear n src (x :: xs)) : c.Clear n src xs := by
  intro i hlt hi
  refine h i hlt (hi.trans ?_)
  cases x with
  | inl u => exact (suffix_cons u _).isInfix
  | inr j => exact (suffix_append _ _).isInfix

theorem prefix_spell {w : JsText} (hw : c.mark ∉ w) (h : w <+: spell c.token xs) :
    ∃ ys, xs = w.map .inl ++ ys := by
  induction w generalizing xs with
  | nil => exact ⟨xs, rfl⟩
  | cons u w ih =>
    obtain ⟨hu, hw⟩ := not_or.mp (mt mem_cons.mpr hw)
    cases xs with
    | nil => exact absurd h (by simp)
    | cons x xs =>
      cases x with
      | inl v =>
        obtain ⟨rfl, hrest⟩ := cons_prefix_cons.mp h
        obtain ⟨ys, rfl⟩ := ih hw hrest
        exact ⟨ys, rfl⟩
      | inr i => exact absurd (cons_prefix_cons.mp h).1.symm hu

theorem not_token_at_unit {u : CodeUnit} (h : c.Clear n src (.inl u :: xs)) {i : ℕ} (hi : i < n) :
    ¬c.token i <+: u :: spell c.token xs := by
  intro hstarts
  obtain ⟨hmark, htail⟩ := cons_prefix_cons.mp hstarts
  obtain ⟨ys, rfl⟩ := prefix_spell (c.mark_not_mem i) htail
  apply h i hi
  rw [spell_unit, spell_append, spell_units, ← hmark]
  exact ⟨[], spell src ys, rfl⟩

theorem token_starts {i j : ℕ} {s : JsText} (h : c.token i <+: c.token j ++ s) : i = j :=
  c.tail_starts i j s (cons_prefix_cons.mp h).2

theorem token_infix_append {w s : JsText} (hw : c.mark ∉ w) (h : c.token i <:+: w ++ s) :
    c.token i <:+: s := by
  induction w with
  | nil => exact h
  | cons u w ih =>
    obtain ⟨hu, hw⟩ := not_or.mp (mt mem_cons.mpr hw)
    rcases infix_cons_iff.mp h with h | h
    · exact absurd (cons_prefix_cons.mp h).1 hu
    · exact ih hw h

theorem mem_of_infix_spell (hclear : c.Clear n src xs) (hi : i < n)
    (h : c.token i <:+: spell c.token xs) : .inr i ∈ xs := by
  induction xs with
  | nil => exact absurd h (by simp [token])
  | cons x xs ih =>
    cases x with
    | inl u =>
      rcases infix_cons_iff.mp h with h | h
      · exact absurd h (not_token_at_unit hclear hi)
      · exact mem_cons_of_mem _ (ih hclear.tail h)
    | inr j =>
      rcases infix_cons_iff.mp h with h | h
      · rw [token_starts h]
        exact mem_cons_self
      · exact mem_cons_of_mem _ (ih hclear.tail (token_infix_append (c.mark_not_mem j) h))

def fill (src : ℕ → JsText) (i : ℕ) (xs : List (CodeUnit ⊕ ℕ)) : List (CodeUnit ⊕ ℕ) :=
  xs.flatMap (Sum.elim (fun u => [.inl u]) fun j =>
    if j = i then (src i).map .inl else [.inr j])

theorem fill_cons (x : CodeUnit ⊕ ℕ) (i : ℕ) (xs : List (CodeUnit ⊕ ℕ)) :
    fill src i (x :: xs) = fill src i [x] ++ fill src i xs := by
  simp [fill]

theorem fill_token (i : ℕ) : fill src i [.inr i] = (src i).map .inl := by simp [fill]

theorem fill_other {i j : ℕ} (h : j ≠ i) : fill src i [.inr j] = [.inr j] := by simp [fill, h]

theorem spell_fill (i : ℕ) (xs : List (CodeUnit ⊕ ℕ)) :
    spell src (fill src i xs) = spell src xs := by
  induction xs with
  | nil => rfl
  | cons x xs ih =>
    rw [fill_cons, spell_append, ih]
    cases x with
    | inl u => rfl
    | inr j =>
      by_cases hj : j = i
      · subst hj
        rw [fill_token, spell_units, spell_token]
      · rw [fill_other hj]
        simp

theorem mem_fill {i j : ℕ} : .inr j ∈ fill src i xs ↔ .inr j ∈ xs ∧ j ≠ i := by
  induction xs with
  | nil => simp [fill]
  | cons x xs ih =>
    rw [fill_cons, mem_append, ih]
    cases x with
    | inl u => simp [fill]
    | inr k =>
      by_cases hk : k = i
      · subst hk
        rw [fill_token]
        have hnot : Sum.inr j ∉ (src k).map Sum.inl := by simp
        constructor
        · rintro (h | h)
          · exact absurd h hnot
          · exact ⟨mem_cons_of_mem _ h.1, h.2⟩
        · rintro ⟨h, hne⟩
          rcases mem_cons.mp h with h | h
          · exact absurd (Sum.inr.inj h) hne
          · exact Or.inr ⟨h, hne⟩
      · rw [fill_other hk]
        by_cases hjk : j = k
        · simp [hjk, hk]
        · simp [hjk]

theorem Clear.fill {xs : List (CodeUnit ⊕ ℕ)} (h : c.Clear n src xs) (i : ℕ) :
    c.Clear n src (fill src i xs) := by
  intro j hlt hj
  rw [spell_fill] at hj
  exact h j hlt hj

open JsText

theorem replaceFrom_append {i : ℕ} {w : JsText} (hw : c.mark ∉ w) (replacement s : JsText)
    (before : JsText) : ∃ before', replaceFrom (c.token i) replacement before 0 (w ++ s) =
      w ++ replaceFrom (c.token i) replacement before' 0 s := by
  induction w generalizing before with
  | nil => exact ⟨before, rfl⟩
  | cons u w ih =>
    obtain ⟨hu, hw⟩ := not_or.mp (mt mem_cons.mpr hw)
    obtain ⟨before', hrest⟩ := ih hw (before ++ [u])
    refine ⟨before', ?_⟩
    have hne : ¬c.token i <+: u :: (w ++ s) := fun h => hu (cons_prefix_cons.mp h).1
    rw [cons_append, replaceFrom, if_neg hne, hrest, cons_append]

theorem replaceAll_spell (hliteral : Literal (src i)) (hclear : c.Clear n src xs) (hi : i < n)
    (before : JsText) : replaceFrom (c.token i) (src i) before 0 (spell c.token xs) =
      spell c.token (fill src i xs) := by
  induction xs generalizing before with
  | nil => rfl
  | cons x xs ih =>
    rw [fill_cons, spell_append]
    cases x with
    | inl u =>
      rw [spell_unit, replaceFrom, if_neg (not_token_at_unit hclear hi), ih hclear.tail]
      rfl
    | inr j =>
      by_cases hj : j = i
      · subst hj
        obtain ⟨before', hskip⟩ := replaceFrom_skip (c.token j) (src j)
          (c.tail j ++ spell c.token xs) (c.tail j).length (before ++ [c.mark])
        have hstarts : c.token j <+: c.mark :: (c.tail j ++ spell c.token xs) :=
          cons_prefix_cons.mpr ⟨rfl, prefix_append _ _⟩
        have hlength : (c.token j).length - 1 = (c.tail j).length := rfl
        rw [spell_token_cons, replaceFrom, if_pos hstarts, substitution_literal hliteral, hlength,
          hskip, drop_left, ih hclear.tail, fill_token, spell_units]
      · have hne : ¬c.token i <+: c.mark :: (c.tail j ++ spell c.token xs) := fun h =>
          hj (token_starts h).symm
        obtain ⟨before', hrest⟩ := replaceFrom_append (i := i) (c.mark_not_mem j) (src i)
          (spell c.token xs) (before ++ [c.mark])
        rw [spell_token_cons, replaceFrom, if_neg hne, hrest, ih hclear.tail, fill_other hj,
          spell_token_cons, spell_nil, append_nil, cons_append]

end TokenCode
