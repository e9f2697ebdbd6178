import RaytSystem.StepProgram

/-! The calls of a program that return, one rule for each construct. -/
namespace Interleaving
variable {W L E α β : Type}

def Returns (p : Prog W L E α) (w : W) (a : α) (w' : W) : Prop := Exec p w (.returned a) w'

variable {w w' : W} {a : α} {k : β → Prog W L E α}

@[simp] theorem returns_pure {a b : α} :
    Returns (.pure a : Prog W L E α) w b w' ↔ a = b ∧ w = w' := by
  constructor
  · intro h
    cases h
    exact ⟨rfl, rfl⟩
  · rintro ⟨rfl, rfl⟩
    exact .pure a w

@[simp] theorem returns_fail {e : E} : ¬Returns (.fail e : Prog W L E α) w a w' := by
  intro h
  cases h

theorem returns_act {l : L} {f : W → β × W} :
    Returns (.act l f k) w a w' ↔ Returns (k (f w).1) (f w).2 a w' := by
  constructor
  · intro h
    cases h with
    | act h => exact h
  · exact fun h => .act h

theorem returns_choose {input : Input β} :
    Returns (.choose input k) w a w' ↔ ∃ b, Returns (k b) w a w' := by
  constructor
  · intro h
    cases h with
    | choose b h => exact ⟨b, h⟩
  · rintro ⟨b, h⟩
    exact .choose b h

theorem returns_bind {p : Prog W L E α} {g : α → Prog W L E β} {b : β} :
    Returns (p.bind g) w b w' ↔ ∃ a v, Returns p w a v ∧ Returns (g a) v b w' := by
  induction p generalizing w with
  | pure a =>
    constructor
    · intro h
      exact ⟨a, w, .pure a w, h⟩
    · rintro ⟨a', v, hp, hg⟩
      obtain ⟨rfl, rfl⟩ := returns_pure.mp hp
      exact hg
  | fail e =>
    constructor
    · intro h
      exact absurd h returns_fail
    · rintro ⟨a, v, hp, _⟩
      exact absurd hp returns_fail
  | act l f k ih => simp only [Prog.bind, returns_act, ih]
  | choose input k ih =>
    simp only [Prog.bind, returns_choose, ih]
    constructor
    · rintro ⟨c, a, v, hp, hg⟩
      exact ⟨a, v, ⟨c, hp⟩, hg⟩
    · rintro ⟨a, v, ⟨c, hp⟩, hg⟩
      exact ⟨c, a, v, hp, hg⟩

theorem returns_require {b : Prop} [Decidable b] {e : E} {u : Unit} :
    Returns (.require b e : Prog W L E Unit) w u w' ↔ b ∧ w = w' := by
  unfold Prog.require
  split
  next hb => simp [hb]
  next hb => simp [hb]

theorem returns_ofOption {x : Option α} {e : E} :
    Returns (.ofOption x e : Prog W L E α) w a w' ↔ x = some a ∧ w = w' := by
  cases x <;> simp [Prog.ofOption]

theorem returns_ofExcept {x : Except E α} :
    Returns (.ofExcept x : Prog W L E α) w a w' ↔ x = .ok a ∧ w = w' := by
  cases x <;> simp [Prog.ofExcept]

theorem returns_any [Input β] {b : β} : Returns (.any β : Prog W L E β) w b w' ↔ w = w' := by
  rw [Prog.any, returns_choose]
  simp

theorem returns_set {l : L} {f : W → W} {u : Unit} :
    Returns (.set l f : Prog W L E Unit) w u w' ↔ f w = w' := by
  rw [Prog.set, Prog.step, returns_act]
  simp

theorem returns_attempt {l : L} {f : W → Except E (β × W)} {b : β} :
    Returns (.attempt l f : Prog W L E β) w b w' ↔ f w = .ok (b,w') := by
  rw [Prog.attempt, returns_act, returns_ofExcept]
  unfold Prog.attemptStep
  cases f w with
  | error e => simp
  | ok c => simp [Prod.ext_iff]

theorem returns_tryFinally {p : Prog W L E α} {fin : Prog W L E Unit} :
    Returns (p.tryFinally fin) w a w' ↔ ∃ v, Returns p w a v ∧ Returns fin v () w' := by
  induction p generalizing w with
  | pure b =>
    simp only [Prog.tryFinally, returns_bind, returns_pure]
    constructor
    · rintro ⟨_, v, hfin, rfl, rfl⟩
      exact ⟨w, ⟨rfl, rfl⟩, hfin⟩
    · rintro ⟨v, ⟨rfl, rfl⟩, hfin⟩
      exact ⟨(), w', hfin, rfl, rfl⟩
  | fail e => simp [Prog.tryFinally, returns_bind]
  | act l f k ih => simp only [Prog.tryFinally, returns_act, ih]
  | choose input k ih =>
    simp only [Prog.tryFinally, returns_choose, ih]
    constructor
    · rintro ⟨c, v, hp, hfin⟩
      exact ⟨v, ⟨c, hp⟩, hfin⟩
    · rintro ⟨v, ⟨c, hp⟩, hfin⟩
      exact ⟨c, v, hp, hfin⟩

end Interleaving
