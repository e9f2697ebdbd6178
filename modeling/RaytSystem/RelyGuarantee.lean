import RaytSystem.StepProgram

/-! Rely-guarantee reasoning about step programs. A discipline says what other
programs may do between two accesses of this one (`rely`), what each access may
do (`guar`), which invariant every access keeps, and under which condition on the
moment of an access a run is considered at all (`assume`). -/
namespace Interleaving

structure Discipline (W L : Type) where
  inv : W → Prop
  rely : W → W → Prop
  assume : L → W → Prop
  guar : L → W → W → Prop

structure Discipline.Preorder {W L : Type} (S : Discipline W L) : Prop where
  refl : ∀ w, S.rely w w
  trans : ∀ {a b c}, S.rely a b → S.rely b c → S.rely a c

variable {W L E α β : Type}

/-- Every access of `p` from here on keeps the discipline, and the final
world meets `Q` on a return and `X` on an error. -/
def wp (S : Discipline W L) : Prog W L E α → (α → W → Prop) → (E → W → Prop) → W → Prop
  | .pure a, Q, _, w => Q a w
  | .fail e, _, X, w => X e w
  | .act l f k, Q, X, w => ∀ w', S.inv w' → S.rely w w' → S.assume l w' →
      S.inv (f w').2 ∧ S.guar l w' (f w').2 ∧ wp S (k (f w').1) Q X (f w').2
  | .choose _ k, Q, X, w => ∀ b, wp S (k b) Q X w

section
variable (S : Discipline W L)

@[simp] theorem wp_pure (a : α) (Q : α → W → Prop) (X : E → W → Prop) (w : W) :
    wp S (.pure a) Q X w = Q a w := rfl

@[simp] theorem wp_fail (e : E) (Q : α → W → Prop) (X : E → W → Prop) (w : W) :
    wp S (.fail e) Q X w = X e w := rfl

@[simp] theorem wp_any [Input β] (Q : β → W → Prop) (X : E → W → Prop) (w : W) :
    wp S (.any β) Q X w = ∀ b, Q b w := rfl

theorem wp_bind (p : Prog W L E α) (g : α → Prog W L E β) (Q : β → W → Prop) (X : E → W → Prop)
    (w : W) : wp S (p.bind g) Q X w ↔ wp S p (fun a w' => wp S (g a) Q X w') X w := by
  induction p generalizing w with
  | pure => rfl
  | fail => rfl
  | act l f k ih => simp only [Prog.bind, wp, ih]
  | choose input k ih => simp only [Prog.bind, wp, ih]

theorem wp_seq (p : Prog W L E α) (g : α → Prog W L E β) (Q : β → W → Prop) (X : E → W → Prop)
    (w : W) : wp S (p >>= g) Q X w ↔ wp S p (fun a w' => wp S (g a) Q X w') X w :=
  wp_bind S p g Q X w

theorem wp_tryCatch (p : Prog W L E α) (h : E → Prog W L E α) (Q : α → W → Prop) (X : E → W → Prop)
    (w : W) : wp S (p.tryCatch h) Q X w ↔ wp S p Q (fun e w' => wp S (h e) Q X w') w := by
  induction p generalizing w with
  | pure => rfl
  | fail => rfl
  | act l f k ih => simp only [Prog.tryCatch, wp, ih]
  | choose input k ih => simp only [Prog.tryCatch, wp, ih]

theorem wp_tryFinally (p : Prog W L E α) (fin : Prog W L E Unit) (Q : α → W → Prop)
    (X : E → W → Prop) (w : W) : wp S (p.tryFinally fin) Q X w ↔
      wp S p (fun a w' => wp S fin (fun _ w'' => Q a w'') X w')
        (fun e w' => wp S fin (fun _ w'' => X e w'') X w') w := by
  induction p generalizing w with
  | pure => simp only [Prog.tryFinally, wp_bind, wp_pure]
  | fail => simp only [Prog.tryFinally, wp_bind, wp_fail]
  | act l f k ih => simp only [Prog.tryFinally, wp, ih]
  | choose input k ih => simp only [Prog.tryFinally, wp, ih]

theorem wp_toExcept (p : Prog W L E α) (Q : Except E α → W → Prop) (X : E → W → Prop) (w : W) :
    wp S p.toExcept Q X w ↔
      wp S p (fun a w' => Q (.ok a) w') (fun e w' => Q (.error e) w') w := by
  induction p generalizing w with
  | pure => rfl
  | fail => rfl
  | act l f k ih => simp only [Prog.toExcept, wp, ih]
  | choose input k ih => simp only [Prog.toExcept, wp, ih]

variable {p : Prog W L E α} {w : W}

theorem wp_mono {Q Q' : α → W → Prop} {X X' : E → W → Prop} (h : wp S p Q X w)
    (hQ : ∀ a w, Q a w → Q' a w) (hX : ∀ e w, X e w → X' e w) : wp S p Q' X' w := by
  induction p generalizing w with
  | pure a => exact hQ a w h
  | fail e => exact hX e w h
  | act l f k ih =>
    intro w' hi hr ha
    obtain ⟨hi', hg, hk⟩ := h w' hi hr ha
    exact ⟨hi', hg, ih _ hk⟩
  | choose input k ih => exact fun b => ih b (h b)

variable {e : E} {X : E → W → Prop}

theorem wp_require {b : Prop} [Decidable b] {e : E} {Q : Unit → W → Prop} {X : E → W → Prop} {w : W}
    (h : b → Q () w) (hX : ¬b → X e w) : wp S (.require b e) Q X w := by
  unfold Prog.require
  split
  next hb => exact h hb
  next hb => exact hX hb

variable {Q : α → W → Prop}

theorem wp_ofOption {x : Option α} (h : ∀ a, x = some a → Q a w) (hX : x = none → X e w) :
    wp S (.ofOption x e) Q X w := by
  cases x with
  | some a => exact h a rfl
  | none => exact hX rfl

theorem wp_ofExcept {x : Except E α} (h : ∀ a, x = .ok a → Q a w) (hX : ∀ e, x = .error e → X e w) :
    wp S (.ofExcept x) Q X w := by
  cases x with
  | ok a => exact h a rfl
  | error e => exact hX e rfl

theorem wp_rely (hS : S.Preorder) {w w' : W} (h : wp S p Q X w) (hr : S.rely w w')
    (hQ : ∀ a w w', S.rely w w' → Q a w → Q a w') (hX : ∀ e w w', S.rely w w' → X e w → X e w') :
    wp S p Q X w' := by
  induction p generalizing w w' with
  | pure a => exact hQ a w w' hr h
  | fail e => exact hX e w w' hr h
  | act l f k ih => exact fun w'' hi hr' ha => h w'' hi (hS.trans hr hr') ha
  | choose input k ih => exact fun b => ih b (h b) hr

/-- The part of `wp` that speaks about returns: every access keeps the discipline,
and an error may end the program anywhere. -/
def Ensures (S : Discipline W L) (p : Prog W L E α) (Q : α → W → Prop) (w : W) : Prop :=
  wp S p Q (fun _ _ => True) w

variable {S}

theorem ensures_pure {a : α} (h : Q a w) : Ensures S (.pure a : Prog W L E α) Q w := h

theorem ensures_fail : Ensures S (.fail e) Q w := trivial

theorem ensures_bind {g : α → Prog W L E β} {Q : β → W → Prop}
    (h : Ensures S p (fun a w' => Ensures S (g a) Q w') w) : Ensures S (p.bind g) Q w :=
  (wp_bind S p g Q _ w).mpr h

theorem ensures_mono {Q Q' : α → W → Prop} (h : Ensures S p Q w) (hQ : ∀ a w, Q a w → Q' a w) :
    Ensures S p Q' w :=
  wp_mono S h hQ fun _ _ _ => trivial

theorem ensures_frame {P : W → Prop} (h : Ensures S p Q w)
    (hrely : ∀ w w', S.rely w w' → P w → P w') (hguar : ∀ l w w', S.guar l w w' → P w → P w')
    (hP : P w) : Ensures S p (fun a w' => Q a w' ∧ P w') w := by
  induction p generalizing w with
  | pure a => exact ⟨h, hP⟩
  | fail e => trivial
  | act l f k ih =>
    intro w' hi hr ha
    obtain ⟨hi', hg, hk⟩ := h w' hi hr ha
    exact ⟨hi', hg, ih _ hk (hguar l _ _ hg (hrely _ _ hr hP))⟩
  | choose input k ih => exact fun b => ih b (h b) hP

theorem ensures_any [Input β] {Q : β → W → Prop} (h : ∀ b, Q b w) :
    Ensures S (.any β : Prog W L E β) Q w := h

theorem ensures_require {b : Prop} [Decidable b] {Q : Unit → W → Prop} (h : b → Q () w) :
    Ensures S (.require b e : Prog W L E Unit) Q w := by
  unfold Prog.require
  split
  next hb => exact ensures_pure (h hb)
  next => exact ensures_fail

theorem ensures_guard {b : Prop} [Decidable b] {g : Unit → Prog W L E β} {Q : β → W → Prop}
    (h : b → Ensures S (g ()) Q w) : Ensures S ((Prog.require b e).bind g) Q w :=
  ensures_bind (ensures_require h)

theorem ensures_ofExcept {x : Except E α} (h : ∀ a, x = .ok a → Q a w) :
    Ensures S (.ofExcept x : Prog W L E α) Q w := by
  cases x with
  | ok a => exact ensures_pure (h a rfl)
  | error e => exact ensures_fail

theorem ensures_ofOption {x : Option α} (h : ∀ a, x = some a → Q a w) :
    Ensures S (.ofOption x e : Prog W L E α) Q w := by
  cases x with
  | some a => exact ensures_pure (h a rfl)
  | none => exact ensures_fail

theorem ensures_get {l : L} {f : W → β} {Q : β → W → Prop} (hg : ∀ w, S.inv w → S.guar l w w)
    (h : ∀ w', S.inv w' → S.rely w w' → S.assume l w' → Q (f w') w') :
    Ensures S (.get l f : Prog W L E β) Q w :=
  fun w' hi hr ha => ⟨hi, hg w' hi, h w' hi hr ha⟩

theorem ensures_set {l : L} {f : W → W} {Q : Unit → W → Prop}
    (h : ∀ w', S.inv w' → S.rely w w' → S.assume l w' →
      S.inv (f w') ∧ S.guar l w' (f w') ∧ Q () (f w')) :
    Ensures S (.set l f : Prog W L E Unit) Q w := h

theorem ensures_attempt {l : L} {f : W → Except E (β × W)} {Q : β → W → Prop}
    (hg : ∀ w, S.inv w → S.guar l w w)
    (h : ∀ w' b w'', S.inv w' → S.rely w w' → S.assume l w' → f w' = .ok (b,w'') →
      S.inv w'' ∧ S.guar l w' w'' ∧ Q b w'') : Ensures S (.attempt l f : Prog W L E β) Q w := by
  intro w' hi hr ha
  unfold Prog.attemptStep
  split
  next b w'' hf =>
    obtain ⟨hi', hg', hQ⟩ := h w' b w'' hi hr ha hf
    exact ⟨hi', hg', hQ⟩
  next e hf => exact ⟨hi, hg w' hi, trivial⟩
end

/-- The discipline of a program that runs alone: nothing happens between its
accesses, and `C` holds whenever its process may be lost. -/
def sequential (L : Type) (C : W → Prop) : Discipline W L where
  inv := C
  rely := Eq
  assume _ _ := True
  guar _ _ _ := True

variable {C : W → Prop} {X : E → W → Prop}

theorem wp_sequential_get {C : W → Prop} {l : L} {f : W → β} {Q : β → W → Prop} {X : E → W → Prop}
    {w : W} (hC : C w) (h : Q (f w) w) : wp (sequential L C) (.get l f) Q X w := by
  rintro _ _ rfl _
  exact ⟨hC, trivial, h⟩

theorem wp_sequential_set {l : L} {f : W → W} {Q : Unit → W → Prop} {w : W} (hC : C (f w))
    (h : Q () (f w)) : wp (sequential L C) (.set l f) Q X w := by
  rintro _ _ rfl _
  exact ⟨hC, trivial, h⟩

theorem wp_sequential_attempt {l : L} {f : W → Except E (β × W)} {Q : β → W → Prop} {w : W}
    (hC : C w) (h : ∀ b w', f w = .ok (b,w') → C w' ∧ Q b w') (hX : ∀ e, f w = .error e → X e w) :
    wp (sequential L C) (.attempt l f) Q X w := by
  rintro _ _ rfl _
  unfold Prog.attemptStep
  split
  next b w' hf => exact ⟨(h b w' hf).1, trivial, (h b w' hf).2⟩
  next e hf => exact ⟨hC, trivial, hX e hf⟩

def Outcome.Meets (Q : α → W → Prop) (X : E → W → Prop) (C : W → Prop) : Outcome E α → W → Prop
  | .returned a, w => Q a w
  | .raised e, w => X e w
  | .crashed, w => C w

variable {p : Prog W L E α} {Q : α → W → Prop} {w w' : W}

theorem exec_sound {o : Outcome E α} (h : wp (sequential L C) p Q X w) (hC : C w)
    (hx : Exec p w o w') : o.Meets Q X C w' := by
  induction hx with
  | pure a w => exact h
  | fail e w => exact h
  | crash p w => exact hC
  | act _ ih =>
    obtain ⟨hC', _, hk⟩ := h _ hC rfl trivial
    exact ih hk hC'
  | choose b _ ih => exact ih (h b) hC

theorem exec_keeps {o : Outcome E α} (h : wp (sequential L C) p Q X w) (hC : C w)
    (hx : Exec p w o w') : C w' := by
  induction hx with
  | pure a w => exact hC
  | fail e w => exact hC
  | crash p w => exact hC
  | act _ ih =>
    obtain ⟨hC', _, hk⟩ := h _ hC rfl trivial
    exact ih hk hC'
  | choose b _ ih => exact ih (h b) hC

theorem exec_returns {w : W} (h : wp (sequential L fun _ => True) p Q (fun _ _ => False) w) :
    ∃ a w', Exec p w (.returned a) w' ∧ Q a w' := by
  obtain ⟨o, w', ho, hx⟩ := exec_terminates p w
  have hmeets := exec_sound h trivial hx
  cases o with
  | returned a => exact ⟨a, w', hx, hmeets⟩
  | raised e => exact hmeets.elim
  | crashed => exact absurd rfl ho

theorem exec_discard :
    (Exec (p >>= fun _ => pure ()) w (.returned ()) w' ↔ ∃ a, Exec p w (.returned a) w') ∧
      (Exec (p >>= fun _ => pure ()) w .crashed w' → Exec p w .crashed w') := by
  refine ⟨⟨?_, fun ⟨a, h⟩ => exec_bind h (.pure () w')⟩, ?_⟩
  · intro h
    induction p generalizing w with
    | pure a =>
      cases h
      exact ⟨a, .pure a _⟩
    | fail e => cases h
    | act l f k ih =>
      cases h with
      | act h => exact (ih _ h).imp fun a ha => .act ha
    | choose input k ih =>
      cases h with
      | choose b h => exact (ih b h).imp fun a ha => .choose b ha
  · intro h
    induction p generalizing w with
    | pure a =>
      cases h
      exact .crash _ _
    | fail e =>
      cases h
      exact .crash _ _
    | act l f k ih =>
      cases h with
      | crash => exact .crash _ _
      | act h => exact .act (ih _ h)
    | choose input k ih =>
      cases h with
      | crash => exact .crash _ _
      | choose b h => exact .choose b (ih b h)

inductive Calls {ι : Type} (program : ι → Prog W L E α) (allowed : W → ι → Prop) (w : W) :
    W → Prop where
  | start : Calls program allowed w w
  | call {w₁ w₂ : W} {o : Outcome E α} (i : ι) (h : Calls program allowed w w₁)
      (hi : allowed w₁ i) (hx : Exec (program i) w₁ o w₂) (ho : o ≠ .crashed) :
      Calls program allowed w w₂

theorem calls_invariant {ι : Type} {program : ι → Prog W L E α} {allowed : W → ι → Prop}
    {I : W → Prop} (hcall : ∀ i w, I w → allowed w i →
      wp (sequential L fun _ => True) (program i) (fun _ => I) (fun _ => I) w) (hw : I w)
    (h : Calls program allowed w w') : I w' := by
  induction h with
  | start => exact hw
  | @call w₁ w₂ o i _ hi hx ho ih =>
    have hmeets := exec_sound (hcall i w₁ ih hi) trivial hx
    cases o with
    | returned a => exact hmeets
    | raised e => exact hmeets
    | crashed => exact absurd rfl ho

inductive Solo (assume : L → W → Prop) :
    Prog W L E α → W → Prog W L E α → W → Prop where
  | refl (p : Prog W L E α) (w : W) : Solo assume p w p w
  | act {β : Type} {l : L} {f : W → β × W} {k : β → Prog W L E α} {w w' : W}
      {q : Prog W L E α} (ha : assume l w) (h : Solo assume (k (f w).1) (f w).2 q w') :
      Solo assume (.act l f k) w q w'
  | choose {β : Type} {input : Input β} {k : β → Prog W L E α} {w w' : W}
      {q : Prog W L E α} (b : β) (h : Solo assume (k b) w q w') :
      Solo assume (.choose input k) w q w'

theorem solo_play (n : Nat) (ins : List Nat) (p : Prog W L E α) (w : W) :
    Solo (fun _ _ => True) p w (p.play n ins w).1 (p.play n ins w).2 := by
  induction n generalizing ins p w with
  | zero => cases p <;> exact .refl _ w
  | succ n ih =>
    cases p with
    | pure a => exact .refl _ w
    | fail e => exact .refl _ w
    | act l f k => exact .act trivial (ih ins (k (f w).1) (f w).2)
    | choose input k =>
      cases ins with
      | nil => exact .refl _ w
      | cons i ins => exact .choose (input.decode i) (ih ins (k (input.decode i)) w)

def playWhile (ok : L → W → Bool) : Nat → List Nat → Prog W L E α → W → Prog W L E α × W
  | n + 1, ins, .act l f k, w =>
    if ok l w then playWhile ok n ins (k (f w).1) (f w).2 else (.act l f k, w)
  | n + 1, i :: ins, .choose input k, w => playWhile ok n ins (k (input.decode i)) w
  | _, _, p, w => (p,w)

theorem solo_playWhile {assume : L → W → Prop} {ok : L → W → Bool}
    (hok : ∀ l w, ok l w = true → assume l w) (n : Nat) (ins : List Nat) (p : Prog W L E α)
    (w : W) : Solo assume p w (playWhile ok n ins p w).1 (playWhile ok n ins p w).2 := by
  induction n generalizing ins p w with
  | zero => cases p <;> exact .refl _ w
  | succ n ih =>
    cases p with
    | pure a => exact .refl _ w
    | fail e => exact .refl _ w
    | act l f k =>
      unfold playWhile
      split
      next h => exact .act (hok l w h) (ih ins (k (f w).1) (f w).2)
      next => exact .refl _ w
    | choose input k =>
      cases ins with
      | nil => exact .refl _ w
      | cons i ins => exact .choose (input.decode i) (ih ins (k (input.decode i)) w)

structure Pool (ι W L E α : Type) where
  thread : ι → Option (Prog W L E α)
  world : W

namespace Pool
variable {ι : Type} [DecidableEq ι]

/-- One step of a pool: thread `i` makes its next access, receives an input, or
loses its process, upon which `lost i` is what the operating system undoes. -/
inductive Step (assume : ι → L → W → Prop) (lost : ι → W → W) :
    Pool ι W L E α → Pool ι W L E α → Prop where
  | act {c : Pool ι W L E α} {i : ι} {β : Type} {l : L} {f : W → β × W}
      {k : β → Prog W L E α} (h : c.thread i = some (.act l f k)) (ha : assume i l c.world) :
      Step assume lost c
        ⟨Function.update c.thread i (some (k (f c.world).1)), (f c.world).2⟩
  | choose {c : Pool ι W L E α} {i : ι} {β : Type} {input : Input β}
      {k : β → Prog W L E α} (h : c.thread i = some (.choose input k)) (b : β) :
      Step assume lost c ⟨Function.update c.thread i (some (k b)), c.world⟩
  | crash {c : Pool ι W L E α} (i : ι) :
      Step assume lost c ⟨Function.update c.thread i none, lost i c.world⟩

abbrev Reachable (assume : ι → L → W → Prop) (lost : ι → W → W) :
    Pool ι W L E α → Pool ι W L E α → Prop :=
  Relation.ReflTransGen (Step assume lost)

variable {assume : ι → L → W → Prop} {lost : ι → W → W} {i : ι}

theorem reachable_solo {c : Pool ι W L E α} {p q : Prog W L E α} {w' : W} (hp : c.thread i = some p)
    (h : Solo (assume i) p c.world q w') :
    Reachable assume lost c ⟨Function.update c.thread i (some q), w'⟩ := by
  obtain ⟨thread, w⟩ := c
  replace h : Solo (assume i) p w q w' := h
  induction h generalizing thread with
  | refl p w =>
    have he : Function.update thread i (some p) = thread := by
      rw [← hp, Function.update_eq_self]
    rw [he]
  | @act β l f k w w' q ha h ih =>
    refine Relation.ReflTransGen.head (Step.act hp ha) ?_
    have hrest := ih (Function.update thread i (some (k (f w).1))) (by simp)
    rwa [Function.update_idem] at hrest
  | @choose β input k w w' q b h ih =>
    refine Relation.ReflTransGen.head (Step.choose hp b) ?_
    have hrest := ih (Function.update thread i (some (k b))) (by simp)
    rwa [Function.update_idem] at hrest

theorem reachable_play {c : Pool ι W L E α} {p : Prog W L E α} (hp : c.thread i = some p) (n : Nat)
    (ins : List Nat) : Reachable (fun _ _ _ => True) lost c
      ⟨Function.update c.thread i (some (p.play n ins c.world).1), (p.play n ins c.world).2⟩ :=
  reachable_solo hp (solo_play n ins p c.world)

def advance (ok : ι → L → W → Bool) (c : Pool ι W L E α) (i : ι) (n : Nat) (ins : List Nat) :
    Pool ι W L E α :=
  match c.thread i with
  | none => c
  | some p =>
    let r := playWhile (ok i) n ins p c.world
    ⟨Function.update c.thread i (some r.1), r.2⟩

theorem advance_reachable {ok : ι → L → W → Bool} (hok : ∀ i l w, ok i l w = true → assume i l w)
    (c : Pool ι W L E α) (i : ι) (n : Nat) (ins : List Nat) :
    Reachable assume lost c (c.advance ok i n ins) := by
  unfold advance
  split
  · exact .refl
  next p hp => exact reachable_solo hp (solo_playWhile (hok i) n ins p c.world)

theorem step_play {c : Pool ι W L E α} {p : Prog W L E α} (hp : c.thread i = some p)
    (hact : p.isAct = true) : Step (fun _ _ _ => True) lost c
      ⟨Function.update c.thread i (some (p.play 1 [] c.world).1), (p.play 1 [] c.world).2⟩ := by
  cases p with
  | act l f k => exact .act hp trivial
  | pure a => cases hact
  | fail e => cases hact
  | choose input k => cases hact

structure Compatible (S : ι → Discipline W L) (lost : ι → W → W) (inv : W → Prop) : Prop where
  inv_eq : ∀ i, (S i).inv = inv
  preorder : ∀ i, (S i).Preorder
  guar : ∀ i j l w w', i ≠ j → inv w → (S i).guar l w w' → (S j).rely w w'
  lost_inv : ∀ i w, inv w → inv (lost i w)
  lost_rely : ∀ i j w, i ≠ j → inv w → (S j).rely w (lost i w)

def Promised (S : ι → Discipline W L) (inv : W → Prop) (Q : ι → α → W → Prop)
    (X : ι → E → W → Prop) (c : Pool ι W L E α) : Prop :=
  inv c.world ∧ ∀ i p, c.thread i = some p → wp (S i) p (Q i) (X i) c.world

def Disciplined (S : ι → Discipline W L) (inv : W → Prop) (c : Pool ι W L E α) : Prop :=
  inv c.world ∧ ∀ i p, c.thread i = some p →
    wp (S i) p (fun _ _ => True) (fun _ _ => True) c.world

variable {S : ι → Discipline W L} {lost : ι → W → W} {inv : W → Prop} {Q : ι → α → W → Prop}
  {X : ι → E → W → Prop}

structure Steady (S : ι → Discipline W L) (Q : ι → α → W → Prop) (X : ι → E → W → Prop) :
    Prop where
  returns : ∀ i a w w', (S i).rely w w' → Q i a w → Q i a w'
  raises : ∀ i e w w', (S i).rely w w' → X i e w → X i e w'

theorem promised_update {c : Pool ι W L E α} {t : Option (Prog W L E α)} {w' : W}
    (hS : Compatible S lost inv) (hQX : Steady S Q X) (hd : Promised S inv Q X c) (hi : inv w')
    (hr : ∀ j, i ≠ j → (S j).rely c.world w') (ht : ∀ p, t = some p → wp (S i) p (Q i) (X i) w') :
    Promised S inv Q X ⟨Function.update c.thread i t, w'⟩ := by
  refine ⟨hi, ?_⟩
  intro j p hj
  by_cases hij : i = j
  · subst hij
    exact ht p (by simpa using hj)
  · have hj' : c.thread j = some p := by simpa [Function.update_of_ne (Ne.symm hij)] using hj
    exact wp_rely (S j) (hS.preorder j) (hd.2 j p hj') (hr j hij) (hQX.returns j) (hQX.raises j)

variable {c c' : Pool ι W L E α}

theorem step_promised (hS : Compatible S lost inv) (hQX : Steady S Q X) (hd : Promised S inv Q X c)
    (hs : Step (fun i => (S i).assume) lost c c') : Promised S inv Q X c' := by
  cases hs with
  | @act i β l f k h ha =>
    obtain ⟨hi, hg, hk⟩ := hd.2 i _ h c.world ((hS.inv_eq i).symm ▸ hd.1)
      ((hS.preorder i).refl _) ha
    rw [hS.inv_eq i] at hi
    refine promised_update hS hQX hd hi (fun j hij => hS.guar i j l _ _ hij hd.1 hg) ?_
    rintro p ⟨⟩
    exact hk
  | @choose i β input k h b =>
    refine promised_update hS hQX hd hd.1 (fun j _ => (hS.preorder j).refl _) ?_
    rintro p ⟨⟩
    exact hd.2 i _ h b
  | crash i =>
    refine promised_update hS hQX hd (hS.lost_inv i _ hd.1)
      (fun j hij => hS.lost_rely i j _ hij hd.1) ?_
    rintro p ⟨⟩

theorem reachable_promised (hS : Compatible S lost inv) (hQX : Steady S Q X)
    (hd : Promised S inv Q X c) (hr : Reachable (fun i => (S i).assume) lost c c') :
    Promised S inv Q X c' := by
  induction hr with
  | refl => exact hd
  | tail _ hs ih => exact step_promised hS hQX ih hs

theorem step_disciplined (hS : Compatible S lost inv) (hd : Disciplined S inv c)
    (hs : Step (fun i => (S i).assume) lost c c') : Disciplined S inv c' :=
  step_promised hS ⟨fun _ _ _ _ _ _ => trivial, fun _ _ _ _ _ _ => trivial⟩ hd hs

theorem reachable_disciplined (hS : Compatible S lost inv) (hd : Disciplined S inv c)
    (hr : Reachable (fun i => (S i).assume) lost c c') : Disciplined S inv c' := by
  induction hr with
  | refl => exact hd
  | tail _ hs ih => exact step_disciplined hS ih hs

theorem step_world (hS : Compatible S lost inv) (hd : Disciplined S inv c)
    (hs : Step (fun i => (S i).assume) lost c c') :
    (∃ i l, (S i).guar l c.world c'.world) ∨ c'.world = c.world ∨
      ∃ i, c'.world = lost i c.world := by
  cases hs with
  | @act i β l f k h ha =>
    obtain ⟨_, hg, _⟩ := hd.2 i _ h c.world ((hS.inv_eq i).symm ▸ hd.1)
      ((hS.preorder i).refl _) ha
    exact Or.inl ⟨i, l, hg⟩
  | choose h b => exact Or.inr (Or.inl rfl)
  | crash i => exact Or.inr (Or.inr ⟨i, rfl⟩)

/-- The run rule: a reflexive and transitive relation that every guarantee and
every crash implies holds between any two moments of a run. -/
theorem reachable_world {T : W → W → Prop} (hS : Compatible S lost inv) (hd : Disciplined S inv c)
    (hrefl : ∀ w, T w w) (htrans : ∀ {x y z}, T x y → T y z → T x z)
    (hguar : ∀ i l w w', inv w → (S i).guar l w w' → T w w') (hlost : ∀ i w, inv w → T w (lost i w))
    (hr : Reachable (fun i => (S i).assume) lost c c') : T c.world c'.world := by
  induction hr with
  | refl => exact hrefl _
  | tail hr' hs ih =>
    have hd' := reachable_disciplined hS hd hr'
    rcases step_world hS hd' hs with ⟨i, l, hg⟩ | he | ⟨i, he⟩
    · exact htrans ih (hguar i l _ _ hd'.1 hg)
    · rw [he]
      exact ih
    · rw [he]
      exact htrans ih (hlost i _ hd'.1)

end Pool
end Interleaving
