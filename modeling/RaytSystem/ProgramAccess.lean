import RaytSystem.RelyGuarantee

/-! What all accesses of a program have in common, whatever world they find: one rule for each
construct, and from it the proof that a pool's discipline asks of a thread. -/
namespace Interleaving
variable {W L E α β : Type} {P : L → W → W → Prop}

namespace Prog

def Does (P : L → W → W → Prop) : Prog W L E α → Prop
  | .pure _ => True
  | .fail _ => True
  | .act l f k => (∀ w, P l w (f w).2) ∧ ∀ b, (k b).Does P
  | .choose _ k => ∀ b, (k b).Does P

variable {p : Prog W L E α}

theorem does_mono {P' : L → W → W → Prop} (h : p.Does P) (hP : ∀ l w w', P l w w' → P' l w w') :
    p.Does P' := by
  induction p with
  | pure a => trivial
  | fail e => trivial
  | act l f k ih => exact ⟨fun w => hP l w _ (h.1 w), fun b => ih b (h.2 b)⟩
  | choose input k ih => exact fun b => ih b (h b)

@[simp] theorem does_pure (a : α) : (Prog.pure a : Prog W L E α).Does P := trivial

@[simp] theorem does_fail (e : E) : (Prog.fail e : Prog W L E α).Does P := trivial

@[simp] theorem does_any [Input β] : (Prog.any β : Prog W L E β).Does P := fun _ => trivial

theorem does_bind {g : α → Prog W L E β} (hp : p.Does P) (hg : ∀ a, (g a).Does P) :
    (p.bind g).Does P := by
  induction p with
  | pure a => exact hg a
  | fail e => trivial
  | act l f k ih => exact ⟨hp.1, fun b => ih b (hp.2 b)⟩
  | choose input k ih => exact fun b => ih b (hp b)

theorem does_tryCatch {h : E → Prog W L E α} (hp : p.Does P) (hh : ∀ e, (h e).Does P) :
    (p.tryCatch h).Does P := by
  induction p with
  | pure a => trivial
  | fail e => exact hh e
  | act l f k ih => exact ⟨hp.1, fun b => ih b (hp.2 b)⟩
  | choose input k ih => exact fun b => ih b (hp b)

theorem does_tryFinally {fin : Prog W L E Unit} (hp : p.Does P) (hfin : fin.Does P) :
    (p.tryFinally fin).Does P := by
  induction p with
  | pure a => exact does_bind hfin fun _ => trivial
  | fail e => exact does_bind hfin fun _ => trivial
  | act l f k ih => exact ⟨hp.1, fun b => ih b (hp.2 b)⟩
  | choose input k ih => exact fun b => ih b (hp b)

theorem does_toExcept (hp : p.Does P) : p.toExcept.Does P := by
  induction p with
  | pure a => trivial
  | fail e => trivial
  | act l f k ih => exact ⟨hp.1, fun b => ih b (hp.2 b)⟩
  | choose input k ih => exact fun b => ih b (hp b)

@[simp] theorem does_require {b : Prop} [Decidable b] {e : E} :
    (Prog.require b e : Prog W L E Unit).Does P := by
  unfold require
  split <;> trivial

@[simp] theorem does_ofOption {x : Option α} {e : E} :
    (Prog.ofOption x e : Prog W L E α).Does P := by
  cases x <;> trivial

@[simp] theorem does_ofExcept {x : Except E α} : (Prog.ofExcept x : Prog W L E α).Does P := by
  cases x <;> trivial

theorem does_each {f : α → Prog W L E Unit} (hf : ∀ a, (f a).Does P) (xs : List α) :
    (Prog.each f xs).Does P := by
  induction xs with
  | nil => trivial
  | cons x xs ih => exact does_bind (hf x) fun _ => ih

theorem does_get {l : L} {f : W → β} (hP : ∀ w, P l w w) :
    (Prog.get l f : Prog W L E β).Does P := ⟨hP, fun _ => trivial⟩

theorem does_set {l : L} {f : W → W} (hP : ∀ w, P l w (f w)) :
    (Prog.set l f : Prog W L E Unit).Does P := ⟨hP, fun _ => trivial⟩

theorem does_attempt {l : L} {f : W → Except E (β × W)} (hrefl : ∀ w, P l w w)
    (hP : ∀ w b w', f w = .ok (b,w') → P l w w') : (Prog.attempt l f : Prog W L E β).Does P := by
  refine ⟨?_, fun b => does_ofExcept⟩
  intro w
  unfold attemptStep
  split
  next b w' h => exact hP w b w' h
  next => exact hrefl w

end Prog

theorem does_disciplined {S : Discipline W L} {p : Prog W L E α} {w : W}
    (hinv : ∀ w, S.inv w) (h : p.Does fun l w w' => S.assume l w → S.guar l w w') :
    wp S p (fun _ _ => True) (fun _ _ => True) w := by
  induction p generalizing w with
  | pure a => trivial
  | fail e => trivial
  | act l f k ih => exact fun w' _ _ ha => ⟨hinv _, h.1 w' ha, ih _ (h.2 _)⟩
  | choose input k ih => exact fun b => ih b (h b)

theorem does_exec {C : W → Prop} {p : Prog W L E α} {w w' : W} {o : Outcome E α}
    (h : p.Does fun _ w w' => C w → C w') (hx : Exec p w o w') (hC : C w) : C w' := by
  induction hx with
  | pure a w => exact hC
  | fail e w => exact hC
  | crash p w => exact hC
  | act _ ih => exact ih (h.2 _) (h.1 _ hC)
  | choose b _ ih => exact ih (h b) hC

end Interleaving
