import RaytSystem.AccessRules

/-! Programs over a part of a larger world, and programs that keep a discipline from any
moment on. The instances follow the shape of a program. -/
namespace Interleaving

structure Lens (W V : Type) where
  view : W → V
  update : V → W → W

variable {W V L L' E α β : Type}

def Lens.lift (lens : Lens W V) (f : V → β × V) (w : W) : β × W :=
  ((f (lens.view w)).1, lens.update (f (lens.view w)).2 w)

def Prog.focus (lens : Lens W V) (l : L) : Prog V L' E α → Prog W L E α
  | .pure a => .pure a
  | .fail e => .fail e
  | .act _ f k => .act l (lens.lift f) fun b => focus lens l (k b)
  | .choose input k => .choose input fun b => focus lens l (k b)

theorem within_focus {P : AccessKind V L'} {P' : AccessKind W L} {lens : Lens W V} {l : L}
    (h : ∀ β l' f, P β l' f → P' β l (lens.lift f)) (p : Prog V L' E α) [hp : Within P p] :
    Within P' (p.focus lens l) := by
  constructor
  have hevery := hp.every
  clear hp
  induction p with
  | pure a => trivial
  | fail e => trivial
  | act l' f k ih => exact ⟨h _ l' f hevery.1, fun b => ih b (hevery.2 b)⟩
  | choose input k ih => exact fun b => ih b (hevery b)

class Obeys (S : Discipline W L) (p : Prog W L E α) : Prop where
  obeys : ∀ w, wp S p (fun _ _ => True) (fun _ _ => True) w

namespace Obeys
variable {S : Discipline W L}

instance pure' (a : α) : Obeys S (.pure a : Prog W L E α) := ⟨fun _ => trivial⟩

instance pure (a : α) : Obeys S (Pure.pure a : Prog W L E α) := ⟨fun _ => trivial⟩

instance fail (e : E) : Obeys S (.fail e : Prog W L E α) := ⟨fun _ => trivial⟩

instance throw (e : E) : Obeys S (MonadExcept.throw e : Prog W L E α) := ⟨fun _ => trivial⟩

instance bind (p : Prog W L E α) (g : α → Prog W L E β) [hp : Obeys S p]
    [hg : ∀ a, Obeys S (g a)] : Obeys S (p >>= g) := by
  constructor
  intro w
  rw [wp_seq]
  exact wp_mono S (hp.obeys w) (fun a w' _ => (hg a).obeys w') fun _ _ _ => trivial

theorem andThen {p : Prog W L E α} {g : α → Prog W L E β} [Obeys S p] (hg : ∀ a, Obeys S (g a)) :
    Obeys S (p >>= g) := bind p g

instance tryCatch (p : Prog W L E α) (h : E → Prog W L E α) [hp : Obeys S p]
    [hh : ∀ e, Obeys S (h e)] : Obeys S (p.tryCatch h) := by
  constructor
  intro w
  rw [wp_tryCatch]
  exact wp_mono S (hp.obeys w) (fun _ _ _ => trivial) fun e w' _ => (hh e).obeys w'

instance tryFinally (p : Prog W L E α) (fin : Prog W L E Unit) [hp : Obeys S p]
    [hf : Obeys S fin] : Obeys S (p.tryFinally fin) := by
  constructor
  intro w
  rw [wp_tryFinally]
  exact wp_mono S (hp.obeys w) (fun _ w' _ => hf.obeys w') fun _ w' _ => hf.obeys w'

instance toExcept (p : Prog W L E α) [hp : Obeys S p] : Obeys S p.toExcept := by
  constructor
  intro w
  rw [wp_toExcept]
  exact hp.obeys w

instance any [Input β] : Obeys S (.any β : Prog W L E β) := ⟨fun _ _ => trivial⟩

instance require (b : Prop) [Decidable b] (e : E) : Obeys S (.require b e : Prog W L E Unit) := by
  unfold Prog.require
  split <;> infer_instance

instance ofExcept (x : Except E α) : Obeys S (.ofExcept x : Prog W L E α) := by
  cases x <;> exact ⟨fun _ => trivial⟩

instance ofOption (x : Option α) (e : E) : Obeys S (.ofOption x e : Prog W L E α) := by
  cases x <;> exact ⟨fun _ => trivial⟩

instance ite (b : Prop) [Decidable b] (p q : Prog W L E α) [Obeys S p] [Obeys S q] :
    Obeys S (if b then p else q) := by
  split <;> infer_instance

theorem attempt {l : L} {f : W → Except E (β × W)}
    (h : ∀ w b w', S.inv w → S.assume l w → f w = .ok (b,w') → S.inv w' ∧ S.guar l w w')
    (hg : ∀ w, S.inv w → S.guar l w w) : Obeys S (.attempt l f : Prog W L E β) := by
  constructor
  intro w w' hi _ ha
  unfold Prog.attemptStep
  split
  next b w'' hf =>
    obtain ⟨hinv, hguar⟩ := h w' b w'' hi ha hf
    exact ⟨hinv, hguar, trivial⟩
  next => exact ⟨hi, hg w' hi, trivial⟩

theorem ofWithin {P : AccessKind W L}
    (hkeep : ∀ β l f, P β l f → ∀ w, S.inv w → S.assume l w → S.inv (f w).2 ∧ S.guar l w (f w).2)
    (p : Prog W L E α) [Within P p] : Obeys S p := by
  constructor
  intro w
  refine wp_within (P := P) (I := fun _ => True) (fun _ _ _ _ => trivial) ?_ p trivial
  intro β l f hP w' hi _ ha
  obtain ⟨hinv, hguar⟩ := hkeep β l f hP w' hi ha
  exact ⟨hinv, hguar, trivial⟩

end Obeys
end Interleaving
