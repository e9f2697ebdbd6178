import RaytSystem.RelyGuarantee

/-! Programs all of whose accesses are of one kind. The instances follow the shape of a
program, so that its kind is found from the kinds of what it calls. -/
namespace Interleaving

abbrev AccessKind (W L : Type) := (β : Type) → L → (W → β × W) → Prop

variable {W L E α β : Type}

def Prog.Every (P : AccessKind W L) : Prog W L E α → Prop
  | .pure _ => True
  | .fail _ => True
  | .act (β := β) l f k => P β l f ∧ ∀ b, Every P (k b)
  | .choose _ k => ∀ b, Every P (k b)

class Within (P : AccessKind W L) (p : Prog W L E α) : Prop where
  every : p.Every P

namespace Within
variable {P : AccessKind W L}

instance (a : α) : Within P (.pure a : Prog W L E α) := ⟨trivial⟩

instance (a : α) : Within P (pure a : Prog W L E α) := ⟨trivial⟩

instance (e : E) : Within P (.fail e : Prog W L E α) := ⟨trivial⟩

instance (e : E) : Within P (throw e : Prog W L E α) := ⟨trivial⟩

theorem every_bind {p : Prog W L E α} {g : α → Prog W L E β} (hp : p.Every P)
    (hg : ∀ a, (g a).Every P) : (p.bind g).Every P := by
  induction p with
  | pure a => exact hg a
  | fail e => trivial
  | act l f k ih => exact ⟨hp.1, fun b => ih b (hp.2 b)⟩
  | choose input k ih => exact fun b => ih b (hp b)

instance bind (p : Prog W L E α) (g : α → Prog W L E β) [hp : Within P p]
    [hg : ∀ a, Within P (g a)] : Within P (p >>= g) :=
  ⟨every_bind hp.every fun a => (hg a).every⟩

theorem andThen {p : Prog W L E α} {g : α → Prog W L E β} [Within P p] (hg : ∀ a, Within P (g a)) :
    Within P (p >>= g) := bind p g

instance tryCatch (p : Prog W L E α) (h : E → Prog W L E α) [hp : Within P p]
    [hh : ∀ e, Within P (h e)] : Within P (p.tryCatch h) := by
  constructor
  have hevery := hp.every
  clear hp
  induction p with
  | pure a => trivial
  | fail e => exact (hh e).every
  | act l f k ih => exact ⟨hevery.1, fun b => ih b (hevery.2 b)⟩
  | choose input k ih => exact fun b => ih b (hevery b)

instance tryFinally (p : Prog W L E α) (fin : Prog W L E Unit) [hp : Within P p]
    [hf : Within P fin] : Within P (p.tryFinally fin) := by
  constructor
  have hevery := hp.every
  clear hp
  induction p with
  | pure a => exact every_bind hf.every fun _ => trivial
  | fail e => exact every_bind hf.every fun _ => trivial
  | act l f k ih => exact ⟨hevery.1, fun b => ih b (hevery.2 b)⟩
  | choose input k ih => exact fun b => ih b (hevery b)

instance toExcept (p : Prog W L E α) [hp : Within P p] : Within P p.toExcept := by
  constructor
  have hevery := hp.every
  clear hp
  induction p with
  | pure a => trivial
  | fail e => trivial
  | act l f k ih => exact ⟨hevery.1, fun b => ih b (hevery.2 b)⟩
  | choose input k ih => exact fun b => ih b (hevery b)

instance any [Input β] : Within P (.any β : Prog W L E β) := ⟨fun _ => trivial⟩

instance require (b : Prop) [Decidable b] (e : E) : Within P (.require b e : Prog W L E Unit) := by
  unfold Prog.require
  split <;> infer_instance

instance ofExcept (x : Except E α) : Within P (.ofExcept x : Prog W L E α) := by
  cases x <;> exact ⟨trivial⟩

instance ofOption (x : Option α) (e : E) : Within P (.ofOption x e : Prog W L E α) := by
  cases x <;> exact ⟨trivial⟩

instance ite (b : Prop) [Decidable b] (p q : Prog W L E α) [Within P p] [Within P q] :
    Within P (if b then p else q) := by
  split <;> infer_instance

theorem step {l : L} {f : W → β × W} (h : P β l f) : Within P (.step l f : Prog W L E β) :=
  ⟨h, fun _ => trivial⟩

theorem attempt {l : L} {f : W → Except E (β × W)} (h : P (Except E β) l (Prog.attemptStep f)) :
    Within P (.attempt l f : Prog W L E β) :=
  ⟨h, fun x => (ofExcept x).every⟩

end Within

theorem wp_within {S : Discipline W L} {P : AccessKind W L} {I : W → Prop}
    (hrely : ∀ w w', S.rely w w' → I w → I w')
    (hkeep : ∀ β l f, P β l f → ∀ w, S.inv w → I w → S.assume l w →
      S.inv (f w).2 ∧ S.guar l w (f w).2 ∧ I (f w).2) (p : Prog W L E α) [hp : Within P p] {w : W}
    (hw : I w) : wp S p (fun _ w' => I w') (fun _ w' => I w') w := by
  have hevery := hp.every
  clear hp
  induction p generalizing w with
  | pure a => exact hw
  | fail e => exact hw
  | act l f k ih =>
    intro w' hi hr ha
    obtain ⟨hinv, hguar, hI⟩ := hkeep _ l f hevery.1 w' hi (hrely w w' hr hw) ha
    exact ⟨hinv, hguar, ih _ hI (hevery.2 _)⟩
  | choose input k ih => exact fun b => ih b hw (hevery b)

end Interleaving
