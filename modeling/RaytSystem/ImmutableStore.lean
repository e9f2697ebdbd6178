import Mathlib.Data.List.Forall2
import Mathlib.Logic.Function.Basic

/-! Publish-once stores: a key gets one value and keeps it. A check that only reads
such a store and accepts goes on accepting, with the same answer, as the store grows. -/
namespace ImmutableStore

abbrev Store (κ ν : Type) := κ → Option ν

variable {κ ν : Type}

def Extends (s s' : Store κ ν) : Prop := ∀ k v, s k = some v → s' k = some v

theorem extends_refl (s : Store κ ν) : Extends s s := fun _ _ h => h

theorem extends_trans {a b c : Store κ ν} (hab : Extends a b) (hbc : Extends b c) :
    Extends a c := fun k v h => hbc k v (hab k v h)

section
variable [DecidableEq κ] [DecidableEq ν]

def publish (s : Store κ ν) (k : κ) (v : ν) : Option (Store κ ν) :=
  match s k with
  | none => some (Function.update s k (some v))
  | some v' => if v' = v then some s else none

variable {s s' : Store κ ν}

theorem publish_get {k : κ} {v : ν} (h : publish s k v = some s') : s' k = some v := by
  unfold publish at h
  split at h
  · cases h
    rw [Function.update_self]
  next v' hk =>
    split at h
    next he =>
      cases h
      rw [hk, he]
    next => cases h

theorem publish_other {k k' : κ} {v : ν} (h : publish s k v = some s') (hk : k' ≠ k) :
    s' k' = s k' := by
  unfold publish at h
  split at h
  · cases h
    rw [Function.update_of_ne hk]
  · split at h
    · cases h
      rfl
    · cases h

theorem publish_extends {k : κ} {v : ν} (h : publish s k v = some s') : Extends s s' := by
  intro k' v' hv
  by_cases hk : k' = k
  · subst hk
    unfold publish at h
    rw [hv] at h
    simp only at h
    split at h
    · cases h
      exact hv
    · cases h
  · rw [publish_other h hk]
    exact hv

theorem publish_cases {k k' : κ} {v v' : ν} (h : publish s k v = some s') (hv : s' k' = some v') :
    s k' = some v' ∨ (k' = k ∧ v' = v) := by
  by_cases hk : k' = k
  · subst hk
    rw [publish_get h] at hv
    exact Or.inr ⟨rfl, (Option.some.inj hv).symm⟩
  · rw [publish_other h hk] at hv
    exact Or.inl hv
end

abbrev Check (W E α : Type) := ReaderT W (Except E) α

namespace Check
variable {W E α β : Type}

def require (b : Prop) [Decidable b] (e : E) : Check W E Unit :=
  fun _ => if b then .ok () else .error e

def ofOption : Option α → E → Check W E α
  | some a, _ => fun _ => .ok a
  | none, e => fun _ => .error e

def read (f : W → Option α) (e : E) : Check W E α := fun w =>
  match f w with
  | some a => .ok a
  | none => .error e

variable {x : Check W E α} {f : α → Check W E β} {w : W} {a : α}

@[simp] theorem bind_ok {b : β} : (x >>= f) w = .ok b ↔ ∃ a, x w = .ok a ∧ f a w = .ok b := by
  have h : (x >>= f) w = (x w >>= fun a => f a w) := rfl
  rw [h]
  cases x w with
  | error e => exact ⟨nofun, fun ⟨_, h, _⟩ => nomatch h⟩
  | ok a => exact ⟨fun h => ⟨a, rfl, h⟩, fun ⟨_, h, h'⟩ => Except.ok.inj h ▸ h'⟩

theorem bind_run (h : x w = .ok a) : (x >>= f) w = f a w := by
  change (x w >>= fun a => f a w) = f a w
  rw [h]
  rfl

variable {e : E}

theorem bind_raise (h : x w = .error e) : (x >>= f) w = .error e := by
  change (x w >>= fun a => f a w) = .error e
  rw [h]
  rfl

theorem require_raise {b : Prop} [Decidable b] (h : ¬b) :
    (require b e : Check W E Unit) w = .error e := if_neg h

@[simp] theorem pure_ok {a b : α} : (pure a : Check W E α) w = .ok b ↔ a = b :=
  ⟨Except.ok.inj, fun h => congrArg Except.ok h⟩

@[simp] theorem throw_ok : (throw e : Check W E α) w = .ok a ↔ False :=
  ⟨nofun, False.elim⟩

@[simp] theorem require_ok {b : Prop} [Decidable b] {u : Unit} :
    (require b e : Check W E Unit) w = .ok u ↔ b := by
  unfold require
  split
  next hb => exact ⟨fun _ => hb, fun _ => rfl⟩
  next hb => exact ⟨nofun, fun h => absurd h hb⟩

@[simp] theorem ofOption_ok {o : Option α} :
    (ofOption o e : Check W E α) w = .ok a ↔ o = some a := by
  cases o with
  | none => exact ⟨nofun, nofun⟩
  | some b => exact ⟨fun h => congrArg some (Except.ok.inj h), fun h => by cases h; rfl⟩

@[simp] theorem read_ok {f : W → Option α} : (read f e : Check W E α) w = .ok a ↔ f w = some a := by
  unfold read
  cases f w with
  | none => exact ⟨nofun, nofun⟩
  | some b => exact ⟨fun h => congrArg some (Except.ok.inj h), fun h => by cases h; rfl⟩

def Persists (R : W → W → Prop) (x : Check W E α) : Prop :=
  ∀ w w' a, R w w' → x w = .ok a → x w' = .ok a

variable {R : W → W → Prop}

theorem persists_pure (a : α) : Persists R (pure a : Check W E α) := fun _ _ _ _ h => h

theorem persists_throw (e : E) : Persists R (throw e : Check W E α) := fun _ _ _ _ h => h

theorem persists_require (b : Prop) [Decidable b] (e : E) :
    Persists R (require b e : Check W E Unit) := fun _ _ _ _ h => h

theorem persists_ofOption (o : Option α) (e : E) : Persists R (ofOption o e : Check W E α) := by
  cases o <;> exact fun _ _ _ _ h => h

theorem persists_read {f : W → Option α} (e : E)
    (h : ∀ w w' a, R w w' → f w = some a → f w' = some a) :
    Persists R (read f e : Check W E α) := by
  intro w w' a hR hx
  rw [read_ok] at hx ⊢
  exact h w w' a hR hx

theorem persists_bind (hx : Persists R x) (hf : ∀ a, Persists R (f a)) : Persists R (x >>= f) := by
  intro w w' b hR h
  obtain ⟨a, ha, hb⟩ := bind_ok.mp h
  exact bind_ok.mpr ⟨a, hx w w' a hR ha, hf a w w' b hR hb⟩

def each (f : α → Check W E Unit) : List α → Check W E Unit
  | [] => pure ()
  | x :: rest => do
    f x
    each f rest

theorem each_ok {f : α → Check W E Unit} {xs : List α} {u : Unit} :
    each f xs w = .ok u ↔ ∀ x ∈ xs, f x w = .ok () := by
  induction xs with
  | nil => simp [each]
  | cons x rest ih =>
    rw [each, bind_ok]
    constructor
    · rintro ⟨_, hx, hrest⟩ y hy
      rcases List.mem_cons.mp hy with rfl | hy
      · exact hx
      · exact ih.mp hrest y hy
    · intro h
      refine ⟨(), h x List.mem_cons_self, ih.mpr ?_⟩
      intro y hy
      exact h y (List.mem_cons_of_mem x hy)

theorem persists_each {f : α → Check W E Unit} (hf : ∀ a, Persists R (f a)) (xs : List α) :
    Persists R (each f xs) := by
  induction xs with
  | nil => exact persists_pure ()
  | cons x rest ih => exact persists_bind (hf x) fun _ => ih

def collect (f : α → Check W E β) : List α → Check W E (List β)
  | [] => pure []
  | x :: rest => do
    let y ← f x
    let ys ← collect f rest
    pure (y :: ys)

theorem collect_ok {xs : List α} {ys : List β} :
    collect f xs w = .ok ys ↔ List.Forall₂ (fun x y => f x w = .ok y) xs ys := by
  induction xs generalizing ys with
  | nil =>
    rw [collect, pure_ok]
    constructor
    · rintro rfl
      exact .nil
    · rintro ⟨⟩
      rfl
  | cons x rest ih =>
    simp only [collect, bind_ok, pure_ok]
    constructor
    · rintro ⟨y, hy, ys', hys, rfl⟩
      exact .cons hy (ih.mp hys)
    · rintro (_ | ⟨hy, hys⟩)
      exact ⟨_, hy, _, ih.mpr hys, rfl⟩

theorem persists_collect (hf : ∀ a, Persists R (f a)) (xs : List α) :
    Persists R (collect f xs) := by
  induction xs with
  | nil => exact persists_pure _
  | cons x rest ih =>
    exact persists_bind (hf x) fun y => persists_bind ih fun ys => persists_pure _

end Check
end ImmutableStore
