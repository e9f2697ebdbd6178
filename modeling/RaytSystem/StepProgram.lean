import Mathlib.Logic.Function.Basic
import Mathlib.Logic.Relation

/-! Programs over a shared world, cut at their atomic accesses. One `act` is one
read, one durable write or one database transaction; between two of them a
program can be interleaved with others or lose its process. `choose` stands for
an input the program does not control: a clock reading, a fresh name, a fault. -/
namespace Interleaving

class Input (β : Type) where
  decode : Nat → β
  surjective : Function.Surjective decode

instance : Input Bool where
  decode n := n == 1
  surjective b := by cases b with
    | false => exact ⟨0, rfl⟩
    | true => exact ⟨1, rfl⟩

instance : Input Nat := ⟨id, Function.surjective_id⟩

instance : Input Int where
  decode n := if n % 2 = 0 then (n / 2 : Nat) else -((n / 2 + 1 : Nat) : Int)
  surjective z := by
    cases z with
    | ofNat n => exact ⟨2 * n, by simp⟩
    | negSucc n =>
      refine ⟨2 * n + 1, ?_⟩
      have hodd : (2 * n + 1) % 2 ≠ 0 := by omega
      have hhalf : (2 * n + 1) / 2 = n := by omega
      simp only [if_neg hodd, hhalf]
      exact (Int.negSucc_eq n).symm

inductive Prog (W L E α : Type) : Type 1 where
  | pure (a : α)
  | fail (e : E)
  | act {β : Type} (l : L) (f : W → β × W) (k : β → Prog W L E α)
  | choose {β : Type} (input : Input β) (k : β → Prog W L E α)

variable {W L E α β γ : Type}

namespace Prog

def bind : Prog W L E α → (α → Prog W L E β) → Prog W L E β
  | .pure a, g => g a
  | .fail e, _ => .fail e
  | .act l f k, g => .act l f fun b => bind (k b) g
  | .choose input k, g => .choose input fun b => bind (k b) g

def tryCatch : Prog W L E α → (E → Prog W L E α) → Prog W L E α
  | .pure a, _ => .pure a
  | .fail e, h => h e
  | .act l f k, h => .act l f fun b => tryCatch (k b) h
  | .choose input k, h => .choose input fun b => tryCatch (k b) h

/-- A `finally` clause: it runs after a return and after an error, never after a
crash, and an error of its own replaces the outcome. -/
def tryFinally : Prog W L E α → Prog W L E Unit → Prog W L E α
  | .pure a, fin => bind fin fun _ => .pure a
  | .fail e, fin => bind fin fun _ => .fail e
  | .act l f k, fin => .act l f fun b => tryFinally (k b) fin
  | .choose input k, fin => .choose input fun b => tryFinally (k b) fin

def toExcept : Prog W L E α → Prog W L E (Except E α)
  | .pure a => .pure (.ok a)
  | .fail e => .pure (.error e)
  | .act l f k => .act l f fun b => toExcept (k b)
  | .choose input k => .choose input fun b => toExcept (k b)

instance : Monad (Prog W L E) where
  pure := .pure
  bind := bind

instance : MonadExceptOf E (Prog W L E) where
  throw := .fail
  tryCatch := tryCatch

def step (l : L) (f : W → β × W) : Prog W L E β := .act l f .pure

def get (l : L) (f : W → β) : Prog W L E β := step l fun w => (f w,w)

def set (l : L) (f : W → W) : Prog W L E Unit := step l fun w => ((),f w)

def ofExcept : Except E α → Prog W L E α
  | .ok a => .pure a
  | .error e => .fail e

def ofOption : Option α → E → Prog W L E α
  | some a, _ => .pure a
  | none, e => .fail e

def require (b : Prop) [Decidable b] (e : E) : Prog W L E Unit := if b then .pure () else .fail e

def attemptStep (f : W → Except E (β × W)) (w : W) : Except E β × W :=
  match f w with
  | .ok (b,w') => (.ok b,w')
  | .error e => (.error e,w)

def attempt (l : L) (f : W → Except E (β × W)) : Prog W L E β :=
  .act l (attemptStep f) ofExcept

def any (β : Type) [Input β] : Prog W L E β := .choose inferInstance .pure

def each (f : α → Prog W L E Unit) : List α → Prog W L E Unit
  | [] => .pure ()
  | x :: rest => (f x).bind fun _ => each f rest

variable (p : Prog W L E α)

@[simp] theorem pure_bind (a : α) (g : α → Prog W L E β) : (Prog.pure a).bind g = g a := rfl
@[simp] theorem fail_bind (e : E) (g : α → Prog W L E β) : (Prog.fail e).bind g = .fail e := rfl

@[simp] theorem bind_eq (g : α → Prog W L E β) : p >>= g = p.bind g := rfl
@[simp] theorem pure_eq (a : α) : (Pure.pure a : Prog W L E α) = .pure a := rfl
@[simp] theorem throw_eq (e : E) : (throw e : Prog W L E α) = .fail e := rfl

/-- At most `n` accesses and inputs of one program, on numbered inputs. -/
def play : Nat → List Nat → Prog W L E α → W → Prog W L E α × W
  | n + 1, ins, .act _ f k, w => play n ins (k (f w).1) (f w).2
  | n + 1, i :: ins, .choose input k, w => play n ins (k (input.decode i)) w
  | _, _, p, w => (p,w)

def isAct : Prog W L E α → Bool
  | .act .. => true
  | _ => false

end Prog

inductive Outcome (E α : Type) where
  | returned (a : α)
  | raised (e : E)
  | crashed
  deriving DecidableEq

inductive Exec : Prog W L E α → W → Outcome E α → W → Prop where
  | pure (a : α) (w : W) : Exec (.pure a) w (.returned a) w
  | fail (e : E) (w : W) : Exec (.fail e) w (.raised e) w
  | crash (p : Prog W L E α) (w : W) : Exec p w .crashed w
  | act {β : Type} {l : L} {f : W → β × W} {k : β → Prog W L E α} {w w' : W}
      {o : Outcome E α} (h : Exec (k (f w).1) (f w).2 o w') : Exec (.act l f k) w o w'
  | choose {β : Type} {input : Input β} {k : β → Prog W L E α} {w w' : W} {o : Outcome E α}
      (b : β) (h : Exec (k b) w o w') : Exec (.choose input k) w o w'

def Prog.error? : Prog W L E α → Option E
  | .fail e => some e
  | _ => none

variable {p : Prog W L E α} {w : W} {e : E}

theorem exec_play {n : Nat} {ins : List Nat} (h : (p.play n ins w).1.error? = some e) :
    Exec p w (.raised e) (p.play n ins w).2 := by
  induction n generalizing ins p w with
  | zero =>
    cases p with
    | fail e' =>
      obtain rfl := Option.some.inj h
      exact .fail e' w
    | _ => cases h
  | succ n ih =>
    cases p with
    | fail e' =>
      obtain rfl := Option.some.inj h
      exact .fail e' w
    | pure a => cases h
    | act l f k => exact .act (ih h)
    | choose input k =>
      cases ins with
      | nil => cases h
      | cons i ins => exact .choose (input.decode i) (ih h)

def Prog.value? : Prog W L E α → Option α
  | .pure a => some a
  | _ => none

variable {a : α}

theorem exec_play_returned {n : Nat} {ins : List Nat} (h : (p.play n ins w).1.value? = some a) :
    Exec p w (.returned a) (p.play n ins w).2 := by
  induction n generalizing ins p w with
  | zero =>
    cases p with
    | pure a' =>
      obtain rfl := Option.some.inj h
      exact .pure a' w
    | _ => cases h
  | succ n ih =>
    cases p with
    | pure a' =>
      obtain rfl := Option.some.inj h
      exact .pure a' w
    | fail e => cases h
    | act l f k => exact .act (ih h)
    | choose input k =>
      cases ins with
      | nil => cases h
      | cons i ins => exact .choose (input.decode i) (ih h)

theorem exec_play_crashed (n : Nat) (ins : List Nat) (p : Prog W L E α) (w : W) :
    Exec p w .crashed (p.play n ins w).2 := by
  induction n generalizing ins p w with
  | zero => exact .crash p w
  | succ n ih =>
    cases p with
    | pure a => exact .crash _ w
    | fail e => exact .crash _ w
    | act l f k => exact .act (ih ins (k (f w).1) (f w).2)
    | choose input k =>
      cases ins with
      | nil => exact .crash _ w
      | cons i ins => exact .choose (input.decode i) (ih ins (k (input.decode i)) w)

variable {g : α → Prog W L E β}

theorem exec_bind {w w' w'' : W} {o : Outcome E β} (hp : Exec p w (.returned a) w')
    (hg : Exec (g a) w' o w'') : Exec (p.bind g) w o w'' := by
  generalize ho : Outcome.returned a = o' at hp
  induction hp with
  | pure b w =>
    cases ho
    exact hg
  | fail e w => cases ho
  | crash p w => cases ho
  | act _ ih => exact .act (ih hg ho)
  | choose b _ ih => exact .choose b (ih hg ho)

theorem exec_bind_raised {w w' : W} (hp : Exec p w (.raised e) w') :
    Exec (p.bind g) w (.raised e) w' := by
  generalize ho : Outcome.raised e = o at hp
  induction hp with
  | pure a w => cases ho
  | fail e' w =>
    cases ho
    exact .fail e w
  | crash p w => cases ho
  | act _ ih => exact .act (ih ho)
  | choose b _ ih => exact .choose b (ih ho)

theorem exec_require {b : Prop} [Decidable b] (h : b) :
    Exec (.require b e : Prog W L E Unit) w (.returned ()) w := by
  rw [Prog.require, if_pos h]
  exact .pure () w

theorem exec_any [Input β] (b : β) (w : W) :
    Exec (.any β : Prog W L E β) w (.returned b) w := .choose b (.pure b w)

theorem exec_get {l : L} {f : W → β} (w : W) :
    Exec (.get l f : Prog W L E β) w (.returned (f w)) w := .act (.pure (f w) w)

theorem exec_ofOption {x : Option α} (h : x = some a) :
    Exec (.ofOption x e : Prog W L E α) w (.returned a) w := by
  subst h
  exact .pure a w

theorem exec_ofExcept {x : Except E α} (h : x = .ok a) :
    Exec (.ofExcept x : Prog W L E α) w (.returned a) w := by
  subst h
  exact .pure a w

theorem exec_attempt {l : L} {f : W → Except E (β × W)} {b : β} {w w' : W}
    (h : f w = .ok (b,w')) : Exec (.attempt l f : Prog W L E β) w (.returned b) w' := by
  apply Exec.act
  rw [Prog.attemptStep, h]
  exact .pure b w'

theorem exec_tryFinally {fin : Prog W L E Unit} {w w' w'' : W} {o : Outcome E α}
    (hp : Exec p w o w') (hfin : Exec fin w' (.returned ()) w'') (ho : o ≠ .crashed) :
    Exec (p.tryFinally fin) w o w'' := by
  induction hp with
  | pure a w => exact exec_bind hfin (.pure a w'')
  | fail e w => exact exec_bind hfin (.fail e w'')
  | crash p w => exact absurd rfl ho
  | act _ ih => exact .act (ih hfin ho)
  | choose b _ ih => exact .choose b (ih hfin ho)

theorem exec_terminates (p : Prog W L E α) (w : W) : ∃ o w', o ≠ .crashed ∧ Exec p w o w' := by
  induction p generalizing w with
  | pure a => exact ⟨_, _, by simp, .pure a w⟩
  | fail e => exact ⟨_, _, by simp, .fail e w⟩
  | act l f k ih =>
    obtain ⟨o, w', ho, h⟩ := ih (f w).1 (f w).2
    exact ⟨o, w', ho, .act h⟩
  | choose input k ih =>
    obtain ⟨o, w', ho, h⟩ := ih (input.decode 0) w
    exact ⟨o, w', ho, .choose _ h⟩

end Interleaving
