import RaytSystem.MoveModel
import Mathlib.Logic.Basic

/-! Crashes and retries of `_move`. What a move and its recovery may do to the names is said once,
as the closure conditions of an invariant; every invariant that meets them survives a crash at any
access. -/
namespace Interleaving

variable {W L E α β : Type}

def Upholds (C : W → Prop) (p : Prog W L E α) : Prop :=
  ∀ w, C w → wp (sequential L C) p (fun _ => C) (fun _ => C) w

section
variable {C : W → Prop}

theorem upholds_pure (a : α) : Upholds C (.pure a : Prog W L E α) := fun _ h => h

theorem upholds_fail (e : E) : Upholds C (.fail e : Prog W L E α) := fun _ h => h

variable {p : Prog W L E α}

theorem upholds_bind {g : α → Prog W L E β} (hp : Upholds C p) (hg : ∀ a, Upholds C (g a)) :
    Upholds C (p.bind g) := by
  intro w hw
  rw [wp_bind]
  apply wp_mono _ (hp w hw)
  · intro a w' hw'
    exact hg a w' hw'
  · exact fun _ _ hw' => hw'

theorem upholds_tryCatch {h : E → Prog W L E α} (hp : Upholds C p) (hh : ∀ e, Upholds C (h e)) :
    Upholds C (p.tryCatch h) := by
  intro w hw
  rw [wp_tryCatch]
  apply wp_mono _ (hp w hw)
  · exact fun _ _ hw' => hw'
  · intro e w' hw'
    exact hh e w' hw'

theorem upholds_toExcept (hp : Upholds C p) : Upholds C p.toExcept := by
  intro w hw
  rw [wp_toExcept]
  exact hp w hw

theorem upholds_any [Input β] : Upholds C (.any β : Prog W L E β) := fun _ h _ => h

theorem upholds_require {b : Prop} [Decidable b] {e : E} :
    Upholds C (.require b e : Prog W L E Unit) := by
  intro w hw
  exact wp_require _ (fun _ => hw) fun _ => hw

theorem upholds_get {l : L} {f : W → β} : Upholds C (.get l f : Prog W L E β) := by
  intro w hw
  exact wp_sequential_get hw hw

theorem upholds_set {l : L} {f : W → W} (hf : ∀ w, C w → C (f w)) :
    Upholds C (.set l f : Prog W L E Unit) := by
  intro w hw
  exact wp_sequential_set (hf w hw) (hf w hw)

theorem upholds_exec {p : Prog W L E α} {w w' : W} {o : Outcome E α} (hp : Upholds C p) (hw : C w)
    (hx : Exec p w o w') : C w' := exec_keeps (hp w hw) hw hx
end
end Interleaving

namespace RaytSystem.DocumentMoves
open Interleaving
attribute [local irreducible] wp

variable (env : MoveEnv)

def Ends (s d : String) : Prop :=
  (s = env.oldPath ∧ d = env.newPath) ∨ (s = env.newPath ∧ d = env.oldPath)

section
variable {env : MoveEnv} {s d : String}

theorem ends_forward (env : MoveEnv) : Ends env env.oldPath env.newPath := Or.inl ⟨rfl, rfl⟩

theorem ends_symm (h : Ends env s d) : Ends env d s := by
  rcases h with ⟨hs, hd⟩ | ⟨hs, hd⟩
  · exact Or.inr ⟨hd, hs⟩
  · exact Or.inl ⟨hd, hs⟩

theorem ends_ne (h : Ends env s d) : s ≠ d := by
  rcases h with ⟨hs, hd⟩ | ⟨hs, hd⟩
  · rw [hs, hd]
    exact env.distinct
  · rw [hs, hd]
    exact env.distinct.symm
end

structure MoveInvariant (env : MoveEnv) (C : MoveWorld → Prop) : Prop where
  link : ∀ {s d : String} {f : Nat} {w : MoveWorld}, Ends env s d → C w →
    w.entries s = some f → w.entries d = none → C (w.link d f)
  unlink : ∀ {s d : String} {f : Nat} {w : MoveWorld}, Ends env s d → C w →
    w.entries s = some f → w.entries d = some f → C (w.unlink s f)
  record : ∀ {state : OperationState} {w : MoveWorld}, C w → C (w.record state)

def Both (s d : String) (f : Nat) (w : MoveWorld) : Prop :=
  w.entries s = some f ∧ w.entries d = some f

theorem both_link {s d : String} {f : Nat} {w : MoveWorld} (hne : s ≠ d)
    (hs : w.entries s = some f) : Both s d f (w.link d f) := by
  constructor
  · simp only [MoveWorld.link, Function.update_of_ne hne, hs]
  · simp only [MoveWorld.link, Function.update_self]

section
variable {C : MoveWorld → Prop} {α : Type} {w : MoveWorld}
variable {f : MoveWorld → Except MoveFault (α × MoveWorld)} {X : MoveFault → MoveWorld → Prop}

theorem wp_systemCall {Q : α → MoveWorld → Prop} (hC : C w) (hsystem : X .osError w)
    (h : ∀ a w', f w = .ok (a, w') → C w' ∧ Q a w') (hX : ∀ e, f w = .error e → X e w) :
    wp (sequential Unit C) (systemCall f) Q X w := by
  unfold systemCall
  rw [wp_seq, wp_any]
  intro succeeds
  rw [wp_seq]
  apply wp_require
  · intro _
    exact wp_sequential_attempt hC h hX
  · exact fun _ => hsystem

variable {Q : Unit → MoveWorld → Prop}

theorem wp_parentFd (h : Q () w) (hX : X .missingParent w) :
    wp (sequential Unit C) parentFd Q X w := by
  unfold parentFd
  rw [wp_seq, wp_any]
  intro succeeds
  exact wp_require _ (fun _ => h) fun _ => hX

theorem wp_fsync (hC : C w) (h : Q () w) (hX : X .osError w) :
    wp (sequential Unit C) fsync Q X w := by
  apply wp_systemCall hC hX
  · intro _ w' hf
    cases hf
    exact ⟨hC, h⟩
  · intro e hf
    cases hf

theorem wp_syncParents (hC : C w) (h : Q () w) (hX : X .osError w) :
    wp (sequential Unit C) syncParents Q X w := by
  unfold syncParents
  rw [wp_seq]
  exact wp_fsync hC (wp_fsync hC h hX) hX

theorem wp_statPath {path : String} {Q : FileStat → MoveWorld → Prop} (hC : C w) (h : ∀ a, Q a w)
    (hX : X .osError w) : wp (sequential Unit C) (statPath path) Q X w := by
  apply wp_systemCall hC hX
  · intro a w' hf
    split at hf
    · cases hf
    · cases hf
      exact ⟨hC, h _⟩
  · intro e hf
    split at hf
    · cases hf
      exact hX
    · cases hf

theorem wp_statOptional {path : String} {Q : Option FileStat → MoveWorld → Prop} (hC : C w)
    (h : Q ((w.entries path).map w.stat) w) (hX : X .osError w) :
    wp (sequential Unit C) (statOptional path) Q X w := by
  apply wp_systemCall hC hX
  · intro a w' hf
    cases hf
    exact ⟨hC, h⟩
  · intro e hf
    cases hf

theorem wp_unlinkPath {path : String} {f : Nat} (hC : C w) (hpath : w.entries path = some f)
    (h : C (w.unlink path f) ∧ Q () (w.unlink path f)) (hX : X .osError w) :
    wp (sequential Unit C) (unlinkPath path) Q X w := by
  apply wp_systemCall hC hX
  · intro _ w' hf
    simp only [hpath] at hf
    cases hf
    exact h
  · intro e hf
    simp only [hpath] at hf
    cases hf

theorem upholds_systemCall (hf : ∀ w a w', f w = .ok (a, w') → w' = w) :
    Upholds C (systemCall f) := by
  intro w hw
  apply wp_systemCall hw hw
  · intro a w' hok
    rw [hf w a w' hok]
    exact ⟨hw, hw⟩
  · exact fun _ _ => hw

theorem upholds_outsideCall : Upholds C outsideCall :=
  upholds_bind upholds_any fun _ => upholds_require

theorem upholds_parentFd : Upholds C parentFd :=
  upholds_bind upholds_any fun _ => upholds_require

theorem upholds_openPath {path : String} : Upholds C (openPath path) := by
  apply upholds_systemCall
  intro w a w' hf
  split at hf
  · cases hf
  · split at hf
    · cases hf
    · cases hf
      rfl

theorem upholds_fstat {f : Nat} : Upholds C (fstat f) := by
  apply upholds_systemCall
  intro w a w' hf
  cases hf
  rfl

theorem upholds_statOptional {path : String} : Upholds C (statOptional path) := by
  apply upholds_systemCall
  intro w a w' hf
  cases hf
  rfl

variable {env : MoveEnv}

theorem upholds_readDescriptor {f : Nat} : Upholds C (readDescriptor env f) := by
  apply upholds_systemCall
  intro w a w' hf
  dsimp only at hf
  split at hf
  · cases hf
  · cases hf
    rfl

theorem upholds_checkSource {path : String} : Upholds C (checkSource env path) := by
  apply upholds_bind upholds_openPath
  intro f
  apply upholds_bind upholds_fstat
  intro before
  apply upholds_bind upholds_require
  intro _
  apply upholds_bind upholds_readDescriptor
  intro current
  apply upholds_bind upholds_require
  intro _
  apply upholds_bind upholds_fstat
  intro after
  exact upholds_bind upholds_require fun _ => upholds_pure before

theorem upholds_readCurrent {path : String} : Upholds C (readCurrent env path) := by
  apply upholds_bind
  · apply upholds_toExcept
    apply upholds_bind upholds_openPath
    intro f
    apply upholds_bind upholds_fstat
    intro before
    exact upholds_bind upholds_require fun _ => upholds_readDescriptor
  · intro read
    cases read with
    | ok content => exact upholds_pure content
    | error e => exact upholds_fail _

theorem upholds_readOptional {path : String} : Upholds C (readOptional env path) := by
  apply upholds_bind upholds_parentFd
  intro _
  apply upholds_bind upholds_statOptional
  intro found
  cases found with
  | none => exact upholds_pure none
  | some _ => exact upholds_bind upholds_readCurrent fun content => upholds_pure (some content)
end

section
variable {env : MoveEnv} {C : MoveWorld → Prop} {s d : String} {f : Nat} {w : MoveWorld}

/-- While both names are the same file, the check after the link either drops the source or
leaves the names as they are. -/
theorem wp_dropSource (hC : MoveInvariant env C) (hends : Ends env s d) (hw : C w)
    (hboth : Both s d f w) (before : FileStat) :
    wp (sequential Unit C) (dropSource s d before) (fun _ => C)
      (fun _ w' => C w' ∧ Both s d f w') w := by
  unfold dropSource
  rw [wp_seq]
  refine wp_statPath hw (fun sourceMeta => ?_) ⟨hw, hboth⟩
  rw [wp_seq]
  refine wp_statPath hw (fun destinationMeta => ?_) ⟨hw, hboth⟩
  rw [wp_seq]
  apply wp_require
  · intro _
    have hkept : C (w.unlink s f) := hC.unlink hends hw hboth.1 hboth.2
    exact wp_unlinkPath hw hboth.1 ⟨hkept, hkept⟩ ⟨hw, hboth⟩
  · exact fun _ => ⟨hw, hboth⟩

theorem wp_dropDestination (hC : MoveInvariant env C) (hends : Ends env s d) (hw : C w)
    (hboth : Both s d f w) (error : MoveFault) :
    wp (sequential Unit C) (dropDestination d error) (fun _ => C) (fun _ => C) w := by
  unfold dropDestination
  have hkept : C (w.unlink d f) := hC.unlink (ends_symm hends) hw hboth.2 hboth.1
  rw [wp_seq, wp_toExcept]
  apply wp_unlinkPath hw hboth.2
  · refine ⟨hkept, ?_⟩
    rw [Prog.throw_eq, wp_fail]
    exact hkept
  · rw [Prog.throw_eq, wp_fail]
    exact hw

theorem upholds_syncParents : Upholds C syncParents := fun _ hw => wp_syncParents hw hw hw

theorem upholds_linkAndDrop (hC : MoveInvariant env C) (hends : Ends env s d) (before : FileStat) :
    Upholds C ((linkPath s d).bind fun _ =>
      (Prog.tryCatch (dropSource s d before) (dropDestination d)).bind fun _ => syncParents) := by
  intro w hw
  rw [wp_bind]
  apply wp_systemCall hw hw
  · intro _ w' hf
    split at hf
    · cases hf
    · cases hf
    next f hs hd =>
      cases hf
      have hlinked : C (w.link d f) := hC.link hends hw hs hd
      have hboth : Both s d f (w.link d f) := both_link (ends_ne hends) hs
      refine ⟨hlinked, ?_⟩
      rw [wp_bind, wp_tryCatch]
      apply wp_mono _ (wp_dropSource hC hends hlinked hboth before)
      · intro _ w'' hw''
        exact upholds_syncParents w'' hw''
      · intro e w'' h
        apply wp_mono _ (wp_dropDestination hC hends h.1 h.2 e)
        · intro _ w₃ hw₃
          exact upholds_syncParents w₃ hw₃
        · exact fun _ _ hw₃ => hw₃
  · exact fun _ _ => hw

theorem upholds_atomicMove (hC : MoveInvariant env C) (hends : Ends env s d) :
    Upholds C (atomicMove env s d) := by
  apply upholds_bind upholds_parentFd
  intro _
  apply upholds_bind upholds_parentFd
  intro _
  apply upholds_bind upholds_checkSource
  intro before
  exact upholds_linkAndDrop hC hends before

theorem wp_recoverLinkMove (hC : MoveInvariant env C) (hends : Ends env s d) (hw : C w)
    {Q : Unit → MoveWorld → Prop} {X : MoveFault → MoveWorld → Prop}
    (hdrop : ∀ f, Both s d f w → Q () (w.unlink s f) ∧ X .osError (w.unlink s f))
    (hleave : w.entries s = none ∨ w.entries d = none → Q () w)
    (hconflict : ∀ f g, w.entries s = some f → w.entries d = some g →
      ¬OwnLink (w.stat f) (w.stat g) → X (.conflictingPaths s d) w)
    (hsystem : ∀ e : MoveFault, e.ofSystem → X e w) :
    wp (sequential Unit C) (recoverLinkMove s d) Q X w := by
  have hos : X .osError w := hsystem _ trivial
  have hparent : X .missingParent w := hsystem _ trivial
  unfold recoverLinkMove
  rw [wp_seq]
  apply wp_parentFd _ hparent
  rw [wp_seq]
  apply wp_parentFd _ hparent
  rw [wp_seq]
  apply wp_statOptional hw _ hos
  rw [wp_seq]
  apply wp_statOptional hw _ hos
  cases hs : w.entries s with
  | none =>
    simp only [Option.map_none, resolveNames, Prog.pure_eq, wp_pure]
    exact hleave (Or.inl hs)
  | some f =>
    cases hd : w.entries d with
    | none =>
      simp only [Option.map_none, Option.map_some, resolveNames, Prog.pure_eq, wp_pure]
      exact hleave (Or.inr hd)
    | some g =>
      unfold resolveNames
      simp only [Option.map_some]
      rw [wp_seq]
      apply wp_require
      · intro hown
        -- equal inodes: both names are the file of the unfinished move
        have hfile : f = g := hown.2.2.1
        have hboth : Both s d f w := ⟨hs, by rw [hd, hfile]⟩
        have hkept : C (w.unlink s f) := hC.unlink hends hw hboth.1 hboth.2
        rw [wp_seq]
        apply wp_unlinkPath hw hs _ hos
        exact ⟨hkept, wp_syncParents hkept (hdrop f hboth).1 (hdrop f hboth).2⟩
      · intro hown
        exact hconflict f g hs hd hown

theorem upholds_recoverLinkMove (hC : MoveInvariant env C) (hends : Ends env s d) :
    Upholds C (recoverLinkMove s d) := by
  intro w hw
  apply wp_recoverLinkMove hC hends hw
  · intro f hboth
    have hkept : C (w.unlink s f) := hC.unlink hends hw hboth.1 hboth.2
    exact ⟨hkept, hkept⟩
  · exact fun _ => hw
  · exact fun _ _ _ _ _ => hw
  · exact fun _ _ => hw

theorem upholds_currentVersion (hC : MoveInvariant env C) (recovering : Bool) :
    Upholds C (currentVersion env recovering) := by
  unfold currentVersion
  split
  · apply upholds_bind (upholds_recoverLinkMove hC (ends_forward env))
    intro _
    apply upholds_bind upholds_readOptional
    intro oldBytes
    apply upholds_bind upholds_readOptional
    intro newBytes
    split
    · exact upholds_pure _
    · exact upholds_pure _
    · exact upholds_fail _
  · exact upholds_bind upholds_readCurrent fun current => upholds_pure (current, false)

theorem upholds_recordOperation (hC : MoveInvariant env C) (state : OperationState) :
    Upholds C (recordOperation state) := upholds_set fun _ hw => hC.record hw

theorem upholds_runIf {p : MoveProg Unit} (hp : Upholds C p) (b : Bool) : Upholds C (runIf b p) := by
  unfold runIf
  split
  · exact hp
  · exact upholds_pure ()

theorem upholds_moveIdentity (hC : MoveInvariant env C) : Upholds C (moveIdentity env) := by
  apply upholds_tryCatch upholds_outsideCall
  intro error
  apply upholds_bind
  · exact upholds_toExcept (upholds_atomicMove hC (ends_symm (ends_forward env)))
  · exact fun _ => upholds_fail error

theorem upholds_completeMove (hC : MoveInvariant env C) (operation : OperationState) :
    Upholds C (completeMove env operation) := by
  apply upholds_bind (upholds_runIf (upholds_recordOperation hC _) _)
  intro _
  apply upholds_bind upholds_outsideCall
  intro _
  apply upholds_bind (upholds_currentVersion hC _)
  intro version
  apply upholds_bind (upholds_bind upholds_require fun _ => upholds_require)
  intro _
  apply upholds_bind (upholds_runIf (upholds_recordOperation hC _) _)
  intro _
  apply upholds_bind (upholds_runIf (upholds_atomicMove hC (ends_forward env)) _)
  intro _
  apply upholds_bind (upholds_moveIdentity hC)
  intro _
  exact upholds_bind upholds_outsideCall fun _ => upholds_recordOperation hC _

theorem upholds_move (hC : MoveInvariant env C) : Upholds C (move env) := by
  apply upholds_bind upholds_outsideCall
  intro _
  apply upholds_bind upholds_get
  intro operation
  split
  · exact upholds_pure ()
  · exact upholds_completeMove hC operation
end

def Named (doc : Nat) (w : MoveWorld) : Prop :=
  w.entries env.oldPath = some doc ∨ w.entries env.newPath = some doc

structure KeepsOthers (doc : Nat) (w w' : MoveWorld) : Prop where
  files : w'.files = w.files
  entries : ∀ path f, f ≠ doc → (w'.entries path = some f ↔ w.entries path = some f)

def Safe (doc : Nat) (w₀ w : MoveWorld) : Prop :=
  KeepsOthers doc w₀ w ∧ Named env doc w

section
variable {env : MoveEnv} {doc : Nat} {s d : String} {w w₀ : MoveWorld}

theorem named_iff (h : Ends env s d) :
    Named env doc w ↔ w.entries s = some doc ∨ w.entries d = some doc := by
  rcases h with ⟨rfl, rfl⟩ | ⟨rfl, rfl⟩
  · exact Iff.rfl
  · exact or_comm

theorem safe_self (h : Named env doc w) : Safe env doc w w :=
  ⟨⟨rfl, fun _ _ _ => Iff.rfl⟩, h⟩

theorem keepsOthers_update {path : String} {x : Option Nat} {links : Nat → Nat}
    (h : KeepsOthers doc w₀ w) (hold : ∀ f, w.entries path = some f → f = doc)
    (hnew : ∀ f, x = some f → f = doc) :
    KeepsOthers doc w₀ {w with entries := Function.update w.entries path x, links := links} where
  files := h.files
  entries := by
    intro p f hf
    by_cases hp : p = path
    · rw [← h.entries p f hf, hp]
      simp only [Function.update_self]
      constructor
      · intro hx
        exact absurd (hnew f hx) hf
      · intro hx
        exact absurd (hold f hx) hf
    · simp only [Function.update_of_ne hp]
      exact h.entries p f hf

theorem safe_invariant : MoveInvariant env (Safe env doc w₀) where
  link := by
    intro s d f w hends hw hs hd
    -- the destination was free, so the document is what the source names
    have hdoc : f = doc := by
      rcases (named_iff hends).mp hw.2 with h | h
      · exact Option.some.inj (hs.symm.trans h)
      · cases hd.symm.trans h
    subst hdoc
    refine ⟨keepsOthers_update hw.1 ?_ ?_, ?_⟩
    · intro g hg
      cases hd.symm.trans hg
    · intro g hg
      exact (Option.some.inj hg).symm
    · exact (named_iff hends).mpr (Or.inr (both_link (ends_ne hends) hs).2)
  unlink := by
    intro s d f w hends hw hs hd
    have hdoc : f = doc := by
      rcases (named_iff hends).mp hw.2 with h | h
      · exact Option.some.inj (hs.symm.trans h)
      · exact Option.some.inj (hd.symm.trans h)
    subst hdoc
    refine ⟨keepsOthers_update hw.1 ?_ ?_, ?_⟩
    · intro g hg
      exact Option.some.inj (hg.symm.trans hs)
    · intro g hg
      cases hg
    · refine (named_iff hends).mpr (Or.inr ?_)
      simp only [MoveWorld.unlink, Function.update_of_ne (ends_ne hends).symm, hd]
  record := by
    intro state w hw
    exact ⟨⟨hw.1.files, hw.1.entries⟩, hw.2⟩

structure OwnNames (env : MoveEnv) (doc : Nat) (w : MoveWorld) : Prop where
  regular : (w.files doc).kind = .regular
  oldOwn : ∀ f, w.entries env.oldPath = some f → f = doc
  newOwn : ∀ f, w.entries env.newPath = some f → f = doc
  links : w.links doc = (w.entries env.oldPath).toList.length + (w.entries env.newPath).toList.length

theorem ownNames_links (hends : Ends env s d) (h : OwnNames env doc w) :
    w.links doc = (w.entries s).toList.length + (w.entries d).toList.length := by
  rcases hends with ⟨rfl, rfl⟩ | ⟨rfl, rfl⟩
  · exact h.links
  · rw [h.links, Nat.add_comm]

theorem ownNames_own (hends : Ends env s d) (h : OwnNames env doc w) {f : Nat}
    (hf : w.entries s = some f) : f = doc := by
  rcases hends with ⟨rfl, rfl⟩ | ⟨rfl, rfl⟩
  · exact h.oldOwn f hf
  · exact h.newOwn f hf

theorem ownNames_of (hends : Ends env s d) (hregular : (w.files doc).kind = .regular)
    (hs : ∀ f, w.entries s = some f → f = doc) (hd : ∀ f, w.entries d = some f → f = doc)
    (hlinks : w.links doc = (w.entries s).toList.length + (w.entries d).toList.length) :
    OwnNames env doc w := by
  rcases hends with ⟨rfl, rfl⟩ | ⟨rfl, rfl⟩
  · exact ⟨hregular, hs, hd, hlinks⟩
  · exact ⟨hregular, hd, hs, by rw [hlinks, Nat.add_comm]⟩

theorem ownNames_invariant : MoveInvariant env (OwnNames env doc) where
  link := by
    intro s d f w hends hw hs hd
    have hdoc : f = doc := ownNames_own hends hw hs
    subst hdoc
    have hboth : Both s d f (w.link d f) := both_link (ends_ne hends) hs
    have hcount : w.links f = 1 := by simpa [hs, hd] using ownNames_links hends hw
    have hregular : ((w.link d f).files f).kind = .regular := hw.regular
    apply ownNames_of hends hregular
    · intro g hg
      exact Option.some.inj (hg.symm.trans hboth.1)
    · intro g hg
      exact Option.some.inj (hg.symm.trans hboth.2)
    · rw [hboth.1, hboth.2]
      simp [MoveWorld.link, hcount]
  unlink := by
    intro s d f w hends hw hs hd
    have hdoc : f = doc := ownNames_own hends hw hs
    subst hdoc
    have hcount : w.links f = 2 := by simpa [hs, hd] using ownNames_links hends hw
    have hgone : (w.unlink s f).entries s = none := by
      simp only [MoveWorld.unlink, Function.update_self]
    have hstays : (w.unlink s f).entries d = some f := by
      simp only [MoveWorld.unlink, Function.update_of_ne (ends_ne hends).symm, hd]
    have hregular : ((w.unlink s f).files f).kind = .regular := hw.regular
    apply ownNames_of hends hregular
    · intro g hg
      cases hgone.symm.trans hg
    · intro g hg
      exact Option.some.inj (hg.symm.trans hstays)
    · rw [hgone, hstays]
      simp [MoveWorld.unlink, hcount]
  record := by
    intro state w hw
    exact ⟨hw.regular, hw.oldOwn, hw.newOwn, hw.links⟩

theorem ownNames_stat (hends : Ends env s d) (h : OwnNames env doc w) {f g : Nat}
    (hs : w.entries s = some f) (hd : w.entries d = some g) : OwnLink (w.stat f) (w.stat g) := by
  have hf : f = doc := ownNames_own hends h hs
  have hg : g = doc := ownNames_own (ends_symm hends) h hd
  subst hf hg
  have hcount : w.links g = 2 := by simpa [hs, hd] using ownNames_links hends h
  exact ⟨h.regular, h.regular, rfl, hcount, hcount⟩

def ExactlyOne (env : MoveEnv) (doc : Nat) (w : MoveWorld) : Prop :=
  Xor (w.entries env.oldPath = some doc) (w.entries env.newPath = some doc)

theorem recovery_settles (hw : Named env doc w) :
    wp (sequential Unit fun _ => True) (recoverLinkMove env.oldPath env.newPath)
      (fun _ => ExactlyOne env doc) (fun _ _ => True) w := by
  apply wp_recoverLinkMove ⟨fun _ _ _ _ => trivial, fun _ _ _ _ => trivial, fun _ => trivial⟩
    (ends_forward env) trivial
  · intro f hboth
    have hdoc : f = doc := by
      rcases hw with h | h
      · exact Option.some.inj (hboth.1.symm.trans h)
      · exact Option.some.inj (hboth.2.symm.trans h)
    subst hdoc
    refine ⟨Or.inr ⟨?_, ?_⟩, trivial⟩
    · simp only [MoveWorld.unlink, Function.update_of_ne env.distinct.symm, hboth.2]
    · simp only [MoveWorld.unlink, Function.update_self, reduceCtorEq, not_false_eq_true]
  · intro hfree
    rcases hw with h | h
    · rcases hfree with hold | hnew
      · cases hold.symm.trans h
      · exact Or.inl ⟨h, by simp only [hnew, reduceCtorEq, not_false_eq_true]⟩
    · rcases hfree with hold | hnew
      · exact Or.inr ⟨h, by simp only [hold, reduceCtorEq, not_false_eq_true]⟩
      · cases hnew.symm.trans h
  · exact fun _ _ _ _ _ => trivial
  · exact fun _ _ => trivial

theorem recovery_recognises (hw : OwnNames env doc w) :
    wp (sequential Unit fun _ => True) (recoverLinkMove env.oldPath env.newPath)
      (fun _ _ => True) (fun e _ => e.ofSystem) w := by
  apply wp_recoverLinkMove ⟨fun _ _ _ _ => trivial, fun _ _ _ _ => trivial, fun _ => trivial⟩
    (ends_forward env) trivial
  · exact fun _ _ => ⟨trivial, trivial⟩
  · exact fun _ => trivial
  · intro f g hs hd hown
    exact absurd (ownNames_stat (ends_forward env) hw hs hd) hown
  · exact fun _ he => he
end

/-- Calls of `_move` one after another, each returning, raising or lost at any access. Between
two calls other processes do what they like, short of taking the document's last name. -/
inductive Retries (env : MoveEnv) (doc : Nat) (w₀ : MoveWorld) : MoveWorld → Prop where
  | start : Retries env doc w₀ w₀
  | call {w w' : MoveWorld} {o : Outcome MoveFault Unit} (h : Retries env doc w₀ w)
      (hx : Exec (move env) w o w') : Retries env doc w₀ w'
  | outside {w w' : MoveWorld} (h : Retries env doc w₀ w) (hnamed : Named env doc w') :
      Retries env doc w₀ w'

section
variable {env : MoveEnv} {doc : Nat} {w w' w₀ : MoveWorld}

theorem retries_named (h₀ : w₀.entries env.oldPath = some doc) (h : Retries env doc w₀ w) :
    Named env doc w := by
  induction h with
  | start => exact Or.inl h₀
  | call _ hx ih => exact (upholds_exec (upholds_move safe_invariant) (safe_self ih) hx).2
  | outside _ hnamed _ => exact hnamed

theorem recovery_exactlyOne (hw : Named env doc w)
    (hx : Exec (recoverLinkMove env.oldPath env.newPath) w (.returned ()) w') :
    ExactlyOne env doc w' := exec_sound (recovery_settles hw) trivial hx

theorem recovery_ofSystem {e : MoveFault} (hw : OwnNames env doc w)
    (hx : Exec (recoverLinkMove env.oldPath env.newPath) w (.raised e) w') : e.ofSystem :=
  exec_sound (recovery_recognises hw) trivial hx

/-- In every state that crashes and retries of a move reach, every further execution of the move,
of its link step or of its recovery leaves the document under one of the two names at every crash
point and every foreign file where it was. A recovery that completes leaves the document under
exactly one name; and where no foreign file takes part, it completes unless a system call fails. -/
theorem move_recovers (env : MoveEnv) (doc : Nat) (w₀ w : MoveWorld)
    (h₀ : w₀.entries env.oldPath = some doc) (h : Retries env doc w₀ w) : Named env doc w ∧
      (∀ program ∈ [move env, atomicMove env env.oldPath env.newPath,
          recoverLinkMove env.oldPath env.newPath], ∀ o w', Exec program w o w' →
        Named env doc w' ∧ KeepsOthers doc w w' ∧ (OwnNames env doc w → OwnNames env doc w')) ∧
      (∀ w', Exec (recoverLinkMove env.oldPath env.newPath) w (.returned ()) w' →
        ExactlyOne env doc w') ∧
      (OwnNames env doc w → ∀ e w',
        Exec (recoverLinkMove env.oldPath env.newPath) w (.raised e) w' → e.ofSystem) := by
  have hnamed : Named env doc w := retries_named h₀ h
  refine ⟨hnamed, ?_, fun w' hx => recovery_exactlyOne hnamed hx,
    fun hown e w' hx => recovery_ofSystem hown hx⟩
  intro program hprogram o w' hx
  have hupholds : ∀ C, MoveInvariant env C → Upholds C program := by
    intro C hC
    simp only [List.mem_cons, List.not_mem_nil, or_false] at hprogram
    rcases hprogram with rfl | rfl | rfl
    · exact upholds_move hC
    · exact upholds_atomicMove hC (ends_forward env)
    · exact upholds_recoverLinkMove hC (ends_forward env)
  have hsafe : Safe env doc w w' :=
    upholds_exec (hupholds _ safe_invariant) (safe_self hnamed) hx
  exact ⟨hsafe.2, hsafe.1, fun hown => upholds_exec (hupholds _ ownNames_invariant) hown hx⟩
end

def sampleMove : MoveEnv where
  oldPath := "notes/a.md"
  newPath := "notes/b.md"
  distinct := by decide
  sha256Hex content := String.ofList (content.map fun b => Char.ofNat b.toNat)
  expectedSha256 := "A"
  maxFileBytes := 8
  containsRestrictedContent _ _ := false

def sampleWorld : MoveWorld where
  entries path := if path = "notes/a.md" then some 1 else none
  files _ := ⟨.regular, [65], 0⟩
  links _ := 1
  operation := .missing

def lostAfter (n : Nat) : MoveWorld := ((move sampleMove).play n (List.replicate 24 1) sampleWorld).2

/-- A move is lost while both names exist. -/
theorem interrupted_move_recovers :
    Both "notes/a.md" "notes/b.md" 1 (lostAfter 24) ∧
      ExactlyOne sampleMove 1
        ((recoverLinkMove "notes/a.md" "notes/b.md").play 16 (List.replicate 8 1)
          (lostAfter 24)).2 := by
  have hlost : Retries sampleMove 1 sampleWorld (lostAfter 24) :=
    .call .start (exec_play_crashed 24 _ _ _)
  have hmove := move_recovers sampleMove 1 sampleWorld (lostAfter 24) (by decide) hlost
  exact ⟨⟨by decide, by decide⟩, hmove.2.2.1 _ (exec_play_returned (by decide))⟩

end RaytSystem.DocumentMoves
