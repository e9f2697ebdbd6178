import RaytSystem.ExternalVersions

/-! Runs of `_atomic_replace` among external renames. -/
namespace RaytSystem.Documents
open Interleaving
attribute [local irreducible] wp

section
variable {env : ReplaceEnv} {d : ParentDirectory}

theorem prepare_keeps {before : Nat} (hd : TemporaryGoes env d) :
    wp (replaceRule env 0) (prepareReplacement env before) (fun _ => TemporaryGoes env)
      (fun _ => TemporaryGoes env) d := by
  unfold prepareReplacement
  rw [wp_seq]
  refine wp_createTemporary hd (fun _ _ h => h) fun own d' hown => ?_
  rw [wp_seq]
  refine wp_writeAll hown (fun _ _ h => goes_of_own h) fun d' hown => ?_
  rw [wp_seq]
  refine wp_fsync hown (stable_own own) (fun _ _ h => goes_of_own h) fun d' hown => ?_
  rw [wp_seq]
  refine wp_statDocument hown (stable_own own) (fun _ _ h => goes_of_own h) fun v d' hown => ?_
  split
  · rw [wp_seq]
    refine wp_openDocument hown (stable_own own) (fun _ _ h => goes_of_own h) fun v d' hown => ?_
    rw [wp_seq]
    refine wp_readDescriptor hown (stable_own own) (fun _ _ h => goes_of_own h) fun d' hown => ?_
    rw [Prog.throw_eq, wp_fail]
    exact goes_of_own hown
  · rw [Prog.pure_eq, wp_pure]
    exact goes_of_own hown

def Settled (env : ReplaceEnv) (r : Bool × Option ReplaceFault) (d : ParentDirectory) : Prop :=
  r.1 = false → TemporaryGoes env d

variable {r : Bool × Option ReplaceFault}

theorem wp_settled (h : Settled env r d) :
    wp (replaceRule env 0) (pure r : ReplaceProg (Bool × Option ReplaceFault)) (Settled env)
      (fun _ _ => True) d := by
  rw [Prog.pure_eq, wp_pure]
  exact h

theorem wp_exchanged (error : Option ReplaceFault) :
    wp (replaceRule env 0) (pure (true, error) : ReplaceProg (Bool × Option ReplaceFault))
      (Settled env) (fun _ _ => True) d :=
  wp_settled fun h => by cases h

theorem wp_openTemporary {Q : Nat → ParentDirectory → Prop}
    {X : ReplaceFault → ParentDirectory → Prop} (hX : ∀ e d', X e d')
    (h : ∀ t d', Displaced t d' → Q t d') : wp (replaceRule env 0) openTemporary Q X d := by
  apply wp_systemCall trivial stable_true fun e d' _ => hX e d'
  intro d' t d'' hsound _ _ hf
  split at hf
  · cases hf
  next t' htemporary =>
    split at hf
    · cases hf
    · cases hf
      exact ⟨hsound, h _ _ ⟨htemporary, hsound.linked_lt _ (Or.inr htemporary)⟩⟩

theorem afterExchange_settles :
    wp (replaceRule env 0) (afterExchange env) (Settled env) (fun _ _ => True) d := by
  unfold afterExchange
  rw [wp_seq, wp_toExcept, wp_seq]
  refine wp_openTemporary (fun _ _ => wp_exchanged _) fun t d' hdisplaced => ?_
  refine wp_readDescriptor hdisplaced (stable_displaced t) (fun _ _ _ => wp_exchanged _)
    fun d' hdisplaced => ?_
  dsimp only
  have hcontent : DisplacedContent t (d'.files t).content d' := ⟨hdisplaced, rfl⟩
  generalize (d'.files t).content = content at hcontent
  split
  next hsha =>
    -- the displaced version is the one that the caller expected
    have hgoes : TemporaryGoes env d' := goes_of_expected hcontent hsha
    rw [wp_seq, wp_toExcept]
    refine wp_unlinkTemporary hgoes (fun _ _ _ => wp_exchanged _) fun d' hgoes => ?_
    dsimp only
    rw [wp_seq, wp_toExcept]
    exact wp_fsync hgoes stable_temporaryGoes (fun _ _ hgoes => wp_settled fun _ => hgoes)
      fun _ hgoes => wp_settled fun _ => hgoes
  next =>
    rw [wp_seq, wp_toExcept]
    refine wp_exchangeNames trivial stable_true (fun _ _ _ => wp_exchanged _)
      fun d' hgoes => ?_
    dsimp only
    split
    · exact wp_settled fun _ => hgoes rfl
    · exact wp_settled fun _ => hgoes rfl

theorem replaceBody_settles {before : Nat} (hd : TemporaryGoes env d) :
    wp (replaceRule env 0) (replaceBody env before) (Settled env) (fun _ _ => True) d := by
  unfold replaceBody
  rw [wp_seq, wp_toExcept, wp_seq]
  apply wp_mono _ (prepare_keeps hd)
  · intro _ d' hgoes
    refine wp_exchangeNames hgoes stable_temporaryGoes
      (fun _ _ hgoes => wp_settled fun _ => hgoes) fun d' _ => ?_
    exact afterExchange_settles
  · exact fun _ d' hgoes => wp_settled fun _ => hgoes

theorem rollBack_settles (h : Settled env r d) :
    wp (replaceRule env 0) (rollBack r) (Settled env) (fun _ _ => True) d := by
  unfold rollBack
  split
  · rw [Prog.pure_eq, wp_pure]
    exact h
  · rw [wp_seq, wp_toExcept]
    refine wp_exchangeNames trivial stable_true (fun _ _ _ => wp_exchanged _)
      fun d' hgoes => ?_
    dsimp only
    rw [wp_seq, wp_toExcept]
    exact wp_fsync (hgoes rfl) stable_temporaryGoes (fun _ _ hgoes => wp_settled fun _ => hgoes)
      fun _ hgoes => wp_settled fun _ => hgoes

theorem raiseAgain_keeps (error : Option ReplaceFault) :
    wp (replaceRule env 0) (raiseAgain error) (fun _ _ => True) (fun _ _ => True) d := by
  cases error with
  | none =>
    rw [raiseAgain, Prog.pure_eq, wp_pure]
    trivial
  | some e =>
    rw [raiseAgain, Prog.throw_eq, wp_fail]
    trivial

theorem dropTemporary_keeps {ended : Bool × Option ReplaceFault} (h : Settled env ended d) :
    wp (replaceRule env 0) (dropTemporary ended.1) (fun _ _ => True) (fun _ _ => True) d := by
  unfold dropTemporary
  split
  · rw [Prog.pure_eq, wp_pure]
    trivial
  next hnames =>
    rw [wp_seq, wp_toExcept]
    have hdone : ∀ d', wp (replaceRule env 0) (pure () : ReplaceProg Unit) (fun _ _ => True)
        (fun _ _ => True) d' := by
      intro d'
      rw [Prog.pure_eq, wp_pure]
      trivial
    have hgoes : TemporaryGoes env d := h (by simpa using hnames)
    exact wp_unlinkTemporary hgoes (fun _ d' _ => hdone d') fun d' _ => hdone d'

theorem atomicReplace_keeps (hd : TemporaryGoes env d) :
    wp (replaceRule env 0) (atomicReplace env) (fun _ _ => True) (fun _ _ => True) d := by
  unfold atomicReplace
  rw [wp_seq]
  refine wp_openDocument hd stable_temporaryGoes (fun _ _ _ => trivial) fun before d' hgoes => ?_
  rw [wp_seq]
  refine wp_readDescriptor hgoes stable_temporaryGoes (fun _ _ _ => trivial) fun d' hgoes => ?_
  rw [wp_seq]
  refine wp_require _ (fun _ => ?_) fun _ => trivial
  rw [wp_seq]
  refine wp_mono _ (replaceBody_settles hgoes) (fun body d' hbody => ?_) fun _ _ _ => trivial
  rw [wp_seq]
  refine wp_mono _ (rollBack_settles hbody) (fun ended d' hended => ?_) fun _ _ _ => trivial
  rw [wp_seq]
  exact wp_mono _ (dropTemporary_keeps hended) (fun _ _ _ => raiseAgain_keeps _)
    fun _ _ _ => trivial
end

variable (env : ReplaceEnv) (versions : Nat → DocumentFile)

def replacePool (d : ParentDirectory) : Pool Nat ParentDirectory ReplaceAccess ReplaceFault Unit :=
  ⟨fun i => match i with
    | 0 => some (atomicReplace env)
    | i + 1 => some (.set .external (ParentDirectory.place (versions i))), d⟩

variable (document temporary : Option Nat) (files : Nat → DocumentFile)

def quietDirectory (next : Nat) : ParentDirectory :=
  ⟨document.filter (· < next), temporary.filter (· < next), files, next, [], []⟩

theorem sound_quiet (next : Nat) : Sound env (quietDirectory document temporary files next) where
  kept := fun _ hv => absurd hv List.not_mem_nil
  placed_lt := fun _ hv => absurd hv List.not_mem_nil
  linked_lt v hv := by
    rcases hv with hv | hv
    · exact of_decide_eq_true (Option.filter_eq_some_iff.mp hv).2
    · exact of_decide_eq_true (Option.filter_eq_some_iff.mp hv).2

theorem replaceRule_compatible : Pool.Compatible (replaceRule env) (fun _ d => d) (Sound env) where
  inv_eq _ := rfl
  preorder i := by
    constructor
    · intro d
      by_cases hi : i = 0
      · simp only [replaceRule, hi, if_true]
        exact outside_refl d
      · simp only [replaceRule, hi, if_false]
    · intro a b c
      by_cases hi : i = 0
      · simp only [replaceRule, hi, if_true]
        exact outside_trans
      · simp only [replaceRule, hi, if_false]
        exact fun _ _ => trivial
  guar i j l d d' hij _ hguar := by
    by_cases hj : j = 0
    · have hi : i ≠ 0 := fun hi => hij (hi.trans hj.symm)
      simp only [replaceRule, hi, if_false] at hguar
      simp only [replaceRule, hj, if_true]
      exact hguar
    · simp only [replaceRule, hj, if_false]
  lost_inv _ _ h := h
  lost_rely i j d hij _ := by
    by_cases hj : j = 0
    · simp only [replaceRule, hj, if_true]
      exact outside_refl d
    · simp only [replaceRule, hj, if_false]

theorem replacePool_disciplined (next : Nat) : Pool.Disciplined (replaceRule env) (Sound env)
      (replacePool env versions (quietDirectory document temporary files next)) := by
  refine ⟨sound_quiet env document temporary files next, ?_⟩
  intro i p hp
  cases i with
  | zero =>
    obtain rfl := Option.some.inj hp
    apply atomicReplace_keeps
    intro t ht
    have hlt : t < next := of_decide_eq_true (Option.filter_eq_some_iff.mp ht).2
    exact ⟨hlt, Or.inl List.not_mem_nil⟩
  | succ i =>
    obtain rfl := Option.some.inj hp
    unfold wp
    intro d hsound _ _
    refine ⟨sound_place hsound (versions i), outside_place (versions i) d, ?_⟩
    rw [wp_pure]
    trivial

/-- In every run in which names are exchanged back only over the routine's own file or a
version with the expected content, every version that an external process put in place keeps
a name, has the expected content, or was replaced by a later external rename. -/
theorem external_versions_kept (env : ReplaceEnv) (versions : Nat → DocumentFile)
    (document temporary : Option Nat) (files : Nat → DocumentFile) (next : Nat)
    {c : Pool Nat ParentDirectory ReplaceAccess ReplaceFault Unit}
    (h : Pool.Reachable (fun i => (replaceRule env i).assume) (fun _ d => d)
      (replacePool env versions (quietDirectory document temporary files next)) c) :
    ∀ v ∈ c.world.placed, c.world.Linked v ∨
      env.sha256Hex (c.world.files v).content = env.expectedSha256 ∨ v ∈ c.world.replaced := by
  have hsound := (Pool.reachable_disciplined (replaceRule_compatible env)
    (replacePool_disciplined env versions document temporary files next) h).1
  intro v hv
  rcases hsound.kept v hv with hlinked | hplaced | hrest
  · exact Or.inl hlinked
  · exact absurd hv hplaced
  · exact Or.inr hrest

def sampleReplace : ReplaceEnv where
  sha256Hex := fun content => String.ofList (content.map fun b => Char.ofNat (b.toNat + 97))
  maxFileBytes := 64
  containsRestrictedContent := fun _ => false
  expectedSha256 := "b"
  data := [7]

def sampleVersions (i : Nat) : DocumentFile := ⟨.regular, [UInt8.ofNat (i + 2)]⟩

def sampleDirectory : ParentDirectory := quietDirectory (some 0) none (fun _ => ⟨.regular, [1]⟩) 1

abbrev ReplacePool := Pool Nat ParentDirectory ReplaceAccess ReplaceFault Unit

def allSucceed : List Nat := List.replicate 8 1

def oneRename (ok : Nat → ReplaceAccess → ParentDirectory → Bool) : ReplacePool :=
  ((replacePool sampleReplace sampleVersions sampleDirectory).advance ok 0 11 allSucceed).advance
    ok 1 1 []

def twoRenames : ReplacePool :=
  let anyOrder := fun _ _ _ => true
  (((oneRename anyOrder).advance anyOrder 0 6 allSucceed).advance anyOrder 2 1 []).advance
    anyOrder 0 4 allSucceed

/-- The second external version is exchanged to the temporary name and unlinked there. -/
theorem third_version_unlinked :
    ∃ c : ReplacePool, Pool.Reachable (fun _ _ _ => True) (fun _ d => d)
        (replacePool sampleReplace sampleVersions sampleDirectory) c ∧
      ∃ v ∈ c.world.placed, ¬c.world.Linked v ∧
        sampleReplace.sha256Hex (c.world.files v).content ≠ sampleReplace.expectedSha256 ∧
        v ∉ c.world.replaced := by
  have hadvance : ∀ (c : ReplacePool) (i n : Nat) (ins : List Nat),
      Pool.Reachable (fun _ _ _ => True) (fun _ d => d) c
        (c.advance (fun _ _ _ => true) i n ins) :=
    fun c i n ins => Pool.advance_reachable (fun _ _ _ _ => trivial) c i n ins
  refine ⟨twoRenames, ?_, 3, by decide +kernel⟩
  have hone := (hadvance (replacePool sampleReplace sampleVersions sampleDirectory) 0 11
    allSucceed).trans (hadvance _ 1 1 [])
  exact ((hone.trans (hadvance _ 0 6 allSucceed)).trans (hadvance _ 2 1 [])).trans
    (hadvance _ 0 4 allSucceed)

def backOverOwn (i : Nat) (l : ReplaceAccess) (d : ParentDirectory) : Bool :=
  i != 0 || l != .exchangeBack || d.document.all fun v => decide (v ∉ d.placed)

theorem backOverOwn_sound : ∀ i l d, backOverOwn i l d = true →
    (replaceRule sampleReplace i).assume l d := by
  intro i l d h
  by_cases hi : i = 0
  · simp only [replaceRule, hi, if_true]
    intro hl v hv
    subst hi hl
    simp only [backOverOwn, hv, Option.all_some, bne_self_eq_false, Bool.false_or,
      decide_eq_true_eq] at h
    exact Or.inl h
  · simp only [replaceRule, hi, if_false]

/-- A rename falls between the checks and the replacement. -/
theorem one_rename_kept :
    let c := (oneRename backOverOwn).advance backOverOwn 0 10 allSucceed
    c.world.placed = [2] ∧ ∀ v ∈ c.world.placed, c.world.Linked v ∨
      sampleReplace.sha256Hex (c.world.files v).content = sampleReplace.expectedSha256 ∨
        v ∈ c.world.replaced :=
  ⟨by decide +kernel, external_versions_kept sampleReplace sampleVersions (some 0) none
    (fun _ => ⟨.regular, [1]⟩) 1
    (((Pool.advance_reachable backOverOwn_sound _ 0 11 allSucceed).trans
      (Pool.advance_reachable backOverOwn_sound _ 1 1 [])).trans
      (Pool.advance_reachable backOverOwn_sound _ 0 10 allSucceed))⟩

end RaytSystem.Documents
