import RaytSystem.TaskLedger

/-! The safety of the task ledger over all runs of its commands, with faults and crashes
at every access. -/
namespace RaytSystem.Tasking
open Interleaving ImmutableStore Check TaskBoardGeneration

structure Before (s₀ s : TaskStore) : Prop where
  grows : Grows s₀ s
  pointer : s.pointer = s₀.pointer

structure Committed (env : TaskEnv) (s₀ s : TaskStore) (next : TaskBoardGeneration) : Prop where
  grows : Grows s₀ s
  pointer : s.pointer = some next.generationId
  read : readGeneration env next.generationId s = .ok next
  closure : validateGenerationClosure env next s = .ok ()
  named : PyText.startsWith next.generationId "tgen_" = true
  parent : next.parentGenerationId = s₀.pointer

variable (env : TaskEnv)

def SafePoint (s₀ s : TaskStore) : Prop :=
  Before s₀ s ∨ ∃ next, Committed env s₀ s next

def LateFault (e : TaskFault) : Prop := e = pointerCommitFailed ∨ e = .osError

def Fails (s₀ : TaskStore) (e : TaskFault) (s : TaskStore) : Prop :=
  Before s₀ s ∨ (LateFault e ∧ ∃ next, Committed env s₀ s next)

def Done (s₀ : TaskStore) (result : TaskCommandResult) (s : TaskStore) : Prop :=
  if result.noOp then Before s₀ s
  else ∃ next, Committed env s₀ s next ∧ result.generationId = next.generationId

theorem readCurrent_ok {env : TaskEnv} {s : TaskStore} {generation : Option TaskBoardGeneration} :
    readCurrentGeneration env s = .ok generation ↔
      (s.pointer = none ∧ generation = none) ∨
      ∃ current, s.pointer = some current.generationId ∧ generation = some current ∧
        PyText.startsWith current.generationId "tgen_" = true ∧
        readGeneration env current.generationId s = .ok current ∧
        validateGenerationClosure env current s = .ok () := by
  rw [readCurrentGeneration, bind_ok]
  constructor
  · rintro ⟨pointer, hread, h⟩
    have hpointer : s.pointer = pointer := Except.ok.inj hread
    cases pointer with
    | none => exact Or.inl ⟨hpointer, (pure_ok.mp h).symm⟩
    | some generationId =>
      simp only [bind_ok, ensure_ok, pure_ok] at h
      obtain ⟨_, hname, current, hread, _, hclosure, rfl⟩ := h
      obtain ⟨hid, _⟩ := readGeneration_spec hread
      rw [← hid] at hpointer hname hread
      exact Or.inr ⟨current, hpointer, rfl, hname, hread, hclosure⟩
  · rintro (⟨hpointer, rfl⟩ | ⟨current, hpointer, rfl, hname, hread, hclosure⟩)
    · exact ⟨none, congrArg Except.ok hpointer, rfl⟩
    · refine ⟨some current.generationId, congrArg Except.ok hpointer, ?_⟩
      simp only [bind_ok, ensure_ok, pure_ok]
      exact ⟨(), hname, current, hread, (), hclosure, rfl⟩

section
-- a goal about `wp` must not be computed further than its next access
attribute [local irreducible] wp
variable {env : TaskEnv} {s₀ s : TaskStore} {e : TaskFault}

theorem before_fails (h : Before s₀ s) : Fails env s₀ e s := Or.inl h

abbrev ledgerRule (env : TaskEnv) (s₀ : TaskStore) : Discipline TaskStore Unit :=
  sequential Unit (SafePoint env s₀)

variable {Q : Unit → TaskStore → Prop}

theorem mayFail_spec {X : TaskFault → TaskStore → Prop} (hX : X e s) (h : Q () s) :
    wp (ledgerRule env s₀) (mayFail e) Q X s := by
  rw [mayFail, wp_seq, wp_any]
  intro failed
  exact wp_require _ (fun _ => h) (fun _ => hX)

variable {α : Type}

theorem runCheck_spec {c : TaskCheck α} {Q : α → TaskStore → Prop} (hs : Before s₀ s)
    (h : ∀ a, c s = .ok a → Q a s) : wp (ledgerRule env s₀) (runCheck c) Q (Fails env s₀) s := by
  rw [runCheck, wp_seq]
  apply mayFail_spec (before_fails hs)
  refine wp_sequential_attempt (Or.inl hs) ?_ fun e _ => before_fails hs
  intro a s' ha
  split at ha
  next b hb =>
    obtain ⟨rfl, rfl⟩ := Prod.mk.inj (Except.ok.inj ha)
    exact ⟨Or.inl hs, h b hb⟩
  next => cases ha

theorem require_spec {b : Prop} [Decidable b] (hs : Before s₀ s) (h : b → Q () s) :
    wp (ledgerRule env s₀) (.require b e) Q (Fails env s₀) s :=
  wp_require _ h fun _ => before_fails hs

theorem ofOption_spec {x : Option α} {Q : α → TaskStore → Prop} (hs : Before s₀ s)
    (h : ∀ a, x = some a → Q a s) : wp (ledgerRule env s₀) (.ofOption x e) Q (Fails env s₀) s :=
  wp_ofOption _ h fun _ => before_fails hs

theorem ofExcept_spec {x : Except TaskFault α} {Q : α → TaskStore → Prop} (hs : Before s₀ s)
    (h : ∀ a, x = .ok a → Q a s) : wp (ledgerRule env s₀) (.ofExcept x) Q (Fails env s₀) s :=
  wp_ofExcept _ h fun _ _ => before_fails hs

theorem publishTask_spec {sha : Sha256} {task : AgentTask} (hs : Before s₀ s)
    (h : ∀ s', Before s₀ s' → Q () s') :
    wp (ledgerRule env s₀) (publishTask sha task) Q (Fails env s₀) s := by
  rw [publishTask, wp_seq]
  apply mayFail_spec (before_fails hs)
  refine wp_sequential_attempt (Or.inl hs) ?_ fun e _ => before_fails hs
  intro _ s' ha
  split at ha
  next objects hobjects =>
    obtain ⟨_, rfl⟩ := Prod.mk.inj (Except.ok.inj ha)
    have hgrows : Grows s {s with objects := objects} :=
      ⟨publish_extends hobjects, extends_refl _, extends_refl _⟩
    have hs' : Before s₀ {s with objects := objects} :=
      ⟨grows_trans hs.grows hgrows, hs.pointer⟩
    exact ⟨Or.inl hs', h _ hs'⟩
  next => cases ha

variable {event : TaskEvent}

theorem publishEvent_spec (hs : Before s₀ s) (h : ∀ s', Before s₀ s' → Q () s') :
    wp (ledgerRule env s₀) (publishEvent event) Q (Fails env s₀) s := by
  rw [publishEvent, wp_seq]
  apply mayFail_spec (before_fails hs)
  refine wp_sequential_attempt (Or.inl hs) ?_ fun e _ => before_fails hs
  intro _ s' ha
  split at ha
  next events hevents =>
    obtain ⟨_, rfl⟩ := Prod.mk.inj (Except.ok.inj ha)
    have hgrows : Grows s {s with events := events} :=
      ⟨extends_refl _, publish_extends hevents, extends_refl _⟩
    have hs' : Before s₀ {s with events := events} :=
      ⟨grows_trans hs.grows hgrows, hs.pointer⟩
    exact ⟨Or.inl hs', h _ hs'⟩
  next => cases ha

theorem publishGeneration_spec {generation : TaskBoardGeneration} (hs : Before s₀ s)
    (h : ∀ s', Before s₀ s' → s'.generations generation.generationId = some generation → Q () s') :
    wp (ledgerRule env s₀) (publishGeneration generation) Q (Fails env s₀) s := by
  rw [publishGeneration, wp_seq]
  apply mayFail_spec (before_fails hs)
  refine wp_sequential_attempt (Or.inl hs) ?_ fun e _ => before_fails hs
  intro _ s' ha
  split at ha
  next generations hgenerations =>
    obtain ⟨_, rfl⟩ := Prod.mk.inj (Except.ok.inj ha)
    have hgrows : Grows s {s with generations := generations} :=
      ⟨extends_refl _, extends_refl _, publish_extends hgenerations⟩
    have hs' : Before s₀ {s with generations := generations} :=
      ⟨grows_trans hs.grows hgrows, hs.pointer⟩
    exact ⟨Or.inl hs', h _ hs' (publish_get hgenerations)⟩
  next => cases ha

theorem replacePointer_spec {next : TaskBoardGeneration} (hs : Before s₀ s)
    (hnext : Committed env s₀ {s with pointer := some next.generationId} next)
    (h : Q () {s with pointer := some next.generationId}) :
    wp (ledgerRule env s₀) (replacePointer next.generationId) Q (Fails env s₀) s := by
  rw [replacePointer, wp_seq]
  apply mayFail_spec (before_fails hs)
  rw [wp_seq]
  have hsafe : SafePoint env s₀ {s with pointer := some next.generationId} := Or.inr ⟨next, hnext⟩
  apply wp_sequential_set hsafe
  exact mayFail_spec (Or.inr ⟨Or.inl rfl, next, hnext⟩) h

theorem sealed_reads {seed seed' : TaskBoardGeneration} (hseed : seed.validate = some seed')
    (hbytes : env.generationBytes {seed' with generationId := env.generationId seed'} ≤
      maxGenerationBytes)
    (hstored : s.generations (env.generationId seed') =
      some {seed' with generationId := env.generationId seed'}) :
    readGeneration env (env.generationId seed') s =
      .ok {seed' with generationId := env.generationId seed'} := by
  obtain ⟨rfl, _⟩ := validate_generation hseed
  have hid : PyText.isIdentifier (env.generationId seed') = true :=
    isIdentifier_derivedId _ rfl (by decide) (by decide) (by decide)
  have hvalid : validate
      {seed' with generationId := env.generationId seed'} =
        some {seed' with generationId := env.generationId seed'} := by
    unfold validate at hseed ⊢
    split at hseed
    next hv =>
      refine if_pos ⟨?_, hv.2⟩
      have hfields := hv.1
      unfold fieldsValid at hfields ⊢
      simp only [Bool.and_eq_true] at hfields ⊢
      simp only [hid, true_and]
      tauto
    next => cases hseed
  simp only [readGeneration, bind_ok, read_ok, ofOption_ok, ensure_ok,
    pure_ok]
  exact ⟨_, hstored, _, hvalid, (), ⟨hbytes, rfl⟩, (), rfl, rfl⟩

variable {generation : Option TaskBoardGeneration}

theorem commit_spec {r : CommitRequest} (hs : Before s₀ s) :
    wp (ledgerRule env s₀) (commit env generation r) (Done env s₀) (Fails env s₀) s := by
  rw [commit, wp_seq]
  apply publishTask_spec hs
  intro s hs
  rw [wp_seq]
  apply ofOption_spec hs
  intro eventSeed _
  rw [wp_seq]
  apply publishEvent_spec hs
  intro s hs
  rw [wp_seq]
  apply require_spec hs
  intro _
  rw [wp_seq]
  apply ofOption_spec hs
  intro seed hseed
  rw [wp_seq]
  apply require_spec hs
  intro hbytes
  rw [wp_seq]
  apply publishGeneration_spec hs
  intro s hs hstored
  rw [wp_seq]
  apply runCheck_spec hs
  intro _ hclosure
  rw [wp_seq]
  apply runCheck_spec hs
  intro current hcurrent
  rw [wp_seq]
  apply require_spec hs
  rintro rfl
  have hparent : seed.parentGenerationId = s₀.pointer := by
    obtain ⟨rfl, _⟩ := validate_generation hseed
    rw [← hs.pointer]
    rcases readCurrent_ok.mp hcurrent with ⟨hpointer, rfl⟩ | ⟨_, hpointer, rfl, _⟩
    · exact hpointer.symm
    · exact hpointer.symm
  have hgrows : Grows s {s with pointer := some (env.generationId seed)} :=
    ⟨extends_refl _, extends_refl _, extends_refl _⟩
  have hread := sealed_reads hseed hbytes hstored
  have hcommitted : Committed env s₀ {s with pointer := some (env.generationId seed)}
      {seed with generationId := env.generationId seed} :=
    ⟨grows_trans hs.grows hgrows, rfl, readGeneration_persists env _ _ _ _ hgrows hread,
      validateGenerationClosure_persists env _ _ _ _ hgrows hclosure,
      startsWith_derivedId "tgen" _, hparent⟩
  rw [wp_seq]
  apply replacePointer_spec hs hcommitted
  rw [Prog.pure_eq, wp_pure]
  exact ⟨_, hcommitted, rfl⟩

theorem resultForEvent_noOp {result : TaskCommandResult}
    (h : resultForEvent env generation event s = .ok result) : result.noOp = true := by
  simp only [resultForEvent, bind_ok, pure_ok] at h
  obtain ⟨_, _, _, _, _, _, _, _, rfl⟩ := h
  rfl

theorem replay_spec (hs : Before s₀ s) :
    wp (ledgerRule env s₀) (runCheck (resultForEvent env generation event)) (Done env s₀)
      (Fails env s₀) s := by
  apply runCheck_spec hs
  intro result hresult
  rw [Done, resultForEvent_noOp hresult]
  exact hs

theorem withWriterLock_spec {body : TaskProg TaskCommandResult} (hs : Before s₀ s)
    (h : wp (ledgerRule env s₀) body (Done env s₀) (Fails env s₀) s) :
    wp (ledgerRule env s₀) (withWriterLock body) (Done env s₀) (Fails env s₀) s := by
  rw [withWriterLock, wp_seq]
  apply mayFail_spec (before_fails hs)
  apply (wp_tryFinally _ _ _ _ _ _).mpr
  apply wp_mono _ h
  · intro result s' hdone
    apply mayFail_spec _ hdone
    unfold Done at hdone
    split at hdone
    · exact before_fails hdone
    · obtain ⟨next, hnext, _⟩ := hdone
      exact Or.inr ⟨Or.inr rfl, next, hnext⟩
  · intro e s' hfails
    apply mayFail_spec _ hfails
    rcases hfails with hbefore | ⟨_, hnext⟩
    · exact before_fails hbefore
    · exact Or.inr ⟨Or.inr rfl, hnext⟩

theorem createTask_spec (c : CreateTask) (hs : Before s₀ s) :
    wp (ledgerRule env s₀) (createTask env c) (Done env s₀) (Fails env s₀) s := by
  rw [createTask, wp_seq]
  apply ofExcept_spec hs
  intro now _
  rw [wp_seq]
  apply runCheck_spec hs
  intro sensitivity _
  rw [wp_seq]
  apply ofExcept_spec hs
  intro idempotencyKey _
  apply withWriterLock_spec hs
  rw [wp_seq]
  apply runCheck_spec hs
  intro generation _
  rw [wp_seq]
  apply runCheck_spec hs
  intro existing _
  cases existing with
  | some event => exact replay_spec hs
  | none =>
    rw [wp_seq]
    apply runCheck_spec hs
    intro _ _
    rw [wp_seq]
    apply runCheck_spec hs
    intro known _
    rw [wp_seq]
    apply require_spec hs
    intro _
    rw [wp_seq]
    apply require_spec hs
    intro _
    rw [wp_seq]
    apply ofOption_spec hs
    intro task _
    exact commit_spec hs

theorem transitionTask_spec (c : TransitionTask) (hs : Before s₀ s) :
    wp (ledgerRule env s₀) (transitionTask env c) (Done env s₀) (Fails env s₀) s := by
  rw [transitionTask, wp_seq]
  apply ofExcept_spec hs
  intro now _
  rw [wp_seq]
  apply ofExcept_spec hs
  intro idempotencyKey _
  rw [wp_seq]
  apply runCheck_spec hs
  intro _ _
  apply withWriterLock_spec hs
  rw [wp_seq]
  apply runCheck_spec hs
  intro generation _
  rw [wp_seq]
  apply runCheck_spec hs
  intro existing _
  cases existing with
  | some event => exact replay_spec hs
  | none =>
    rw [wp_seq]
    apply runCheck_spec hs
    intro _ _
    rw [wp_seq]
    apply runCheck_spec hs
    intro tasks _
    rw [wp_seq]
    apply ofOption_spec hs
    intro current _
    rw [wp_seq]
    apply require_spec hs
    intro _
    rw [wp_seq]
    apply require_spec hs
    intro _
    rw [wp_seq]
    apply require_spec hs
    intro _
    rw [wp_seq]
    apply require_spec hs
    intro _
    rw [wp_seq]
    apply ofOption_spec hs
    intro task _
    exact commit_spec hs

theorem command_spec (c : TaskCommand) (s : TaskStore) :
    wp (ledgerRule env s) (c.prog env) (Done env s) (Fails env s) s := by
  have hs : Before s s := ⟨grows_refl s, rfl⟩
  cases c with
  | create c => exact createTask_spec c hs
  | transition c => exact transitionTask_spec c hs
end

end RaytSystem.Tasking
