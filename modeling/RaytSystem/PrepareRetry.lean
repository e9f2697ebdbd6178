import RaytSystem.PrepareRuns

/-! Retries of `prepare`: which directories a later call accepts, and runs in which every call
succeeds. -/
namespace RaytSystem.Preparation
open Interleaving ImmutableStore
variable {κ : Type} {rules : PrepareRules} {sources : Sources} {call : PrepareCall} {plan : Plan}
  {me : κ}

section
variable {w : PrepareWorld κ}

theorem alone_returns {α : Type} {p : PrepareProg κ α} {Q : α → PrepareWorld κ → Prop}
    {w' : PrepareWorld κ} {o : Outcome String α} (h : Prepares call plan me True p Q w)
    (hw : Sound plan w) (hx : Exec p w o w') (ho : o ≠ .crashed) :
    ∃ a, o = .returned a ∧ Q a w' := by
  induction hx with
  | pure a w => exact ⟨a, rfl, h⟩
  | fail e w => exact h.elim
  | crash p w => exact absurd rfl ho
  | act _ ih =>
    obtain ⟨hw', -, hk⟩ := h _ hw (undisturbed_refl _) (Or.inl trivial)
    exact ih hk hw' ho
  | choose b _ ih => exact ih (h b) hw ho

variable {C : PrepareWorld κ → Prop}

theorem reads_documents {t : Tree} {items : List (String × Bytes)} (hC : C w)
    (ht : w.trees plan.id = some t) :
    wp (sequential PrepareAccess C) (readDocuments plan.id items)
      (fun documents w' => w' = w ∧ (documents = items.map Prod.snd →
        ∀ item ∈ items, documentAt (some t) item.1 = some item.2 ∧
          contextPath item.1 ∉ t.spare))
      (fun _ _ => True) w := by
  induction items with
  | nil => exact ⟨rfl, by simp⟩
  | cons item rest ih =>
    refine (wp_bind _ _ _ _ _ _).mpr (wp_sequential_get hC ?_)
    rw [ht]
    refine (wp_bind _ _ _ _ _ _).mpr (wp_ofOption _ ?_ fun _ => trivial)
    intro data hdata
    refine (wp_bind _ _ _ _ _ _).mpr (wp_mono _ ih ?_ fun _ _ h => h)
    rintro documents w' ⟨rfl, hfound⟩
    refine ⟨rfl, ?_⟩
    intro heq
    obtain ⟨hhead, htail⟩ := List.cons.inj heq
    intro i hi
    rcases List.mem_cons.mp hi with rfl | hi
    · obtain ⟨hdocument, hsingle⟩ := readBounded_some hdata
      exact ⟨hdocument.trans (congrArg some hhead), hsingle⟩
    · exact hfound htail i hi

theorem validated_filled (hC : C w) : wp (sequential PrepareAccess C) (validateExisting call plan)
      (fun _ _ => Filled call plan w) (fun _ _ => True) w := by
  refine (wp_bind _ _ _ _ _ _).mpr (wp_sequential_get hC ?_)
  refine (wp_bind _ _ _ _ _ _).mpr (wp_require _ (fun hdirectories => ?_) fun _ => trivial)
  cases ht : w.trees plan.id with
  | none =>
    rw [ht] at hdirectories
    cases hdirectories
  | some t =>
    refine (wp_bind _ _ _ _ _ _).mpr (wp_mono _ (reads_documents hC ht) ?_ fun _ _ h => h)
    rintro documents w' ⟨rfl, hfound⟩
    refine (wp_bind _ _ _ _ _ _).mpr (wp_sequential_get hC ?_)
    rw [ht]
    refine (wp_bind _ _ _ _ _ _).mpr (wp_ofOption _ ?_ fun _ => trivial)
    intro manifest hmanifest
    refine (wp_bind _ _ _ _ _ _).mpr (wp_require _ (fun hsame => ?_) fun _ => trivial)
    refine (wp_bind _ _ _ _ _ _).mpr (wp_sequential_get hC ?_)
    refine wp_require _ (fun hrepo => ?_) fun _ => trivial
    rw [ht] at hdirectories hrepo
    obtain ⟨hpublished, hsingle⟩ := readBounded_some hmanifest
    simp only [hasDirectories, Bool.and_eq_true, Option.isSome_iff_exists] at hdirectories
    obtain ⟨⟨⟨-, files, hfiles⟩, hartifacts⟩, hlogs⟩ := hdirectories
    refine ⟨t, ht, hrepo, hartifacts, hlogs, ?_, hsingle, files, hfiles, ?_⟩
    · rw [← hsame.2]
      exact hpublished
    · intro item hitem
      have hdocument := hfound hsame.1 item hitem
      rwa [documentAt, Option.bind_some, hfiles, Option.bind_some] at hdocument

def Retryable (rules : PrepareRules) (sources : Sources) (call : PrepareCall) (plan : Plan)
    (me : κ) (w : PrepareWorld κ) : Prop :=
  ∀ o w', Exec (prepare rules sources call me) w o w' → o ≠ .crashed →
    ∃ noOp, o = .returned (plan.prepared, noOp) ∧ Filled call plan w'

theorem found_filled (hplan : makePlan rules sources call = .ok plan) {t : Tree}
    (ht : w.trees plan.id = some t) :
    wp (sequential PrepareAccess fun _ => True) (prepare rules sources call me)
      (fun _ _ => Filled call plan w) (fun _ _ => True) w := by
  refine (wp_bind _ _ _ _ _ _).mpr ?_
  rw [hplan]
  refine (wp_bind _ _ _ _ _ _).mpr ?_
  rw [stable_plan hplan]
  refine (wp_bind _ _ _ _ _ _).mpr ((wp_bind _ _ _ _ _ _).mpr (wp_sequential_get trivial ?_))
  rw [ht]
  refine (wp_bind _ _ _ _ _ _).mpr (wp_mono _ (validated_filled trivial) ?_ fun _ _ h => h)
  intro _ w' hfilled
  exact hfilled

theorem retryable_iff (hplan : makePlan rules sources call = .ok plan) (hw : Sound plan w) :
    Retryable rules sources call plan me w ↔ Settled call plan w := by
  constructor
  · intro hretry
    cases ht : w.trees plan.id with
    | none => exact Or.inl ht
    | some t =>
      obtain ⟨o, w', ho, hx⟩ := exec_terminates (prepare rules sources call me) w
      obtain ⟨noOp, rfl, -⟩ := hretry o w' hx ho
      exact Or.inr (exec_sound (found_filled hplan ht) trivial hx)
  · intro hsettled o w' hx ho
    obtain ⟨r, rfl, hr, hfilled⟩ := alone_returns
      (prepares_prepare hplan fun _ => hsettled) hw hx ho
    exact ⟨r.2, by rw [← hr], hfilled⟩
end

theorem prepares_compatible : Pool.Compatible
    (fun me : κ => prepareRule call plan me False) (fun _ w => w) (Sound plan) where
  inv_eq _ := rfl
  preorder _ := ⟨undisturbed_refl, undisturbed_trans⟩
  guar _ _ _ _ _ hne hw hg := undisturbed_writes hne hw hg
  lost_inv _ _ h := h
  lost_rely _ _ w _ _ := undisturbed_refl w

section
variable [DecidableEq κ]

def preparePool (rules : PrepareRules) (sources : Sources) (call : PrepareCall)
    (w : PrepareWorld κ) :
    Pool κ (PrepareWorld κ) PrepareAccess String (WorkspacePreparation × Bool) where
  thread me := some (prepare rules sources call me)
  world := w

theorem reachable_rule
    {c c' : Pool κ (PrepareWorld κ) PrepareAccess String (WorkspacePreparation × Bool)}
    (h : Pool.Reachable (fun _ => Meets call plan) (fun _ w => w) c c') :
    Pool.Reachable (fun me => (prepareRule call plan me False).assume) (fun _ w => w) c c' := by
  induction h with
  | refl => exact .refl
  | tail _ hs ih =>
    refine ih.tail ?_
    cases hs with
    | act h ha => exact .act h (Or.inr ha)
    | choose h b => exact .choose h b
    | crash i => exact .crash i

structure Retried (rules : PrepareRules) (sources : Sources) (call : PrepareCall) (plan : Plan)
    (c : Pool κ (PrepareWorld κ) PrepareAccess String (WorkspacePreparation × Bool)) : Prop where
  returned : ∀ me r, c.thread me = some (.pure r) →
    r.1 = plan.prepared ∧ Filled call plan c.world
  raised : ∀ me e, c.thread me ≠ some (.fail e)
  later : ∀ me, Retryable rules sources call plan me c.world ↔ Settled call plan c.world

/-- Where calls look for the directory while it is not there or complete, and make it while it
is not there, every call succeeds. -/
theorem preparation_retried (hplan : makePlan rules sources call = .ok plan)
    {w : PrepareWorld κ} (htree : w.trees plan.id = none) (hmaker : w.makers plan.id = none)
    {c : Pool κ (PrepareWorld κ) PrepareAccess String (WorkspacePreparation × Bool)}
    (h : Pool.Reachable (fun _ => Meets call plan) (fun _ w => w)
      (preparePool rules sources call w) c) : Retried rules sources call plan c := by
  have hsound : Sound plan w := ⟨fun _ => hmaker, fun _ => htree⟩
  have hstart : Pool.Promised (fun me : κ => prepareRule call plan me False) (Sound plan)
      (fun _ r w' => r.1 = plan.prepared ∧ Filled call plan w') (fun _ _ _ => False)
      (preparePool rules sources call w) := by
    refine ⟨hsound, ?_⟩
    rintro me p hp
    obtain rfl := Option.some.inj hp
    exact prepares_prepare hplan False.elim
  have hsteady : Pool.Steady (fun me : κ => prepareRule call plan me False)
      (fun _ (r : WorkspacePreparation × Bool) w' => r.1 = plan.prepared ∧ Filled call plan w')
      (fun _ (_ : String) _ => False) :=
    ⟨fun _ _ _ _ hr hQ => ⟨hQ.1, filled_same hQ.2 (hr.filled hQ.2)⟩, fun _ _ _ _ _ hX => hX⟩
  obtain ⟨hworld, hthreads⟩ :=
    Pool.reachable_promised prepares_compatible hsteady hstart (reachable_rule h)
  exact ⟨fun me r hr => hthreads me _ hr, fun me e he => hthreads me _ he,
    fun me => retryable_iff hplan hworld⟩
end

def sampleRules : PrepareRules where
  fitGraph _ payload := .ok payload.graph
  contextDocuments payload := ⟨[1], [2], [3], [4], [5], [6], [payload.task.revision.toUInt8]⟩
  contextSha256 _ := "sha of context"
  graphScopeId payload := "gscope_" ++ payload.task.taskId
  deriveWorkspace identity := "workspace_" ++ identity.payload.task.taskId
  manifestBytes _ _ := [7]
  sha256Hex _ := "sha of manifest"

def sampleTask : AgentTask := ⟨"task_demo", 1, 1000, "a task"⟩

def sampleSources : Sources where
  features := ⟨true, false, false⟩
  maxContextBytes := 100
  board := ⟨some "tgen_demo", some "sha of board", [sampleTask]⟩
  catalog := ⟨"sha of catalog", [⟨"employee_demo", "agent_demo", "rev_demo", "worktree", ""⟩],
    [("agent_demo", "an agent")]⟩
  gitMetadata := true
  gitHead := some "head"
  graph _ _ := .ok ⟨"graph_disabled", "sha of nothing", none, "disabled", none⟩

def sampleCall : PrepareCall := ⟨"task_demo", "agent_demo", none, false, none⟩

def sampleWorld : PrepareWorld (Fin 2) := ⟨false, fun _ => none, fun _ => none⟩

def planOf (call : PrepareCall) : Option Plan := (makePlan sampleRules sampleSources call).toOption

theorem sample_planned : ∃ plan, makePlan sampleRules sampleSources sampleCall = .ok plan := by
  have hplan : (planOf sampleCall).isSome = true := by decide +kernel
  unfold planOf at hplan
  cases h : makePlan sampleRules sampleSources sampleCall with
  | ok plan => exact ⟨plan, rfl⟩
  | error e =>
    rw [h] at hplan
    cases hplan

/-- Two callers prepare one workspace. -/
theorem sample_retried : ∃ plan, makePlan sampleRules sampleSources sampleCall = .ok plan ∧
    ∀ c, Pool.Reachable (fun _ => Meets sampleCall plan) (fun _ w => w)
      (preparePool sampleRules sampleSources sampleCall sampleWorld) c →
        Retried sampleRules sampleSources sampleCall plan c := by
  obtain ⟨plan, hplan⟩ := sample_planned
  exact ⟨plan, hplan, fun c h => preparation_retried hplan rfl rfl h⟩

def lostWorld : PrepareWorld (Fin 2) :=
  ((prepare sampleRules sampleSources sampleCall (0 : Fin 2)).play 4 [] sampleWorld).2

/-- A call is lost when it has made the directory. -/
theorem lost_directory :
    Exec (prepare sampleRules sampleSources sampleCall (0 : Fin 2)) sampleWorld .crashed lostWorld ∧
      ∃ w, Exec (prepare sampleRules sampleSources sampleCall (1 : Fin 2)) lostWorld
        (.raised "Existing workspace is missing or unsafe") w := by
  have hraised : ((prepare sampleRules sampleSources sampleCall (1 : Fin 2)).play 10 []
      lostWorld).1.error? = some "Existing workspace is missing or unsafe" := by decide +kernel
  exact ⟨exec_play_crashed 4 [] _ _, _, exec_play hraised⟩

end RaytSystem.Preparation
