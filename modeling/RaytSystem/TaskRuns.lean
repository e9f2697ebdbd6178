import RaytSystem.TaskSafety

/-! All runs of the task ledger: every board that a sequence of commands can reach is
sound, whatever faults and crashes came between. -/
namespace RaytSystem.Tasking
open Interleaving ImmutableStore Check

inductive Reachable (env : TaskEnv) : TaskStore → Prop where
  | empty : Reachable env .empty
  | command {s s' : TaskStore} {o : Outcome TaskFault TaskCommandResult}
      (h : Reachable env s) (c : TaskCommand) (hx : Exec (c.prog env) s o s') : Reachable env s'

structure BoardSound (env : TaskEnv) (s : TaskStore) (g : TaskBoardGeneration) : Prop where
  closure : validateGenerationClosure env g s = .ok ()
  tasks : ∃ tasks, loadTasks env g s = .ok tasks ∧
    DependenciesExist tasks ∧ Acyclic tasks ∧ GatesHold tasks
  history : ∃ link older, link.generation = g ∧ (link :: older).length = g.eventCount ∧
    ∀ link' older', link' :: older' <:+ link :: older → LinkSound env s link' older'

variable {env : TaskEnv} {s : TaskStore}

theorem lineage_suffix {history : List ClosureLink} (h : Lineage env s history) {link : ClosureLink}
    {older : List ClosureLink} (hs : link :: older <:+ history) :
    Lineage env s (link :: older) := by
  induction h with
  | root hread hparent hroot =>
    rcases List.suffix_cons_iff.mp hs with he | hnil
    · rw [he]
      exact .root hread hparent hroot
    · simp at hnil
  | child holder hread hparent hchild ih =>
    rcases List.suffix_cons_iff.mp hs with he | hsuffix
    · rw [he]
      exact .child holder hread hparent hchild
    · exact ih hsuffix

variable {g : TaskBoardGeneration}

theorem loadTasks_ids {tasks : List AgentTask} (h : loadTasks env g s = .ok tasks) :
    tasks.map AgentTask.taskId = g.taskHashes.keys := by
  have hall := collect_ok.mp h
  unfold PyDict.keys
  clear h
  generalize g.taskHashes.entries = entries at hall
  induction hall with
  | nil => rfl
  | cons hread _ ih => rw [List.map_cons, List.map_cons, (readTask_spec hread).1, ih]

theorem closure_sound (hinv : g.invariants) (h : validateGenerationClosure env g s = .ok ()) :
    BoardSound env s g := by
  have hclosure := h
  simp only [validateGenerationClosure, bind_ok, ensure_ok] at h
  obtain ⟨tasks, hload, _, hgraph, _, _, steps, hwalk, hsteps⟩ := h
  have hunique : (tasks.map AgentTask.taskId).Nodup := by
    rw [loadTasks_ids hload]
    exact g.taskHashes.unique
  obtain ⟨link, older, hgen, hlineage, hcount⟩ := walkClosure_lineage hinv hwalk
  have hlength : (link :: older).length = g.eventCount := by
    rw [List.length_cons, ← hcount, hsteps]
  exact ⟨hclosure, ⟨tasks, hload, validateTaskGraph_sound hgraph hunique⟩, link, older, hgen,
    hlength, fun _ _ hsuffix => lineage_sound (lineage_suffix hlineage hsuffix)⟩

def Readable (env : TaskEnv) (s : TaskStore) : Prop :=
  ∃ generation, readCurrentGeneration env s = .ok generation

theorem readable_sound (h : readCurrentGeneration env s = .ok (some g)) : BoardSound env s g := by
  rcases readCurrent_ok.mp h with ⟨_, hnone⟩ | ⟨current, _, hcurrent, _, hread, hclosure⟩
  · cases hnone
  · obtain rfl := Option.some.inj hcurrent
    exact closure_sound (readGeneration_spec hread).2 hclosure

theorem before_readCurrent {s₀ s : TaskStore} (h : Before s₀ s)
    {generation : Option TaskBoardGeneration}
    (hread : readCurrentGeneration env s₀ = .ok generation) :
    readCurrentGeneration env s = .ok generation := by
  rcases readCurrent_ok.mp hread with ⟨hpointer, hnone⟩ | ⟨current, hpointer, hsome, hname, hr, hc⟩
  · exact readCurrent_ok.mpr (Or.inl ⟨h.pointer.trans hpointer, hnone⟩)
  · refine readCurrent_ok.mpr (Or.inr ⟨current, h.pointer.trans hpointer, hsome, hname, ?_, ?_⟩)
    · exact readGeneration_persists env _ _ _ _ h.grows hr
    · exact validateGenerationClosure_persists env _ _ _ _ h.grows hc

theorem committed_readCurrent {s₀ s : TaskStore} {next : TaskBoardGeneration}
    (h : Committed env s₀ s next) : readCurrentGeneration env s = .ok (some next) :=
  readCurrent_ok.mpr (Or.inr ⟨next, h.pointer, rfl, h.named, h.read, h.closure⟩)

theorem safePoint_readable {s₀ s : TaskStore} (hs : Readable env s₀) (h : SafePoint env s₀ s) :
    Readable env s := by
  obtain ⟨generation, hread⟩ := hs
  rcases h with hbefore | ⟨next, hnext⟩
  · exact ⟨generation, before_readCurrent hbefore hread⟩
  · exact ⟨some next, committed_readCurrent hnext⟩

theorem exec_safePoint {s s' : TaskStore} {c : TaskCommand}
    {o : Outcome TaskFault TaskCommandResult} (hx : Exec (c.prog env) s o s') :
    SafePoint env s s' := by
  have hmeets := exec_sound (command_spec c s) (Or.inl ⟨grows_refl s, rfl⟩) hx
  cases o with
  | returned result =>
    have hdone : Done env s result s' := hmeets
    unfold Done at hdone
    split at hdone
    · exact Or.inl hdone
    · exact Or.inr ⟨_, hdone.choose_spec.1⟩
  | raised e =>
    rcases hmeets with hbefore | ⟨_, hnext⟩
    · exact Or.inl hbefore
    · exact Or.inr hnext
  | crashed => exact hmeets

theorem reachable_readable (h : Reachable env s) : Readable env s := by
  induction h with
  | empty => exact ⟨none, readCurrent_ok.mpr (Or.inl ⟨rfl, rfl⟩)⟩
  | command _ c hx ih => exact safePoint_readable ih (exec_safePoint hx)

theorem collect_exists {f : String × Sha256 → TaskCheck AgentTask} {xs : List (String × Sha256)}
    (h : ∀ x ∈ xs, ∃ y, f x s = .ok y) : ∃ ys, collect f xs s = .ok ys := by
  induction xs with
  | nil => exact ⟨[], rfl⟩
  | cons x rest ih =>
    obtain ⟨y, hy⟩ := h x List.mem_cons_self
    obtain ⟨ys, hys⟩ := ih fun x' hx' => h x' (List.mem_cons_of_mem x hx')
    refine ⟨y :: ys, ?_⟩
    simp only [collect, bind_ok, pure_ok]
    exact ⟨y, hy, ys, hys, rfl⟩

theorem readable_snapshot (h : Readable env s) :
    ∃ generation board, readCurrentGeneration env s = .ok generation ∧
      snapshotOf env generation s = .ok board := by
  obtain ⟨generation, hread⟩ := h
  cases generation with
  | none => exact ⟨none, _, hread, rfl⟩
  | some g =>
    obtain ⟨tasks, hload, _⟩ := (readable_sound hread).tasks
    have hall := collect_ok.mp hload
    have hentries : ∀ kv ∈ sortedItems g.taskHashes, ∃ t, readTask env kv.1 kv.2 s = .ok t := by
      intro kv hkv
      rw [sortedItems, (List.perm_insertionSort _ _).mem_iff] at hkv
      obtain ⟨i, hi, rfl⟩ := List.mem_iff_getElem.mp hkv
      exact ⟨_, (List.forall₂_iff_get.mp hall).2 i hi (hall.length_eq ▸ hi)⟩
    obtain ⟨ys, hys⟩ := collect_exists hentries
    exact ⟨some g, _, hread, bind_ok.mpr ⟨ys, hys, rfl⟩⟩

theorem snapshotOf_persists (env : TaskEnv) (generation : Option TaskBoardGeneration) :
    Check.Persists Grows (snapshotOf env generation) := by
  cases generation with
  | none => exact persists_pure _
  | some g =>
    exact persists_bind (persists_collect (fun kv => readTask_persists env _ _) _)
      fun _ => persists_pure _

def SameBoard (env : TaskEnv) (s s' : TaskStore) : Prop :=
  s'.pointer = s.pointer ∧ ∃ board, snapshot env s = .ok board ∧ snapshot env s' = .ok board

theorem before_sameBoard {s s' : TaskStore} (hs : Readable env s) (h : Before s s') :
    SameBoard env s s' := by
  obtain ⟨generation, board, hread, hboard⟩ := readable_snapshot hs
  have hread' := before_readCurrent h hread
  have hboard' := snapshotOf_persists env generation _ _ _ h.grows hboard
  exact ⟨h.pointer, board, bind_ok.mpr ⟨generation, hread, hboard⟩,
    bind_ok.mpr ⟨generation, hread', hboard'⟩⟩

/-- Every reachable board is sound. A command that raises leaves the pointer and the board
alone, or was interrupted by an input/output fault after the pointer had been replaced by
the id of a sound child of the old board. -/
theorem task_ledger_safety (env : TaskEnv) {s : TaskStore} (h : Reachable env s) :
    (∃ generation, readCurrentGeneration env s = .ok generation ∧
      ∀ g, generation = some g → BoardSound env s g) ∧
    ∀ c e s', Exec (TaskCommand.prog env c) s (.raised e) s' → SameBoard env s s' ∨
      (LateFault e ∧ ∃ next, s'.pointer = some next.generationId ∧
        next.parentGenerationId = s.pointer ∧ BoardSound env s' next) := by
  have hreadable := reachable_readable h
  refine ⟨?_, ?_⟩
  · obtain ⟨generation, hread⟩ := hreadable
    exact ⟨generation, hread, fun g hg => readable_sound (hg ▸ hread)⟩
  · intro c e s' hx
    have hmeets := exec_sound (command_spec c s) (Or.inl ⟨grows_refl s, rfl⟩) hx
    rcases hmeets with hbefore | ⟨hlate, next, hnext⟩
    · exact Or.inl (before_sameBoard hreadable hbefore)
    · exact Or.inr ⟨hlate, next, hnext.pointer, hnext.parent,
        readable_sound (committed_readCurrent hnext)⟩

def zeroDigest : Sha256 := ⟨String.ofList (List.replicate 64 '0'), by decide +kernel⟩

def plainEnv : TaskEnv where
  nfc := id
  taskSha _ := zeroDigest
  eventDigest _ := zeroDigest
  generationDigest _ := zeroDigest
  generationSha _ := zeroDigest
  createDigest _ _ := zeroDigest
  transitionDigest _ _ := zeroDigest
  taskDigest _ := zeroDigest
  idempotencyDigest _ _ := zeroDigest
  taskBytes _ := 0
  generationBytes _ := 0
  scanCreate _ := .ok ⟨false,.internal⟩
  scanTransition _ := .ok ⟨false,.internal⟩
  scanTask _ := .ok ⟨false,.internal⟩
  recursionLimit := 1000

def firstTask : CreateTask :=
  ⟨"Title", "", .normal, "project_default", none, [], [], [], [], "operator", "key", none, .aware 0⟩

def lateRun : TaskProg TaskCommandResult × TaskStore :=
  (TaskCommand.prog plainEnv (.create firstTask)).play 60 (List.replicate 12 0 ++ [1,0]) .empty

theorem lateRun_ends : lateRun.1.error? = some pointerCommitFailed ∧ lateRun.2.pointer ≠ none := by
  decide +kernel

/-- The command raises, and the pointer has moved. -/
theorem late_fault_moves_pointer :
    ¬∀ (env : TaskEnv) (s : TaskStore) (c : TaskCommand) (e : TaskFault) (s' : TaskStore),
      Reachable env s → Exec (c.prog env) s (.raised e) s' → SameBoard env s s' := by
  intro hclaim
  have hsame := hclaim plainEnv .empty _ _ lateRun.2 .empty (exec_play lateRun_ends.1)
  exact lateRun_ends.2 hsame.1

/-- The board that the fault leaves behind is sound all the same. -/
theorem late_board_sound :
    (∃ generation, readCurrentGeneration plainEnv lateRun.2 = .ok generation ∧
      ∀ g, generation = some g → BoardSound plainEnv lateRun.2 g) ∧
    ∀ c e s', Exec (TaskCommand.prog plainEnv c) lateRun.2 (.raised e) s' →
      SameBoard plainEnv lateRun.2 s' ∨
        (LateFault e ∧ ∃ next, s'.pointer = some next.generationId ∧
          next.parentGenerationId = lateRun.2.pointer ∧ BoardSound plainEnv s' next) := by
  have hreached : Reachable plainEnv lateRun.2 :=
    .command .empty (.create firstTask) (exec_play lateRun_ends.1)
  exact task_ledger_safety plainEnv hreached

end RaytSystem.Tasking
