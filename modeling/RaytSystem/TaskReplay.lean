import RaytSystem.TaskRuns

/-! The board as the replay of its events. A generation that the closure validation
accepts is what its event list gives from the empty board, one task revision an event. -/
namespace RaytSystem.Tasking
open ImmutableStore Check List

structure TaskRevision where
  event : TaskEvent
  task : AgentTask

abbrev TaskBoard := String → Option AgentTask

def TaskBoard.apply (board : TaskBoard) (r : TaskRevision) : TaskBoard :=
  Function.update board r.event.taskId (some r.task)

def foldTasks (revisions : List TaskRevision) : TaskBoard :=
  revisions.foldl TaskBoard.apply fun _ => none

theorem foldTasks_snoc (revisions : List TaskRevision) (r : TaskRevision) :
    foldTasks (revisions ++ [r]) = (foldTasks revisions).apply r := by
  rw [foldTasks, foldl_append]
  rfl

inductive Follows (env : TaskEnv) (board : TaskBoard) (r : TaskRevision) : Prop where
  | created (hnew : board r.event.taskId = none) (hkind : r.event.eventKind = .created)
      (htask : r.task.taskId = r.event.taskId) (hstatus : r.task.status = .inbox)
      (hrevision : r.task.revision = 1) (hcreator : r.task.createdBy = r.event.actor)
      (hcreated : r.task.createdAt = r.event.createdAt)
      (hupdated : r.task.updatedAt = r.event.createdAt)
      (hartifacts : r.task.artifactIds = []) (hextensions : r.task.extensions = [])
      (hdependencies : ∀ d ∈ r.task.dependencyIds, (board d).isSome)
      (hid : r.task.taskId = env.taskId r.event.operationKey)
      (hoperation : r.event.operationKey =
        env.createOperation r.event.idempotencyKey (createPayloadOf r.event r.task))
  | transitioned {previous : AgentTask} (hold : board r.event.taskId = some previous)
      (hkind : r.event.eventKind ≠ .created) (hfrom : r.event.fromStatus = some previous.status)
      (hto : r.event.toStatus = r.task.status)
      (hstatus : r.task.status ∈ previous.status.transitions)
      (hrevision : r.task.revision = previous.revision + 1)
      (hupdated : r.task.updatedAt = r.event.createdAt)
      (hmonotone : previous.updatedAt ≤ r.task.updatedAt)
      (himmutable : sameImmutableFields previous r.task)
      (hgates : r.task.status.gated = true →
        ∀ d ∈ r.task.dependencyIds, ∃ t, board d = some t ∧ t.status = .done)
      (hoperation : r.event.operationKey =
        env.transitionOperation r.event.idempotencyKey (transitionPayloadOf r.event r.task))

def Replayed (env : TaskEnv) (revisions : List TaskRevision) : Prop :=
  ∀ before r after, revisions = before ++ r :: after → Follows env (foldTasks before) r

theorem replayed_nil (env : TaskEnv) : Replayed env [] := by
  intro before r after h
  simp at h

variable {revisions : List TaskRevision}

theorem replayed_snoc {env : TaskEnv} {r : TaskRevision} (h : Replayed env revisions)
    (hr : Follows env (foldTasks revisions) r) : Replayed env (revisions ++ [r]) := by
  intro before r' after hsplit
  rcases eq_nil_or_concat after with rfl | ⟨rest, last, rfl⟩
  · obtain ⟨rfl, hlast⟩ := append_inj' hsplit rfl
    obtain rfl : r = r' := by simpa using hlast
    exact hr
  · have hsplit' : revisions ++ [r] = (before ++ r' :: rest) ++ [last] := by
      simpa using hsplit
    obtain ⟨hrevisions, -⟩ := append_inj' hsplit' rfl
    exact h before r' rest hrevisions

theorem replayed_of_snoc {env : TaskEnv} {r : TaskRevision} (h : Replayed env (revisions ++ [r])) :
    Replayed env revisions ∧ Follows env (foldTasks revisions) r := by
  constructor
  · intro before r' after hsplit
    apply h before r' (after ++ [r])
    rw [hsplit, append_assoc, cons_append]
  · exact h revisions r [] rfl

section

def ownRevisions (revisions : List TaskRevision) (taskId : String) : List TaskRevision :=
  revisions.filter fun r => r.event.taskId = taskId

structure TaskLife (env : TaskEnv) (own : List TaskRevision) (task : AgentTask) : Prop where
  creation : ∃ first later, own = first :: later ∧ first.event.eventKind = .created ∧
    (∀ r ∈ later, r.event.eventKind ≠ .created) ∧ first.task.status = .inbox ∧
    task.revision = 1 + later.length ∧ (∀ r ∈ own, sameImmutableFields first.task r.task) ∧
    first.task.createdBy = first.event.actor ∧ first.task.createdAt = first.event.createdAt ∧
    first.event.operationKey =
      env.createOperation first.event.idempotencyKey (createPayloadOf first.event first.task)
  statuses : own.IsChain fun r next => next.task.status ∈ r.task.status.transitions
  last : own.getLast?.map TaskRevision.task = some task

theorem sameImmutableFields_refl (task : AgentTask) : sameImmutableFields task task := rfl

theorem sameImmutableFields_trans {a b c : AgentTask} (hab : sameImmutableFields a b)
    (hbc : sameImmutableFields b c) : sameImmutableFields a c := by
  unfold sameImmutableFields at *
  rw [← hbc, ← hab]

variable {env : TaskEnv}

theorem ownRevisions_snoc (revisions : List TaskRevision) (r : TaskRevision) (taskId : String) :
    ownRevisions (revisions ++ [r]) taskId =
      if r.event.taskId = taskId then ownRevisions revisions taskId ++ [r]
      else ownRevisions revisions taskId := by
  rw [ownRevisions, filter_append]
  split
  next h => rw [filter_singleton, decide_eq_true h]; rfl
  next h => rw [filter_singleton, decide_eq_false h]; exact append_nil _

variable {revisions : List TaskRevision}

theorem own_nil_of_none {taskId : String} (h : foldTasks revisions taskId = none) :
    ownRevisions revisions taskId = [] := by
  induction revisions using reverseRecOn with
  | nil => rfl
  | append_singleton revisions r ih =>
    rw [foldTasks_snoc, TaskBoard.apply, Function.update_apply] at h
    split at h
    · cases h
    next hne => rw [ownRevisions_snoc, if_neg fun he => hne he.symm, ih h]

variable {r : TaskRevision}

theorem life_created (hkind : r.event.eventKind = .created) (hstatus : r.task.status = .inbox)
    (hrevision : r.task.revision = 1) (hcreator : r.task.createdBy = r.event.actor)
    (hcreated : r.task.createdAt = r.event.createdAt) (hoperation : r.event.operationKey =
      env.createOperation r.event.idempotencyKey (createPayloadOf r.event r.task)) :
    TaskLife env [r] r.task := by
  refine ⟨⟨r, [], rfl, hkind, ?_, hstatus, hrevision, ?_, hcreator, hcreated, hoperation⟩,
    isChain_singleton r, rfl⟩
  · intro r' hr'
    cases hr'
  · intro r' hr'
    rw [mem_singleton.mp hr']
    exact sameImmutableFields_refl r.task

theorem life_transitioned {own : List TaskRevision} {previous : AgentTask}
    (h : TaskLife env own previous) (hkind : r.event.eventKind ≠ .created)
    (hstatus : r.task.status ∈ previous.status.transitions)
    (hrevision : r.task.revision = previous.revision + 1)
    (himmutable : sameImmutableFields previous r.task) : TaskLife env (own ++ [r]) r.task := by
  obtain ⟨⟨first, later, rfl, hfirst, hlater, hinbox, hcount, hsame, hrest⟩, hchain, hlast⟩ := h
  have hprevious : ∀ p ∈ (first :: later).getLast?, p.task = previous := by
    intro p hp
    rw [Option.mem_def.mp hp] at hlast
    exact Option.some.inj hlast
  refine ⟨⟨first, later ++ [r], rfl, hfirst, ?_, hinbox, ?_, ?_, hrest⟩, ?_, ?_⟩
  · intro r' hr'
    rcases mem_append.mp hr' with hr' | hr'
    · exact hlater r' hr'
    · rw [mem_singleton.mp hr']
      exact hkind
  · rw [hrevision, hcount, length_append, length_singleton]
    omega
  · intro r' hr'
    rcases mem_append.mp hr' with hr' | hr'
    · exact hsame r' hr'
    · obtain ⟨p, hp⟩ : ∃ p, (first :: later).getLast? = some p :=
        ⟨_, getLast?_eq_getLast_of_ne_nil (cons_ne_nil first later)⟩
      have hmem : p ∈ first :: later := mem_of_getLast? hp
      rw [mem_singleton.mp hr']
      exact sameImmutableFields_trans (hprevious p hp ▸ hsame p hmem) himmutable
  · rw [isChain_append]
    refine ⟨hchain, isChain_singleton r, ?_⟩
    intro p hp next hnext
    obtain rfl : r = next := by simpa using hnext
    rw [hprevious p hp]
    exact hstatus
  · rw [getLast?_append]
    rfl

theorem replayed_life (h : Replayed env revisions) {taskId : String} {task : AgentTask}
    (ht : foldTasks revisions taskId = some task) :
    TaskLife env (ownRevisions revisions taskId) task := by
  induction revisions using reverseRecOn generalizing task with
  | nil => cases ht
  | append_singleton revisions r ih =>
    obtain ⟨hold, hfollows⟩ := replayed_of_snoc h
    rw [foldTasks_snoc, TaskBoard.apply, Function.update_apply] at ht
    rw [ownRevisions_snoc]
    split at ht
    next he =>
      subst he
      obtain rfl := Option.some.inj ht
      rw [if_pos rfl]
      cases hfollows with
      | created hnew hkind _ hstatus hrevision hcreator hcreated _ _ _ _ _ hoperation =>
        rw [own_nil_of_none hnew]
        exact life_created hkind hstatus hrevision hcreator hcreated hoperation
      | transitioned hprevious hkind _ _ hstatus hrevision _ _ himmutable =>
        exact life_transitioned (ih hold hprevious) hkind hstatus hrevision himmutable
    next hne =>
      rw [if_neg fun he => hne he.symm]
      exact ih hold ht

theorem replayed_gates {revisions before after : List TaskRevision} (h : Replayed env revisions)
    (hsplit : revisions = before ++ r :: after)
    (hstatus : r.task.status = .ready ∨ r.task.status = .running) :
    ∀ d ∈ r.task.dependencyIds, ∃ t, foldTasks before d = some t ∧ t.status = .done := by
  have hgated : r.task.status.gated = true := by
    rcases hstatus with hs | hs <;> simp [TaskStatus.gated, hs]
  cases h before r after hsplit with
  | created _ _ _ hinbox =>
    rw [hinbox] at hgated
    cases hgated
  | transitioned _ _ _ _ _ _ _ _ _ hgates => exact hgates hgated
end

section
variable {env : TaskEnv} {s : TaskStore}

def Denotes (env : TaskEnv) (s : TaskStore) (g : TaskBoardGeneration) (board : TaskBoard) : Prop :=
  ∀ taskId, (g.taskHashes.get taskId = none ∧ board taskId = none) ∨
    ∃ sha task, g.taskHashes.get taskId = some sha ∧ readTask env taskId sha s = .ok task ∧
      board taskId = some task

variable {g : TaskBoardGeneration} {board : TaskBoard} {taskId : String}

theorem denotes_get (h : Denotes env s g board) {sha : Sha256} {task : AgentTask}
    (hsha : g.taskHashes.get taskId = some sha) (hread : readTask env taskId sha s = .ok task) :
    board taskId = some task := by
  rcases h taskId with ⟨hnone, _⟩ | ⟨sha', task', hsha', hread', hboard⟩
  · rw [hsha] at hnone
    cases hnone
  · obtain rfl := Option.some.inj (hsha.symm.trans hsha')
    obtain rfl := Except.ok.inj (hread.symm.trans hread')
    exact hboard

theorem denotes_none (h : Denotes env s g board) (hnone : taskId ∉ g.taskHashes.keys) :
    board taskId = none := by
  rcases h taskId with ⟨_, hboard⟩ | ⟨sha, _, hsha, _, _⟩
  · exact hboard
  · rw [get_none_iff.mpr hnone] at hsha
    cases hsha

theorem denotes_some (h : Denotes env s g board) (hkey : taskId ∈ g.taskHashes.keys) :
    (board taskId).isSome := by
  rcases h taskId with ⟨hnone, _⟩ | ⟨_, task, _, _, hboard⟩
  · exact absurd hkey (get_none_iff.mp hnone)
  · rw [hboard]
    rfl

theorem denotes_apply {g parent : TaskBoardGeneration} {r : TaskRevision}
    (h : Denotes env s parent board) (hother : ∀ taskId, taskId ≠ r.event.taskId →
      g.taskHashes.get taskId = parent.taskHashes.get taskId)
    (hsha : g.taskHashes.get r.event.taskId = some r.event.taskSha256)
    (hread : readTask env r.event.taskId r.event.taskSha256 s = .ok r.task) :
    Denotes env s g (board.apply r) := by
  intro taskId
  unfold TaskBoard.apply
  by_cases he : taskId = r.event.taskId
  · subst he
    rw [Function.update_self]
    exact Or.inr ⟨_, _, hsha, hread, rfl⟩
  · rw [Function.update_of_ne he, hother taskId he]
    exact h taskId

def ClosureLink.revision (link : ClosureLink) : TaskRevision := ⟨link.head, link.task⟩

theorem validateCreatedEvent_spec {event : TaskEvent} {task : AgentTask}
    {parent : Option TaskBoardGeneration} {u : Unit}
    (h : validateCreatedEvent env event task parent s = .ok u)
    (hparent : ∀ p ∈ parent, Denotes env s p board) (hnew : board event.taskId = none)
    (hkind : event.eventKind = .created) (htask : task.taskId = event.taskId)
    (hrevision : task.revision = 1) : Follows env board ⟨event, task⟩ := by
  simp only [validateCreatedEvent, bind_ok, ensure_ok] at h
  obtain ⟨_, _, _, _, hoperation, hid, hstatus, hcreator, hcreated, hupdated, _, hartifacts,
    hextensions, hdeps⟩ := h
  refine .created hnew hkind htask hstatus hrevision hcreator hcreated hupdated hartifacts
    hextensions ?_ hid hoperation
  intro d hd
  obtain ⟨p, hp, hkey⟩ := hdeps d hd
  exact denotes_some (hparent p hp) hkey

theorem validateTransitionEvent_spec {event : TaskEvent} {previous task : AgentTask} {u : Unit}
    (h : validateTransitionEvent env event previous task g s = .ok u) :
    task.status ∈ previous.status.transitions ∧ sameImmutableFields previous task ∧
      event.operationKey = env.transitionOperation event.idempotencyKey
        (transitionPayloadOf event task) ∧
      (task.status.gated = true → ∀ d ∈ task.dependencyIds, ∃ sha t,
        g.taskHashes.get d = some sha ∧ readTask env d sha s = .ok t ∧ t.status = .done) := by
  simp only [validateTransitionEvent, bind_ok, ensure_ok] at h
  obtain ⟨_, _, _, _, _, ⟨hstatus, hoperation, hsame⟩, hgates⟩ := h
  refine ⟨hstatus, hsame, hoperation, ?_⟩
  intro hgated d hd
  rw [if_pos hgated, each_ok] at hgates
  have hcheck := hgates d hd
  simp only [checkDependencyDone, bind_ok, ofOption_ok, ensure_ok] at hcheck
  obtain ⟨sha, hsha, t, hread, hdone⟩ := hcheck
  exact ⟨sha, t, hsha, hread, hdone⟩

variable {link : ClosureLink} {parent : TaskBoardGeneration}

theorem child_other (h : checkChild env link parent s = .ok ()) (taskId : String)
    (hne : taskId ≠ link.head.taskId) :
    link.generation.taskHashes.get taskId = parent.taskHashes.get taskId := by
  obtain ⟨_, _, hkeys, hhash, _, _⟩ := checkChild_spec h
  exact get_of_not_changed (fun hk => hne (hhash.2 taskId hk)) (hkeys taskId)

theorem child_follows (hread : LinkRead env s link) (hboard : Denotes env s parent board)
    (h : checkChild env link parent s = .ok ()) : Follows env board link.revision := by
  have hother := child_other h
  obtain ⟨hid, hinv, _⟩ := readTask_spec hread.task
  simp only [checkChild, bind_ok, ensure_ok] at h
  obtain ⟨_, _, _, _, _, _, _, _, _, _, h⟩ := h
  split at h
  next hkind =>
    simp only [bind_ok, ensure_ok] at h
    obtain ⟨_, ⟨hfresh, hrevision⟩, hvalid⟩ := h
    apply validateCreatedEvent_spec hvalid _ (denotes_none hboard hfresh) hkind hid hrevision
    intro p hp
    exact Option.some.inj hp ▸ hboard
  next hkind =>
    simp only [bind_ok, ensure_ok, ofOption_ok] at h
    obtain ⟨_, ⟨hparent, _⟩, parentSha, hsha, previous, hprevious, _,
      ⟨hfrom, hrevision, _, hmonotone⟩, hvalid⟩ := h
    obtain ⟨hstatus, hsame, hoperation, hgates⟩ := validateTransitionEvent_spec hvalid
    have hold := denotes_get hboard (hparent.trans hsha) hprevious
    refine .transitioned hold hkind hfrom hread.status.symm hstatus hrevision hread.updatedAt
      hmonotone hsame ?_ hoperation
    intro hgated d hd
    obtain ⟨sha, t, hdsha, hdread, hdone⟩ := hgates hgated d hd
    -- a task does not depend on itself, so its dependencies stand as in the parent
    have hne : d ≠ link.head.taskId := fun he => hinv.2.2.2.2.2.1 (hid ▸ he ▸ hd)
    rw [hother d hne] at hdsha
    exact ⟨t, denotes_get hboard hdsha hdread, hdone⟩

theorem empty_denotes (taskId : String) {r : TaskRevision} (hget : g.taskHashes.get taskId =
      if taskId = r.event.taskId then some r.event.taskSha256 else none)
    (hread : readTask env r.event.taskId r.event.taskSha256 s = .ok r.task) :
    (g.taskHashes.get taskId = none ∧ foldTasks [r] taskId = none) ∨
      ∃ sha task, g.taskHashes.get taskId = some sha ∧ readTask env taskId sha s = .ok task ∧
        foldTasks [r] taskId = some task := by
  have hfold : foldTasks [r] taskId = if taskId = r.event.taskId then some r.task else none := by
    rw [foldTasks, foldl_cons, foldl_nil, TaskBoard.apply, Function.update_apply]
  rw [hget, hfold]
  by_cases he : taskId = r.event.taskId
  · subst he
    exact Or.inr ⟨_, _, if_pos rfl, hread, if_pos rfl⟩
  · exact Or.inl ⟨if_neg he, if_neg he⟩

def revisionsOf (history : List ClosureLink) : List TaskRevision :=
  (history.map ClosureLink.revision).reverse

theorem revisionsOf_cons (link : ClosureLink) (older : List ClosureLink) :
    revisionsOf (link :: older) = revisionsOf older ++ [link.revision] := by
  rw [revisionsOf, map_cons, reverse_cons, revisionsOf]

theorem lineage_replays {older : List ClosureLink} (h : Lineage env s (link :: older)) :
    Replayed env (revisionsOf (link :: older)) ∧
      Denotes env s link.generation (foldTasks (revisionsOf (link :: older))) := by
  generalize hh : link :: older = history at h
  induction h generalizing link older with
  | @root root hread hparent hroot =>
    obtain ⟨rfl, rfl⟩ := cons.inj hh
    simp only [checkRoot, bind_ok, ensure_ok] at hroot
    obtain ⟨_, ⟨_, _, hsize, _, hkind, hrevision⟩, hvalid⟩ := hroot
    have hfollows : Follows env (foldTasks []) link.revision :=
      validateCreatedEvent_spec hvalid (by simp) rfl hkind (readTask_spec hread.task).1 hrevision
    exact ⟨replayed_snoc (replayed_nil env) hfollows,
      fun taskId => empty_denotes taskId (root_get hread hsize taskId) hread.task⟩
  | child holder hread hparent hchild ih =>
    obtain ⟨rfl, rfl⟩ := cons.inj hh
    obtain ⟨hreplayed, hboard⟩ := ih rfl
    rw [revisionsOf_cons]
    refine ⟨replayed_snoc hreplayed (child_follows hread hboard hchild), ?_⟩
    rw [foldTasks_snoc]
    exact denotes_apply hboard (child_other hchild) hread.hashes hread.task

inductive EventChain (env : TaskEnv) (s : TaskStore) : Option String → List TaskEvent → Prop where
  | nil : EventChain env s none []
  | cons {event : TaskEvent} {older : List TaskEvent}
      (hread : readEvent env event.eventId s = .ok event)
      (holder : EventChain env s event.previousEventId older) :
      EventChain env s (some event.eventId) (event :: older)

theorem walked_events {history : List ClosureLink} (hlineage : Lineage env s history)
    (hevents : ∀ link ∈ history, readEvent env link.head.eventId s = .ok link.head) :
    EventChain env s (history.head?.map (·.head.eventId)) (heads history) := by
  induction hlineage with
  | @root link hread hparent hroot =>
    have hprevious := (root_sound hread hparent hroot).previousEvent
    refine .cons (hevents link mem_cons_self) ?_
    rw [hprevious]
    exact .nil
  | @child link parent older holder hread hparent hchild ih =>
    have hprevious := (lineage_sound (.child holder hread hparent hchild)).previousEvent
    refine .cons (hevents link mem_cons_self) ?_
    rw [hprevious]
    exact ih fun l hl => hevents l (mem_cons_of_mem link hl)

theorem revisionsOf_events (history : List ClosureLink) :
    (revisionsOf history).reverse.map TaskRevision.event = heads history := by
  rw [revisionsOf, reverse_reverse, map_map]
  rfl

/-- A generation that the closure validation accepts is the replay of its event list from
the empty board. Its tasks have lived by the transition relation: each was created in the
inbox, moved along the allowed transitions with one revision a move, kept the fields of its
creation, and entered ready or running only when the tasks it depends on were done. -/
theorem closure_replays {g : TaskBoardGeneration} (hinv : g.invariants)
    (h : validateGenerationClosure env g s = .ok ()) :
    ∃ revisions, EventChain env s g.headEventId (revisions.reverse.map TaskRevision.event) ∧
      revisions.length = g.eventCount ∧ Replayed env revisions ∧
      Denotes env s g (foldTasks revisions) ∧
      (∀ taskId task, foldTasks revisions taskId = some task →
        TaskLife env (ownRevisions revisions taskId) task) ∧
      ∀ before r after, revisions = before ++ r :: after →
        r.task.status = .ready ∨ r.task.status = .running →
        ∀ d ∈ r.task.dependencyIds, ∃ t, foldTasks before d = some t ∧ t.status = .done := by
  simp only [validateGenerationClosure, Check.bind_ok, ensure_ok] at h
  obtain ⟨_, _, _, _, _, _, steps, hwalk, hsteps⟩ := h
  obtain ⟨link, older, rfl, hwalked, hcount, _⟩ := walkClosure_walked hinv hwalk
  obtain ⟨hreplayed, hboard⟩ := lineage_replays hwalked.lineage
  have hevents := walked_events hwalked.lineage hwalked.events
  refine ⟨revisionsOf (link :: older), ?_, ?_, hreplayed, hboard, ?_, ?_⟩
  · rw [revisionsOf_events, (lineage_read hwalked.lineage).headEvent]
    exact hevents
  · rw [← hsteps, hcount, revisionsOf, List.length_reverse, List.length_map, List.length_cons]
  · exact fun taskId task ht => replayed_life hreplayed ht
  · exact fun before r after hsplit hstatus => replayed_gates hreplayed hsplit hstatus

/-- The board that a first command has left behind is such a replay. -/
theorem late_board_replays :
    ∃ g, readCurrentGeneration plainEnv lateRun.2 = .ok (some g) ∧
      ∃ revisions, EventChain plainEnv lateRun.2 g.headEventId
          (revisions.reverse.map TaskRevision.event) ∧
        revisions.length = g.eventCount ∧ Replayed plainEnv revisions ∧
        Denotes plainEnv lateRun.2 g (foldTasks revisions) ∧
        (∀ taskId task, foldTasks revisions taskId = some task →
          TaskLife plainEnv (ownRevisions revisions taskId) task) ∧
        ∀ before r after, revisions = before ++ r :: after →
          r.task.status = .ready ∨ r.task.status = .running →
          ∀ d ∈ r.task.dependencyIds, ∃ t, foldTasks before d = some t ∧ t.status = .done := by
  have hreached : Reachable plainEnv lateRun.2 :=
    .command .empty (.create firstTask) (Interleaving.exec_play lateRun_ends.1)
  obtain ⟨generation, hread⟩ := reachable_readable hreached
  rcases readCurrent_ok.mp hread with ⟨hpointer, _⟩ | ⟨g, _, rfl, _, hg, hclosure⟩
  · exact absurd hpointer lateRun_ends.2
  · exact ⟨g, hread, closure_replays (readGeneration_spec hg).2 hclosure⟩
end

end RaytSystem.Tasking
