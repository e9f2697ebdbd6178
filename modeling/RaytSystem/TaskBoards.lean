import RaytSystem.TaskAgreement

/-! The board with a new task or a new revision: how its tasks load, which gates hold in it and
how the walks along its dependencies and its history go. -/
namespace RaytSystem.Tasking
open Interleaving ImmutableStore Check AgentTask PyDict List

section
variable {env : TaskEnv} {s : TaskStore} {known : List AgentTask} {task : AgentTask}

theorem load_withTask {entries : List (String × Sha256)} {taskId : String} {sha : Sha256}
    (hload : collect (fun kv => readTask env kv.1 kv.2) entries s = .ok known)
    (htask : readTask env taskId sha s = .ok task) :
    collect (fun kv => readTask env kv.1 kv.2) (setEntries taskId sha entries) s =
      .ok (withTask known task) := by
  rw [collect_ok] at hload ⊢
  obtain ⟨hid, _⟩ := readTask_spec htask
  induction hload with
  | nil => exact .cons htask .nil
  | @cons kv t entries known hread hrest ih =>
    obtain ⟨hkey, _⟩ := readTask_spec hread
    unfold setEntries withTask
    rw [hkey, hid]
    split
    · exact .cons htask hrest
    · exact .cons hread ih

theorem findTask_cons (t : AgentTask) (rest : List AgentTask) (taskId : String) :
    findTask (t :: rest) taskId = if t.taskId = taskId then some t else findTask rest taskId := by
  unfold findTask
  rw [find?_cons]
  by_cases h : t.taskId = taskId
  · rw [beq_iff_eq.mpr h, if_pos h]
  · rw [beq_false_of_ne h, if_neg h]

theorem findTask_withTask (known : List AgentTask) (task : AgentTask) (taskId : String) :
    findTask (withTask known task) taskId =
      if taskId = task.taskId then some task else findTask known taskId := by
  induction known with
  | nil =>
    rw [withTask, findTask_cons]
    simp only [eq_comm]
  | cons t rest ih =>
    unfold withTask
    split
    next ht =>
      rw [findTask_cons, findTask_cons, ht]
      simp only [eq_comm]
      split <;> rfl
    next ht =>
      rw [findTask_cons, ih, findTask_cons]
      by_cases h : t.taskId = taskId
      · have hne : ¬taskId = task.taskId := fun he => ht (h.trans he)
        rw [if_pos h, if_neg hne, if_pos h]
      · rw [if_neg h, if_neg h]

theorem mem_withTask {task t : AgentTask} (hu : (known.map taskId).Nodup)
    (h : t ∈ withTask known task) : t = task ∨ (t ∈ known ∧ t.taskId ≠ task.taskId) := by
  induction known with
  | nil => exact Or.inl (mem_singleton.mp h)
  | cons k rest ih =>
    obtain ⟨hnot, hu'⟩ := nodup_cons.mp hu
    unfold withTask at h
    split at h
    next hk =>
      rcases mem_cons.mp h with rfl | hrest
      · exact Or.inl rfl
      · refine Or.inr ⟨mem_cons_of_mem _ hrest, fun he => hnot ?_⟩
        rw [hk, ← he]
        exact mem_map_of_mem hrest
    next hk =>
      rcases mem_cons.mp h with rfl | hrest
      · exact Or.inr ⟨mem_cons_self, hk⟩
      · rcases ih hu' hrest with rfl | ⟨hmem, hne⟩
        · exact Or.inl rfl
        · exact Or.inr ⟨mem_cons_of_mem _ hmem, hne⟩

theorem ids_withTask (known : List AgentTask) (task task' : AgentTask)
    (h : task.taskId = task'.taskId) :
    (withTask known task).map taskId = (withTask known task').map taskId := by
  induction known with
  | nil => simp [withTask, h]
  | cons k rest ih =>
    unfold withTask
    rw [h]
    split
    · simp [h]
    · rw [map_cons, map_cons, ih]

theorem visit_congr {tasks tasks' : List AgentTask}
    (h : ∀ taskId, (findTask tasks taskId).map dependencyIds =
      (findTask tasks' taskId).map dependencyIds) (depth : Nat) :
    visit tasks depth = visit tasks' depth := by
  induction depth with
  | zero => rfl
  | succ depth ih =>
    funext visiting taskId visited
    unfold visit
    rw [ih]
    have htask := h taskId
    cases hfound : findTask tasks taskId with
    | none =>
      rw [hfound, Option.map_none, eq_comm, Option.map_eq_none_iff] at htask
      rw [htask]
    | some task =>
      rw [hfound, Option.map_some, eq_comm, Option.map_eq_some_iff] at htask
      obtain ⟨task', hfound', hdeps⟩ := htask
      have hstep : ∀ (t : AgentTask) (e : TaskFault) (g : AgentTask → TaskCheck (List String)),
          (ofOption (some t) e >>= g) = g t := fun _ _ _ => rfl
      rw [hfound']
      simp only [hstep, hdeps]

theorem walk_congr {task task' : AgentTask} (hid : task.taskId = task'.taskId)
    (hdeps : task.dependencyIds = task'.dependencyIds) (depth : Nat) :
    visitAll (visit (withTask known task) depth [])
        (PyText.sorted ((withTask known task).map taskId)) [] =
      visitAll (visit (withTask known task') depth [])
        (PyText.sorted ((withTask known task').map taskId)) [] := by
  have hvisit : visit (withTask known task) depth = visit (withTask known task') depth := by
    apply visit_congr
    intro taskId
    rw [findTask_withTask, findTask_withTask, hid]
    split
    · rw [Option.map_some, Option.map_some, hdeps]
    · rfl
  rw [ids_withTask known task task' hid, hvisit]

theorem checkTaskGates_ok {tasks : List AgentTask} {u : Unit} :
    checkTaskGates tasks task s = .ok u ↔ (∀ d ∈ task.dependencyIds, (findTask tasks d).isSome) ∧
      (task.status.gated = true → dependenciesDone tasks task = true) := by
  simp [checkTaskGates, bind_ok, ensure_ok]

theorem gates_withTask (hu : (known.map taskId).Nodup)
    (hknown : ∀ t ∈ known, checkTaskGates known t s = .ok ())
    (hopen : ∀ t, findTask known task.taskId = some t → t.status ≠ .done)
    (hself : task.taskId ∉ task.dependencyIds)
    (hdeps : ∀ d ∈ task.dependencyIds, (findTask known d).isSome)
    (hdone : task.status.gated = true → dependenciesDone known task = true) :
    ∀ t ∈ withTask known task, checkTaskGates (withTask known task) t s = .ok () := by
  intro t ht
  rw [checkTaskGates_ok]
  simp only [dependenciesDone, all_eq_true] at hdone ⊢
  rcases mem_withTask hu ht with rfl | ⟨hmem, _⟩
  · have hother : ∀ d ∈ t.dependencyIds, findTask (withTask known t) d = findTask known d := by
      intro d hd
      rw [findTask_withTask, if_neg]
      exact fun he => hself (he ▸ hd)
    refine ⟨fun d hd => ?_, fun hgated d hd => ?_⟩
    · rw [hother d hd]
      exact hdeps d hd
    · rw [hother d hd]
      exact hdone hgated d hd
  · obtain ⟨hexist, hwait⟩ := checkTaskGates_ok.mp (hknown t hmem)
    simp only [dependenciesDone, all_eq_true] at hwait
    refine ⟨fun d hd => ?_, fun hgated d hd => ?_⟩
    · rw [findTask_withTask]
      split
      · rfl
      · exact hexist d hd
    · have hd' := hwait hgated d hd
      rw [findTask_withTask]
      split
      next he =>
        obtain ⟨t', ht', hstatus⟩ := (Option.any_eq_true _ _).mp hd'
        exact absurd (beq_iff_eq.mp hstatus) (hopen t' (he ▸ ht'))
      next => exact hd'
end

section
variable {env : TaskEnv} {s s' : TaskStore} {link : ClosureLink}

theorem readLink_ok (h : LinkRead env s link) :
    readLink env link.generation link.head s = .ok link := by
  simp only [readLink, bind_ok, ensure_ok, pure_ok]
  exact ⟨(), h.latest, (), h.hashes, link.task, h.task, (), ⟨h.status, h.updatedAt⟩, (),
    h.createdAt, rfl⟩

theorem newIds_tail {id : String} {ids seen : List String} (h : NewIds (id :: ids) seen) :
    NewIds ids (id :: seen) := by
  obtain ⟨hnot, hnodup⟩ := nodup_cons.mp h.1
  refine ⟨hnodup, fun id' hid' hseen => ?_⟩
  rcases mem_cons.mp hseen with rfl | hseen
  · exact hnot hid'
  · exact h.2 id' (mem_cons_of_mem _ hid') hseen

variable {older : List ClosureLink}

theorem walked_walkClosure {rounds : Nat} {seen : ClosureSeen}
    (h : Walked env s seen (link :: older)) (hrounds : older.length + 1 ≤ rounds) :
    walkClosure env rounds seen link.generation s = .ok (older.length + 1) := by
  induction older generalizing rounds seen link with
  | nil =>
    obtain ⟨rounds, rfl⟩ := Nat.exists_eq_add_of_le' hrounds
    have hread := lineage_read h.lineage
    cases h.lineage with
    | root _ hparent hroot =>
      simp only [length_nil, Nat.zero_add, walkClosure, bind_ok, ensure_ok,
        ofOption_ok]
      refine ⟨(), h.generationIds.2 _ mem_cons_self, _, hread.headEvent, (),
        h.eventIds.2 _ mem_cons_self, _, h.events link mem_cons_self, (),
        ⟨h.operationKeys.2 _ mem_cons_self, h.idempotencyKeys.2 _ mem_cons_self⟩, _,
        readLink_ok hread, ?_⟩
      rw [hparent]
      simp only [bind_ok, pure_ok]
      exact ⟨(), hroot, trivial⟩
  | cons parent older ih =>
    obtain ⟨rounds, rfl⟩ := Nat.exists_eq_add_of_le' (Nat.le_of_add_left_le hrounds)
    have hread := lineage_read h.lineage
    have htail : Walked env s ⟨link.generation.generationId :: seen.generations,
        link.head.eventId :: seen.events, link.head.operationKey :: seen.operationKeys,
        link.head.idempotencyKey :: seen.idempotencyKeys⟩ (parent :: older) :=
      ⟨lineage_tail h.lineage, fun l hl => h.events l (mem_cons_of_mem _ hl),
        fun l hl => h.parents l (mem_cons_of_mem _ hl), newIds_tail h.generationIds,
        newIds_tail h.eventIds, newIds_tail h.operationKeys, newIds_tail h.idempotencyKeys⟩
    cases h.lineage with
    | child _ _ hparent hchild =>
      simp only [walkClosure, bind_ok, ensure_ok, ofOption_ok]
      refine ⟨(), h.generationIds.2 _ mem_cons_self, _, hread.headEvent, (),
        h.eventIds.2 _ mem_cons_self, _, h.events link mem_cons_self, (),
        ⟨h.operationKeys.2 _ mem_cons_self, h.idempotencyKeys.2 _ mem_cons_self⟩, _,
        readLink_ok hread, ?_⟩
      rw [hparent]
      simp only [bind_ok, pure_ok]
      have hle : older.length + 1 ≤ rounds := by
        simp only [length_cons] at hrounds
        omega
      exact ⟨_, h.parents parent mem_cons_self, (), hchild, _, ih htail hle, rfl⟩

theorem findOperation_persists (operationKey idempotencyKey : String) (rounds : Nat)
    (visited : List String) (eventId : Option String) :
    Check.Persists Grows (findOperation env operationKey idempotencyKey rounds visited eventId) := by
  induction rounds generalizing visited eventId with
  | zero =>
    cases eventId with
    | none => exact persists_pure _
    | some id => exact persists_throw _
  | succ rounds ih =>
    cases eventId with
    | none => exact persists_pure _
    | some id =>
      apply persists_bind (persists_ensure _ _)
      intro _
      apply persists_bind (readEvent_persists env _)
      intro event
      split
      · exact persists_pure _
      · exact persists_bind (persists_require _ _) fun _ => ih _ _

theorem findOperation_none {operationKey idempotencyKey : String} {rounds : Nat}
    {visited : List String} {history : List ClosureLink} (h : Distinct env s history)
    (hvisited : ∀ l ∈ history, l.head.eventId ∉ visited) (hrounds : history.length ≤ rounds)
    (hnone : findOperation env operationKey idempotencyKey rounds visited
      (history.head?.map (·.head.eventId)) s = .ok none) :
    ∀ l ∈ history, l.head.operationKey ≠ operationKey ∧ l.head.idempotencyKey ≠ idempotencyKey := by
  induction history generalizing rounds visited with
  | nil => exact fun l hl => nomatch hl
  | cons link older ih =>
    cases rounds with
    | zero => simp at hrounds
    | succ rounds =>
      rw [head?_cons, Option.map_some, findOperation_round _ _ rounds h
        (hvisited link mem_cons_self)] at hnone
      split at hnone
      next => cases hnone
      next hop =>
        split at hnone
        next => cases hnone
        next hkey =>
          intro l hl
          rcases mem_cons.mp hl with rfl | hold
          · exact ⟨hop, hkey⟩
          · cases older with
            | nil => cases hold
            | cons parent older =>
              exact ih (distinct_tail h) (visited_cons h hvisited)
                (Nat.le_of_succ_le_succ hrounds) hnone l hold

theorem created_taskId {event : TaskEvent} {task : AgentTask} {parent : Option TaskBoardGeneration}
    {u : Unit} (h : validateCreatedEvent env event task parent s = .ok u) :
    task.taskId = env.taskId event.operationKey := by
  simp only [validateCreatedEvent, bind_ok, ensure_ok] at h
  obtain ⟨_, _, _, _, _, hid, _⟩ := h
  exact hid

theorem lineage_taskIds (h : Lineage env s (link :: older)) :
    ∀ taskId ∈ link.generation.taskHashes.keys,
      ∃ l ∈ link :: older, taskId = env.taskId l.head.operationKey := by
  generalize hh : link :: older = history at h
  induction h generalizing link older with
  | @root link' hread _ hroot =>
    obtain ⟨rfl, rfl⟩ := cons.inj hh
    intro taskId hmem
    simp only [checkRoot, bind_ok, ensure_ok] at hroot
    obtain ⟨_, ⟨_, _, hsize, _⟩, hcreated⟩ := hroot
    obtain ⟨sha, hget⟩ := mem_keys_iff.mp hmem
    rw [root_get hread hsize] at hget
    split at hget
    next he =>
      refine ⟨link, mem_cons_self, ?_⟩
      rw [he, ← created_taskId hcreated, (readTask_spec hread.task).1]
    next => cases hget
  | @child link' parent older' holder hread hparent hchild ih =>
    obtain ⟨rfl, rfl⟩ := cons.inj hh
    intro taskId hmem
    obtain ⟨_, _, hkeys, hhash, _, hcontinues⟩ := checkChild_spec hchild
    by_cases he : taskId = link.head.taskId
    · rcases hcontinues with ⟨hkind, _, _⟩ | ⟨parentSha, _, _, hget, _, _⟩
      · refine ⟨link, mem_cons_self, ?_⟩
        simp only [checkChild, bind_ok, ensure_ok] at hchild
        obtain ⟨_, _, _, _, _, _, _, _, _, _, hlast⟩ := hchild
        rw [if_pos hkind] at hlast
        obtain ⟨_, _, hcreated⟩ := bind_ok.mp hlast
        rw [he, ← created_taskId hcreated, (readTask_spec hread.task).1]
      · obtain ⟨l, hl, hid⟩ := ih rfl taskId (mem_keys_iff.mpr ⟨parentSha, he ▸ hget⟩)
        exact ⟨l, mem_cons_of_mem _ hl, hid⟩
    · have hsame : link.generation.taskHashes.get taskId = parent.generation.taskHashes.get taskId :=
        get_of_not_changed (fun hk => he (hhash.2 taskId hk)) (hkeys taskId)
      obtain ⟨sha, hget⟩ := mem_keys_iff.mp hmem
      obtain ⟨l, hl, hid⟩ := ih rfl taskId (mem_keys_iff.mpr ⟨sha, hsame ▸ hget⟩)
      exact ⟨l, mem_cons_of_mem _ hl, hid⟩
end

end RaytSystem.Tasking
