import RaytSystem.TaskClosure

/-! What the walk along the parents of a generation means: it meets one event for each
generation, and each generation is the fold of the events up to it. Histories are listed
with the newest generation first, as the walk meets them. -/
namespace RaytSystem.Tasking
open ImmutableStore Check

def foldBoard : List TaskEvent → String → Option (Sha256 × String)
  | [] => fun _ => none
  | e :: older => Function.update (foldBoard older) e.taskId (some (e.taskSha256,e.eventId))

def heads (history : List ClosureLink) : List TaskEvent := history.map ClosureLink.head

variable {env : TaskEnv} {s : TaskStore}

theorem ensure_ok {b : Prop} [Decidable b] {message : String} {u : Unit} :
    ensure b message s = .ok u ↔ b := require_ok

variable {taskId : String}

theorem readTask_spec {sha : Sha256} {task : AgentTask} (h : readTask env taskId sha s = .ok task) :
    task.taskId = taskId ∧ task.invariants ∧
      s.objects sha = some (task.mapText env.nfc) ∧ env.taskSha (task.mapText env.nfc) = sha := by
  simp only [readTask, bind_ok, read_ok, ofOption_ok, ensure_ok,
    pure_ok] at h
  obtain ⟨data, hdata, _, _, t, hvalid, _, ⟨hsha, hcanon, hid⟩, rfl⟩ := h
  unfold AgentTask.validate at hvalid
  simp only at hvalid
  split at hvalid
  next hv =>
    cases hvalid
    exact ⟨hid, hv.2, hcanon ▸ hdata, hcanon ▸ hsha⟩
  next => cases hvalid

theorem readEvent_spec {eventId : String} {event : TaskEvent}
    (h : readEvent env eventId s = .ok event) :
    event.eventId = eventId ∧ event.eventId = env.eventId event ∧ event.invariants := by
  simp only [readEvent, bind_ok, read_ok, ofOption_ok, ensure_ok,
    pure_ok] at h
  obtain ⟨data, hdata, e, hvalid, _, ⟨_, hid, hdigest⟩, rfl⟩ := h
  unfold TaskEvent.validate at hvalid
  simp only at hvalid
  split at hvalid
  next hv =>
    cases hvalid
    exact ⟨hid, hdigest, hv.2⟩
  next => cases hvalid

theorem validate_generation {g g' : TaskBoardGeneration} (h : g.validate = some g') :
    g' = g ∧ g.invariants := by
  unfold TaskBoardGeneration.validate at h
  split at h
  next hv =>
    cases h
    exact ⟨rfl, hv.2⟩
  next => cases h

variable {g : TaskBoardGeneration}

theorem readGeneration_spec {generationId : String} {g : TaskBoardGeneration}
    (h : readGeneration env generationId s = .ok g) :
    g.generationId = generationId ∧ g.invariants := by
  simp only [readGeneration, bind_ok, read_ok, ofOption_ok, ensure_ok,
    pure_ok] at h
  obtain ⟨data, hdata, g', hvalid, _, _, _, hid, rfl⟩ := h
  obtain ⟨rfl, hinv⟩ := validate_generation hvalid
  exact ⟨hid, hinv⟩

structure LinkRead (env : TaskEnv) (s : TaskStore) (link : ClosureLink) : Prop where
  invariants : link.generation.invariants
  headEvent : link.generation.headEventId = some link.head.eventId
  event : link.head.invariants
  latest : link.generation.latestEventIds.get link.head.taskId = some link.head.eventId
  hashes : link.generation.taskHashes.get link.head.taskId = some link.head.taskSha256
  task : readTask env link.head.taskId link.head.taskSha256 s = .ok link.task
  status : link.task.status = link.head.toStatus
  updatedAt : link.task.updatedAt = link.head.createdAt
  createdAt : link.generation.createdAt = link.head.createdAt

inductive Lineage (env : TaskEnv) (s : TaskStore) : List ClosureLink → Prop where
  | root {link : ClosureLink} (hread : LinkRead env s link)
      (hparent : link.generation.parentGenerationId = none)
      (hroot : checkRoot env link s = .ok ()) : Lineage env s [link]
  | child {link parent : ClosureLink} {older : List ClosureLink}
      (holder : Lineage env s (parent :: older)) (hread : LinkRead env s link)
      (hparent : link.generation.parentGenerationId = some parent.generation.generationId)
      (hchild : checkChild env link parent.generation s = .ok ()) :
      Lineage env s (link :: parent :: older)

variable {current : TaskBoardGeneration} {link : ClosureLink}

theorem readLink_spec {head : TaskEvent} {headId : String} (hinv : current.invariants)
    (hhead : current.headEventId = some headId) (hevent : readEvent env headId s = .ok head)
    (h : readLink env current head s = .ok link) :
    link.generation = current ∧ link.head = head ∧ LinkRead env s link := by
  simp only [readLink, bind_ok, ensure_ok, pure_ok] at h
  obtain ⟨_, hlatest, _, hhashes, task, htask, _, ⟨hstatus, hupdated⟩, _, hcreated, rfl⟩ := h
  obtain ⟨hid, _, heventInv⟩ := readEvent_spec hevent
  exact ⟨rfl, rfl, hinv, by rw [hhead, hid], heventInv, hlatest, hhashes, htask, hstatus,
    hupdated, hcreated⟩

def NewIds (ids seen : List String) : Prop := ids.Nodup ∧ ∀ id ∈ ids, id ∉ seen

theorem newIds_singleton {id : String} {seen : List String} (h : id ∉ seen) :
    NewIds [id] seen := ⟨List.nodup_singleton id, fun _ hid => List.mem_singleton.mp hid ▸ h⟩

theorem newIds_cons {id : String} {ids seen : List String} (h : id ∉ seen)
    (hids : NewIds ids (id :: seen)) : NewIds (id :: ids) seen := by
  have hnot : id ∉ ids := fun hid => hids.2 id hid List.mem_cons_self
  refine ⟨List.nodup_cons.mpr ⟨hnot, hids.1⟩, ?_⟩
  intro id' hid'
  rcases List.mem_cons.mp hid' with rfl | hid'
  · exact h
  · exact fun hs => hids.2 id' hid' (List.mem_cons_of_mem _ hs)

structure Walked (env : TaskEnv) (s : TaskStore) (seen : ClosureSeen)
    (history : List ClosureLink) : Prop where
  lineage : Lineage env s history
  events : ∀ link ∈ history, readEvent env link.head.eventId s = .ok link.head
  parents : ∀ link ∈ history.tail,
    readGeneration env link.generation.generationId s = .ok link.generation
  generationIds : NewIds (history.map (·.generation.generationId)) seen.generations
  eventIds : NewIds (history.map (·.head.eventId)) seen.events
  operationKeys : NewIds (history.map (·.head.operationKey)) seen.operationKeys
  idempotencyKeys : NewIds (history.map (·.head.idempotencyKey)) seen.idempotencyKeys

theorem walkClosure_walked {rounds steps : Nat} {seen : ClosureSeen} (hinv : current.invariants)
    (h : walkClosure env rounds seen current s = .ok steps) :
    ∃ link older, link.generation = current ∧ Walked env s seen (link :: older) ∧
      steps = older.length + 1 ∧ steps ≤ rounds := by
  induction rounds generalizing seen current steps with
  | zero => simp [walkClosure] at h
  | succ rounds ih =>
    simp only [walkClosure, bind_ok, ensure_ok, ofOption_ok] at h
    obtain ⟨_, hnewGen, headId, hhead, _, hnewEvent, head, hevent, _, ⟨hnewOp, hnewKey⟩, link,
      hlink, h⟩ := h
    obtain ⟨rfl, rfl, hread⟩ := readLink_spec hinv hhead hevent hlink
    obtain ⟨rfl, _⟩ := readEvent_spec hevent
    cases hparent : link.generation.parentGenerationId with
    | none =>
      simp only [hparent, bind_ok, pure_ok] at h
      obtain ⟨_, hroot, rfl⟩ := h
      have hevents : ∀ l ∈ [link], readEvent env l.head.eventId s = .ok l.head := by
        intro l hl
        rw [List.mem_singleton.mp hl]
        exact hevent
      have hparents : ∀ l ∈ ([] : List ClosureLink),
          readGeneration env l.generation.generationId s = .ok l.generation := by
        intro l hl
        cases hl
      exact ⟨link, [], rfl, ⟨.root hread hparent hroot, hevents, hparents,
        newIds_singleton hnewGen, newIds_singleton hnewEvent, newIds_singleton hnewOp,
        newIds_singleton hnewKey⟩, rfl, by omega⟩
    | some parentId =>
      simp only [hparent, bind_ok, pure_ok] at h
      obtain ⟨parent, hreadParent, _, hchild, n, hwalk, rfl⟩ := h
      obtain ⟨rfl, hparentInv⟩ := readGeneration_spec hreadParent
      obtain ⟨parentLink, older, rfl, hwalked, rfl, hle⟩ := ih hparentInv hwalk
      have hlineage := Lineage.child hwalked.lineage hread hparent hchild
      refine ⟨link, parentLink :: older, rfl, ⟨hlineage, ?_, ?_, newIds_cons hnewGen
        hwalked.generationIds, newIds_cons hnewEvent hwalked.eventIds, newIds_cons hnewOp
        hwalked.operationKeys, newIds_cons hnewKey hwalked.idempotencyKeys⟩, rfl, by omega⟩
      · intro l hl
        rcases List.mem_cons.mp hl with rfl | hl
        · exact hevent
        · exact hwalked.events l hl
      · intro l hl
        rcases List.mem_cons.mp hl with rfl | hl
        · exact hreadParent
        · exact hwalked.parents l hl

theorem walkClosure_lineage {rounds steps : Nat} {seen : ClosureSeen} (hinv : current.invariants)
    (h : walkClosure env rounds seen current s = .ok steps) :
    ∃ link older, link.generation = current ∧ Lineage env s (link :: older) ∧
      steps = older.length + 1 := by
  obtain ⟨link, older, hgen, hwalked, hsteps, _⟩ := walkClosure_walked hinv h
  exact ⟨link, older, hgen, hwalked.lineage, hsteps⟩

structure LinkSound (env : TaskEnv) (s : TaskStore) (link : ClosureLink)
    (older : List ClosureLink) : Prop where
  headEvent : link.generation.headEventId = some link.head.eventId
  eventCount : link.generation.eventCount = older.length + 1
  parent : link.generation.parentGenerationId = older.head?.map (·.generation.generationId)
  previousEvent : link.head.previousEventId = older.head?.map (·.head.eventId)
  previousTask : link.head.previousTaskSha256 =
    (foldBoard (heads older) link.head.taskId).map Prod.fst
  hashes : ∀ taskId, link.generation.taskHashes.get taskId =
    (foldBoard (heads (link :: older)) taskId).map Prod.fst
  latest : ∀ taskId, link.generation.latestEventIds.get taskId =
    (foldBoard (heads (link :: older)) taskId).map Prod.snd
  revision : ∀ taskId sha task, link.generation.taskHashes.get taskId = some sha →
    readTask env taskId sha s = .ok task →
    task.revision = (heads (link :: older)).countP (·.taskId == taskId)

theorem foldBoard_cons (link : ClosureLink) (older : List ClosureLink) (taskId : String) :
    foldBoard (heads (link :: older)) taskId =
      if taskId = link.head.taskId then some (link.head.taskSha256,link.head.eventId)
      else foldBoard (heads older) taskId := by
  rw [heads, List.map_cons, foldBoard, Function.update_apply, heads]

theorem mem_hashes_iff_latest (h : g.invariants) (taskId : String) :
    taskId ∈ g.taskHashes.keys ↔ taskId ∈ g.latestEventIds.keys :=
  ⟨h.2.2.2.1 taskId, h.2.2.2.2.1 taskId⟩

theorem get_none_iff {ν : Type} {d : PyDict String ν} {k : String} :
    d.get k = none ↔ k ∉ d.keys := by
  rw [PyDict.mem_keys_iff]
  cases d.get k <;> simp

theorem get_of_not_changed {ν : Type} [DecidableEq ν] {current parent : PyDict String ν}
    {k : String} (hk : k ∉ changedKeys current parent)
    (hkeys : k ∈ parent.keys → k ∈ current.keys) : current.get k = parent.get k := by
  cases hc : current.get k with
  | none =>
    have hnot : k ∉ parent.keys := fun hp => get_none_iff.mp hc (hkeys hp)
    exact (get_none_iff.mpr hnot).symm
  | some v =>
    by_contra hne
    apply hk
    refine List.mem_map.mpr ⟨(k,v), List.mem_filter.mpr ⟨PyDict.get_eq_some_iff.mp hc, ?_⟩, rfl⟩
    simpa using fun he => hne he.symm

theorem count_cons (link : ClosureLink) (older : List ClosureLink) (taskId : String) :
    (heads (link :: older)).countP (·.taskId == taskId) =
      (heads older).countP (·.taskId == taskId) + if taskId = link.head.taskId then 1 else 0 := by
  rw [heads, List.map_cons, List.countP_cons, heads]
  simp only [beq_iff_eq, @eq_comm _ taskId]

theorem foldBoard_none_count {history : List ClosureLink}
    (h : foldBoard (heads history) taskId = none) :
    (heads history).countP (·.taskId == taskId) = 0 := by
  induction history with
  | nil => rfl
  | cons link older ih =>
    rw [foldBoard_cons] at h
    rw [count_cons]
    split at h
    · cases h
    next hne => rw [if_neg hne, ih h]

theorem root_get (hread : LinkRead env s link) (hsize : link.generation.taskHashes.size = 1)
    (taskId : String) : link.generation.taskHashes.get taskId =
      if taskId = link.head.taskId then some link.head.taskSha256 else none := by
  obtain ⟨kv, hentries⟩ := List.length_eq_one_iff.mp hsize
  have hhead := PyDict.get_eq_some_iff.mp hread.hashes
  rw [hentries, List.mem_singleton] at hhead
  unfold PyDict.get
  rw [hentries, ← hhead, PyDict.lookup_cons]
  rfl

def HeadContinues (env : TaskEnv) (s : TaskStore) (link : ClosureLink)
    (parent : TaskBoardGeneration) : Prop :=
  (link.head.eventKind = .created ∧ link.head.taskId ∉ parent.taskHashes.keys ∧
    link.task.revision = 1) ∨
  ∃ parentSha previous, link.head.previousTaskSha256 = some parentSha ∧
    parent.taskHashes.get link.head.taskId = some parentSha ∧
    readTask env link.head.taskId parentSha s = .ok previous ∧
    link.task.revision = previous.revision + 1

theorem checkChild_spec {parent : TaskBoardGeneration} (h : checkChild env link parent s = .ok ()) :
    link.generation.eventCount = parent.eventCount + 1 ∧
      link.head.previousEventId = parent.headEventId ∧
      (∀ k ∈ parent.taskHashes.keys, k ∈ link.generation.taskHashes.keys) ∧
      isSingle (changedKeys link.generation.taskHashes parent.taskHashes) link.head.taskId ∧
      isSingle (changedKeys link.generation.latestEventIds parent.latestEventIds)
        link.head.taskId ∧ HeadContinues env s link parent := by
  simp only [checkChild, bind_ok, ensure_ok] at h
  obtain ⟨_, _, _, hcount, _, _, _, hprevious, _, ⟨hkeys, hhash, hlatest⟩, h⟩ := h
  refine ⟨hcount, hprevious, hkeys, hhash, hlatest, ?_⟩
  split at h
  next hkind =>
    obtain ⟨_, hnew, _⟩ := bind_ok.mp h
    obtain ⟨hfresh, hrevision⟩ := ensure_ok.mp hnew
    exact Or.inl ⟨hkind, hfresh, hrevision⟩
  next =>
    simp only [bind_ok, ensure_ok, ofOption_ok] at h
    obtain ⟨_, ⟨hparent, _⟩, parentSha, hsha, previous, hread, _, ⟨_, hrevision, _⟩, _⟩ := h
    exact Or.inr ⟨parentSha, previous, hsha, hparent.trans hsha, hread, hrevision⟩

theorem latest_get_none (hinv : g.invariants) (h : g.taskHashes.get taskId = none) :
    g.latestEventIds.get taskId = none := by
  rw [get_none_iff] at h ⊢
  rwa [← mem_hashes_iff_latest hinv]

theorem root_sound (hread : LinkRead env s link)
    (hparent : link.generation.parentGenerationId = none) (hroot : checkRoot env link s = .ok ()) :
    LinkSound env s link [] := by
  simp only [checkRoot, bind_ok, ensure_ok] at hroot
  obtain ⟨_, ⟨_, hcount, hsize, hprevious, hkind, hrevision⟩, _⟩ := hroot
  have hget := root_get hread hsize
  have hfresh := (hread.event.1 hkind).2.1
  refine ⟨hread.headEvent, hcount, hparent, hprevious, hfresh, ?_, ?_, ?_⟩
  · intro taskId
    rw [hget, foldBoard_cons]
    split <;> rfl
  · intro taskId
    rw [foldBoard_cons]
    split
    next he =>
      rw [he]
      exact hread.latest
    next hne =>
      have hnone : link.generation.taskHashes.get taskId = none := by rw [hget, if_neg hne]
      rw [latest_get_none hread.invariants hnone]
      rfl
  · intro taskId sha task hsha htask
    rw [hget] at hsha
    split at hsha
    next he =>
      obtain rfl := Option.some.inj hsha
      rw [he, hread.task] at htask
      obtain rfl := Except.ok.inj htask
      rw [hrevision, count_cons, if_pos he]
      rfl
    next => cases hsha

variable {older : List ClosureLink}

theorem child_sound {link parent : ClosureLink} (ih : LinkSound env s parent older)
    (hparentInv : parent.generation.invariants) (hread : LinkRead env s link)
    (hparent : link.generation.parentGenerationId = some parent.generation.generationId)
    (hchild : checkChild env link parent.generation s = .ok ()) :
    LinkSound env s link (parent :: older) := by
  obtain ⟨hcount, hprevious, hkeys, hhash, hlatest, hcontinues⟩ := checkChild_spec hchild
  have hlatestKeys : ∀ k ∈ parent.generation.latestEventIds.keys,
      k ∈ link.generation.latestEventIds.keys := by
    intro k hk
    rw [← mem_hashes_iff_latest hparentInv] at hk
    exact (mem_hashes_iff_latest hread.invariants k).mp (hkeys k hk)
  have hsame : ∀ taskId, taskId ≠ link.head.taskId →
      link.generation.taskHashes.get taskId = parent.generation.taskHashes.get taskId :=
    fun taskId hne => get_of_not_changed (fun hk => hne (hhash.2 taskId hk)) (hkeys taskId)
  have hsameLatest : ∀ taskId, taskId ≠ link.head.taskId →
      link.generation.latestEventIds.get taskId = parent.generation.latestEventIds.get taskId :=
    fun taskId hne => get_of_not_changed (fun hk => hne (hlatest.2 taskId hk)) (hlatestKeys taskId)
  refine ⟨hread.headEvent, ?_, hparent, ?_, ?_, ?_, ?_, ?_⟩
  · rw [hcount, ih.eventCount]
    rfl
  · rw [hprevious, ih.headEvent]
    rfl
  · rw [← ih.hashes]
    rcases hcontinues with ⟨hkind, hfresh, _⟩ | ⟨parentSha, _, hsha, hget, _, _⟩
    · rw [get_none_iff.mpr hfresh]
      exact (hread.event.1 hkind).2.1
    · rw [hsha, hget]
  · intro taskId
    rw [foldBoard_cons]
    split
    next he =>
      rw [he]
      exact hread.hashes
    next hne => rw [hsame taskId hne, ih.hashes]
  · intro taskId
    rw [foldBoard_cons]
    split
    next he =>
      rw [he]
      exact hread.latest
    next hne => rw [hsameLatest taskId hne, ih.latest]
  · intro taskId sha task hsha htask
    rw [count_cons]
    split
    next he =>
      subst he
      rw [hread.hashes] at hsha
      obtain rfl := Option.some.inj hsha
      rw [hread.task] at htask
      obtain rfl := Except.ok.inj htask
      rcases hcontinues with ⟨_, hfresh, hrevision⟩ | ⟨parentSha, previous, _, hget, hold, hrevision⟩
      · have hnone := get_none_iff.mpr hfresh
        rw [ih.hashes, Option.map_eq_none_iff] at hnone
        rw [hrevision, foldBoard_none_count hnone]
      · rw [hrevision, ih.revision _ parentSha previous hget hold]
    next hne =>
      rw [hsame taskId hne] at hsha
      exact ih.revision taskId sha task hsha htask

theorem lineage_read (h : Lineage env s (link :: older)) : LinkRead env s link := by
  cases h with
  | root hread => exact hread
  | child _ hread => exact hread

theorem lineage_sound (h : Lineage env s (link :: older)) : LinkSound env s link older := by
  generalize hh : link :: older = history at h
  induction h generalizing link older with
  | root hread hparent hroot =>
    obtain ⟨rfl, rfl⟩ := List.cons.inj hh
    exact root_sound hread hparent hroot
  | child holder hread hparent hchild ih =>
    obtain ⟨rfl, rfl⟩ := List.cons.inj hh
    exact child_sound (ih rfl) (lineage_read holder).invariants hread hparent hchild

end RaytSystem.Tasking
