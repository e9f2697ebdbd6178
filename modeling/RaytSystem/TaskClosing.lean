import RaytSystem.TaskBoards

/-! The closure validation of a new generation: what is left of it when the parent is a board
that has passed its own validation. -/
namespace RaytSystem.Tasking
open Interleaving ImmutableStore Check TaskBoardGeneration PyText

variable {env : TaskEnv} {s : TaskStore} {generation : Option TaskBoardGeneration}
variable {known : List AgentTask} {r : CommitRequest}

structure Formed (r : CommitRequest) : Prop where
  task : r.task.fieldsValid = true ∧ r.task.invariants
  operationKey : isIdentifier r.operationKey = true
  idempotencyKey : isIdentifier r.idempotencyKey = true
  updatedAt : r.task.updatedAt = r.timestamp

theorem task_validate {t t' : AgentTask} (h : t.validate = some t') :
    t' = t.mapText trim ∧ t'.fieldsValid = true ∧ t'.invariants := by
  unfold AgentTask.validate at h
  dsimp only at h
  split at h
  next hv =>
    cases h
    exact ⟨rfl, hv⟩
  next => cases h

theorem task_identifiers {t : AgentTask} (h : t.fieldsValid = true) :
    isIdentifier t.taskId = true ∧
      ∀ d ∈ t.dependencyIds, isIdentifier d = true := by
  simp only [AgentTask.fieldsValid, Bool.and_eq_true, List.all_eq_true, List.mem_append] at h
  obtain ⟨⟨⟨⟨⟨⟨⟨⟨hid, _⟩, _⟩, _⟩, _⟩, hids⟩, _⟩, _⟩, _⟩ := h
  exact ⟨hid, fun d hd => hids d (Or.inl (Or.inl (Or.inr hd)))⟩

variable {g : TaskBoardGeneration}

theorem readGeneration_fields {generationId : String}
    (h : readGeneration env generationId s = .ok g) :
    s.generations generationId = some g ∧ g.fieldsValid = true ∧
      g.generationId = env.generationId g := by
  simp only [readGeneration, bind_ok, read_ok, ofOption_ok, ensure_ok,
    pure_ok] at h
  obtain ⟨data, hdata, g', hvalid, _, ⟨_, hdigest⟩, _, _, rfl⟩ := h
  obtain ⟨rfl, _⟩ := validate_generation hvalid
  unfold validate at hvalid
  split at hvalid
  next hv => exact ⟨hdata, hv.1, hdigest⟩
  next => cases hvalid

structure EventFields (env : TaskEnv) (generation : Option TaskBoardGeneration) (r : CommitRequest) :
    Prop where
  taskId : (r.event env generation).taskId = r.task.taskId
  operationKey : (r.event env generation).operationKey = r.operationKey
  idempotencyKey : (r.event env generation).idempotencyKey = r.idempotencyKey
  previousEventId : (r.event env generation).previousEventId =
    generation.bind headEventId

theorem event_fields (hread : readCurrentGeneration env s = .ok generation) (hformed : Formed r) :
    EventFields env generation r where
  taskId := trim_identifier (task_identifiers hformed.task.1).1
  operationKey := trim_identifier hformed.operationKey
  idempotencyKey := trim_identifier hformed.idempotencyKey
  previousEventId := by
    have htrim : ∀ id ∈ generation.bind headEventId, trim id = id := by
      intro id hid
      rcases readCurrent_ok.mp hread with ⟨_, rfl⟩ | ⟨g, _, rfl, _, hg, _⟩
      · cases hid
      · obtain ⟨_, hfields, _⟩ := readGeneration_fields hg
        simp only [fieldsValid, Bool.and_eq_true] at hfields
        obtain ⟨⟨⟨⟨_, _⟩, _⟩, hhead⟩, _⟩ := hfields
        have hhead' := hhead
        have hsome : g.headEventId = some id := hid
        rw [hsome] at hhead'
        exact trim_identifier hhead'
    change (generation.bind headEventId).map trim = _
    cases hprevious : generation.bind headEventId with
    | none => rfl
    | some id => exact congrArg some (htrim id (hprevious ▸ rfl))

-- stated of any event and generation, so that no id has to be computed
theorem eventId_with (env : TaskEnv) (e : TaskEvent) (id : String) :
    env.eventId {e with eventId := id} = env.eventId e := rfl

theorem event_invariants_with (e : TaskEvent) (id : String) :
    TaskEvent.invariants {e with eventId := id} ↔ e.invariants := Iff.rfl

theorem generation_invariants_with (g : TaskBoardGeneration) (id : String) :
    invariants {g with generationId := id} ↔ g.invariants := Iff.rfl

theorem event_fields_with {e : TaskEvent} {id : String} (hid : isIdentifier id = true)
    (h : e.fieldsValid = true) : TaskEvent.fieldsValid {e with eventId := id} = true := by
  unfold TaskEvent.fieldsValid at h ⊢
  simp only [Bool.and_eq_true] at h ⊢
  obtain ⟨⟨⟨⟨⟨_, htask⟩, hop⟩, hkey⟩, hprevious⟩, hactor⟩ := h
  exact ⟨⟨⟨⟨⟨hid, htask⟩, hop⟩, hkey⟩, hprevious⟩, hactor⟩

theorem event_valid (h : Sealed env generation r) :
    (r.event env generation).fieldsValid = true ∧ (r.event env generation).invariants := by
  have hseed := seed_event h
  unfold TaskEvent.validate at hseed
  dsimp only at hseed
  split at hseed
  next hv =>
    have hid : isIdentifier
        (env.eventId ((r.eventSeed env generation).mapText trim)) = true :=
      isIdentifier_derivedId _ rfl (by decide) (by decide) (by decide)
    exact ⟨event_fields_with hid hv.1, (event_invariants_with _ _).mpr hv.2⟩
  next => cases hseed

theorem next_valid (h : Sealed env generation r) : (r.next env generation).invariants :=
  (generation_invariants_with _ _).mpr (validate_generation (seed_generation h)).2

theorem readEvent_new (hnfc : KeepsIdentifiers env.nfc) (h : Sealed env generation r)
    (hstored : s.events (r.event env generation).eventId = some (r.event env generation)) :
    readEvent env (r.event env generation).eventId s = .ok (r.event env generation) := by
  obtain ⟨hfields, hinv⟩ := event_valid h
  have htrim : (r.event env generation).mapText trim = r.event env generation :=
    event_identifiers hfields fun t ht => trim_identifier ht
  have hvalid : (r.event env generation).validate = some (r.event env generation) := by
    unfold TaskEvent.validate
    dsimp only
    rw [htrim, if_pos ⟨hfields, hinv⟩]
  have hdigest : (r.event env generation).eventId = env.eventId (r.event env generation) := by
    exact (eventId_with env ((r.eventSeed env generation).mapText trim) _).symm
  simp only [readEvent, bind_ok, read_ok, ofOption_ok, ensure_ok, pure_ok]
  exact ⟨_, hstored, _, hvalid, (), ⟨(event_identifiers hfields hnfc).symm, rfl, hdigest⟩, rfl⟩

theorem readTask_new (hnfc : KeepsIdentifiers env.nfc) (hformed : Formed r) {t : AgentTask}
    (hstored : s.objects (r.sha env) = some (r.task.mapText env.nfc)) :
    readTask env r.task.taskId (r.sha env) s = .ok t ↔
      env.taskBytes (r.task.mapText env.nfc) ≤ maxTaskBytes ∧
        (r.task.mapText env.nfc).validate = some t ∧
        t.mapText env.nfc = r.task.mapText env.nfc := by
  simp only [readTask, bind_ok, read_ok, ofOption_ok, ensure_ok, pure_ok]
  constructor
  · rintro ⟨data, hdata, _, hbytes, task, hvalid, _, ⟨_, hcanon, _⟩, rfl⟩
    obtain rfl := Option.some.inj (hstored.symm.trans hdata)
    exact ⟨hbytes, hvalid, hcanon.symm⟩
  · rintro ⟨hbytes, hvalid, hcanon⟩
    refine ⟨_, hstored, (), hbytes, t, hvalid, (), ⟨rfl, hcanon.symm, ?_⟩, rfl⟩
    have hid := (task_identifiers hformed.task.1).1
    rw [(task_validate hvalid).1]
    change trim (env.nfc r.task.taskId) = r.task.taskId
    rw [hnfc _ hid, trim_identifier hid]

def hashesOf (generation : Option TaskBoardGeneration) : PyDict String Sha256 :=
  generation.elim .empty taskHashes

def latestOf (generation : Option TaskBoardGeneration) : PyDict String String :=
  generation.elim .empty latestEventIds

def LatestRead (env : TaskEnv) (s : TaskStore) (hashes : PyDict String Sha256)
    (kv : String × String) : Prop :=
  ∃ event, readEvent env kv.2 s = .ok event ∧ event.taskId = kv.1 ∧
    hashes.get kv.1 = some event.taskSha256 ∧
    ∃ task, readTask env kv.1 event.taskSha256 s = .ok task ∧ event.toStatus = task.status

theorem checkLatestEvent_ok {kv : String × String} {u : Unit} :
    checkLatestEvent env g kv s = .ok u ↔ LatestRead env s g.taskHashes kv := by
  simp only [checkLatestEvent, LatestRead, bind_ok, ensure_ok]
  constructor
  · rintro ⟨event, hevent, _, ⟨hid, hget⟩, task, htask, hstatus⟩
    exact ⟨event, hevent, hid, hget, task, htask, hstatus⟩
  · rintro ⟨event, hevent, hid, hget, task, htask, hstatus⟩
    exact ⟨event, hevent, (), ⟨hid, hget⟩, task, htask, hstatus⟩

structure Board (env : TaskEnv) (s : TaskStore) (generation : Option TaskBoardGeneration)
    (known : List AgentTask) : Prop where
  loads : collect (fun kv => readTask env kv.1 kv.2) (hashesOf generation).entries s = .ok known
  nodup : (known.map AgentTask.taskId).Nodup
  gates : ∀ t ∈ known, checkTaskGates known t s = .ok ()
  walk : ∃ visited, visitAll (visit known env.recursionLimit [])
    (sorted (known.map AgentTask.taskId)) [] s = .ok visited
  latest : ∀ kv ∈ (latestOf generation).entries, LatestRead env s (hashesOf generation) kv

theorem board_read (hread : readCurrentGeneration env s = .ok generation)
    (hknown : loadTasksOf env generation s = .ok known) : Board env s generation known := by
  rcases readCurrent_ok.mp hread with ⟨_, rfl⟩ | ⟨g, _, rfl, _, _, hclosure⟩
  · obtain rfl := pure_ok.mp hknown
    exact ⟨rfl, List.nodup_nil, fun t ht => absurd ht List.not_mem_nil, ⟨[], rfl⟩,
      fun kv hkv => absurd hkv List.not_mem_nil⟩
  · simp only [validateGenerationClosure, bind_ok] at hclosure
    obtain ⟨tasks, htasks, _, hgraph, _, hlatest, _⟩ := hclosure
    obtain rfl := Except.ok.inj (htasks.symm.trans hknown)
    obtain ⟨_, hgates, hwalk⟩ := bind_ok.mp hgraph
    obtain ⟨visited, hvisited, _⟩ := bind_ok.mp hwalk
    refine ⟨htasks, ?_, each_ok.mp hgates, ⟨visited, hvisited⟩, ?_⟩
    · rw [loadTasks_ids htasks]
      exact g.taskHashes.unique
    · exact fun kv hkv => checkLatestEvent_ok.mp (each_ok.mp hlatest kv hkv)

def Fresh (env : TaskEnv) (s : TaskStore) (generation : Option TaskBoardGeneration)
    (r : CommitRequest) : Prop :=
  ∀ g ∈ generation, ∀ history, History env s g history → ∀ l ∈ history,
    l.generation.generationId ≠ (r.next env generation).generationId ∧
    l.head.eventId ≠ (r.event env generation).eventId ∧
    l.head.operationKey ≠ r.operationKey ∧ l.head.idempotencyKey ≠ r.idempotencyKey

def checkHead (env : TaskEnv) (link : ClosureLink) : Option TaskBoardGeneration → TaskCheck Unit
  | none => checkRoot env link
  | some parent => checkChild env link parent

theorem mem_setEntries {ν : Type} {k : String} {v : ν} {es : List (String × ν)} {kv : String × ν}
    (hu : (es.map Prod.fst).Nodup) (h : kv ∈ PyDict.setEntries k v es) :
    kv = (k,v) ∨ (kv ∈ es ∧ kv.1 ≠ k) := by
  have hmem : kv ∈ (PyDict.set ⟨es,hu⟩ k v).entries := h
  rw [← Prod.mk.eta (p := kv), ← PyDict.get_eq_some_iff, PyDict.get_set] at hmem
  split at hmem
  next hk =>
    obtain rfl := Option.some.inj hmem
    exact Or.inl (Prod.ext hk rfl)
  next hk => exact Or.inr ⟨PyDict.get_eq_some_iff.mp hmem, hk⟩

section

structure Held (env : TaskEnv) (s : TaskStore) (generation : Option TaskBoardGeneration)
    (r : CommitRequest) : Prop where
  nfc : KeepsIdentifiers env.nfc
  read : readCurrentGeneration env s = .ok generation
  sealed : Sealed env generation r
  formed : Formed r
  object : s.objects (r.sha env) = some (r.task.mapText env.nfc)
  event : s.events (r.event env generation).eventId = some (r.event env generation)

def newLink (env : TaskEnv) (generation : Option TaskBoardGeneration) (r : CommitRequest)
    (t : AgentTask) : ClosureLink :=
  ⟨r.next env generation, r.event env generation, t⟩

variable {t : AgentTask}

theorem readTask_status (h : Held env s generation r)
    (ht : readTask env r.task.taskId (r.sha env) s = .ok t) :
    t = (r.task.mapText env.nfc).mapText trim :=
  (task_validate ((readTask_new h.nfc h.formed h.object).mp ht).2.1).1

theorem newLink_read (h : Held env s generation r)
    (ht : readTask env r.task.taskId (r.sha env) s = .ok t) :
    LinkRead env s (newLink env generation r t) := by
  have hfields := event_fields h.read h.formed
  have hstatus := readTask_status h ht
  have hset : ∀ {ν : Type} (d : PyDict String ν) (v : ν),
      (d.set r.task.taskId v).get (r.event env generation).taskId = some v := by
    intro ν d v
    rw [PyDict.get_set, if_pos hfields.taskId]
  refine ⟨next_valid h.sealed, rfl, (event_valid h.sealed).2, hset _ _, hset _ _, ?_, ?_, ?_, rfl⟩
  · change readTask env (r.event env generation).taskId (r.sha env) s = .ok t
    rw [hfields.taskId]
    exact ht
  · change t.status = r.task.status
    rw [hstatus]
    rfl
  · change t.updatedAt = r.timestamp
    rw [hstatus, ← h.formed.updatedAt]
    rfl

theorem readTask_same (h : Held env s generation r)
    (ht : readTask env r.task.taskId (r.sha env) s = .ok t) :
    t.taskId = r.task.taskId ∧ t.status = r.task.status ∧
      t.dependencyIds = r.task.dependencyIds := by
  refine ⟨(readTask_spec ht).1, ?_, ?_⟩
  · rw [readTask_status h ht]
    rfl
  · rw [readTask_status h ht]
    change (r.task.dependencyIds.map env.nfc).map trim = r.task.dependencyIds
    rw [List.map_map]
    refine (List.map_congr_left fun d hd => ?_).trans (List.map_id _)
    have hid := (task_identifiers h.formed.task.1).2 d hd
    rw [Function.comp_apply, h.nfc d hid, trim_identifier hid, id]

theorem latest_new (h : Held env s generation r) (hboard : Board env s generation known)
    (ht : readTask env r.task.taskId (r.sha env) s = .ok t) :
    ∀ kv ∈ (r.next env generation).latestEventIds.entries,
      LatestRead env s (r.next env generation).taskHashes kv := by
  intro kv hkv
  have hfields := event_fields h.read h.formed
  have hget : ∀ k, (r.next env generation).taskHashes.get k =
      if k = r.task.taskId then some (r.sha env) else (hashesOf generation).get k :=
    fun k => PyDict.get_set _ _ _ _
  rcases mem_setEntries (latestOf generation).unique hkv with rfl | ⟨hold, hne⟩
  · refine ⟨_, readEvent_new h.nfc h.sealed h.event, hfields.taskId, ?_, t, ht, ?_⟩
    · rw [hget, if_pos rfl]
      rfl
    · exact (readTask_same h ht).2.1.symm
  · obtain ⟨event, hevent, hid, hsha, task, htask, hstatus⟩ := hboard.latest kv hold
    refine ⟨event, hevent, hid, ?_, task, htask, hstatus⟩
    rw [hget, if_neg hne]
    exact hsha

theorem next_hashes : (r.next env generation).taskHashes =
    (hashesOf generation).set r.task.taskId (r.sha env) := rfl

theorem next_parent : (r.next env generation).parentGenerationId =
    generation.map generationId := rfl

theorem next_head : (r.next env generation).headEventId = some (r.event env generation).eventId := rfl

theorem walked_root (h : Held env s none r) (ht : readTask env r.task.taskId (r.sha env) s = .ok t)
    (hroot : checkRoot env (newLink env none r t) s = .ok ()) :
    Walked env s noneSeen [newLink env none r t] where
  lineage := .root (newLink_read h ht) rfl hroot
  events l hl := by
    obtain rfl := List.mem_singleton.mp hl
    exact readEvent_new h.nfc h.sealed h.event
  parents l hl := absurd hl List.not_mem_nil
  generationIds := newIds_singleton List.not_mem_nil
  eventIds := newIds_singleton List.not_mem_nil
  operationKeys := newIds_singleton List.not_mem_nil
  idempotencyKeys := newIds_singleton List.not_mem_nil

theorem walked_new (h : Held env s generation r) {g : TaskBoardGeneration} {link : ClosureLink}
    {older : List ClosureLink} (hgeneration : generation = some g)
    (ht : readTask env r.task.taskId (r.sha env) s = .ok t)
    (hhistory : History env s g (link :: older)) (hfresh : Fresh env s generation r)
    (hchild : checkChild env (newLink env generation r t) g s = .ok ()) :
    Walked env s noneSeen (newLink env generation r t :: link :: older) := by
  have hfields := event_fields h.read h.formed
  have hnew := hfresh g (hgeneration ▸ rfl) _ hhistory
  obtain ⟨hread, hwalked, hhead, _⟩ := hhistory
  obtain rfl : link.generation = g := Option.some.inj hhead
  have hreadParent : readGeneration env link.generation.generationId s = .ok link.generation := by
    rcases readCurrent_ok.mp hread with ⟨_, hnone⟩ | ⟨g', _, hsome, _, hg', _⟩
    · cases hnone
    · obtain rfl := Option.some.inj hsome
      exact hg'
  have hparent : (newLink env generation r t).generation.parentGenerationId =
      some link.generation.generationId := by
    rw [hgeneration]
    rfl
  refine ⟨.child hwalked.lineage (newLink_read h ht) hparent hchild, ?_, ?_, ?_, ?_, ?_, ?_⟩
  · intro l hl
    rcases List.mem_cons.mp hl with rfl | hl
    · exact readEvent_new h.nfc h.sealed h.event
    · exact hwalked.events l hl
  · intro l hl
    rcases List.mem_cons.mp hl with rfl | hl
    · exact hreadParent
    · exact hwalked.parents l hl
  all_goals
    refine ⟨List.nodup_cons.mpr ⟨?_, ?_⟩, fun _ _ => List.not_mem_nil⟩
  · intro hmem
    obtain ⟨l, hl, hid⟩ := List.mem_map.mp hmem
    exact (hnew l hl).1 hid
  · exact hwalked.generationIds.1
  · intro hmem
    obtain ⟨l, hl, hid⟩ := List.mem_map.mp hmem
    exact (hnew l hl).2.1 hid
  · exact hwalked.eventIds.1
  · intro hmem
    obtain ⟨l, hl, hid⟩ := List.mem_map.mp hmem
    exact (hnew l hl).2.2.1 (hid.trans hfields.operationKey)
  · exact hwalked.operationKeys.1
  · intro hmem
    obtain ⟨l, hl, hid⟩ := List.mem_map.mp hmem
    exact (hnew l hl).2.2.2 (hid.trans hfields.idempotencyKey)
  · exact hwalked.idempotencyKeys.1

theorem walk_new (h : Held env s generation r)
    (ht : readTask env r.task.taskId (r.sha env) s = .ok t) (hfresh : Fresh env s generation r)
    (hhead : checkHead env (newLink env generation r t) generation s = .ok ()) {rounds : Nat}
    (hlimit : generation.elim 1 (fun g => g.eventCount + 1) ≤ rounds) :
    walkClosure env rounds ⟨[],[],[],[]⟩ (r.next env generation) s =
      .ok (r.next env generation).eventCount := by
  cases hgeneration : generation with
  | none =>
    subst hgeneration
    have hcount : (r.next env none).eventCount = ([] : List ClosureLink).length + 1 := rfl
    rw [hcount]
    exact walked_walkClosure (walked_root h ht hhead) hlimit
  | some g =>
    obtain ⟨history, hhistory⟩ := history_exists (hgeneration ▸ h.read)
    have hhead' := hhistory.2.2.1
    cases history with
    | nil => cases hhead'
    | cons link older =>
      obtain rfl : link.generation = g := Option.some.inj hhead'
      have hcount := (lineage_sound hhistory.2.1.lineage).eventCount
      subst hgeneration
      have hwalked := walked_new h rfl ht hhistory hfresh hhead
      have hnext : (r.next env (some link.generation)).eventCount = (link :: older).length + 1 := by
        change link.generation.eventCount + 1 = _
        rw [hcount]
        rfl
      rw [hnext]
      refine walked_walkClosure hwalked ?_
      rw [← hnext]
      exact hlimit

structure GatesMet (known : List AgentTask) (task : AgentTask) : Prop where
  opened : ∀ t, findTask known task.taskId = some t → t.status ≠ .done
  dependencies : ∀ d ∈ task.dependencyIds, (findTask known d).isSome
  done : task.status.gated = true → dependenciesDone known task = true

theorem graph_new (h : Held env s generation r) (hboard : Board env s generation known)
    (hgates : GatesMet known r.task) (ht : readTask env r.task.taskId (r.sha env) s = .ok t)
    (hwalk : ∃ visited, visitAll (visit (withTask known r.task) env.recursionLimit [])
      (sorted ((withTask known r.task).map AgentTask.taskId)) [] s = .ok visited) :
    validateTaskGraph env (withTask known t) s = .ok () := by
  obtain ⟨hid, hstatus, hdeps⟩ := readTask_same h ht
  obtain ⟨visited, hvisited⟩ := hwalk
  have hinv := h.formed.task.2
  have hgate : ∀ t' ∈ withTask known t, checkTaskGates (withTask known t) t' s = .ok () := by
    refine gates_withTask hboard.nodup hboard.gates ?_ ?_ ?_ ?_
    · rw [hid]
      exact hgates.opened
    · rw [hid, hdeps]
      exact hinv.2.2.2.2.2.1
    · rw [hdeps]
      exact hgates.dependencies
    · intro hgated
      have hdone := hgates.done (hstatus ▸ hgated)
      unfold dependenciesDone at hdone ⊢
      rw [hdeps]
      exact hdone
  rw [walk_congr hid.symm hdeps.symm] at hvisited
  exact bind_ok.mpr ⟨(), each_ok.mpr hgate,
    bind_ok.mpr ⟨visited, hvisited, rfl⟩⟩

-- from here on the new event and generation are known by their lemmas alone
attribute [local irreducible] CommitRequest.event CommitRequest.next

theorem closure_new (h : Held env s generation r) (hboard : Board env s generation known)
    (hgates : GatesMet known r.task) (hfresh : Fresh env s generation r) :
    validateGenerationClosure env (r.next env generation) s = .ok () ↔
      ∃ t, readTask env r.task.taskId (r.sha env) s = .ok t ∧
        (∃ visited, visitAll (visit (withTask known r.task) env.recursionLimit [])
          (sorted ((withTask known r.task).map AgentTask.taskId)) [] s = .ok visited) ∧
        checkHead env (newLink env generation r t) generation s = .ok () := by
  have hloads : ∀ t, readTask env r.task.taskId (r.sha env) s = .ok t →
      loadTasks env (r.next env generation) s = .ok (withTask known t) := by
    intro t ht
    rw [loadTasks, next_hashes]
    exact load_withTask hboard.loads ht
  constructor
  · intro hclosure
    simp only [validateGenerationClosure, bind_ok] at hclosure
    obtain ⟨tasks, htasks, _, hgraph, _, _, steps, hwalk, _⟩ := hclosure
    -- the new entry is one of the entries that were loaded
    have hentry : (r.task.taskId,r.sha env) ∈ (r.next env generation).taskHashes.entries := by
      rw [next_hashes]
      exact PyDict.get_eq_some_iff.mp ((PyDict.get_set _ _ _ _).trans (if_pos rfl))
    obtain ⟨t, ht⟩ : ∃ t, readTask env r.task.taskId (r.sha env) s = .ok t := by
      obtain ⟨i, hi, hget⟩ := List.mem_iff_getElem.mp hentry
      have hall := collect_ok.mp htasks
      have hread := (List.forall₂_iff_get.mp hall).2 i hi (hall.length_eq ▸ hi)
      simp only [List.get_eq_getElem, hget] at hread
      exact ⟨_, hread⟩
    obtain rfl := Except.ok.inj ((hloads t ht).symm.trans htasks)
    obtain ⟨hid, _, hdeps⟩ := readTask_same h ht
    refine ⟨t, ht, ?_, ?_⟩
    · obtain ⟨_, _, hgraph⟩ := bind_ok.mp hgraph
      obtain ⟨visited, hvisited, _⟩ := bind_ok.mp hgraph
      rw [walk_congr hid hdeps] at hvisited
      exact ⟨visited, hvisited⟩
    · obtain ⟨rounds, hrounds⟩ : ∃ rounds, maxEvents = rounds + 1 := ⟨9999, rfl⟩
      rw [hrounds] at hwalk
      simp only [walkClosure, bind_ok, ensure_ok, ofOption_ok] at hwalk
      obtain ⟨_, _, headId, hheadId, _, _, head, hevent, _, _, link, hlink, hlast⟩ := hwalk
      rw [next_head] at hheadId
      obtain rfl := Option.some.inj hheadId
      rw [readEvent_new h.nfc h.sealed h.event] at hevent
      obtain rfl := Except.ok.inj hevent
      have hnew : readLink env (r.next env generation) (r.event env generation) s =
        .ok (newLink env generation r t) := readLink_ok (newLink_read h ht)
      rw [hnew] at hlink
      obtain rfl := Except.ok.inj hlink
      rw [next_parent] at hlast
      cases generation with
      | none =>
        obtain ⟨_, hroot, _⟩ := bind_ok.mp hlast
        exact hroot
      | some g =>
        obtain ⟨parent, hparent, hlast⟩ := bind_ok.mp hlast
        obtain ⟨_, hchild, _⟩ := bind_ok.mp hlast
        rcases readCurrent_ok.mp h.read with ⟨_, hnone⟩ | ⟨g', _, hsome, _, hg', _⟩
        · cases hnone
        · obtain rfl := Option.some.inj hsome
          obtain rfl := Except.ok.inj (hg'.symm.trans hparent)
          exact hchild
  · rintro ⟨t, ht, hwalk, hhead⟩
    simp only [validateGenerationClosure, bind_ok, ensure_ok]
    refine ⟨_, hloads t ht, (), graph_new h hboard hgates ht hwalk, (), ?_, _,
      walk_new h ht hfresh hhead h.sealed.limit, rfl⟩
    exact each_ok.mpr fun kv hkv => checkLatestEvent_ok.mpr (latest_new h hboard ht kv hkv)
end

end RaytSystem.Tasking
