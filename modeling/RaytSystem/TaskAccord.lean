import RaytSystem.TaskFresh

/-! When a command that its writer accepts commits: the validation of the new generation
computes the operation key again from the stored event and task, and agrees with the writer
on exactly the requests whose texts are stored as they were given. -/
namespace RaytSystem.Tasking
open Interleaving ImmutableStore PyText TaskCommand Check AgentTask TaskStatus

section
variable {env : TaskEnv}

theorem createPayloadOf_mapText (f : String → String) (e : TaskEvent) (t : AgentTask) :
    (createPayloadOf e t).mapText f = createPayloadOf (e.mapText f) (t.mapText f) := rfl

theorem transitionPayloadOf_mapText (f : String → String) (e : TaskEvent) (t : AgentTask) :
    (transitionPayloadOf e t).mapText f = transitionPayloadOf (e.mapText f) (t.mapText f) := rfl

theorem mapText_trim_trim (t : AgentTask) :
    (t.mapText trim).mapText trim = t.mapText trim := by
  have hcomp : trim ∘ trim = trim := funext trim_trim
  simp only [mapText, trim_trim, List.map_map, Option.map_map, hcomp]

theorem gateSensitivity_state (decision : Except Unit ScanDecision) (s s' : TaskStore) :
    gateSensitivity decision s = gateSensitivity decision s' := by
  cases decision <;> rfl

theorem visitAll_state {visitOne : String → List String → TaskCheck (List String)}
    {s s' : TaskStore} (h : ∀ taskId visited, visitOne taskId visited s = visitOne taskId visited s')
    (ids visited : List String) : visitAll visitOne ids visited s = visitAll visitOne ids visited s' := by
  induction ids generalizing visited with
  | nil => rfl
  | cons taskId rest ih =>
    unfold visitAll
    cases hone : visitOne taskId visited s with
    | ok visited' =>
      rw [bind_run hone, bind_run ((h taskId visited).symm.trans hone)]
      exact ih visited'
    | error e => rw [bind_raise hone, bind_raise ((h taskId visited).symm.trans hone)]

theorem visit_state (tasks : List AgentTask) (depth : Nat) (visiting : List String) (taskId : String)
    (visited : List String) (s s' : TaskStore) :
    visit tasks depth visiting taskId visited s = visit tasks depth visiting taskId visited s' := by
  induction depth generalizing visiting taskId visited with
  | zero => rfl
  | succ depth ih =>
    unfold visit
    by_cases hcycle : taskId ∈ visiting
    · have hraise : ∀ w : TaskStore, ensure (taskId ∉ visiting) "Task dependency graph is cyclic" w =
          .error (.ledgerError "Task dependency graph is cyclic") :=
        fun _ => require_raise fun h => h hcycle
      rw [bind_raise (hraise s), bind_raise (hraise s')]
    · have hpass : ∀ w : TaskStore, ensure (taskId ∉ visiting) "Task dependency graph is cyclic" w =
          .ok () := fun _ => ensure_ok.mpr hcycle
      rw [bind_run (hpass s), bind_run (hpass s')]
      split
      · rfl
      · cases findTask tasks taskId with
        | none => rfl
        | some task =>
          have hall := visitAll_state (fun id v => ih (taskId :: visiting) id v)
            task.dependencyIds visited
          have hsome : ∀ w : TaskStore, ofOption (some task) (TaskFault.ledgerError taskId) w =
            .ok task := fun _ => rfl
          rw [bind_run (hsome s), bind_run (hsome s')]
          cases hrest : visitAll (visit tasks depth (taskId :: visiting)) task.dependencyIds visited s with
          | ok visited' => rw [bind_run hrest, bind_run (hall.symm.trans hrest)]; rfl
          | error e => rw [bind_raise hrest, bind_raise (hall.symm.trans hrest)]
end

section
variable {env : TaskEnv} {s s₁ : TaskStore} {generation : Option TaskBoardGeneration}
variable {known : List AgentTask} {c : TaskCommand} {r : CommitRequest}

structure Meets (env : TaskEnv) (s s₁ : TaskStore) (generation : Option TaskBoardGeneration)
    (known : List AgentTask) (c : TaskCommand) (r : CommitRequest) : Prop where
  accepted : Admitted env s generation known c r
  apart : Apart env s generation c r
  published : Published env generation r s s₁
  held : Held env s₁ generation r
  board : Board env s₁ generation known
  fresh : Fresh env s₁ generation r
  gates : GatesMet known r.task

variable {t : AgentTask}

theorem dependencies_known (h : Meets env s s₁ generation known c r)
    (ht : readTask env r.task.taskId (r.sha env) s₁ = .ok t) :
    ∀ d ∈ t.dependencyIds, ∃ p ∈ generation, d ∈ p.taskHashes.keys := by
  intro d hd
  rw [(readTask_same h.held ht).2.2] at hd
  obtain ⟨t', ht'⟩ := Option.isSome_iff_exists.mp (h.gates.dependencies d hd)
  obtain ⟨hmem, rfl⟩ := findTask_some ht'
  obtain ⟨sha, hget, _⟩ := known_read h.board hmem
  cases generation with
  | none => cases hget
  | some g => exact ⟨g, rfl, PyDict.mem_keys_iff.mpr ⟨sha, hget⟩⟩

theorem createdBy_same (hnfc : KeepsIdentifiers env.nfc) (h : t.fieldsValid = true) :
    trim (env.nfc t.createdBy) = t.createdBy := by
  simp only [fieldsValid, Bool.and_eq_true] at h
  obtain ⟨⟨_, hby⟩, _⟩ := h
  rw [hnfc _ hby, trim_identifier hby]

variable {sensitivity : Sensitivity}

theorem created_agrees {c : CreateTask} {now : Int} {idem : String} {task t : AgentTask}
    {parent : Option TaskBoardGeneration}
    (hr : r = ⟨task, .created, env.createOperation idem c.payload, idem, c.actor, now, none, none⟩)
    (hgate : gate env (.create c) s = .ok sensitivity)
    (hvalid : (c.task (env.taskId (env.createOperation idem c.payload)) sensitivity now).validate =
      some task) (h : Meets env s s₁ generation known (.create c) r)
    (ht : readTask env r.task.taskId (r.sha env) s₁ = .ok t)
    (hdeps : ∀ d ∈ t.dependencyIds, ∃ p ∈ parent, d ∈ p.taskHashes.keys) :
    validateCreatedEvent env (r.event env generation) t parent s₁ = .ok () ↔
      stored env (.create c) = payload env (.create c) ∧
        ∃ scanned, gateSensitivity (env.scanTask (r.task.mapText env.nfc)) s₁ = .ok scanned := by
  have hfields := event_fields h.held.read h.held.formed
  obtain ⟨_, _, hback⟩ := (readTask_new h.held.nfc h.held.formed h.held.object).mp ht
  have htask := readTask_status h.held ht
  have hid := (readTask_spec ht).1
  obtain ⟨rfl, htaskValid, _⟩ := task_validate hvalid
  have hpayload : (createPayloadOf (r.event env generation) t).mapText env.nfc =
      (c.payload.mapText trim).mapText env.nfc := by
    rw [createPayloadOf_mapText, hback, ← createPayloadOf_mapText, hr]
    rfl
  have hkey : env.createOperation idem (createPayloadOf (r.event env generation) t) =
      Material.operationKey env ⟨idem, stored env (.create c)⟩ := by
    rw [TaskEnv.createOperation, hpayload]
    rfl
  have hidem : r.idempotencyKey = idem := by rw [hr]
  simp only [validateCreatedEvent, bind_ok, ensure_ok]
  rw [hpayload, hback, hfields.operationKey, hfields.idempotencyKey, hidem, hkey]
  constructor
  · rintro ⟨_, _, scanned, hscanned, hop, _⟩
    have hoperation := h.apart.operation
    rw [hidem] at hoperation
    exact ⟨hoperation hop.symm, scanned, hscanned⟩
  · rintro ⟨htexts, scanned, hscanned⟩
    have hsame : (c.payload.mapText trim).mapText env.nfc = c.payload.mapText env.nfc :=
      CommandPayload.create.inj htexts
    have hpassed : gateSensitivity (env.scanCreate (c.payload.mapText env.nfc)) s₁ =
        .ok sensitivity := (gateSensitivity_state _ _ _).trans hgate
    rw [hsame, htexts]
    subst hr
    refine ⟨sensitivity, hpassed, scanned, hscanned, rfl, hid.trans created_taskId_eq, ?_, ?_, ?_,
      ?_, ?_, ?_, ?_, hdeps⟩
    · rw [htask]
      rfl
    · rw [htask]
      exact createdBy_same h.held.nfc htaskValid
    all_goals
      rw [htask]
      rfl

theorem known_current {c : TransitionTask} {current : AgentTask}
    (hboard : Board env s generation known) (hfound : findTask known c.taskId = some current) :
    current.taskId = c.taskId ∧ ∃ sha, (hashesOf generation).get c.taskId = some sha ∧
      readTask env c.taskId sha s = .ok current := by
  obtain ⟨hmem, hid⟩ := findTask_some hfound
  obtain ⟨sha, hget, hread⟩ := known_read hboard hmem
  rw [hid] at hget hread
  exact ⟨hid, sha, hget, hread⟩

theorem mapText_revision (f : String → String) (t : AgentTask) (status : TaskStatus)
    (reason : Option String) (revision : Nat) (updatedAt : Int) : mapText f {t with
      status := status
      blockedReason := reason
      revision := revision
      updatedAt := updatedAt} =
    {t.mapText f with
      status := status
      blockedReason := reason.map f
      revision := revision
      updatedAt := updatedAt} := rfl

theorem revised_task (c : TransitionTask) (now : Int) {current : AgentTask} {taskId : String}
    {sha : Sha256} (hread : readTask env taskId sha s = .ok current) :
    ∃ reason, ((((c.next current now).mapText trim).mapText env.nfc).mapText trim) =
      {current with
        status := c.target
        blockedReason := reason
        revision := current.revision + 1
        updatedAt := now} := by
  obtain ⟨_, hback⟩ := readTask_valid hread
  have htrim : current.mapText trim = current := by
    rw [← hback, mapText_trim_trim]
  let kept := if c.target = .blocked then c.blockedReason else none
  have hnext := mapText_revision trim current c.target kept (current.revision + 1) now
  have hstored := mapText_revision env.nfc current c.target (kept.map trim)
    (current.revision + 1) now
  have hagain := mapText_revision trim (current.mapText env.nfc) c.target
    ((kept.map trim).map env.nfc) (current.revision + 1) now
  rw [htrim] at hnext
  rw [hback] at hagain
  refine ⟨((kept.map trim).map env.nfc).map trim, ?_⟩
  exact (congrArg (fun t : AgentTask => (t.mapText env.nfc).mapText trim) hnext).trans
    ((congrArg (mapText trim) hstored).trans hagain)

variable {g : TaskBoardGeneration}

theorem transition_agrees {c : TransitionTask} {now : Int} {idem : String}
    {current task t : AgentTask}
    (hr : r = ⟨task, if c.target = .cancelled then .cancelled else .transitioned,
      env.transitionOperation idem c.payload, idem, c.actor, now, g.taskHashes.get c.taskId,
      some current.status⟩) (hgate : gate env (.transition c) s = .ok sensitivity)
    (hfound : findTask known c.taskId = some current)
    (hallowed : c.target ∈ current.status.transitions)
    (hvalid : (c.next current now).validate = some task)
    (h : Meets env s s₁ (some g) known (.transition c) r)
    (ht : readTask env r.task.taskId (r.sha env) s₁ = .ok t) :
    validateTransitionEvent env (r.event env (some g)) current t (r.next env (some g)) s₁ = .ok () ↔
      stored env (.transition c) = payload env (.transition c) ∧
        ∃ scanned, gateSensitivity (env.scanTask (r.task.mapText env.nfc)) s₁ = .ok scanned := by
  have hfields := event_fields h.held.read h.held.formed
  obtain ⟨_, _, hback⟩ := (readTask_new h.held.nfc h.held.formed h.held.object).mp ht
  have htask := readTask_status h.held ht
  obtain ⟨hid, hstatus, hdeps⟩ := readTask_same h.held ht
  obtain ⟨hcurrent, sha, _, hread⟩ := known_current h.board hfound
  obtain ⟨rfl, _⟩ := task_validate hvalid
  have hpayload : (transitionPayloadOf (r.event env (some g)) t).mapText env.nfc =
      ({c.payload with
        blockedReason := if c.target = blocked then c.blockedReason else none}.mapText
          trim).mapText env.nfc := by
    rw [transitionPayloadOf_mapText, hback, ← transitionPayloadOf_mapText, hr]
    unfold TransitionTask.payload
    rw [← hcurrent]
    rfl
  have hkey : env.transitionOperation idem (transitionPayloadOf (r.event env (some g)) t) =
      Material.operationKey env ⟨idem, stored env (.transition c)⟩ := by
    rw [TaskEnv.transitionOperation, hpayload]
    rfl
  have hidem : r.idempotencyKey = idem := by rw [hr]
  simp only [validateTransitionEvent, bind_ok, ensure_ok]
  rw [hpayload, hback, hfields.operationKey, hfields.idempotencyKey, hidem, hkey]
  constructor
  · rintro ⟨_, _, scanned, hscanned, _, ⟨_, hop, _⟩, _⟩
    have hoperation := h.apart.operation
    rw [hidem] at hoperation
    exact ⟨hoperation hop.symm, scanned, hscanned⟩
  · rintro ⟨htexts, scanned, hscanned⟩
    have hsame : ({c.payload with
        blockedReason := if c.target = blocked then c.blockedReason else none}.mapText
          trim).mapText env.nfc = c.payload.mapText env.nfc :=
      CommandPayload.transition.inj htexts
    have hpassed : gateSensitivity (env.scanTransition (c.payload.mapText env.nfc)) s₁ =
        .ok sensitivity := (gateSensitivity_state _ _ _).trans hgate
    have hself := h.held.formed.task.2.2.2.2.2.2.1
    have hdone := h.gates.done
    have htarget : r.task.status = c.target := by rw [hr]; rfl
    have hop : r.operationKey = (⟨idem, payload env (.transition c)⟩ :
      Material).operationKey env := by rw [hr]; rfl
    have himmutable : sameImmutableFields current t := by
      obtain ⟨reason, hrevised⟩ := revised_task c now hread
      rw [htask, hr]
      change sameImmutableFields current
        ((((c.next current now).mapText trim).mapText env.nfc).mapText trim)
      rw [hrevised]
      rfl
    rw [hsame, htexts]
    refine ⟨sensitivity, hpassed, scanned, hscanned, (), ⟨?_, hop, himmutable⟩, ?_⟩
    · rw [hstatus, htarget]
      exact hallowed
    · split
      next hgated =>
        have hall := hdone (hstatus ▸ hgated)
        refine each_ok.mpr fun d hd => ?_
        rw [hdeps] at hd
        simp only [dependenciesDone, List.all_eq_true] at hall
        obtain ⟨t', ht', hstatus'⟩ := (Option.any_eq_true _ _).mp (hall d hd)
        obtain ⟨hmem, rfl⟩ := findTask_some ht'
        obtain ⟨sha', hget', hread'⟩ := known_read h.board hmem
        have hne : t'.taskId ≠ r.task.taskId := fun he => hself (he ▸ hd)
        simp only [checkDependencyDone, bind_ok, ofOption_ok, ensure_ok]
        refine ⟨sha', ?_, t', hread', beq_iff_eq.mp hstatus'⟩
        rw [next_hashes, PyDict.get_set, if_neg hne]
        exact hget'
      next => rfl

structure ChildShape (env : TaskEnv) (g : TaskBoardGeneration) (r : CommitRequest) : Prop where
  previous : (r.event env (some g)).previousEventId = g.headEventId
  keys : ∀ k ∈ g.taskHashes.keys, k ∈ (r.next env (some g)).taskHashes.keys
  hashes : isSingle (changedKeys (r.next env (some g)).taskHashes g.taskHashes)
    (r.event env (some g)).taskId
  latest : isSingle (changedKeys (r.next env (some g)).latestEventIds g.latestEventIds)
    (r.event env (some g)).taskId

theorem child_shape (h : Meets env s s₁ (some g) known c r)
    (hchanged : g.taskHashes.get r.task.taskId ≠ some (r.sha env)) : ChildShape env g r := by
  have hfields := event_fields h.held.read h.held.formed
  refine ⟨hfields.previousEventId, ?_, ?_, ?_⟩
  · intro k hk
    exact PyDict.mem_keys_set.mpr (Or.inr hk)
  · rw [hfields.taskId]
    exact changed_set hchanged
  · rw [hfields.taskId]
    exact changed_set (latest_changes h.held.read h.fresh r.task.taskId)

theorem child_created (h : Meets env s s₁ (some g) known c r) (hkind : r.eventKind = .created)
    (hnew : g.taskHashes.get r.task.taskId = none) (hrevision : t.revision = 1) :
    checkChild env (newLink env (some g) r t) g s₁ = .ok () ↔ g.createdAt ≤ r.timestamp ∧
      validateCreatedEvent env (r.event env (some g)) t (some g) s₁ = .ok () := by
  have hfields := event_fields h.held.read h.held.formed
  have hshape := child_shape h (by rw [hnew]; exact nofun)
  have hkind' : (newLink env (some g) r t).head.eventKind = .created := hkind
  simp only [checkChild, bind_ok, ensure_ok]
  rw [if_pos hkind']
  simp only [bind_ok, ensure_ok]
  constructor
  · rintro ⟨_, _, _, _, _, hclock, _, _, _, _, _, _, hevent⟩
    exact ⟨hclock, hevent⟩
  · rintro ⟨hclock, hevent⟩
    refine ⟨(), rfl, (), rfl, (), hclock, (), hshape.previous, (),
      ⟨hshape.keys, hshape.hashes, hshape.latest⟩, (), ⟨?_, hrevision⟩, hevent⟩
    have hid : (newLink env (some g) r t).head.taskId = r.task.taskId := hfields.taskId
    rw [hid]
    exact get_none_iff.mp hnew

theorem child_transition {current t : AgentTask} {sha : Sha256}
    (h : Meets env s s₁ (some g) known c r) (hkind : r.eventKind ≠ .created)
    (hold : g.taskHashes.get r.task.taskId = some sha) (hchanged : sha ≠ r.sha env)
    (hprevious : r.previousTaskSha256 = some sha) (hfrom : r.fromStatus = some current.status)
    (hread : readTask env r.task.taskId sha s₁ = .ok current)
    (hrevision : t.revision = current.revision + 1 ∧ t.createdAt = current.createdAt ∧
      current.updatedAt ≤ t.updatedAt) :
    checkChild env (newLink env (some g) r t) g s₁ = .ok () ↔ g.createdAt ≤ r.timestamp ∧
      validateTransitionEvent env (r.event env (some g)) current t (r.next env (some g)) s₁ =
        .ok () := by
  have hfields := event_fields h.held.read h.held.formed
  have hshape := child_shape h (by rw [hold]; exact fun he => hchanged (Option.some.inj he))
  have hkind' : ¬(newLink env (some g) r t).head.eventKind = .created := hkind
  have hid : (newLink env (some g) r t).head.taskId = r.task.taskId := hfields.taskId
  have hprevious' : (newLink env (some g) r t).head.previousTaskSha256 = some sha := hprevious
  have hfrom' : (newLink env (some g) r t).head.fromStatus = some current.status := hfrom
  simp only [checkChild, bind_ok, ensure_ok]
  rw [if_neg hkind']
  simp only [bind_ok, ofOption_ok, ensure_ok, hprevious', hid, hfrom']
  constructor
  · rintro ⟨_, _, _, _, _, hclock, _, _, _, _, _, _, sha', hsha, previous, hread', _, _, hevent⟩
    obtain rfl := Option.some.inj hsha
    obtain rfl := Except.ok.inj (hread.symm.trans hread')
    exact ⟨hclock, hevent⟩
  · rintro ⟨hclock, hevent⟩
    have hhashes := hshape.hashes
    have hlatest := hshape.latest
    rw [hfields.taskId] at hhashes hlatest
    exact ⟨(), rfl, (), rfl, (), hclock, (), hshape.previous, (), ⟨hshape.keys, hhashes, hlatest⟩,
      (), ⟨hold, rfl⟩, sha, rfl, current, hread, (), ⟨rfl, hrevision⟩, hevent⟩

theorem accepted_create {c : CreateTask} (h : Admitted env s generation known (.create c) r) :
    ∃ now idem sensitivity task,
      Begun env s generation known (.create c) now idem sensitivity ∧
      (c.task (env.taskId (env.createOperation idem c.payload)) sensitivity now).validate =
        some task ∧
      r = ⟨task, .created, env.createOperation idem c.payload, idem, c.actor, now, none, none⟩ := by
  cases h with
  | create begun _ _ valid => exact ⟨_, _, _, _, begun, valid, rfl⟩

theorem accepted_transition {c : TransitionTask}
    (h : Admitted env s generation known (.transition c) r) : ∃ now idem sensitivity current task,
      Begun env s generation known (.transition c) now idem sensitivity ∧
      findTask known c.taskId = some current ∧ c.target ∈ current.status.transitions ∧
      current.updatedAt ≤ now ∧ (c.next current now).validate = some task ∧
      r = ⟨task, if c.target = .cancelled then .cancelled else .transitioned,
        env.transitionOperation idem c.payload, idem, c.actor, now,
        generation.bind (fun g => g.taskHashes.get c.taskId), some current.status⟩ := by
  cases h with
  | transition begun found allowed _ _ clock valid =>
    exact ⟨_, _, _, _, _, begun, found, allowed, clock, valid, rfl⟩

theorem head_created {c : CreateTask} (h : Meets env s s₁ generation known (.create c) r)
    (ht : readTask env r.task.taskId (r.sha env) s₁ = .ok t) :
    checkHead env (newLink env generation r t) generation s₁ = .ok () ↔
      (∀ g ∈ generation, g.createdAt ≤ r.timestamp) ∧
        stored env (.create c) = payload env (.create c) ∧
        ∃ scanned, gateSensitivity (env.scanTask (r.task.mapText env.nfc)) s₁ = .ok scanned := by
  have htask := readTask_status h.held ht
  have hfields := event_fields h.held.read h.held.formed
  have hnew := created_new h.held.nfc h.accepted h.apart
  obtain ⟨now, idem, sensitivity, task, begun, valid, hr⟩ := accepted_create h.accepted
  have hagrees := created_agrees hr begun.gate valid h ht (dependencies_known h ht)
  have hmade := (task_validate valid).1
  have hfresh : (hashesOf generation).get r.task.taskId = none := by
    apply hnew
    rw [hr]
    change task.taskId = _
    rw [hmade]
    exact created_taskId_eq
  have hrevision : t.revision = 1 := by
    rw [htask, hr]
    change task.revision = 1
    rw [hmade]
    rfl
  have hkind : r.eventKind = .created := by rw [hr]
  cases generation with
  | none =>
    have hroot : checkRoot env (newLink env none r t) s₁ = .ok () ↔
        validateCreatedEvent env (r.event env none) t none s₁ = .ok () := by
      simp only [checkRoot, bind_ok, ensure_ok]
      constructor
      · rintro ⟨_, _, hevent⟩
        exact hevent
      · exact fun hevent => ⟨(), ⟨rfl, rfl, rfl, hfields.previousEventId, hkind, hrevision⟩, hevent⟩
    rw [checkHead, hroot, hagrees]
    simp
  | some g =>
    rw [checkHead, child_created h hkind hfresh hrevision, hagrees]
    simp

theorem head_transition {c : TransitionTask} (h : Meets env s s₁ generation known (.transition c) r)
    (ht : readTask env r.task.taskId (r.sha env) s₁ = .ok t) :
    checkHead env (newLink env generation r t) generation s₁ = .ok () ↔
      (∀ g ∈ generation, g.createdAt ≤ r.timestamp) ∧
        stored env (.transition c) = payload env (.transition c) ∧
        ∃ scanned, gateSensitivity (env.scanTask (r.task.mapText env.nfc)) s₁ = .ok scanned := by
  have htask := readTask_status h.held ht
  obtain ⟨now, idem, sensitivity, current, task, begun, found, allowed, clock, valid, hr⟩ :=
    accepted_transition h.accepted
  have hmade := (task_validate valid).1
  cases generation with
  | none =>
    obtain rfl := pure_ok.mp begun.known
    cases found
  | some g =>
    obtain ⟨hcurrent, sha, hget, hread⟩ := known_current (board_read begun.board begun.known) found
    have hagrees := transition_agrees hr begun.gate found allowed valid h ht
    have hid : r.task.taskId = c.taskId := by
      rw [hr]
      change task.taskId = _
      rw [hmade]
      exact (trim_identifier (task_identifiers (readTask_valid hread).1).1).trans hcurrent
    have hrevised : r.task.revision = current.revision + 1 := by
      rw [hr]
      change task.revision = _
      rw [hmade]
      rfl
    have hchanged : sha ≠ r.sha env := by
      intro he
      obtain ⟨_, _, hstored, hdigest⟩ := readTask_spec hread
      have hsame := congrArg revision (h.apart.objects _ _ hstored (hdigest.trans he))
      have hrevision : current.revision = r.task.revision := hsame
      omega
    have hfields : t.revision = current.revision + 1 ∧ t.createdAt = current.createdAt ∧
        current.updatedAt ≤ t.updatedAt := by
      rw [htask, hr]
      change task.revision = _ ∧ task.createdAt = _ ∧ _ ≤ task.updatedAt
      rw [hmade]
      exact ⟨rfl, rfl, clock⟩
    have hread' := readTask_persists env _ _ _ _ _ h.published.before.grows hread
    have hkind : r.eventKind ≠ .created := by
      rw [hr]
      change (if c.target = cancelled then TaskEventKind.cancelled else .transitioned) ≠ _
      split <;> exact nofun
    have hprevious : r.previousTaskSha256 = some sha := by
      rw [hr]
      exact hget
    have hfrom : r.fromStatus = some current.status := by rw [hr]
    rw [← hid] at hget hread'
    rw [checkHead, child_transition h hkind hget hchanged hprevious hfrom hread' hfields, hagrees]
    simp

/-- The head of the new generation agrees with its parent if the texts are stored as they were
given, the stored task passes the scanner and the board is not newer than the request. -/
theorem head_agrees (h : Meets env s s₁ generation known c r)
    (ht : readTask env r.task.taskId (r.sha env) s₁ = .ok t) :
    checkHead env (newLink env generation r t) generation s₁ = .ok () ↔
      (∀ g ∈ generation, g.createdAt ≤ r.timestamp) ∧ c.stored env = c.payload env ∧
        ∃ scanned, gateSensitivity (env.scanTask (r.task.mapText env.nfc)) s₁ = .ok scanned := by
  cases c with
  | create c => exact head_created h ht
  | transition c => exact head_transition h ht
end

section
variable {env : TaskEnv} {s : TaskStore} {generation : Option TaskBoardGeneration}
variable {known : List AgentTask} {c : TaskCommand} {r : CommitRequest}

theorem loadTasksOf_persists (env : TaskEnv) (generation : Option TaskBoardGeneration) :
    Check.Persists Grows (loadTasksOf env generation) := by
  cases generation with
  | none => exact persists_pure _
  | some g => exact persists_collect (fun kv => readTask_persists env _ _) _

/-- An accepted command commits exactly if the validation of its generation passes in the ledger
that it has published to. -/
theorem commits_validates (hnfc : KeepsIdentifiers env.nfc) (hs : Reachable env s)
    (h : Admitted env s generation known c r) (hsealed : Sealed env generation r)
    (hapart : Apart env s generation c r) : ∃ s₁, Meets env s s₁ generation known c r ∧
      (Commits env s c ↔ validateGenerationClosure env (r.next env generation) s₁ = .ok ()) := by
  obtain ⟨now, sensitivity, begun, _⟩ := admitted_begun h
  obtain ⟨s₁, hpub, hcommit⟩ :=
    commit_returns hnfc (reachable_filed hnfc hs) begun.board hsealed hapart
  have hread := before_readCurrent hpub.before begun.board
  have hheld : Held env s₁ generation r :=
    ⟨hnfc, hread, hsealed, admitted_formed h, hpub.object, hpub.event⟩
  have hknown := loadTasksOf_persists env generation _ _ _ hpub.before.grows begun.known
  have hfresh := published_fresh hnfc h hapart hpub (event_fields hread hheld.formed)
  refine ⟨s₁, ⟨h, hapart, hpub, hheld, board_read hread hknown, hfresh,
    admitted_gates hnfc h hapart⟩, ?_⟩
  rw [← hcommit]
  exact exists_congr fun result => exists_congr fun s' => and_congr_left fun _ => command_returns h

theorem validates_iff {s₁ : TaskStore} (h : Meets env s s₁ generation known c r) :
    validateGenerationClosure env (r.next env generation) s₁ = .ok () ↔
      Accords env s generation known c r := by
  have hwalk := visitAll_state (fun id v => visit_state (withTask known r.task) env.recursionLimit
    [] id v s₁ s) (sorted ((withTask known r.task).map taskId)) []
  have hscan := gateSensitivity_state (env.scanTask (r.task.mapText env.nfc)) s₁ s
  rw [closure_new h.held h.board h.gates h.fresh, hwalk]
  constructor
  · rintro ⟨t, ht, hvisited, hhead⟩
    obtain ⟨hclock, htexts, hscanned⟩ := (head_agrees h ht).mp hhead
    obtain ⟨hbytes, hvalid, hback⟩ := (readTask_new h.held.nfc h.held.formed h.held.object).mp ht
    rw [hscan] at hscanned
    exact ⟨htexts, hbytes, ⟨t, hvalid, hback⟩, hscanned, hclock, hvisited⟩
  · intro haccords
    obtain ⟨t, hvalid, hback⟩ := haccords.readsBack
    have ht := (readTask_new h.held.nfc h.held.formed h.held.object).mpr
      ⟨haccords.bytes, hvalid, hback⟩
    have hscanned := haccords.scanned
    rw [← hscan] at hscanned
    exact ⟨t, ht, haccords.walk, (head_agrees h ht).mpr ⟨haccords.clock, haccords.texts, hscanned⟩⟩

/-- A command that its writer accepts commits exactly if its texts are stored as they were given,
the stored task reads back and passes the scanner, the board is not newer than the request and
the walk along the dependencies stays within the bound on nested calls. -/
theorem task_writer_agrees (hnfc : KeepsIdentifiers env.nfc) (hs : Reachable env s)
    (h : Admitted env s generation known c r) (hsealed : Sealed env generation r)
    (hapart : Apart env s generation c r) :
    Commits env s c ↔ Accords env s generation known c r := by
  obtain ⟨s₁, hmeets, hcommits⟩ := commits_validates hnfc hs h hsealed hapart
  exact hcommits.trans (validates_iff hmeets)
end

section

def firstRequest (c : CreateTask) : CommitRequest :=
  ⟨(c.task (apartEnv.taskId (apartEnv.createOperation firstKey c.payload)) .internal 0).mapText
    trim, .created, apartEnv.createOperation firstKey c.payload, firstKey, c.actor, 0, none,
    none⟩

def blankTask : CreateTask := {firstTask with title := " Title "}

theorem validate_stripped {t : AgentTask} (h : (t.mapText trim).fieldsValid = true ∧
    (t.mapText trim).invariants) : t.validate = some (t.mapText trim) := if_pos h

variable {c : CreateTask}

theorem first_key (hkey : c.idempotencyKey = "key") (hactor : c.actor = "operator") :
    idempotencyId apartEnv (create c).key (create c).actor = .ok firstKey := by
  have hsame : idempotencyId apartEnv "key" "operator" = .ok firstKey := by decide
  rw [key, actor, hkey, hactor]
  exact hsame

theorem first_valid (hc : c = firstTask ∨ c = blankTask) (operationKey : String) :
    ((c.task (apartEnv.taskId operationKey) .internal 0).mapText trim).fieldsValid = true ∧
      ((c.task (apartEnv.taskId operationKey) .internal 0).mapText trim).invariants := by
  have hmade : isIdentifier (apartEnv.taskId operationKey) = true :=
    isIdentifier_derivedId _ rfl (by decide) (by decide) (by decide)
  have hid : isIdentifier (trim (apartEnv.taskId operationKey)) = true := by
    rw [trim_identifier hmade]
    exact hmade
  have htitle : isNonEmptyStr (trim "Title") = true := by decide
  have hblank : isNonEmptyStr (trim " Title ") = true := by decide
  have hdescription : decide ((trim "").length ≤ 32768) = true := by decide
  have hproject : isIdentifier (trim "project_default") = true := by decide
  have hactor : isIdentifier (trim "operator") = true := by decide
  have hstatus : inbox = .blocked ↔ (none : Option String).isSome = true := by decide
  unfold fieldsValid invariants
  simp only [Bool.and_eq_true]
  rcases hc with rfl | rfl
  · exact ⟨⟨⟨⟨⟨⟨⟨⟨⟨hid, htitle⟩, hdescription⟩, hproject⟩, rfl⟩, rfl⟩, rfl⟩, hactor⟩, rfl⟩,
      List.nodup_nil, List.nodup_nil, List.nodup_nil, List.nodup_nil, List.nodup_nil,
      List.not_mem_nil, le_refl _, hstatus⟩
  · exact ⟨⟨⟨⟨⟨⟨⟨⟨⟨hid, hblank⟩, hdescription⟩, hproject⟩, rfl⟩, rfl⟩, rfl⟩, hactor⟩, rfl⟩,
      List.nodup_nil, List.nodup_nil, List.nodup_nil, List.nodup_nil, List.nodup_nil,
      List.not_mem_nil, le_refl _, hstatus⟩

theorem first_accepted (hc : c = firstTask ∨ c = blankTask) :
    Admitted apartEnv .empty none [] (.create c) (firstRequest c) := by
  rcases hc with rfl | rfl
  · exact .create ⟨rfl, rfl, first_key rfl rfl, rfl, rfl, rfl, rfl⟩ (by decide) nofun
      (validate_stripped (first_valid (Or.inl rfl) (apartEnv.createOperation firstKey firstTask.payload)))
  · exact .create ⟨rfl, rfl, first_key rfl rfl, rfl, rfl, rfl, rfl⟩ (by decide) nofun
      (validate_stripped (first_valid (Or.inr rfl) (apartEnv.createOperation firstKey blankTask.payload)))

theorem trimmed_identifier {id : String} (h : isIdentifier id = true) :
    isIdentifier (trim id) = true := by
  rw [trim_identifier h]
  exact h

theorem first_sealed (hc : c = firstTask ∨ c = blankTask) :
    Sealed apartEnv none (firstRequest c) := by
  have hactor : c.actor = "operator" := by rcases hc with rfl | rfl <;> rfl
  have hoperation : isIdentifier (firstRequest c).operationKey = true :=
    isIdentifier_derivedId _ rfl (by decide) (by decide) (by decide)
  have htask : isIdentifier (firstRequest c).task.taskId = true :=
    trimmed_identifier (isIdentifier_derivedId _ rfl (by decide) (by decide) (by decide))
  have hkey : isIdentifier firstKey = true :=
    isIdentifier_derivedId _ rfl (by decide) (by decide) (by decide)
  have hevent : isIdentifier ((firstRequest c).event apartEnv none).eventId = true :=
    isIdentifier_derivedId _ rfl (by decide) (by decide) (by decide)
  refine ⟨?_, by decide, ?_, Nat.zero_le _⟩
  · have hfields : (((firstRequest c).eventSeed apartEnv none).mapText trim).fieldsValid =
        true := by
      unfold TaskEvent.fieldsValid
      simp only [Bool.and_eq_true]
      have hpending : isIdentifier (trim "tevt_pending") = true := by decide
      refine ⟨⟨⟨⟨⟨hpending, trimmed_identifier htask⟩, trimmed_identifier hoperation⟩,
        trimmed_identifier hkey⟩, rfl⟩, ?_⟩
      have hname : isIdentifier (trim "operator") = true := by decide
      rw [← hactor] at hname
      exact hname
    have hinvariants : (((firstRequest c).eventSeed apartEnv none).mapText trim).invariants :=
      ⟨fun _ => ⟨rfl, rfl, rfl⟩, fun h => absurd rfl h, ⟨nofun, nofun⟩⟩
    unfold TaskEvent.validate
    rw [if_pos ⟨hfields, hinvariants⟩]
    rfl
  · have hfields : ((firstRequest c).generationSeed apartEnv none
        ((firstRequest c).event apartEnv none).eventId).fieldsValid = true := by
      unfold TaskBoardGeneration.fieldsValid
      simp only [Bool.and_eq_true]
      have hpending : isIdentifier "tgen_pending" = true := by decide
      refine ⟨⟨⟨⟨⟨⟨hpending, rfl⟩, ?_⟩, ?_⟩, ?_⟩, hevent⟩, rfl⟩
      · exact List.all_eq_true.mpr fun id hid => (List.mem_singleton.mp hid) ▸ htask
      · exact List.all_eq_true.mpr fun id hid => (List.mem_singleton.mp hid) ▸ htask
      · exact List.all_eq_true.mpr fun id hid => (List.mem_singleton.mp hid) ▸ hevent
    have hinvariants : ((firstRequest c).generationSeed apartEnv none
        ((firstRequest c).event apartEnv none).eventId).invariants := by
      refine ⟨⟨fun _ => rfl, fun _ => rfl⟩, fun _ => le_refl _, fun _ => le_refl _, fun k hk => hk,
        fun k hk => hk, ⟨nofun, nofun⟩, ?_⟩
      intro id hid
      obtain rfl := Option.some.inj hid
      exact List.mem_singleton_self _
    unfold TaskBoardGeneration.validate
    rw [if_pos ⟨hfields, hinvariants⟩]
    rfl

theorem first_apart (hc : c = firstTask ∨ c = blankTask) :
    Apart apartEnv .empty none (.create c) (firstRequest c) where
  objects _ _ h := nomatch h
  events _ _ h := nomatch h
  generations _ _ h := nomatch h
  taskIds _ _ h := nomatch h
  operation h := by
    rcases hc with rfl | rfl
    · decide
    · revert h
      decide

theorem first_accords : Accords apartEnv .empty none [] (.create firstTask)
    (firstRequest firstTask) where
  texts := by decide
  bytes := Nat.zero_le _
  readsBack := ⟨_, validate_stripped (by decide), by decide⟩
  scanned := ⟨.internal, rfl⟩
  clock _ h := nomatch h
  walk := ⟨[(firstRequest firstTask).task.taskId], by decide⟩

/-- The first task of a board is committed. -/
theorem first_commits : Accords apartEnv .empty none [] (.create firstTask)
    (firstRequest firstTask) ∧ Commits apartEnv .empty (.create firstTask) :=
  ⟨first_accords, (task_writer_agrees (fun _ _ => rfl) .empty (first_accepted (Or.inl rfl))
    (first_sealed (Or.inl rfl)) (first_apart (Or.inl rfl))).mpr first_accords⟩

/-- The operation key of a title with blanks around it is not the key that the stored task gives
back, and its command cannot commit. -/
theorem blank_title_refused :
    ¬∀ (env : TaskEnv) (s : TaskStore) (generation : Option TaskBoardGeneration)
      (known : List AgentTask) (c : TaskCommand) (r : CommitRequest),
      KeepsIdentifiers env.nfc → Reachable env s → Admitted env s generation known c r →
      Sealed env generation r → Apart env s generation c r → Commits env s c := by
  intro hclaim
  have hblank : blankTask = firstTask ∨ blankTask = blankTask := Or.inr rfl
  have hnfc : KeepsIdentifiers apartEnv.nfc := fun _ _ => rfl
  have hcommits := hclaim apartEnv .empty none [] (.create blankTask) (firstRequest blankTask) hnfc
    .empty (first_accepted hblank) (first_sealed hblank) (first_apart hblank)
  obtain ⟨s₁, hmeets, hvalidates⟩ := commits_validates hnfc .empty (first_accepted hblank)
    (first_sealed hblank) (first_apart hblank)
  have haccords := (validates_iff hmeets).mp (hvalidates.mp hcommits)
  exact absurd haccords.texts (by decide)
end

end RaytSystem.Tasking
