import RaytSystem.TaskClosing
import RaytSystem.TaskIdempotency

/-! A request that its writer accepts: its identities are new to the history of the board, its
task meets the gates, and the indexes of the board change at its task alone. -/
namespace RaytSystem.Tasking
open Interleaving ImmutableStore PyText PyDict

variable {env : TaskEnv} {s s₁ : TaskStore} {generation : Option TaskBoardGeneration}
variable {known : List AgentTask} {c : TaskCommand} {r : CommitRequest}

theorem admitted_begun (h : Admitted env s generation known c r) :
    ∃ now sensitivity, Begun env s generation known c now r.idempotencyKey sensitivity ∧
      r.operationKey = (c.material env r.idempotencyKey).operationKey env := by
  cases h with
  | create begun => exact ⟨_, _, begun, rfl⟩
  | transition begun => exact ⟨_, _, begun, rfl⟩

theorem admitted_formed (h : Admitted env s generation known c r) : Formed r := by
  obtain ⟨now, sensitivity, begun, hop⟩ := admitted_begun h
  have hidem := isIdentifier_idempotencyId begun.key
  have hkey : isIdentifier r.operationKey = true := hop ▸ isIdentifier_operationKey env _
  cases h with
  | create _ _ _ valid =>
    obtain ⟨rfl, hvalid⟩ := task_validate valid
    exact ⟨hvalid, hkey, hidem, rfl⟩
  | transition _ _ _ _ _ _ valid =>
    obtain ⟨rfl, hvalid⟩ := task_validate valid
    exact ⟨hvalid, hkey, hidem, rfl⟩

theorem lineage_counts {link : ClosureLink} {older : List ClosureLink}
    (h : Lineage env s (link :: older)) :
    ∀ l ∈ link :: older, l.generation.eventCount ≤ older.length + 1 := by
  induction older generalizing link with
  | nil =>
    intro l hl
    obtain rfl := List.mem_singleton.mp hl
    exact (lineage_sound h).eventCount.le
  | cons parent older ih =>
    intro l hl
    rcases List.mem_cons.mp hl with rfl | hl
    · exact (lineage_sound h).eventCount.le
    · exact (ih (lineage_tail h) l hl).trans (Nat.le_succ _)

variable {g : TaskBoardGeneration} {history : List ClosureLink}

theorem history_generations (h : History env s g history) {l : ClosureLink} (hl : l ∈ history) :
    s.generations l.generation.generationId = some l.generation ∧
      l.generation.generationId = env.generationId l.generation ∧
      l.generation.eventCount ≤ g.eventCount := by
  obtain ⟨hread, hwalked, hhead, _⟩ := h
  cases history with
  | nil => cases hl
  | cons link older =>
    obtain rfl : link.generation = g := Option.some.inj hhead
    have hcount := lineage_counts hwalked.lineage l hl
    rw [← (lineage_sound hwalked.lineage).eventCount] at hcount
    have hgeneration : readGeneration env l.generation.generationId s = .ok l.generation := by
      rcases List.mem_cons.mp hl with rfl | hold
      · rcases readCurrent_ok.mp hread with ⟨_, hnone⟩ | ⟨g', _, hsome, _, hg', _⟩
        · cases hnone
        · obtain rfl := Option.some.inj hsome
          exact hg'
      · exact hwalked.parents l hold
    obtain ⟨hstored, _, hdigest⟩ := readGeneration_fields hgeneration
    exact ⟨hstored, hdigest, hcount⟩

theorem history_unused (h : Admitted env s (some g) known c r) (hgrows : Grows s s₁)
    (hhistory : History env s₁ g history) : ∀ l ∈ history, l.head.operationKey ≠ r.operationKey ∧
      l.head.idempotencyKey ≠ r.idempotencyKey := by
  obtain ⟨now, sensitivity, begun, hop⟩ := admitted_begun h
  have hnone := findOperation_persists _ _ _ _ _ _ _ _ hgrows begun.unused
  rw [← hop, Option.bind_some, history_head hhistory] at hnone
  have hlength : history.length ≤ 100000 := hhistory.2.2.2.trans (by decide)
  exact findOperation_none (walked_distinct hhistory.2.1) (fun _ _ => List.not_mem_nil) hlength hnone

theorem published_fresh (hnfc : KeepsIdentifiers env.nfc) (h : Admitted env s generation known c r)
    (hapart : Apart env s generation c r) (hpub : Published env generation r s s₁)
    (hfields : EventFields env generation r) : Fresh env s₁ generation r := by
  rintro g rfl history hhistory l hl
  obtain ⟨hunused, hkey⟩ := history_unused h hpub.before.grows hhistory l hl
  obtain ⟨hstored, hdigest, hcount⟩ := history_generations hhistory hl
  refine ⟨fun hid => ?_, fun hid => ?_, hunused, hkey⟩
  · have hsame : l.generation.identityPayload = (r.next env (some g)).identityPayload := by
      rcases hpub.generationsFrom _ _ hstored with hold | hnew
      · exact hapart.generations _ _ hold (hdigest.symm.trans hid)
      · rw [hnew]
    have hcounts : l.generation.eventCount = g.eventCount + 1 :=
      congrArg TaskBoardGeneration.eventCount hsame
    omega
  · have hread := hhistory.2.1.events l hl
    obtain ⟨hdata, hvalid⟩ := readEvent_data hread
    obtain ⟨_, heventId, _⟩ := readEvent_spec hread
    rw [event_identifiers hvalid hnfc] at hdata
    have hsame : l.head.identityPayload = (r.event env (some g)).identityPayload := by
      rcases hpub.eventsFrom _ _ hdata with hold | hnew
      · exact hapart.events _ _ hold (heventId.symm.trans hid)
      · rw [hnew]
    have hop : l.head.identityPayload.operationKey =
        (r.event env (some g)).identityPayload.operationKey := congrArg TaskEvent.operationKey hsame
    exact hunused (hop.trans hfields.operationKey)

theorem known_read (hboard : Board env s generation known) {t : AgentTask} (ht : t ∈ known) :
    ∃ sha, (hashesOf generation).get t.taskId = some sha ∧ readTask env t.taskId sha s = .ok t := by
  obtain ⟨i, hi, rfl⟩ := List.mem_iff_getElem.mp ht
  have hall := Check.collect_ok.mp hboard.loads
  have hentry : i < (hashesOf generation).entries.length := hall.length_eq ▸ hi
  have hread := (List.forall₂_iff_get.mp hall).2 i hentry hi
  simp only [List.get_eq_getElem] at hread
  obtain ⟨hid, _⟩ := readTask_spec hread
  rw [← hid] at hread
  refine ⟨_, get_eq_some_iff.mpr ?_, hread⟩
  rw [hid]
  exact List.getElem_mem hentry

theorem readTask_valid {taskId : String} {sha : Sha256} {t : AgentTask}
    (h : readTask env taskId sha s = .ok t) :
    t.fieldsValid = true ∧ (t.mapText env.nfc).mapText trim = t := by
  simp only [readTask, Check.bind_ok, Check.read_ok, Check.ofOption_ok, ensure_ok,
    Check.pure_ok] at h
  obtain ⟨data, _, _, _, task, hvalid, _, ⟨_, hcanon, _⟩, rfl⟩ := h
  obtain ⟨htrim, hfields, _⟩ := task_validate hvalid
  refine ⟨hfields, ?_⟩
  rw [← hcanon, ← htrim]

theorem created_new (hnfc : KeepsIdentifiers env.nfc) (h : Admitted env s generation known c r)
    (hapart : Apart env s generation c r) (hid : r.task.taskId = env.taskId r.operationKey) :
    (hashesOf generation).get r.task.taskId = none := by
  cases generation with
  | none => rfl
  | some g =>
    rw [get_none_iff]
    intro hmem
    obtain ⟨now, sensitivity, begun, _⟩ := admitted_begun h
    obtain ⟨history, hhistory⟩ := history_exists begun.board
    have hhead := hhistory.2.2.1
    cases history with
    | nil => cases hhead
    | cons link older =>
      obtain rfl : link.generation = g := Option.some.inj hhead
      obtain ⟨l, hl, hmade⟩ := lineage_taskIds hhistory.2.1.lineage _ hmem
      obtain ⟨hdata, hvalid⟩ := readEvent_data (hhistory.2.1.events l hl)
      rw [event_identifiers hvalid hnfc] at hdata
      have hsame := hapart.taskIds _ _ hdata (hmade.symm.trans hid)
      exact (history_unused h (grows_refl s) hhistory l hl).1 hsame

theorem trim_identifiers {ids : List String} (h : ∀ d ∈ ids, isIdentifier d = true) :
    ids.map trim = ids :=
  (List.map_congr_left fun d hd => trim_identifier (h d hd)).trans (List.map_id _)

theorem created_taskId_eq {c : CreateTask} {operationKey : String} {sensitivity : Sensitivity}
    {now : Int} : ((c.task (env.taskId operationKey) sensitivity now).mapText trim).taskId =
      env.taskId operationKey :=
  trim_identifier (isIdentifier_derivedId _ rfl (by decide) (by decide) (by decide))

theorem admitted_gates (hnfc : KeepsIdentifiers env.nfc) (h : Admitted env s generation known c r)
    (hapart : Apart env s generation c r) : GatesMet known r.task := by
  obtain ⟨now, sensitivity, begun, _⟩ := admitted_begun h
  have hboard := board_read begun.board begun.known
  have hnew := created_new hnfc h hapart
  cases h with
  | @create c now idem sensitivity task _ limit dependencies valid =>
    obtain ⟨rfl, _, _⟩ := task_validate valid
    refine ⟨fun t ht => ?_, fun d hd => ?_, fun hgated => ?_⟩
    · obtain ⟨hmem, hid⟩ := findTask_some ht
      obtain ⟨sha, hget, _⟩ := known_read hboard hmem
      rw [hid, hnew created_taskId_eq] at hget
      cases hget
    · obtain ⟨d', hd', rfl⟩ := List.mem_map.mp hd
      have hfound := dependencies d' (mem_sortedSet.mp hd')
      obtain ⟨t, ht⟩ := Option.isSome_iff_exists.mp hfound
      obtain ⟨hmem, hid⟩ := findTask_some ht
      obtain ⟨sha, _, hread⟩ := known_read hboard hmem
      have hvalid := (task_identifiers (readTask_valid hread).1).1
      rw [hid] at hvalid
      rw [trim_identifier hvalid]
      exact hfound
    · cases hgated
  | @transition c now idem sensitivity current task _ found allowed dependencies done clock valid =>
    obtain ⟨rfl, _, _⟩ := task_validate valid
    obtain ⟨hmem, hid⟩ := findTask_some found
    obtain ⟨sha, _, hread⟩ := known_read hboard hmem
    obtain ⟨hidentifier, hdeps⟩ := task_identifiers (readTask_valid hread).1
    have hsame : ((c.next current now).mapText trim).dependencyIds = current.dependencyIds :=
      trim_identifiers hdeps
    have htaskId : ((c.next current now).mapText trim).taskId = c.taskId :=
      (trim_identifier hidentifier).trans hid
    refine ⟨fun t ht => ?_, fun d hd => ?_, fun hgated => ?_⟩
    · rw [htaskId, found] at ht
      obtain rfl := Option.some.inj ht
      intro hdone
      rw [hdone] at allowed
      cases allowed
    · rw [hsame] at hd
      exact (checkTaskGates_ok.mp (hboard.gates current hmem)).1 d hd
    · have hall := done hgated
      unfold dependenciesDone at hall ⊢
      rw [hsame]
      exact hall

theorem changed_set {ν : Type} [DecidableEq ν] {d : PyDict String ν} {k : String} {v : ν}
    (h : d.get k ≠ some v) : isSingle (changedKeys (d.set k v) d) k := by
  refine ⟨List.mem_map.mpr ⟨(k,v), List.mem_filter.mpr ⟨?_, by simpa using h⟩, rfl⟩, ?_⟩
  · rw [← get_eq_some_iff, get_set, if_pos rfl]
  · intro k' hk'
    obtain ⟨kv, hkv, rfl⟩ := List.mem_map.mp hk'
    obtain ⟨hmem, hchanged⟩ := List.mem_filter.mp hkv
    have hget := get_eq_some_iff.mpr hmem
    rw [get_set] at hget
    split at hget
    next hk => exact hk
    next => exact absurd hget (by simpa using hchanged)

theorem foldBoard_event {events : List TaskEvent} {taskId eventId : String} {sha : Sha256}
    (h : foldBoard events taskId = some (sha,eventId)) : ∃ e ∈ events, e.eventId = eventId := by
  induction events with
  | nil => cases h
  | cons e older ih =>
    rw [foldBoard, Function.update_apply] at h
    split at h
    next => exact ⟨e, List.mem_cons_self, congrArg Prod.snd (Option.some.inj h)⟩
    next =>
      obtain ⟨e', he', hid⟩ := ih h
      exact ⟨e', List.mem_cons_of_mem _ he', hid⟩

theorem latest_changes (hread : readCurrentGeneration env s = .ok (some g))
    (hfresh : Fresh env s (some g) r) (taskId : String) :
    g.latestEventIds.get taskId ≠ some (r.event env (some g)).eventId := by
  intro hget
  obtain ⟨history, hhistory⟩ := history_exists hread
  have hnew := hfresh g rfl history hhistory
  have hhead := hhistory.2.2.1
  cases history with
  | nil => cases hhead
  | cons link older =>
    obtain rfl : link.generation = g := Option.some.inj hhead
    rw [(lineage_sound hhistory.2.1.lineage).latest, Option.map_eq_some_iff] at hget
    obtain ⟨⟨sha, eventId⟩, hfold, rfl⟩ := hget
    obtain ⟨e, he, hid⟩ := foldBoard_event hfold
    obtain ⟨l, hl, rfl⟩ := List.mem_map.mp he
    exact (hnew l hl).2.1 hid

end RaytSystem.Tasking
