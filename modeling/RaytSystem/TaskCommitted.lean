import RaytSystem.TaskLookup

/-! What a committed command leaves behind: a generation and an event under its operation
key, which every later board still holds. -/
namespace RaytSystem.Tasking
open Interleaving ImmutableStore PyText Check TaskEvent

def KeepsIdentifiers (nfc : String → String) : Prop :=
  ∀ s, isIdentifier s = true → nfc s = s

namespace TaskCommand

def key : TaskCommand → String
  | create c => c.idempotencyKey
  | transition c => c.idempotencyKey

def actor : TaskCommand → String
  | create c => c.actor
  | transition c => c.actor

def clock : TaskCommand → Clock
  | create c => c.now
  | transition c => c.now

def payload (env : TaskEnv) : TaskCommand → CommandPayload
  | create c => .create (c.payload.mapText env.nfc)
  | transition c => .transition (c.payload.mapText env.nfc)

def gate (env : TaskEnv) (c : TaskCommand) : TaskCheck Sensitivity :=
  match c.payload env with
  | .create payload => gateSensitivity (env.scanCreate payload)
  | .transition payload => gateSensitivity (env.scanTransition payload)

def material (env : TaskEnv) (idempotencyKey : String) (c : TaskCommand) : Material :=
  ⟨idempotencyKey, c.payload env⟩

end TaskCommand

theorem isIdentifier_operationKey (env : TaskEnv) (m : Material) :
    isIdentifier (m.operationKey env) = true := by
  unfold Material.operationKey
  split <;> exact isIdentifier_derivedId _ rfl (by decide) (by decide) (by decide)

theorem isIdentifier_idempotencyId {env : TaskEnv} {value actor idem : String}
    (h : idempotencyId env value actor = .ok idem) : isIdentifier idem = true := by
  unfold idempotencyId at h
  dsimp only at h
  split at h
  · cases h
  · obtain rfl := Except.ok.inj h
    exact isIdentifier_derivedId _ rfl (by decide) (by decide) (by decide)

theorem event_validate {e e' : TaskEvent} (h : e.validate = some e') :
    e' = e.mapText trim ∧ e'.fieldsValid = true := by
  unfold validate at h
  dsimp only at h
  split at h
  next hv =>
    cases h
    exact ⟨rfl, hv.1⟩
  next => cases h

structure AppliedAs (env : TaskEnv) (m : Material) (result : TaskCommandResult) (s : TaskStore)
    (next : TaskBoardGeneration) (event : TaskEvent) : Prop where
  generation : s.generations next.generationId = some next
  generationId : result.generationId = next.generationId
  generationSha : result.generationSha256 = env.generationSha next
  eventId : result.eventId = event.eventId
  headEvent : next.headEventId = some event.eventId
  identifier : isIdentifier event.eventId = true
  stored : s.events (env.nfc event.eventId) = some (event.mapText env.nfc)
  operationKey : event.operationKey = trim (m.operationKey env)
  idempotencyKey : event.idempotencyKey = trim m.idempotencyKey
  object : s.objects event.taskSha256 = some (result.task.mapText env.nfc)

def Applied (env : TaskEnv) (m : Material) (result : TaskCommandResult) (s : TaskStore) : Prop :=
  ∃ next event, AppliedAs env m result s next event

section
attribute [local irreducible] wp
variable {env : TaskEnv} {s : TaskStore} {C : TaskStore → Prop}

abbrev callRule (C : TaskStore → Prop) : Discipline TaskStore Unit := sequential Unit C

variable {Q : Unit → TaskStore → Prop} {X : TaskFault → TaskStore → Prop}

theorem mayFail_wp {e : TaskFault} (hX : X e s) (h : Q () s) :
    wp (callRule C) (mayFail e) Q X s := by
  rw [mayFail, wp_seq, wp_any]
  intro failed
  exact wp_require _ (fun _ => h) (fun _ => hX)

theorem runCheck_wp {α : Type} {c : TaskCheck α} {Q : α → TaskStore → Prop} (hC : C s)
    (hX : X .osError s) (h : ∀ a, c s = .ok a → Q a s) (he : ∀ e, c s = .error e → X e s) :
    wp (callRule C) (runCheck c) Q X s := by
  rw [runCheck, wp_seq]
  apply mayFail_wp hX
  refine wp_sequential_attempt hC ?_ ?_
  · intro a s' ha
    split at ha
    next b hb =>
      obtain ⟨rfl, rfl⟩ := Prod.mk.inj (Except.ok.inj ha)
      exact ⟨hC, h b hb⟩
    next => cases ha
  · intro e ha
    split at ha
    next => cases ha
    next e' he' =>
      obtain rfl := Except.error.inj ha
      exact he e' he'

abbrev anyEnd : TaskFault → TaskStore → Prop := fun _ _ => True

theorem runCheck_returns {α : Type} {c : TaskCheck α} {Q : α → TaskStore → Prop}
    (h : ∀ a, c s = .ok a → Q a s) : wp (callRule fun _ => True) (runCheck c) Q anyEnd s :=
  runCheck_wp trivial trivial h fun _ _ => trivial

theorem publishTask_returns {sha : Sha256} {task : AgentTask}
    (h : ∀ s', Grows s s' → s'.objects sha = some task → Q () s') :
    wp (callRule fun _ => True) (publishTask sha task) Q anyEnd s := by
  rw [publishTask, wp_seq]
  apply mayFail_wp trivial
  refine wp_sequential_attempt trivial ?_ fun e _ => trivial
  intro _ s' ha
  split at ha
  next objects hobjects =>
    obtain ⟨_, rfl⟩ := Prod.mk.inj (Except.ok.inj ha)
    exact ⟨trivial, h _ ⟨publish_extends hobjects, extends_refl _, extends_refl _⟩
      (publish_get hobjects)⟩
  next => cases ha

theorem publishEvent_returns {event : TaskEvent}
    (h : ∀ s', Grows s s' → s'.events event.eventId = some event → Q () s') :
    wp (callRule fun _ => True) (publishEvent event) Q anyEnd s := by
  rw [publishEvent, wp_seq]
  apply mayFail_wp trivial
  refine wp_sequential_attempt trivial ?_ fun e _ => trivial
  intro _ s' ha
  split at ha
  next events hevents =>
    obtain ⟨_, rfl⟩ := Prod.mk.inj (Except.ok.inj ha)
    exact ⟨trivial, h _ ⟨extends_refl _, publish_extends hevents, extends_refl _⟩
      (publish_get hevents)⟩
  next => cases ha

theorem publishGeneration_returns {generation : TaskBoardGeneration}
    (h : ∀ s', Grows s s' → s'.generations generation.generationId = some generation → Q () s') :
    wp (callRule fun _ => True) (publishGeneration generation) Q anyEnd s := by
  rw [publishGeneration, wp_seq]
  apply mayFail_wp trivial
  refine wp_sequential_attempt trivial ?_ fun e _ => trivial
  intro _ s' ha
  split at ha
  next generations hgenerations =>
    obtain ⟨_, rfl⟩ := Prod.mk.inj (Except.ok.inj ha)
    exact ⟨trivial, h _ ⟨extends_refl _, extends_refl _, publish_extends hgenerations⟩
      (publish_get hgenerations)⟩
  next => cases ha

variable {generation : Option TaskBoardGeneration}

theorem commit_applied (m : Material) {r : CommitRequest}
    (hop : r.operationKey = m.operationKey env) (hkey : r.idempotencyKey = m.idempotencyKey) :
    wp (callRule fun _ => True) (commit env generation r) (Applied env m) anyEnd s := by
  rw [commit, wp_seq]
  apply publishTask_returns
  intro s₁ _ hobject
  rw [wp_seq]
  refine wp_ofOption _ (fun eventSeed hseed => ?_) fun _ => trivial
  obtain ⟨rfl, _⟩ := event_validate hseed
  rw [wp_seq]
  apply publishEvent_returns
  intro s₂ hgrows₂ hevent
  rw [wp_seq]
  refine wp_require _ (fun _ => ?_) fun _ => trivial
  rw [wp_seq]
  refine wp_ofOption _ (fun seed hgeneration => ?_) fun _ => trivial
  obtain ⟨rfl, _⟩ := validate_generation hgeneration
  rw [wp_seq]
  refine wp_require _ (fun _ => ?_) fun _ => trivial
  rw [wp_seq]
  apply publishGeneration_returns
  intro s₃ hgrows₃ hstored
  rw [wp_seq]
  apply runCheck_returns
  intro _ _
  rw [wp_seq]
  apply runCheck_returns
  intro current _
  rw [wp_seq]
  refine wp_require _ (fun _ => ?_) fun _ => trivial
  rw [wp_seq, replacePointer, wp_seq]
  apply mayFail_wp trivial
  rw [wp_seq]
  apply wp_sequential_set trivial
  apply mayFail_wp trivial
  rw [Prog.pure_eq, wp_pure]
  refine ⟨_, _, hstored, rfl, rfl, rfl, rfl, ?_, hgrows₃.events _ _ hevent, ?_, ?_,
    hgrows₃.objects _ _ (hgrows₂.objects _ _ hobject)⟩
  · exact isIdentifier_derivedId _ rfl (by decide) (by decide) (by decide)
  · rw [← hop]
    rfl
  · rw [← hkey]
    rfl

theorem withWriterLock_returns {body : TaskProg TaskCommandResult}
    {Q : TaskCommandResult → TaskStore → Prop} (h : wp (callRule fun _ => True) body Q anyEnd s) :
    wp (callRule fun _ => True) (withWriterLock body) Q anyEnd s := by
  rw [withWriterLock, wp_seq]
  apply mayFail_wp trivial
  apply (wp_tryFinally _ _ _ _ _ _).mpr
  apply wp_mono _ h
  · exact fun result s' hQ => mayFail_wp trivial hQ
  · exact fun e s' _ => mayFail_wp trivial trivial

theorem resultForEvent_found_only {event : TaskEvent} {P : TaskCommandResult → TaskStore → Prop} :
    wp (callRule fun _ => True) (runCheck (resultForEvent env generation event))
      (fun result s' => result.noOp = false → P result s') anyEnd s := by
  apply runCheck_returns
  intro result hresult hnew
  rw [resultForEvent_noOp hresult] at hnew
  cases hnew

theorem command_applied (c : TaskCommand) : wp (callRule fun _ => True) (c.prog env)
      (fun result s' => result.noOp = false → (∃ sensitivity, c.gate env s = .ok sensitivity) ∧
        ∃ idem, idempotencyId env c.key c.actor = .ok idem ∧
          Applied env (c.material env idem) result s') anyEnd s := by
  cases c with
  | create c =>
    rw [TaskCommand.prog, createTask, wp_seq]
    refine wp_ofExcept _ (fun now _ => ?_) fun _ _ => trivial
    rw [wp_seq]
    apply runCheck_returns
    intro sensitivity hgate
    rw [wp_seq]
    refine wp_ofExcept _ (fun idem hidem => ?_) fun _ _ => trivial
    apply withWriterLock_returns
    rw [wp_seq]
    apply runCheck_returns
    intro generation _
    rw [wp_seq]
    apply runCheck_returns
    intro existing _
    cases existing with
    | some event => exact resultForEvent_found_only
    | none =>
      rw [wp_seq]
      apply runCheck_returns
      intro _ _
      rw [wp_seq]
      apply runCheck_returns
      intro known _
      rw [wp_seq]
      refine wp_require _ (fun _ => ?_) fun _ => trivial
      rw [wp_seq]
      refine wp_require _ (fun _ => ?_) fun _ => trivial
      rw [wp_seq]
      refine wp_ofOption _ (fun task _ => ?_) fun _ => trivial
      apply wp_mono _ (commit_applied (TaskCommand.material env idem (.create c)) rfl rfl)
      · exact fun result s' happlied _ => ⟨⟨sensitivity, hgate⟩, idem, hidem, happlied⟩
      · exact fun _ _ _ => trivial
  | transition c =>
    rw [TaskCommand.prog, transitionTask, wp_seq]
    refine wp_ofExcept _ (fun now _ => ?_) fun _ _ => trivial
    rw [wp_seq]
    refine wp_ofExcept _ (fun idem hidem => ?_) fun _ _ => trivial
    rw [wp_seq]
    apply runCheck_returns
    intro sensitivity hgate
    apply withWriterLock_returns
    rw [wp_seq]
    apply runCheck_returns
    intro generation _
    rw [wp_seq]
    apply runCheck_returns
    intro existing _
    cases existing with
    | some event => exact resultForEvent_found_only
    | none =>
      rw [wp_seq]
      apply runCheck_returns
      intro _ _
      rw [wp_seq]
      apply runCheck_returns
      intro tasks _
      rw [wp_seq]
      refine wp_ofOption _ (fun current _ => ?_) fun _ => trivial
      rw [wp_seq]
      refine wp_require _ (fun _ => ?_) fun _ => trivial
      rw [wp_seq]
      refine wp_require _ (fun _ => ?_) fun _ => trivial
      rw [wp_seq]
      refine wp_require _ (fun _ => ?_) fun _ => trivial
      rw [wp_seq]
      refine wp_require _ (fun _ => ?_) fun _ => trivial
      rw [wp_seq]
      refine wp_ofOption _ (fun task _ => ?_) fun _ => trivial
      apply wp_mono _ (commit_applied (TaskCommand.material env idem (.transition c)) rfl rfl)
      · exact fun result s' happlied _ => ⟨⟨sensitivity, hgate⟩, idem, hidem, happlied⟩
      · exact fun _ _ _ => trivial
end

section
variable {env : TaskEnv} {s s₁ s₂ : TaskStore} {m : Material} {first : TaskCommandResult}

structure Remembers (env : TaskEnv) (m : Material) (first : TaskCommandResult)
    (link : ClosureLink) : Prop where
  operationKey : link.head.operationKey = m.operationKey env
  idempotencyKey : link.head.idempotencyKey = m.idempotencyKey
  generationId : link.generation.generationId = first.generationId
  generationSha : env.generationSha link.generation = first.generationSha256
  eventId : link.head.eventId = first.eventId
  task : link.task.mapText env.nfc = first.task.mapText env.nfc

theorem readEvent_data {eventId : String} {event : TaskEvent}
    (h : readEvent env eventId s = .ok event) :
    s.events eventId = some (event.mapText env.nfc) ∧ event.fieldsValid = true := by
  simp only [readEvent, bind_ok, read_ok, ofOption_ok, ensure_ok,
    pure_ok] at h
  obtain ⟨data, hdata, e, hvalid, _, ⟨hcanon, _⟩, rfl⟩ := h
  exact ⟨hcanon ▸ hdata, (event_validate hvalid).2⟩

theorem applied_remembered (hnfc : KeepsIdentifiers env.nfc)
    (hkey : isIdentifier m.idempotencyKey = true) {next : TaskBoardGeneration}
    {event : TaskEvent} (happlied : AppliedAs env m first s₁ next event) (hgrows : Grows s₁ s₂)
    {link : ClosureLink} (hread : LinkRead env s₂ link)
    (hevent : readEvent env link.head.eventId s₂ = .ok link.head)
    (hgeneration : link.generation = next) : Remembers env m first link := by
  have hid : link.head.eventId = event.eventId := by
    have hhead := hread.headEvent
    rw [hgeneration, happlied.headEvent] at hhead
    exact (Option.some.inj hhead).symm
  obtain ⟨hdata, hfields⟩ := readEvent_data hevent
  have hstored := hgrows.events _ _ happlied.stored
  rw [hnfc _ happlied.identifier, ← hid] at hstored
  have hsame : link.head.mapText env.nfc = event.mapText env.nfc :=
    Option.some.inj (hdata.symm.trans hstored)
  simp only [fieldsValid, Bool.and_eq_true] at hfields
  obtain ⟨⟨⟨⟨⟨_, _⟩, hopValid⟩, hkeyValid⟩, _⟩, _⟩ := hfields
  have hopId := isIdentifier_operationKey env m
  have hop : env.nfc link.head.operationKey = env.nfc event.operationKey :=
    congrArg operationKey hsame
  have hidem : env.nfc link.head.idempotencyKey = env.nfc event.idempotencyKey :=
    congrArg idempotencyKey hsame
  have hsha : link.head.taskSha256 = event.taskSha256 := by
    have hcongr := congrArg taskSha256 hsame
    exact hcongr
  rw [happlied.operationKey, trim_identifier hopId, hnfc _ hopId, hnfc _ hopValid] at hop
  rw [happlied.idempotencyKey, trim_identifier hkey, hnfc _ hkey, hnfc _ hkeyValid] at hidem
  have hobject := hgrows.objects _ _ happlied.object
  rw [← hsha, (readTask_spec hread.task).2.2.1] at hobject
  refine ⟨hop, hidem, ?_, ?_, hid.trans happlied.eventId.symm, Option.some.inj hobject⟩
  · rw [hgeneration, happlied.generationId]
  · rw [hgeneration, happlied.generationSha]

theorem later_remembered (hnfc : KeepsIdentifiers env.nfc) {c : TaskCommand}
    (hfirst : Exec (c.prog env) s (.returned first) s₁) (hnew : first.noOp = false)
    (hlater : Later env s₁ s₂) : ∃ idem, idempotencyId env c.key c.actor = .ok idem ∧
      ∃ current history, History env s₂ current history ∧
        ∃ link ∈ history, Remembers env (c.material env idem) first link := by
  obtain ⟨_, idem, hidem, next, event, happlied⟩ :=
    (exec_sound (command_applied c) trivial hfirst : _ → _) hnew
  refine ⟨idem, hidem, ?_⟩
  have hdone : Done env s first s₁ :=
    exec_sound (command_spec c s) (Or.inl ⟨grows_refl s, rfl⟩) hfirst
  rw [Done, hnew] at hdone
  obtain ⟨next', hnext', hid⟩ := hdone
  -- the committed generation is the one that the commit published
  have hsame : next' = next := by
    have hread := hnext'.read
    rw [← hid, happlied.generationId] at hread
    simp only [readGeneration, bind_ok, read_ok, ofOption_ok, ensure_ok,
      pure_ok] at hread
    obtain ⟨data, hdata, g, hvalid, _, _, _, _, rfl⟩ := hread
    obtain rfl := Option.some.inj (happlied.generation.symm.trans hdata)
    exact (validate_generation hvalid).1
  subst hsame
  have hbuilt : BuiltOn env s₁ next' := ⟨next', committed_readCurrent hnext', .self⟩
  obtain ⟨current, hcurrent, hancestor⟩ := later_builtOn hbuilt hlater
  obtain ⟨history, hhistory⟩ := history_exists hcurrent
  obtain ⟨link, hlink, hgeneration⟩ := history_link hhistory hancestor
  have hwalked := hhistory.2.1
  exact ⟨current, history, hhistory, link, hlink,
    applied_remembered hnfc (isIdentifier_idempotencyId hidem) happlied (later_grows hlater)
      (lineage_reads hwalked.lineage link hlink) (hwalked.events link hlink) hgeneration⟩

theorem gate_state (c : TaskCommand) (s s' : TaskStore) : c.gate env s = c.gate env s' := by
  have hdecision : ∀ decision, gateSensitivity decision s = gateSensitivity decision s' := by
    intro decision
    cases decision <;> rfl
  unfold TaskCommand.gate
  cases c.payload env with
  | create payload => exact hdecision _
  | transition payload => exact hdecision _

theorem committed_gate {c : TaskCommand} (hfirst : Exec (c.prog env) s (.returned first) s₁)
    (hnew : first.noOp = false) (s₂ : TaskStore) :
    ∃ sensitivity, c.gate env s₂ = .ok sensitivity := by
  obtain ⟨⟨sensitivity, hgate⟩, _⟩ :=
    (exec_sound (command_applied c) trivial hfirst : _ → _) hnew
  exact ⟨sensitivity, (gate_state c s₂ s).trans hgate⟩
end

end RaytSystem.Tasking
