import RaytSystem.ProgramReturns
import RaytSystem.TaskFiling

/-! Requests that pass every check of their writer, and what the validation of the new
generation asks of them beyond that. -/
namespace RaytSystem.Tasking
open Interleaving ImmutableStore Prog PyText TaskBoardGeneration

section
variable (env : TaskEnv)

def CommitRequest.event (generation : Option TaskBoardGeneration) (r : CommitRequest) : TaskEvent :=
  let seed := (r.eventSeed env generation).mapText trim
  {seed with eventId := env.eventId seed}

def CommitRequest.next (generation : Option TaskBoardGeneration) (r : CommitRequest) :
    TaskBoardGeneration :=
  let seed := r.generationSeed env generation (r.event env generation).eventId
  {seed with generationId := env.generationId seed}

def TaskCommand.expected : TaskCommand → Option String
  | create c => c.expectedGenerationId
  | transition c => some c.expectedGenerationId

def TaskCommand.stored : TaskCommand → CommandPayload
  | create c => .create ((c.payload.mapText trim).mapText env.nfc)
  | transition c =>
    let kept := if c.target = .blocked then c.blockedReason else none
    .transition (({c.payload with blockedReason := kept}.mapText trim).mapText env.nfc)

variable (s : TaskStore) (generation : Option TaskBoardGeneration) (known : List AgentTask)

structure Begun (c : TaskCommand) (now : Int) (idem : String) (sensitivity : Sensitivity) :
    Prop where
  clock : timestamp c.clock = .ok now
  gate : c.gate env s = .ok sensitivity
  key : idempotencyId env c.key c.actor = .ok idem
  board : readCurrentGeneration env s = .ok generation
  unused : findOperation env ((c.material env idem).operationKey env) idem 100000 []
    (generation.bind headEventId) s = .ok none
  expected : assertExpected generation c.expected s = .ok ()
  known : loadTasksOf env generation s = .ok known

inductive Admitted : TaskCommand → CommitRequest → Prop where
  | create {c : CreateTask} {now : Int} {idem : String} {sensitivity : Sensitivity}
      {task : AgentTask} (begun : Begun env s generation known (.create c) now idem sensitivity)
      (limit : known.length < maxTasks)
      (dependencies : ∀ d ∈ c.dependencyIds, (findTask known d).isSome)
      (valid : (c.task (env.taskId (env.createOperation idem c.payload)) sensitivity now).validate =
        some task) :
      Admitted (.create c) ⟨task, .created, env.createOperation idem c.payload, idem, c.actor, now,
        none, none⟩
  | transition {c : TransitionTask} {now : Int} {idem : String} {sensitivity : Sensitivity}
      {current task : AgentTask}
      (begun : Begun env s generation known (.transition c) now idem sensitivity)
      (found : findTask known c.taskId = some current)
      (allowed : c.target ∈ current.status.transitions)
      (dependencies : c.target.gated = true → ∀ d ∈ current.dependencyIds, (findTask known d).isSome)
      (done : c.target.gated = true → dependenciesDone known current = true)
      (clock : current.updatedAt ≤ now) (valid : (c.next current now).validate = some task) :
      Admitted (.transition c) ⟨task, if c.target = .cancelled then .cancelled else .transitioned,
        env.transitionOperation idem c.payload, idem, c.actor, now,
        generation.bind (fun g => g.taskHashes.get c.taskId), some current.status⟩

structure Sealed (r : CommitRequest) : Prop where
  eventValid : (r.eventSeed env generation).validate.isSome
  limit : generation.elim 1 (fun g => g.eventCount + 1) ≤ maxEvents
  boardValid : (r.generationSeed env generation (r.event env generation).eventId).validate.isSome
  size : env.generationBytes (r.next env generation) ≤ maxGenerationBytes

structure Apart (c : TaskCommand) (r : CommitRequest) : Prop where
  objects : ∀ sha t, s.objects sha = some t → env.taskSha t = r.sha env → t = r.task.mapText env.nfc
  events : ∀ id e, s.events id = some e → env.eventId e = (r.event env generation).eventId →
    e.identityPayload = (r.event env generation).identityPayload
  generations : ∀ id g, s.generations id = some g →
    env.generationId g = (r.next env generation).generationId →
    g.identityPayload = (r.next env generation).identityPayload
  taskIds : ∀ id e, s.events id = some e → env.taskId e.operationKey = env.taskId r.operationKey →
    e.operationKey = r.operationKey
  operation : Material.operationKey env ⟨r.idempotencyKey, c.stored env⟩ = r.operationKey →
    c.stored env = c.payload env

def withTask : List AgentTask → AgentTask → List AgentTask
  | [], task => [task]
  | t :: rest, task => if t.taskId = task.taskId then task :: rest else t :: withTask rest task

/-- What the validation asks of a request beyond the checks of its writer: stripping and the
state machine keep every text of the arguments, the stored task reads back and passes the
scanner, the board is not newer than the request, and the walk along the dependencies stays
within the bound on nested calls. -/
structure Accords (c : TaskCommand) (r : CommitRequest) : Prop where
  texts : c.stored env = c.payload env
  bytes : env.taskBytes (r.task.mapText env.nfc) ≤ maxTaskBytes
  readsBack : ∃ task, (r.task.mapText env.nfc).validate = some task ∧
    task.mapText env.nfc = r.task.mapText env.nfc
  scanned : ∃ sensitivity, gateSensitivity (env.scanTask (r.task.mapText env.nfc)) s =
    .ok sensitivity
  clock : ∀ g ∈ generation, g.createdAt ≤ r.timestamp
  walk : ∃ visited, visitAll (visit (withTask known r.task) env.recursionLimit [])
    (sorted ((withTask known r.task).map AgentTask.taskId)) [] s = .ok visited

def Commits (c : TaskCommand) : Prop :=
  ∃ result s', Exec (c.prog env) s (.returned result) s' ∧ result.noOp = false
end

section
variable {env : TaskEnv} {s s' : TaskStore} {α β : Type} {b : β} {e : TaskFault}

theorem returns_mayFail {u : Unit} : Returns (mayFail e) s u s' ↔ s = s' := by
  simp only [mayFail, bind_eq, returns_bind, returns_any, returns_require]
  constructor
  · rintro ⟨_, _, rfl, _, rfl⟩
    rfl
  · rintro rfl
    exact ⟨false, s, rfl, rfl, rfl⟩

variable {a : α}

theorem returns_runCheck {c : TaskCheck α} :
    Returns (runCheck c) s a s' ↔ c s = .ok a ∧ s = s' := by
  simp only [runCheck, bind_eq, returns_bind, returns_mayFail, returns_attempt]
  constructor
  · rintro ⟨_, _, rfl, h⟩
    split at h
    next ha =>
      obtain ⟨rfl, rfl⟩ := Prod.mk.inj (Except.ok.inj h)
      exact ⟨ha, rfl⟩
    next => cases h
  · rintro ⟨ha, rfl⟩
    refine ⟨(), s, rfl, ?_⟩
    rw [ha]

theorem returns_withWriterLock {body : TaskProg α} :
    Returns (withWriterLock body) s a s' ↔ Returns body s a s' := by
  simp only [withWriterLock, bind_eq, returns_bind, returns_mayFail, returns_tryFinally]
  simp

theorem check_then {c : TaskCheck α} {g : α → TaskProg β} (h : c s = .ok a) :
    Returns ((runCheck c).bind g) s b s' ↔ Returns (g a) s b s' := by
  simp [returns_bind, returns_runCheck, h]

variable {g : Unit → TaskProg β}

theorem require_then {p : Prop} [Decidable p] (h : p) :
    Returns ((require p e).bind g) s b s' ↔ Returns (g ()) s b s' := by
  have hunit : (∃ u : Unit, Returns (g u) s b s') ↔ Returns (g ()) s b s' :=
    ⟨fun ⟨_, hg⟩ => hg, fun hg => ⟨(), hg⟩⟩
  simp [returns_bind, returns_require, h, hunit]

theorem option_then {x : Option α} {g : α → TaskProg β} (h : x = some a) :
    Returns ((ofOption x e).bind g) s b s' ↔ Returns (g a) s b s' := by
  simp [returns_bind, returns_ofOption, h]

theorem except_then {x : Except TaskFault α} {g : α → TaskProg β} (h : x = .ok a) :
    Returns ((ofExcept x).bind g) s b s' ↔ Returns (g a) s b s' := by
  simp [returns_bind, returns_ofExcept, h]

variable {generation : Option TaskBoardGeneration} {r : CommitRequest}

theorem command_returns {known : List AgentTask} {c : TaskCommand} {result : TaskCommandResult}
    (h : Admitted env s generation known c r) :
    Returns (c.prog env) s result s' ↔ Returns (commit env generation r) s result s' := by
  cases h with
  | @create c now idem sensitivity task begun limit dependencies valid =>
    have hnow : timestamp c.now = .ok now := begun.clock
    have hgate : gateSensitivity (env.scanCreate (c.payload.mapText env.nfc)) s = .ok sensitivity :=
      begun.gate
    have hidem : idempotencyId env c.idempotencyKey c.actor = .ok idem := begun.key
    have hunused : findOperation env (env.createOperation idem c.payload) idem 100000 []
        (generation.bind headEventId) s = .ok none := begun.unused
    have hexpected : assertExpected generation c.expectedGenerationId s = .ok () := begun.expected
    simp only [TaskCommand.prog, createTask, bind_eq]
    rw [except_then hnow, check_then hgate, except_then hidem, returns_withWriterLock,
      check_then begun.board, check_then hunused]
    simp only
    rw [check_then hexpected, check_then begun.known, require_then limit, require_then dependencies,
      option_then valid]
  | @transition c now idem sensitivity current task begun found allowed dependencies done clock
      valid =>
    have hnow : timestamp c.now = .ok now := begun.clock
    have hgate : gateSensitivity (env.scanTransition (c.payload.mapText env.nfc)) s =
      .ok sensitivity := begun.gate
    have hidem : idempotencyId env c.idempotencyKey c.actor = .ok idem := begun.key
    have hunused : findOperation env (env.transitionOperation idem c.payload) idem 100000 []
        (generation.bind headEventId) s = .ok none := begun.unused
    have hexpected : assertExpected generation (some c.expectedGenerationId) s = .ok () :=
      begun.expected
    simp only [TaskCommand.prog, transitionTask, bind_eq]
    rw [except_then hnow, except_then hidem, check_then hgate, returns_withWriterLock,
      check_then begun.board, check_then hunused]
    simp only
    rw [check_then hexpected, check_then begun.known, option_then found, require_then allowed,
      require_then dependencies, require_then done, require_then clock, option_then valid]

theorem write_then {f : TaskStore → Except TaskFault (Unit × TaskStore)} {s₁ : TaskStore}
    (h : f s = .ok ((),s₁)) :
    Returns (((mayFail e).bind fun _ => attempt () f).bind g) s b s' ↔
      Returns (g ()) s₁ b s' := by
  simp only [returns_bind, returns_mayFail, returns_attempt]
  constructor
  · rintro ⟨_, _, ⟨_, _, rfl, hstep⟩, hg⟩
    obtain ⟨_, rfl⟩ := Prod.mk.inj (Except.ok.inj (h.symm.trans hstep))
    exact hg
  · exact fun hg => ⟨(), s₁, ⟨(), s, rfl, h⟩, hg⟩

theorem publishTask_then {sha : Sha256} {task : AgentTask} {objects : Store Sha256 AgentTask}
    (h : publish s.objects sha task = some objects) :
    Returns ((publishTask sha task).bind g) s b s' ↔
      Returns (g ()) {s with objects := objects} b s' := by
  apply write_then
  rw [h]

theorem publishEvent_then {event : TaskEvent} {events : Store String TaskEvent}
    (h : publish s.events event.eventId event = some events) :
    Returns ((publishEvent event).bind g) s b s' ↔
      Returns (g ()) {s with events := events} b s' := by
  apply write_then
  rw [h]

theorem publishGeneration_then {next : TaskBoardGeneration}
    {generations : Store String TaskBoardGeneration}
    (h : publish s.generations next.generationId next = some generations) :
    Returns ((publishGeneration next).bind g) s b s' ↔
      Returns (g ()) {s with generations := generations} b s' := by
  apply write_then
  rw [h]

theorem returns_replacePointer {id : String} {u : Unit} :
    Returns (replacePointer id) s u s' ↔ {s with pointer := some id} = s' := by
  simp only [replacePointer, bind_eq, returns_bind, returns_mayFail, returns_set]
  simp

theorem seed_event (h : Sealed env generation r) :
    (r.eventSeed env generation).validate = some ((r.eventSeed env generation).mapText trim) := by
  obtain ⟨seed, hseed⟩ := Option.isSome_iff_exists.mp h.eventValid
  rw [hseed, (event_validate hseed).1]

theorem event_eq : r.event env generation = {(r.eventSeed env generation).mapText trim with
      eventId := env.eventId ((r.eventSeed env generation).mapText trim)} := rfl

theorem seed_generation (h : Sealed env generation r) :
    (r.generationSeed env generation (r.event env generation).eventId).validate =
      some (r.generationSeed env generation (r.event env generation).eventId) := by
  obtain ⟨seed, hseed⟩ := Option.isSome_iff_exists.mp h.boardValid
  rw [hseed, (validate_generation hseed).1]

structure Published (env : TaskEnv) (generation : Option TaskBoardGeneration) (r : CommitRequest)
    (s s' : TaskStore) : Prop where
  before : Before s s'
  object : s'.objects (r.sha env) = some (r.task.mapText env.nfc)
  event : s'.events (r.event env generation).eventId = some (r.event env generation)
  eventsFrom : ∀ id e, s'.events id = some e → s.events id = some e ∨ e = r.event env generation
  generationsFrom : ∀ id g, s'.generations id = some g →
    s.generations id = some g ∨ g = r.next env generation

theorem commit_returns {c : TaskCommand} (hnfc : KeepsIdentifiers env.nfc) (hfiled : Filed env s)
    (hread : readCurrentGeneration env s = .ok generation) (hsealed : Sealed env generation r)
    (hapart : Apart env s generation c r) : ∃ s₁, Published env generation r s s₁ ∧
      ((∃ result s', Returns (commit env generation r) s result s' ∧ result.noOp = false) ↔
        validateGenerationClosure env (r.next env generation) s₁ = .ok ()) := by
  obtain ⟨objects, hobjects⟩ : ∃ objects,
      publish s.objects (r.sha env) (r.task.mapText env.nfc) = some objects :=
    publish_same fun t ht => hapart.objects _ t ht (hfiled.tasks _ t ht)
  obtain ⟨events, hevents⟩ : ∃ events,
      publish s.events (r.event env generation).eventId (r.event env generation) = some events := by
    refine publish_same fun e he => ?_
    obtain ⟨hid, hdigest⟩ := hfiled.events _ e he
    have hsame := congrArg (fun x : TaskEvent => {x with eventId := (r.event env generation).eventId})
      (hapart.events _ e he hdigest)
    have heta : e = {e with eventId := (r.event env generation).eventId} := by rw [← hid]
    exact heta.trans hsame
  obtain ⟨generations, hgenerations⟩ : ∃ generations,
      publish s.generations (r.next env generation).generationId (r.next env generation) =
        some generations := by
    refine publish_same fun g hg => ?_
    obtain ⟨hid, hdigest⟩ := hfiled.generations _ g hg
    have hsame := congrArg
      (fun x : TaskBoardGeneration => {x with generationId := (r.next env generation).generationId})
      (hapart.generations _ g hg hdigest)
    have heta : g = {g with generationId := (r.next env generation).generationId} := by rw [← hid]
    exact heta.trans hsame
  have hgrows : Grows s ⟨objects,events,generations,s.pointer⟩ :=
    ⟨publish_extends hobjects, publish_extends hevents, publish_extends hgenerations⟩
  have hbefore : Before s ⟨objects,events,generations,s.pointer⟩ := ⟨hgrows, rfl⟩
  refine ⟨⟨objects,events,generations,s.pointer⟩, ⟨hbefore, publish_get hobjects,
    publish_get hevents, ?_, ?_⟩, ?_⟩
  · exact fun id e he => (publish_cases hevents he).imp_right And.right
  · exact fun id g hg => (publish_cases hgenerations hg).imp_right And.right
  have hcommit : ∀ result s', Returns (commit env generation r) s result s' ↔
      Returns ((runCheck (validateGenerationClosure env (r.next env generation))).bind fun _ =>
        (runCheck (readCurrentGeneration env)).bind fun current =>
        (require (current = generation)
          (.conflict "Task board changed before pointer commit")).bind fun _ =>
        (replacePointer (r.next env generation).generationId).bind fun _ =>
        .pure ⟨(r.next env generation).generationId, env.generationSha (r.next env generation),
          (r.event env generation).eventId, r.task, false⟩)
        ⟨objects,events,generations,s.pointer⟩ result s' := by
    intro result s'
    simp only [commit, bind_eq]
    rw [publishTask_then hobjects, option_then (seed_event hsealed)]
    rw [sealed_event hnfc (seed_event hsealed), ← event_eq]
    refine (publishEvent_then (s := {s with objects := objects}) hevents).trans ?_
    refine (require_then hsealed.limit).trans ?_
    refine (option_then (seed_generation hsealed)).trans ?_
    refine (require_then hsealed.size).trans ?_
    exact publishGeneration_then (s := ⟨objects,events,s.generations,s.pointer⟩) hgenerations
  have hcurrent := before_readCurrent hbefore hread
  simp only [hcommit]
  constructor
  · rintro ⟨result, s', h, _⟩
    obtain ⟨_, _, hcheck, _⟩ := returns_bind.mp h
    exact (returns_runCheck.mp hcheck).1
  · intro hclosure
    refine ⟨⟨(r.next env generation).generationId, env.generationSha (r.next env generation),
      (r.event env generation).eventId, r.task, false⟩,
      ⟨objects,events,generations,some (r.next env generation).generationId⟩, ?_, rfl⟩
    rw [check_then hclosure, check_then hcurrent, require_then rfl, returns_bind]
    exact ⟨(), _, returns_replacePointer.mpr rfl, returns_pure.mpr ⟨rfl, rfl⟩⟩
end

end RaytSystem.Tasking
