import RaytSystem.RelyGuarantee
import RaytSystem.TaskClosure

/-! The commands of the task service. They hold the writer lock of the ledger, so they
run one after another; file accesses may fail and a process may be lost at each one. -/
namespace RaytSystem.Tasking
open Interleaving ImmutableStore TaskBoardGeneration PyText

abbrev TaskProg (α : Type) := Prog TaskStore Unit TaskFault α

def mayFail (e : TaskFault) : TaskProg Unit := do
  let failed ← Prog.any Bool
  Prog.require (failed = false) e

def runCheck {α : Type} (c : TaskCheck α) : TaskProg α := do
  mayFail .osError
  Prog.attempt () fun s => match c s with
    | .ok a => .ok (a,s)
    | .error e => .error e

def publicationFailed : TaskFault := .ledgerError "Task immutable object publication failed"

def publishTask (sha : Sha256) (task : AgentTask) : TaskProg Unit := do
  mayFail publicationFailed
  Prog.attempt () fun s => match publish s.objects sha task with
    | some objects => .ok ((), {s with objects := objects})
    | none => .error publicationFailed

def publishEvent (event : TaskEvent) : TaskProg Unit := do
  mayFail publicationFailed
  Prog.attempt () fun s => match publish s.events event.eventId event with
    | some events => .ok ((), {s with events := events})
    | none => .error publicationFailed

def publishGeneration (generation : TaskBoardGeneration) : TaskProg Unit := do
  mayFail publicationFailed
  Prog.attempt () fun s => match publish s.generations generation.generationId generation with
    | some generations => .ok ((), {s with generations := generations})
    | none => .error publicationFailed

def pointerCommitFailed : TaskFault := .ledgerError "Task board pointer commit failed"

/-- `write_bytes_atomic` of the pointer: the directory is synchronised after the file has
been replaced, and that may fail on its own. -/
def replacePointer (generationId : String) : TaskProg Unit := do
  mayFail pointerCommitFailed
  Prog.set () fun s => {s with pointer := some generationId}
  mayFail pointerCommitFailed

def withWriterLock {α : Type} (body : TaskProg α) : TaskProg α := do
  mayFail (.ledgerError "Task writer lock is unavailable")
  body.tryFinally (mayFail .osError)

inductive Clock where
  | naive
  | aware (micros : Int)
  deriving DecidableEq, Repr

def timestamp : Clock → Except TaskFault Int
  | .naive => .error (.rejected "Task timestamps must include a timezone")
  | .aware micros => .ok (micros / 1000)

structure TaskCommandResult where
  generationId : String
  generationSha256 : Sha256
  eventId : String
  task : AgentTask
  noOp : Bool

variable (env : TaskEnv)

def idempotencyId (value actor : String) : Except TaskFault String :=
  let cleaned := strip value
  if cleaned.isEmpty ∨ cleaned.utf8ByteSize > 512 ∨ cleaned.toList.contains (Char.ofNat 0) then
    .error (.rejected "Idempotency key is invalid")
  else .ok (derivedId "idem" (env.idempotencyDigest (env.nfc actor) (env.nfc cleaned)))

def findOperation (operationKey idempotencyKey : String) :
    Nat → List String → Option String → TaskCheck (Option TaskEvent)
  | _, _, none => pure none
  | 0, _, some _ => throw (.ledgerError "Task event chain is cyclic or exceeds limits")
  | rounds + 1, visited, some eventId => do
    ensure (eventId ∉ visited) "Task event chain is cyclic or exceeds limits"
    let event ← readEvent env eventId
    if event.operationKey = operationKey then pure (some event)
    else do
      Check.require (event.idempotencyKey ≠ idempotencyKey)
        (.conflict "Idempotency key was already used for another command")
      findOperation operationKey idempotencyKey rounds (eventId :: visited) event.previousEventId

def generationForEvent (eventId : String) :
    Nat → TaskBoardGeneration → TaskCheck TaskBoardGeneration
  | 0, _ => throw (.ledgerError "Idempotent result generation is not reachable")
  | rounds + 1, current =>
    if current.headEventId = some eventId then pure current
    else do
      let parentId ← Check.ofOption current.parentGenerationId
        (.ledgerError "Idempotent result generation is not reachable")
      let parent ← readGeneration env parentId
      generationForEvent eventId rounds parent

variable (generation : Option TaskBoardGeneration)

def resultForEvent (event : TaskEvent) : TaskCheck TaskCommandResult := do
  let generation ← Check.ofOption generation
    (.ledgerError "Reachable event requires a task generation")
  let result ← generationForEvent env event.eventId maxEvents generation
  ensure (result.taskHashes.get event.taskId = some event.taskSha256)
    "Idempotent task result is inconsistent"
  let task ← readTask env event.taskId event.taskSha256
  pure ⟨result.generationId, env.generationSha result, event.eventId, task, true⟩

def loadTasksOf : Option TaskBoardGeneration → TaskCheck (List AgentTask)
  | none => pure []
  | some generation => loadTasks env generation

def assertExpected (expectedGenerationId : Option String) : TaskCheck Unit :=
  Check.require (expectedGenerationId = generation.map generationId)
    (.conflict "Task board generation changed")

structure CommitRequest where
  task : AgentTask
  eventKind : TaskEventKind
  operationKey : String
  idempotencyKey : String
  actor : String
  timestamp : Int
  previousTaskSha256 : Option Sha256
  fromStatus : Option TaskStatus

variable (r : CommitRequest)

def CommitRequest.sha : Sha256 := env.taskSha (r.task.mapText env.nfc)

def CommitRequest.eventSeed : TaskEvent :=
  ⟨"tevt_pending", r.eventKind, r.task.taskId, r.operationKey, r.idempotencyKey,
    generation.bind headEventId, r.previousTaskSha256, r.sha env,
    r.fromStatus, r.task.status, r.actor, r.timestamp⟩

def CommitRequest.generationSeed (eventId : String) : TaskBoardGeneration where
  generationId := "tgen_pending"
  parentGenerationId := generation.map generationId
  parentGenerationSha256 := generation.map env.generationSha
  taskHashes := (generation.elim .empty taskHashes).set r.task.taskId
    (r.sha env)
  latestEventIds := (generation.elim .empty latestEventIds).set r.task.taskId
    eventId
  headEventId := some eventId
  eventCount := generation.elim 1 fun g => g.eventCount + 1
  createdAt := r.timestamp

def commit (generation : Option TaskBoardGeneration) (r : CommitRequest) :
    TaskProg TaskCommandResult := do
  publishTask (r.sha env) (r.task.mapText env.nfc)
  let eventSeed ← Prog.ofOption (r.eventSeed env generation).validate .validationError
  let event := {eventSeed with eventId := env.eventId eventSeed}
  publishEvent (event.mapText env.nfc)
  Prog.require (generation.elim 1 (fun g => g.eventCount + 1) ≤ maxEvents)
    (.rejected "Task board reached its configured event limit")
  let generationSeed ← Prog.ofOption (r.generationSeed env generation event.eventId).validate
    .validationError
  let next := {generationSeed with generationId := env.generationId generationSeed}
  Prog.require (env.generationBytes next ≤ maxGenerationBytes)
    (.rejected "Task board generation exceeds its safe size limit")
  publishGeneration next
  runCheck (validateGenerationClosure env next)
  let current ← runCheck (readCurrentGeneration env)
  Prog.require (current = generation) (.conflict "Task board changed before pointer commit")
  replacePointer next.generationId
  pure ⟨next.generationId, env.generationSha next, event.eventId, r.task, false⟩

structure CreateTask where
  title : String
  description : String
  priority : TaskPriority
  projectId : String
  missionId : Option String
  assigneeIds : List String
  skillIds : List String
  dependencyIds : List String
  tags : List String
  actor : String
  idempotencyKey : String
  expectedGenerationId : Option String
  now : Clock

def CreateTask.payload (c : CreateTask) : CreatePayload :=
  ⟨c.title, c.description, c.priority, c.projectId, c.missionId, sortedSet c.assigneeIds,
    sortedSet c.skillIds, sortedSet c.dependencyIds, sortedSet c.tags,
    c.actor⟩

def CreateTask.task (c : CreateTask) (taskId : String) (sensitivity : Sensitivity)
    (timestamp : Int) : AgentTask :=
  ⟨taskId, c.title, c.description, .inbox, c.priority, c.projectId, c.missionId,
    sortedSet c.assigneeIds, sortedSet c.skillIds, sortedSet c.dependencyIds,
    [], sortedSet c.tags, none, sensitivity, c.actor, 1, timestamp, timestamp, []⟩

def createTask (c : CreateTask) : TaskProg TaskCommandResult := do
  let now ← Prog.ofExcept (timestamp c.now)
  let sensitivity ← runCheck (gateSensitivity (env.scanCreate (c.payload.mapText env.nfc)))
  let idempotencyKey ← Prog.ofExcept (idempotencyId env c.idempotencyKey c.actor)
  let operationKey := env.createOperation idempotencyKey c.payload
  withWriterLock do
    let generation ← runCheck (readCurrentGeneration env)
    let existing ← runCheck (findOperation env operationKey idempotencyKey 100000 []
      (generation.bind headEventId))
    match existing with
    | some event => runCheck (resultForEvent env generation event)
    | none => do
      runCheck (assertExpected generation c.expectedGenerationId)
      let known ← runCheck (loadTasksOf env generation)
      Prog.require (known.length < maxTasks)
        (.rejected "Task board reached its configured task limit")
      Prog.require (∀ d ∈ c.dependencyIds, (findTask known d).isSome)
        (.rejected "Task dependencies must already exist")
      let task ← Prog.ofOption (c.task (env.taskId operationKey) sensitivity now).validate
        (.rejected "Task payload is invalid")
      commit env generation
        ⟨task, .created, operationKey, idempotencyKey, c.actor, now, none, none⟩

structure TransitionTask where
  taskId : String
  target : TaskStatus
  actor : String
  idempotencyKey : String
  expectedGenerationId : String
  blockedReason : Option String
  now : Clock

variable (c : TransitionTask)

def TransitionTask.payload : TransitionPayload :=
  ⟨c.actor, c.blockedReason, c.taskId, c.target⟩

def TransitionTask.next (current : AgentTask) (timestamp : Int) : AgentTask :=
  {current with
    status := c.target
    blockedReason := if c.target = .blocked then c.blockedReason else none
    revision := current.revision + 1
    updatedAt := timestamp}

def transitionTask : TaskProg TaskCommandResult := do
  let now ← Prog.ofExcept (timestamp c.now)
  let idempotencyKey ← Prog.ofExcept (idempotencyId env c.idempotencyKey c.actor)
  let _ ← runCheck (gateSensitivity (env.scanTransition (c.payload.mapText env.nfc)))
  let operationKey := env.transitionOperation idempotencyKey c.payload
  withWriterLock do
    let generation ← runCheck (readCurrentGeneration env)
    let existing ← runCheck (findOperation env operationKey idempotencyKey 100000 []
      (generation.bind headEventId))
    match existing with
    | some event => runCheck (resultForEvent env generation event)
    | none => do
      runCheck (assertExpected generation (some c.expectedGenerationId))
      let tasks ← runCheck (loadTasksOf env generation)
      let current ← Prog.ofOption (findTask tasks c.taskId) (.rejected "Unknown task")
      Prog.require (c.target ∈ current.status.transitions)
        (.rejected s!"Illegal task transition: {current.status.value} -> {c.target.value}")
      Prog.require (c.target.gated = true → ∀ d ∈ current.dependencyIds, (findTask tasks d).isSome)
        (.ledgerError "Task dependency index is inconsistent")
      Prog.require (c.target.gated = true → dependenciesDone tasks current = true)
        (.rejected "Task dependencies are not complete")
      Prog.require (current.updatedAt ≤ now)
        (.rejected "Task transition timestamp cannot move backwards")
      let task ← Prog.ofOption (c.next current now).validate
        (.rejected "Task transition payload is invalid")
      commit env generation
        ⟨task, if c.target = .cancelled then .cancelled else .transitioned, operationKey,
          idempotencyKey, c.actor, now,
          generation.bind (fun g => g.taskHashes.get c.taskId), some current.status⟩

inductive TaskCommand where
  | create (c : CreateTask)
  | transition (c : TransitionTask)

def TaskCommand.prog : TaskCommand → TaskProg TaskCommandResult
  | .create c => createTask env c
  | .transition c => transitionTask env c

end RaytSystem.Tasking
