import RaytSystem.TaskModel

/-! The reads of the task ledger and the closure validation of a generation. -/
namespace RaytSystem.Tasking
open ImmutableStore Check

abbrev TaskCheck (α : Type) := Check TaskStore TaskFault α

def ensure (b : Prop) [Decidable b] (message : String) : TaskCheck Unit :=
  require b (.ledgerError message)

variable (env : TaskEnv)

def readTask (taskId : String) (taskSha256 : Sha256) : TaskCheck AgentTask := do
  let data ← read (fun s => s.objects taskSha256)
    (.ledgerError "Task object is unsafe or invalid")
  ensure (env.taskBytes data ≤ maxTaskBytes) "Task object is unsafe or invalid"
  let task ← ofOption data.validate (.ledgerError "Task object is unsafe or invalid")
  ensure (env.taskSha data = taskSha256 ∧ data = task.mapText env.nfc ∧ task.taskId = taskId)
    "Task object integrity failed"
  pure task

def readEvent (eventId : String) : TaskCheck TaskEvent := do
  let data ← read (fun s => s.events eventId)
    (.ledgerError "Task event is unsafe or invalid")
  let event ← ofOption data.validate (.ledgerError "Task event is unsafe or invalid")
  ensure (data = event.mapText env.nfc ∧ event.eventId = eventId ∧
    event.eventId = env.eventId event) "Task event integrity failed"
  pure event

def readGeneration (generationId : String) : TaskCheck TaskBoardGeneration := do
  let data ← read (fun s => s.generations generationId)
    (.ledgerError "Task board generation is unsafe or invalid")
  let generation ← ofOption data.validate
    (.ledgerError "Task board generation is unsafe or invalid")
  ensure (env.generationBytes data ≤ maxGenerationBytes ∧
    generation.generationId = env.generationId generation)
    "Task board generation integrity failed"
  ensure (generation.generationId = generationId) "Task board generation identity mismatch"
  pure generation

variable (generation : TaskBoardGeneration)

def loadTasks : TaskCheck (List AgentTask) :=
  collect (fun kv => readTask env kv.1 kv.2) generation.taskHashes.entries

def gateSensitivity (decision : Except Unit ScanDecision) : TaskCheck Sensitivity :=
  match decision with
  | .error () => throw (.rejected "Task sensitivity scanner failed closed")
  | .ok d => do
    require (d.blocksProcessing = false ∧
      (d.sensitivity = .internal ∨ d.sensitivity = .publicData))
      (.rejected "Task payload failed the sensitivity gate")
    pure d.sensitivity

variable (tasks : List AgentTask)

def findTask (taskId : String) : Option AgentTask :=
  tasks.find? (·.taskId == taskId)

def dependenciesDone (task : AgentTask) : Bool :=
  task.dependencyIds.all fun d => (findTask tasks d).any (·.status == .done)

def checkTaskGates (task : AgentTask) : TaskCheck Unit := do
  ensure (∀ d ∈ task.dependencyIds, (findTask tasks d).isSome)
    "Task dependency index is inconsistent"
  ensure (task.status.gated = true → dependenciesDone tasks task = true)
    "Ready task has incomplete dependencies"

def visitAll (visitOne : String → List String → TaskCheck (List String)) :
    List String → List String → TaskCheck (List String)
  | [], visited => pure visited
  | taskId :: rest, visited => do
    let visited ← visitOne taskId visited
    visitAll visitOne rest visited

def visit (tasks : List AgentTask) : Nat → List String → String → List String →
    TaskCheck (List String)
  | 0, _, _, _ => throw .recursionError
  | depth + 1, visiting, taskId, visited => do
    ensure (taskId ∉ visiting) "Task dependency graph is cyclic"
    if taskId ∈ visited then pure visited
    else do
      let task ← ofOption (findTask tasks taskId) (.ledgerError taskId)
      let visited ← visitAll (visit tasks depth (taskId :: visiting)) task.dependencyIds visited
      pure (visited ++ [taskId])

def validateTaskGraph : TaskCheck Unit := do
  each (checkTaskGates tasks) tasks
  let _ ← visitAll (visit tasks env.recursionLimit [])
    (PyText.sorted (tasks.map AgentTask.taskId)) []
  pure ()

def checkLatestEvent (kv : String × String) : TaskCheck Unit := do
  let event ← readEvent env kv.2
  ensure (event.taskId = kv.1 ∧ generation.taskHashes.get kv.1 = some event.taskSha256)
    "Task board latest-event index is inconsistent"
  let task ← readTask env kv.1 event.taskSha256
  ensure (event.toStatus = task.status) "Task board latest event disagrees with task status"

variable (event : TaskEvent)

def createPayloadOf (task : AgentTask) : CreatePayload :=
  ⟨task.title, task.description, task.priority, task.projectId, task.missionId, task.assigneeIds,
    task.skillIds, task.dependencyIds, task.tags, event.actor⟩

def transitionPayloadOf (task : AgentTask) : TransitionPayload :=
  ⟨event.actor, task.blockedReason, task.taskId, task.status⟩

def validateCreatedEvent (task : AgentTask) (parent : Option TaskBoardGeneration) :
    TaskCheck Unit := do
  let payload := createPayloadOf event task
  let recovered ← gateSensitivity (env.scanCreate (payload.mapText env.nfc))
  let _ ← gateSensitivity (env.scanTask (task.mapText env.nfc))
  ensure (event.operationKey = env.createOperation event.idempotencyKey payload ∧
    task.taskId = env.taskId event.operationKey ∧ task.status = .inbox ∧
    task.createdBy = event.actor ∧ task.createdAt = event.createdAt ∧
    task.updatedAt = event.createdAt ∧ task.sensitivity = recovered ∧ task.artifactIds = [] ∧
    task.extensions = [] ∧
    ∀ d ∈ task.dependencyIds, ∃ p ∈ parent, d ∈ p.taskHashes.keys)
    "Created task event semantics are invalid"

def sameImmutableFields (previous task : AgentTask) : Prop :=
  {previous with
    status := task.status
    blockedReason := task.blockedReason
    revision := task.revision
    updatedAt := task.updatedAt} = task

instance (previous task : AgentTask) : Decidable (sameImmutableFields previous task) := by
  unfold sameImmutableFields
  infer_instance

def checkDependencyDone (dependencyId : String) : TaskCheck Unit := do
  let sha ← ofOption (generation.taskHashes.get dependencyId)
    (.ledgerError "Task transition dependency is missing")
  let dependency ← readTask env dependencyId sha
  ensure (dependency.status = .done) "Task transition dependency was incomplete"

def validateTransitionEvent (previous task : AgentTask) (generation : TaskBoardGeneration) :
    TaskCheck Unit := do
  let payload := transitionPayloadOf event task
  let _ ← gateSensitivity (env.scanTransition (payload.mapText env.nfc))
  let _ ← gateSensitivity (env.scanTask (task.mapText env.nfc))
  ensure (task.status ∈ previous.status.transitions ∧
    event.operationKey = env.transitionOperation event.idempotencyKey payload ∧
    sameImmutableFields previous task) "Task transition semantics are invalid"
  if task.status.gated = true then
    each (checkDependencyDone env generation) task.dependencyIds
  else pure ()

def changedKeys {ν : Type} [DecidableEq ν] (current parent : PyDict String ν) : List String :=
  (current.entries.filter fun kv => parent.get kv.1 ≠ some kv.2).map Prod.fst

def isSingle (keys : List String) (key : String) : Prop := key ∈ keys ∧ ∀ k ∈ keys, k = key

instance (keys : List String) (key : String) : Decidable (isSingle keys key) := by
  unfold isSingle
  infer_instance

structure ClosureLink where
  generation : TaskBoardGeneration
  head : TaskEvent
  task : AgentTask

def readLink (current : TaskBoardGeneration) (head : TaskEvent) : TaskCheck ClosureLink := do
  ensure (current.latestEventIds.get head.taskId = some head.eventId)
    "Task generation head is not the latest task event"
  ensure (current.taskHashes.get head.taskId = some head.taskSha256)
    "Task generation head references the wrong task object"
  let task ← readTask env head.taskId head.taskSha256
  ensure (task.status = head.toStatus ∧ task.updatedAt = head.createdAt)
    "Task event and task revision disagree"
  ensure (current.createdAt = head.createdAt)
    "Task generation and head event timestamps disagree"
  pure ⟨current, head, task⟩

def checkRoot (link : ClosureLink) : TaskCheck Unit := do
  ensure (link.generation.parentGenerationSha256 = none ∧ link.generation.eventCount = 1 ∧
    link.generation.taskHashes.size = 1 ∧ link.head.previousEventId = none ∧
    link.head.eventKind = .created ∧ link.task.revision = 1)
    "Root task generation closure is invalid"
  validateCreatedEvent env link.head link.task none

def checkChild (link : ClosureLink) (parent : TaskBoardGeneration) : TaskCheck Unit := do
  let current := link.generation
  let head := link.head
  ensure (current.parentGenerationSha256 = some (env.generationSha parent))
    "Task parent generation hash mismatch"
  ensure (current.eventCount = parent.eventCount + 1)
    "Task generation event count is inconsistent"
  ensure (parent.createdAt ≤ current.createdAt) "Task generation timestamp moved backwards"
  ensure (head.previousEventId = parent.headEventId)
    "Task event history does not follow generation ancestry"
  ensure ((∀ k ∈ parent.taskHashes.keys, k ∈ current.taskHashes.keys) ∧
    isSingle (changedKeys current.taskHashes parent.taskHashes) head.taskId ∧
    isSingle (changedKeys current.latestEventIds parent.latestEventIds) head.taskId)
    "Task generation must change exactly its head task"
  if head.eventKind = .created then do
    ensure (head.taskId ∉ parent.taskHashes.keys ∧ link.task.revision = 1)
      "Created task event already exists in its parent"
    validateCreatedEvent env head link.task (some parent)
  else do
    ensure (parent.taskHashes.get head.taskId = head.previousTaskSha256 ∧
      head.previousTaskSha256.isSome) "Task transition prior object is inconsistent"
    let parentSha ← ofOption head.previousTaskSha256
      (.ledgerError "Task transition prior object is inconsistent")
    let previous ← readTask env head.taskId parentSha
    ensure (head.fromStatus = some previous.status ∧ link.task.revision = previous.revision + 1 ∧
      link.task.createdAt = previous.createdAt ∧ previous.updatedAt ≤ link.task.updatedAt)
      "Task revision history is inconsistent"
    validateTransitionEvent env head previous link.task current

structure ClosureSeen where
  generations : List String
  events : List String
  operationKeys : List String
  idempotencyKeys : List String

/-- The walk of `_validate_generation_closure` along the parents. It returns the number of
generations it met; the rounds it may still make bound it. -/
def walkClosure : Nat → ClosureSeen → TaskBoardGeneration → TaskCheck Nat
  | 0, _, _ => throw (.ledgerError "Task generation ancestry is cyclic or exceeds limits")
  | rounds + 1, seen, current => do
    ensure (current.generationId ∉ seen.generations)
      "Task generation ancestry is cyclic or exceeds limits"
    let headId ← ofOption current.headEventId
      (.ledgerError "Task generation has no head event")
    ensure (headId ∉ seen.events) "Task event history is cyclic"
    let head ← readEvent env headId
    ensure (head.operationKey ∉ seen.operationKeys ∧ head.idempotencyKey ∉ seen.idempotencyKeys)
      "Task event command identity is duplicated"
    let link ← readLink env current head
    match current.parentGenerationId with
    | none => do
      checkRoot env link
      pure 1
    | some parentId => do
      let parent ← readGeneration env parentId
      checkChild env link parent
      let steps ← walkClosure rounds ⟨current.generationId :: seen.generations,
        headId :: seen.events, head.operationKey :: seen.operationKeys,
        head.idempotencyKey :: seen.idempotencyKeys⟩ parent
      pure (steps + 1)

def validateGenerationClosure : TaskCheck Unit := do
  let tasks ← loadTasks env generation
  validateTaskGraph env tasks
  each (checkLatestEvent env generation) generation.latestEventIds.entries
  let steps ← walkClosure env maxEvents ⟨[], [], [], []⟩ generation
  ensure (steps = generation.eventCount) "Task generation ancestry length is inconsistent"

def readCurrentGeneration : TaskCheck (Option TaskBoardGeneration) := do
  let pointer ← fun s => .ok s.pointer
  match pointer with
  | none => pure none
  | some generationId => do
    ensure (PyText.startsWith generationId "tgen_" = true) "Task board pointer is malformed"
    let generation ← readGeneration env generationId
    validateGenerationClosure env generation
    pure (some generation)

structure TaskBoardSnapshot where
  generationId : Option String
  generationSha256 : Option Sha256
  headEventId : Option String
  tasks : List AgentTask

def sortedItems (d : PyDict String Sha256) : List (String × Sha256) :=
  d.entries.insertionSort fun a b => a.1 ≤ b.1

def snapshotOf : Option TaskBoardGeneration → TaskCheck TaskBoardSnapshot
  | none => pure ⟨none, none, none, []⟩
  | some generation => do
    let tasks ← collect (fun kv => readTask env kv.1 kv.2)
      (sortedItems generation.taskHashes)
    pure ⟨some generation.generationId, some (env.generationSha generation),
      generation.headEventId, tasks⟩

def snapshot : TaskCheck TaskBoardSnapshot := do
  let generation ← readCurrentGeneration env
  snapshotOf env generation

end RaytSystem.Tasking
