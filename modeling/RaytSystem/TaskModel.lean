import RaytSystem.ImmutableStore
import RaytSystem.PyDict
import RaytSystem.PyText

/-! Tasks, task events and board generations, as their models accept them and as the
append-only task ledger stores them. -/
namespace RaytSystem.Tasking
open PyText

inductive TaskStatus where
  | inbox | planned | ready | running | review | blocked | done | cancelled
  deriving DecidableEq, Repr

namespace TaskStatus

def value : TaskStatus → String
  | inbox => "inbox"
  | planned => "planned"
  | ready => "ready"
  | running => "running"
  | review => "review"
  | blocked => "blocked"
  | done => "done"
  | cancelled => "cancelled"

def transitions : TaskStatus → List TaskStatus
  | inbox => [planned, cancelled]
  | planned => [ready, blocked, cancelled]
  | ready => [running, blocked, cancelled]
  | running => [review, blocked, cancelled]
  | review => [done, running, blocked, cancelled]
  | blocked => [planned, ready, running, cancelled]
  | done => []
  | cancelled => []

def gated (s : TaskStatus) : Bool := s == ready || s == running

end TaskStatus

inductive TaskPriority where
  | low | normal | high | urgent
  deriving DecidableEq, Repr

inductive TaskEventKind where
  | created | transitioned | cancelled
  deriving DecidableEq, Repr

structure AgentTask where
  taskId : String
  title : String
  description : String
  status : TaskStatus
  priority : TaskPriority
  projectId : String
  missionId : Option String
  assigneeIds : List String
  skillIds : List String
  dependencyIds : List String
  artifactIds : List String
  tags : List String
  blockedReason : Option String
  sensitivity : Sensitivity
  createdBy : String
  revision : Nat
  createdAt : Int
  updatedAt : Int
  extensions : List (String × String)
  deriving DecidableEq

namespace AgentTask

def mapText (f : String → String) (t : AgentTask) : AgentTask :=
  {t with
    taskId := f t.taskId
    title := f t.title
    description := f t.description
    projectId := f t.projectId
    missionId := t.missionId.map f
    assigneeIds := t.assigneeIds.map f
    skillIds := t.skillIds.map f
    dependencyIds := t.dependencyIds.map f
    artifactIds := t.artifactIds.map f
    tags := t.tags.map f
    blockedReason := t.blockedReason.map f
    createdBy := f t.createdBy}

variable (t : AgentTask)

def fieldsValid : Bool :=
  isIdentifier t.taskId && isNonEmptyStr t.title && t.description.length ≤ 32768 &&
    isIdentifier t.projectId && t.missionId.all isIdentifier &&
    (t.assigneeIds ++ t.skillIds ++ t.dependencyIds ++ t.artifactIds ++ t.tags).all isIdentifier &&
    t.blockedReason.all isNonEmptyStr && isIdentifier t.createdBy && 1 ≤ t.revision

def invariants : Prop :=
  t.assigneeIds.Nodup ∧ t.skillIds.Nodup ∧ t.dependencyIds.Nodup ∧ t.artifactIds.Nodup ∧
    t.tags.Nodup ∧ t.taskId ∉ t.dependencyIds ∧ t.createdAt ≤ t.updatedAt ∧
    (t.status = .blocked ↔ t.blockedReason.isSome)

instance (t : AgentTask) : Decidable t.invariants := by
  unfold invariants
  infer_instance

def validate : Option AgentTask :=
  let stripped := t.mapText trim
  if stripped.fieldsValid = true ∧ stripped.invariants then some stripped else none

end AgentTask

structure TaskEvent where
  eventId : String
  eventKind : TaskEventKind
  taskId : String
  operationKey : String
  idempotencyKey : String
  previousEventId : Option String
  previousTaskSha256 : Option Sha256
  taskSha256 : Sha256
  fromStatus : Option TaskStatus
  toStatus : TaskStatus
  actor : String
  createdAt : Int
  deriving DecidableEq

namespace TaskEvent

def mapText (f : String → String) (e : TaskEvent) : TaskEvent :=
  {e with
    eventId := f e.eventId
    taskId := f e.taskId
    operationKey := f e.operationKey
    idempotencyKey := f e.idempotencyKey
    previousEventId := e.previousEventId.map f
    actor := f e.actor}

variable (e : TaskEvent)

def fieldsValid : Bool :=
  isIdentifier e.eventId && isIdentifier e.taskId && isIdentifier e.operationKey &&
    isIdentifier e.idempotencyKey && e.previousEventId.all isIdentifier && isIdentifier e.actor

def invariants : Prop :=
  (e.eventKind = .created →
    e.fromStatus = none ∧ e.previousTaskSha256 = none ∧ e.toStatus = .inbox) ∧
  (e.eventKind ≠ .created → e.fromStatus.isSome ∧ e.previousTaskSha256.isSome) ∧
  (e.eventKind = .cancelled ↔ e.toStatus = .cancelled)

instance (e : TaskEvent) : Decidable e.invariants := by
  unfold invariants
  infer_instance

def validate : Option TaskEvent :=
  let stripped := e.mapText trim
  if stripped.fieldsValid = true ∧ stripped.invariants then some stripped else none

def identityPayload : TaskEvent := {e with eventId := ""}

end TaskEvent

structure TaskBoardGeneration where
  generationId : String
  parentGenerationId : Option String
  parentGenerationSha256 : Option Sha256
  taskHashes : PyDict String Sha256
  latestEventIds : PyDict String String
  headEventId : Option String
  eventCount : Nat
  createdAt : Int
  deriving DecidableEq

namespace TaskBoardGeneration

variable (g : TaskBoardGeneration)

def invariants : Prop :=
  (g.parentGenerationId = none ↔ g.parentGenerationSha256 = none) ∧
  (g.parentGenerationId = none → g.eventCount ≤ 1) ∧
  (g.taskHashes.entries ≠ [] → g.taskHashes.size ≤ g.eventCount) ∧
  (∀ k ∈ g.taskHashes.keys, k ∈ g.latestEventIds.keys) ∧
  (∀ k ∈ g.latestEventIds.keys, k ∈ g.taskHashes.keys) ∧
  (g.taskHashes.entries = [] ↔ g.headEventId = none) ∧
  (∀ id ∈ g.headEventId, id ∈ g.latestEventIds.entries.map Prod.snd)

instance (g : TaskBoardGeneration) : Decidable g.invariants := by
  unfold invariants
  infer_instance

def fieldsValid : Bool :=
  isIdentifier g.generationId && g.parentGenerationId.all isIdentifier &&
    g.taskHashes.keys.all isIdentifier && g.latestEventIds.keys.all isIdentifier &&
    (g.latestEventIds.entries.map Prod.snd).all isIdentifier &&
    g.headEventId.all isIdentifier && g.eventCount ≤ 10000

def validate : Option TaskBoardGeneration :=
  if g.fieldsValid = true ∧ g.invariants then some g else none

def identityPayload : TaskBoardGeneration := {g with generationId := ""}

end TaskBoardGeneration

structure CreatePayload where
  title : String
  description : String
  priority : TaskPriority
  projectId : String
  missionId : Option String
  assigneeIds : List String
  skillIds : List String
  dependencyIds : List String
  tags : List String
  actor : String
  deriving DecidableEq

def CreatePayload.mapText (f : String → String) (p : CreatePayload) : CreatePayload :=
  ⟨f p.title, f p.description, p.priority, f p.projectId, p.missionId.map f, p.assigneeIds.map f,
    p.skillIds.map f, p.dependencyIds.map f, p.tags.map f, f p.actor⟩

structure TransitionPayload where
  actor : String
  blockedReason : Option String
  taskId : String
  target : TaskStatus
  deriving DecidableEq

def TransitionPayload.mapText (f : String → String) (p : TransitionPayload) : TransitionPayload :=
  ⟨f p.actor, p.blockedReason.map f, f p.taskId, p.target⟩

structure ScanDecision where
  blocksProcessing : Bool
  sensitivity : Sensitivity

structure TaskEnv where
  nfc : String → String
  taskSha : AgentTask → Sha256
  eventDigest : TaskEvent → Sha256
  generationDigest : TaskBoardGeneration → Sha256
  generationSha : TaskBoardGeneration → Sha256
  createDigest : String → CreatePayload → Sha256
  transitionDigest : String → TransitionPayload → Sha256
  taskDigest : String → Sha256
  idempotencyDigest : String → String → Sha256
  taskBytes : AgentTask → Nat
  generationBytes : TaskBoardGeneration → Nat
  scanCreate : CreatePayload → Except Unit ScanDecision
  scanTransition : TransitionPayload → Except Unit ScanDecision
  scanTask : AgentTask → Except Unit ScanDecision
  recursionLimit : Nat

namespace TaskEnv
variable (env : TaskEnv)

def eventId (e : TaskEvent) : String := derivedId "tevt" (env.eventDigest e.identityPayload)

def generationId (g : TaskBoardGeneration) : String :=
  derivedId "tgen" (env.generationDigest g.identityPayload)

def createOperation (idempotencyKey : String) (p : CreatePayload) : String :=
  derivedId "op" (env.createDigest idempotencyKey (p.mapText env.nfc))

def transitionOperation (idempotencyKey : String) (p : TransitionPayload) : String :=
  derivedId "op" (env.transitionDigest idempotencyKey (p.mapText env.nfc))

def taskId (operationKey : String) : String := derivedId "task" (env.taskDigest operationKey)

end TaskEnv

inductive TaskFault where
  | ledgerError (message : String)
  | conflict (message : String)
  | rejected (message : String)
  | validationError
  | recursionError
  | osError
  deriving DecidableEq, Repr

structure TaskStore where
  objects : ImmutableStore.Store Sha256 AgentTask
  events : ImmutableStore.Store String TaskEvent
  generations : ImmutableStore.Store String TaskBoardGeneration
  pointer : Option String

def TaskStore.empty : TaskStore := ⟨fun _ => none, fun _ => none, fun _ => none, none⟩

def maxEvents : Nat := 10000
def maxTasks : Nat := 2500
def maxTaskBytes : Nat := 1024 * 1024
def maxGenerationBytes : Nat := 16 * 1024 * 1024

end RaytSystem.Tasking
