import RaytSystem.EventLines
import RaytSystem.HeartbeatService
import RaytSystem.RowListing
import RaytSystem.RuntimeCommands

/-! The sessions that heartbeats resume: the id that the service reads from what a runtime prints,
what it keeps of it, and the request of a later heartbeat. -/
namespace RaytSystem.Sessions
open PyText EventLines RaytSystem.Runtime
open Execution (ExecutionSessionStatus ExecutionUsage Intent Time)

def idUnder (entries : List (CodePoints × Value)) (key : String) : Option CodePoints :=
  match entries.lookup (codePoints key) with
  | some (.str s) => if 1 ≤ s.length ∧ s.length ≤ 128 then some s else none
  | _ => none

def lineSessionId (nesting : Nat) (line : String) : Except LoadFault (Option CodePoints) :=
  match loads nesting line with
  | .error .decode => .ok none
  | .error .other => .error .other
  | .ok (.map entries) => .ok ((idUnder entries "session_id").or (idUnder entries "thread_id"))
  | .ok _ => .ok none

def findSessionId (nesting : Nat) : List String → Except LoadFault (Option CodePoints)
  | [] => .ok none
  | line :: rest =>
    match lineSessionId nesting line with
    | .error e => .error e
    | .ok (some id) => .ok (some id)
    | .ok none => findSessionId nesting rest

def providerSessionId (nesting : Nat) (stdout : String) : Except LoadFault (Option CodePoints) :=
  findSessionId nesting (splitLines stdout)

structure SessionCompatibilityInput where
  runtimeAdapterId : String
  runtimeAdapterSha256 : String
  provider : String
  model : Option String
  taskId : String
  employeeId : String
  employeeConfigurationRevision : String
  workspaceId : String
  workspaceManifestSha256 : String
  repositoryCommit : String
  graphSnapshotId : String
  graphFingerprint : String
  contextSnapshotSha256 : String
  policySha256 : String
  instructionBundleSha256 : String

structure ExecutionSession extends Execution.ExecutionSession where
  runtimeAdapterId : String
  provider : String
  model : Option String
  taskId : String
  employeeId : String
  workspaceId : String
  graphSnapshotId : String
  contextSnapshotSha256 : String
  deriving DecidableEq

structure SessionEnv where
  nfc : String → String
  nfc_ascii : ∀ text : String, (∀ c ∈ text.toList, c.toNat < 128) → nfc text = text
  nfc_length : ∀ text : String, (nfc text).length ≤ 3 * text.length
  fingerprint : SessionCompatibilityInput → String
  sessionId : String → Time → String
  persistable : ExecutionSession → Bool
  nesting : Nat

structure SessionResolution where
  compatible : Bool
  reasonCode : Option String
  compatibilitySha256 : String

variable (s : ExecutionSession)

def ExecutionSession.resumable : Bool :=
  s.status = .active ∨ s.status = .paused

def identityPairs (c : SessionCompatibilityInput) : List (Bool × String) :=
  [(s.runtimeAdapterId == c.runtimeAdapterId, "runtime_changed"),
    (s.provider == c.provider, "provider_changed"), (s.model == c.model, "model_changed"),
    (s.taskId == c.taskId, "task_changed"), (s.employeeId == c.employeeId, "employee_changed"),
    (s.workspaceId == c.workspaceId, "workspace_changed"),
    (s.graphSnapshotId == c.graphSnapshotId, "graph_changed"),
    (s.contextSnapshotSha256 == c.contextSnapshotSha256, "context_changed")]

variable (env : SessionEnv)

def resolveSession (env : SessionEnv) (existing : Option ExecutionSession)
    (compatibility : SessionCompatibilityInput) : SessionResolution :=
  let fingerprint := env.fingerprint compatibility
  match existing with
  | none => ⟨false, some "session_missing", fingerprint⟩
  | some s =>
    if s.resumable = false then ⟨false, some "session_not_resumable", fingerprint⟩
    else match (identityPairs s compatibility).find? fun pair => !pair.1 with
      | some (_, reason) => ⟨false, some reason, fingerprint⟩
      | none =>
        if s.compatibilitySha256 ≠ fingerprint then
          ⟨false, some "compatibility_fingerprint_changed", fingerprint⟩
        else ⟨true, none, fingerprint⟩

def createSession (c : SessionCompatibilityInput) (startedAt : Time) : ExecutionSession :=
  { sessionId := env.sessionId (env.fingerprint c) startedAt
    providerSessionId := none
    compatibilitySha256 := env.fingerprint c
    startedAt := startedAt
    lastResumedAt := none
    status := .active
    previousRunId := none
    usageTotals := {}
    incompatibilityReason := none
    runtimeAdapterId := c.runtimeAdapterId
    provider := c.provider
    model := c.model
    taskId := c.taskId
    employeeId := c.employeeId
    workspaceId := c.workspaceId
    graphSnapshotId := c.graphSnapshotId
    contextSnapshotSha256 := c.contextSnapshotSha256 }

inductive SessionError where
  /-- The reader of an event line raised what is no decoding error. -/
  | reading
  | validation
  | notPersistable
  | malformed
  | request (text : String)
  deriving DecidableEq, Repr

/-- `model_validate`: the provider's id is stripped and bounded. The other texts of a session are
ASCII identifiers and digests, which neither stripping nor normalising changes. -/
def validate : Except SessionError ExecutionSession :=
  match s.providerSessionId with
  | none => .ok s
  | some id =>
    if 512 < (trim id).length then .error .validation
    else .ok {s with providerSessionId := some (trim id)}

def encode (s : ExecutionSession) : ExecutionSession :=
  {s with providerSessionId := s.providerSessionId.map env.nfc}

def decode : Except SessionError ExecutionSession :=
  match validate s with
  | .ok s => .ok s
  | .error _ => .error .malformed

structure SessionRow where
  session : ExecutionSession
  createdAt : Time

variable (rows : List SessionRow)

def put (s : ExecutionSession) (now : Time) : Except SessionError (List SessionRow) :=
  let stored := encode env s
  if env.persistable stored = false then .error .notPersistable
  else match rows.find? fun row => row.session.sessionId = s.sessionId with
    | none => .ok (rows ++ [⟨stored, now⟩])
    | some row =>
      match decode row.session with
      | .error e => .error e
      | .ok _ =>
        if row.session = stored then .ok rows
        else .ok (rows.filter (·.session.sessionId ≠ s.sessionId) ++ [⟨stored, now⟩])

def rowKey (row : SessionRow) : Int ×ₗ String :=
  toLex (-(Execution.milliseconds row.createdAt), row.session.sessionId)

def sessionContext (c : SessionCompatibilityInput) :
    Except SessionError (Option ExecutionSession) :=
  let mine := rows.filter fun row =>
    row.session.taskId = c.taskId ∧ row.session.employeeId = c.employeeId
  match (RowListing.page rowKey mine 20 0).mapM fun row => decode row.session with
  | .error e => .error e
  | .ok sessions => .ok (sessions.find? (·.resumable))

structure ProcessOutcome where
  exitCode : Option Int
  /-- What the supervisor decoded of the runtime's bytes, after its redactor. -/
  stdout : String
  terminationReason : String

def ProcessOutcome.ok (outcome : ProcessOutcome) : Bool :=
  outcome.terminationReason = "completed" ∧ outcome.exitCode = some 0

structure Ending where
  outcome : ProcessOutcome
  intent : Option Intent
  usage : ExecutionUsage
  endedAt : Time

def Ending.sessionStatus (ending : Ending) : ExecutionSessionStatus :=
  if ending.intent = some .emergency then .paused
  else if ending.intent = some .pause then .paused
  else if ending.intent = some .cancel ∨ ending.outcome.terminationReason = "cancelled" then
    .completed
  else if ending.outcome.ok = true then .active
  else .error

def finishSession (s : ExecutionSession) (resumed : Bool) (runId : String) (ending : Ending) :
    Except SessionError ExecutionSession :=
  let final := {s with
    lastResumedAt := if resumed = true then some ending.endedAt else s.lastResumedAt
    previousRunId := some runId
    status := ending.sessionStatus
    usageTotals := Execution.addUsage s.usageTotals ending.usage}
  match providerSessionId env.nesting ending.outcome.stdout with
  | .error _ => .error .reading
  | .ok none => validate final
  | .ok (some points) =>
    match toText points with
    | none => .error .validation
    | some text => validate {final with providerSessionId := some text}

structure Heartbeat where
  compatibility : SessionCompatibilityInput
  prompt : String
  cwd : ManagedCwd
  filesystemPolicy : FilesystemPolicy
  runId : String
  startedAt : Time
  markedAt : Time
  recordedAt : Time
  finishedAt : Time
  checkedOut : Bool
  ending : Option Ending

variable (hb : Heartbeat)

def Heartbeat.request (id : Option String) : RuntimeRequest :=
  ⟨hb.prompt, hb.cwd, hb.filesystemPolicy, hb.compatibility.model, id⟩

def andThen (write : Except SessionError (List SessionRow))
    (next : List SessionRow → List SessionRow) : List SessionRow :=
  match write with
  | .error _ => rows
  | .ok rows => next rows

def markIncompatible (existing : Option ExecutionSession) (resolution : SessionResolution)
    (now : Time) : Except SessionError (List SessionRow) :=
  match existing with
  | none => .ok rows
  | some s =>
    if resolution.compatible = true then .ok rows
    else match validate {s with
        status := .incompatible
        incompatibilityReason := some (resolution.reasonCode.getD "compatibility_changed")} with
      | .error e => .error e
      | .ok marked => put env rows marked now

def runSession (existing : Option ExecutionSession) (resolution : SessionResolution) :
    List SessionRow :=
  let kept := if resolution.compatible = true then existing else none
  andThen rows (markIncompatible env rows existing resolution hb.markedAt) fun rows =>
    let s := kept.getD (createSession env hb.compatibility hb.startedAt)
    andThen rows (put env rows s hb.recordedAt) fun rows =>
      match hb.ending with
      | none => rows
      | some ending =>
        match finishSession env s kept.isSome hb.runId ending with
        | .error _ => rows
        | .ok final => andThen rows (put env rows final hb.finishedAt) id

def heartbeat : Except SessionError Unit × List SessionRow :=
  match sessionContext rows hb.compatibility with
  | .error e => (.error e, rows)
  | .ok existing =>
    let resolution := resolveSession env existing hb.compatibility
    let resumed := if resolution.compatible = true then
      existing.bind (·.providerSessionId) else none
    match (hb.request resumed).fault with
    | some text => (.error (.request text), rows)
    | none =>
      (.ok (), if hb.checkedOut = true then runSession env rows hb existing resolution else rows)

def afterAll (hbs : List Heartbeat) : List SessionRow :=
  hbs.foldl (fun rows hb => (heartbeat env rows hb).2) []

end RaytSystem.Sessions
