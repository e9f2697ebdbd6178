import RaytSystem.CanonicalIdentity
import RaytSystem.HashChain
import RaytSystem.WorkflowService

/-! The audit events of the platform store: how a row is appended to its stream, and how a
stream is verified. -/
namespace RaytSystem.Audit
open Interleaving Canonical JsonText Workflow

structure AuditRow where
  eventId : String
  streamId : String
  aggregateId : String
  sequence : Int
  eventType : String
  actorId : String
  payloadSchema : String
  payloadJson : String
  payloadSha256 : String
  sensitivity : String
  causationId : Option String
  correlationId : Option String
  previousEventSha256 : Option String
  recordedAt : String
  deriving DecidableEq

inductive AuditFault where
  | valueError (message : String)
  | canonicalError (e : CanonicalFault)
  | sqliteError
  deriving DecidableEq, Repr

def textOrNone : Option String → PyValue
  | none => .none
  | some s => .str s

def eventIdentity (row : AuditRow) : List (String × PyValue) :=
  [("stream_id", .str row.streamId), ("aggregate_id", .str row.aggregateId),
    ("sequence", .int row.sequence), ("event_type", .str row.eventType),
    ("actor_id", .str row.actorId), ("payload_schema", .str row.payloadSchema),
    ("payload_sha256", .str row.payloadSha256), ("sensitivity", .str row.sensitivity),
    ("causation_id", textOrNone row.causationId),
    ("correlation_id", textOrNone row.correlationId),
    ("previous_event_sha256", textOrNone row.previousEventSha256),
    ("recorded_at", .str row.recordedAt)]

variable (env : CanonicalEnv)

def eventRowHash (row : AuditRow) : Except CanonicalFault String := do
  let bytes ← boundedJsonBytes env (.mapping (("event_id", .str row.eventId) :: eventIdentity row))
  pure (env.sha256Hex bytes)

def streamRows (rows : List AuditRow) (streamId : String) : List AuditRow :=
  (rows.filter (·.streamId == streamId)).insertionSort fun a b => a.sequence ≤ b.sequence

def verifyRows : Nat → Option String → List AuditRow → Except CanonicalFault Bool
  | _, _, [] => pure true
  | expectedSequence, previousHash, row :: rest => do
    if row.sequence ≠ expectedSequence then pure false
    else if row.previousEventSha256 ≠ previousHash then pure false
    else if env.sha256Hex row.payloadJson.toUTF8 ≠ row.payloadSha256 then pure false
    else do
      let eventId ← boundedId env "aevt" (.mapping (eventIdentity row))
      if row.eventId ≠ eventId then pure false
      else do
        let hash ← eventRowHash env row
        verifyRows (expectedSequence + 1) (some hash) rest

def verifyEventStream (rows : List AuditRow) (streamId : String) : Except CanonicalFault Bool :=
  verifyRows env 1 none (streamRows rows streamId)

structure EventRequest where
  streamId : String
  aggregateId : String
  eventType : String
  actorId : String
  payloadSchema : String
  payload : PyValue
  sensitivity : String
  causationId : Option String
  correlationId : Option String
  recordedAt : String

variable (e : EventRequest)

def EventRequest.row (e : EventRequest) (rendered : String) (previous : Option AuditRow)
    (previousHash : Option String) : AuditRow where
  eventId := ""
  streamId := e.streamId
  aggregateId := e.aggregateId
  sequence := previous.elim 1 fun p => p.sequence + 1
  eventType := e.eventType
  actorId := e.actorId
  payloadSchema := e.payloadSchema
  payloadJson := rendered
  payloadSha256 := env.sha256Hex rendered.toUTF8
  sensitivity := e.sensitivity
  causationId := e.causationId
  correlationId := e.correlationId
  previousEventSha256 := previousHash
  recordedAt := e.recordedAt

def lastHash : Option AuditRow → Except CanonicalFault (Option String)
  | none => .ok none
  | some row => (eventRowHash env row).map some

def insertEvent (rendered : String) (rows : List AuditRow) :
    Except AuditFault (AuditRow × List AuditRow) := do
  let previous := (streamRows rows e.streamId).getLast?
  let previousHash ← (lastHash env previous).mapError .canonicalError
  let seed := e.row env rendered previous previousHash
  let eventId ← (boundedId env "aevt" (.mapping (eventIdentity seed))).mapError .canonicalError
  let row := {seed with eventId := eventId}
  if rows.any (fun r => r.eventId == row.eventId ||
      (r.streamId == row.streamId && r.sequence == row.sequence)) then .error .sqliteError
  else .ok (row, rows ++ [row])

abbrev AuditProg (α : Type) := Prog (List AuditRow) Unit AuditFault α

def appendEvent : AuditProg AuditRow := do
  Prog.require (validToken e.streamId = true) (.valueError "Invalid stream ID")
  Prog.require (validToken e.aggregateId = true) (.valueError "Invalid aggregate ID")
  Prog.require (validToken e.eventType = true) (.valueError "Invalid event type")
  Prog.require (validToken e.actorId = true) (.valueError "Invalid actor ID")
  Prog.require (validToken e.payloadSchema = true) (.valueError "Invalid payload schema")
  let payload ← Prog.ofExcept ((canonicalValue env e.payload).mapError .canonicalError)
  -- the database may be busy, or refuse the write
  let available ← Prog.any Bool
  Prog.require (available = true) .sqliteError
  Prog.attempt () (insertEvent env e (dumps payload))

end RaytSystem.Audit
