import RaytSystem.CanonicalIdentity
import RaytSystem.PyText
import RaytSystem.RecordTable
import RaytSystem.StepProgram

/-! The notification inbox: emits that deduplicate by a key, and transitions of a notification's
state. The notification, its event and the pointer of its key are separate transactions. -/
namespace RaytSystem.Notices
open Canonical Interleaving RecordTable PyText

section

inductive Severity
  | info | low | medium | high | critical
  deriving DecidableEq, Repr

def Severity.rank : Severity → ℕ
  | info => 0
  | low => 1
  | medium => 2
  | high => 3
  | critical => 4

def maxSeverity (current incoming : Severity) : Severity :=
  if current.rank < incoming.rank then incoming else current

inductive NoticeState
  | unread | read | acknowledged | resolved
  deriving DecidableEq, Repr

def NoticeState.allows : NoticeState → NoticeState → Bool
  | unread, read => true
  | unread, acknowledged => true
  | unread, resolved => true
  | read, acknowledged => true
  | read, resolved => true
  | acknowledged, resolved => true
  | _, _ => false

structure Notification where
  notificationId : String
  notificationType : String
  severity : Severity
  title : String
  message : String
  relatedKind : String
  relatedId : String
  originEventId : String
  deduplicationKey : String
  state : NoticeState
  createdAt : Int
  acknowledgedAt : Option Int
  resolvedAt : Option Int

structure EmitCall where
  notificationType : String
  severity : Severity
  relatedObjectId : String
  actorId : String
  payload : List (String × PyValue)
  relatedKind : Option String
  originEventId : Option String

/-- The secret scanner, `str` of a value, the canonical bytes, the limit of the policy and the
identifiers that the service derives. -/
structure NoticeRules where
  enabled : Bool
  canonical : CanonicalEnv
  pyStr : PyValue → String
  blocksProcessing : ByteArray → Bool
  maxBytes : ℕ
  /-- `_dedup_record_id` -/
  dedupRecordId : String → String
  originId : EmitCall → ℕ → String
  noticeId : EmitCall → String → String → String → String

variable (rules : NoticeRules) (s : String)

def redact : String × Bool :=
  if rules.blocksProcessing s.toUTF8 then ("[REDACTED]", true) else (s, false)

mutual
def clean : PyValue → PyValue × Bool
  | .str s => ((PyValue.str (redact rules s).1), (redact rules s).2)
  | .enum s => ((PyValue.str (redact rules s).1), (redact rules s).2)
  | .mapping entries => (.mapping (cleanEntries entries).1, (cleanEntries entries).2)
  | .sequence items => (.sequence (cleanItems items).1, (cleanItems items).2)
  | v => (v, false)
def cleanEntries : List (String × PyValue) → List (String × PyValue) × Bool
  | [] => ([], false)
  | (key, item) :: rest =>
    (((redact rules key).1, (clean item).1) :: (cleanEntries rest).1,
      (redact rules key).2 || (clean item).2 || (cleanEntries rest).2)
def cleanItems : List PyValue → List PyValue × Bool
  | [] => ([], false)
  | item :: rest =>
    ((clean item).1 :: (cleanItems rest).1, (clean item).2 || (cleanItems rest).2)
end

structure Body where
  title : String
  message : String
  payload : PyValue
  redacted : Bool

def spaced : String :=
  String.ofList (s.toList.map fun c => if c = '_' then ' ' else c)

def prepare (call : EmitCall) : Except String Body :=
  let title := redact rules
    (((call.payload.lookup "title").map rules.pyStr).getD (spaced call.notificationType))
  let message := redact rules (((call.payload.lookup "message").map rules.pyStr).getD
    (call.notificationType ++ ": " ++ call.relatedObjectId))
  let rest := cleanEntries rules
    (call.payload.filter fun kv => kv.1 != "title" && kv.1 != "message")
  let body := PyValue.mapping
    [("title", .str title.1), ("message", .str message.1), ("payload", .mapping rest.1)]
  match boundedJsonBytes rules.canonical body with
  | .error _ => .error "Notification payload is not canonical JSON"
  | .ok rendered =>
    if rules.maxBytes < rendered.size then .error "Notification exceeds the bounded size"
    else if rules.blocksProcessing rendered then
      .error "Notification payload contains restricted data"
    else .ok ⟨title.1, message.1, .mapping rest.1, title.2 || message.2 || rest.2⟩

def isText : Bool := isNonEmptyStr (trim s)

def isId : Bool := isIdentifier (trim s)

def makeNotice (call : EmitCall) (body : Body) (id kind origin key : String) (now : Int) :
    Except String Notification :=
  if isText body.title && isText body.message && isId kind && isId call.relatedObjectId &&
      isId origin && isId key then
    .ok ⟨id, call.notificationType, call.severity, trim body.title, trim body.message,
      trim kind, trim call.relatedObjectId, trim origin, trim key,
      .unread, now, none, none⟩
  else .error "validation error for Notification"

def defaultKind (relatedObjectId : String) : String :=
  String.ofList (relatedObjectId.toList.takeWhile (· != '_'))
end

structure NoticeRow where
  notice : Notification
  redacted : Bool
  occurrenceCount : ℕ
  payload : PyValue

structure Pointer where
  active : Bool
  notificationId : String

structure NoticeEvent where
  notificationId : String
  eventType : String
  actorId : String

structure Returned where
  notificationId : String
  severity : Severity
  state : NoticeState

structure NoticeWorld where
  notices : Table String NoticeRow
  pointers : Table String Pointer
  events : List NoticeEvent
  /-- An observer's note of the emits that have returned. -/
  completed : List Returned
  /-- An observer's note of the notification and severity that an emit has stored and has not
  returned yet. -/
  pending : Option (String × Severity)

inductive NoticeAccess
  /-- An emit looks for a notification that has the id it derived. -/
  | lookup (notificationId : String)
  | other

abbrev NoticeProg := Prog NoticeWorld NoticeAccess String

def revisionChanged : String := "Record revision changed"

def appendNotice (id : String) (expected : Option ℕ) (row : NoticeRow) (w : NoticeWorld) :
    Except String (Unit × NoticeWorld) :=
  match append w.notices id expected row with
  | some notices => .ok ((), {w with notices := notices})
  | none => .error revisionChanged

def emitNotice (expected : Option ℕ) (row : NoticeRow) (severity : Severity) (w : NoticeWorld) :
    Except String (Unit × NoticeWorld) :=
  match append w.notices row.notice.notificationId expected row with
  | some notices =>
    .ok ((), {w with notices := notices, pending := some (row.notice.notificationId, severity)})
  | none => .error revisionChanged

def appendPointer (recordId : String) (expected : Option ℕ) (pointer : Pointer)
    (w : NoticeWorld) : Except String (Unit × NoticeWorld) :=
  match append w.pointers recordId expected pointer with
  | some pointers => .ok ((), {w with pointers := pointers})
  | none => .error revisionChanged

def appendEvent (e : NoticeEvent) : NoticeProg Unit :=
  Prog.set .other fun w => {w with events := w.events ++ [e]}

def readNotice (id : String) : NoticeProg (Option (Stored NoticeRow)) :=
  Prog.get .other fun w => head w.notices id

def readPointer (recordId : String) : NoticeProg (Option (Stored Pointer)) :=
  Prog.get .other fun w => head w.pointers recordId

def noteReturned (r : Returned) : NoticeProg Unit :=
  Prog.set .other fun w => {w with completed := r :: w.completed, pending := none}

section
variable (rules : NoticeRules) (key : String)

def bumpRow (prior : NoticeRow) (severity : Severity) : NoticeRow :=
  { prior with
    notice := {prior.notice with severity := maxSeverity prior.notice.severity severity}
    occurrenceCount := prior.occurrenceCount + 1 }

variable (call : EmitCall)

def bumpTarget (pointer : Stored Pointer) (prior : Stored NoticeRow) :
    NoticeProg (Option Notification) :=
  if prior.value.notice.state = .resolved then do
    Prog.attempt .other (appendPointer (rules.dedupRecordId key) (some pointer.revision)
      {pointer.value with active := false})
    pure none
  else do
    Prog.attempt .other
      (emitNotice (some prior.revision) (bumpRow prior.value call.severity) call.severity)
    appendEvent ⟨prior.value.notice.notificationId, "notification_deduplicated", call.actorId⟩
    pure (some (bumpRow prior.value call.severity).notice)

def bumpPointer (pointer : Stored Pointer) : NoticeProg (Option Notification) := do
  let prior ← readNotice pointer.value.notificationId
  match prior with
  | none => pure none
  | some prior => bumpTarget rules key call pointer prior

def bumpUnresolved : NoticeProg (Option Notification) := do
  let pointer ← readPointer (rules.dedupRecordId key)
  match pointer with
  | none => pure none
  | some pointer => if pointer.value.active then bumpPointer rules key call pointer else pure none

def pointDedup (notificationId : String) : NoticeProg Unit := do
  let pointer ← readPointer (rules.dedupRecordId key)
  Prog.attempt .other (appendPointer (rules.dedupRecordId key) (pointer.map Stored.revision)
    ⟨true, notificationId⟩)

def storeNotice (body : Body) (notice : Notification) : NoticeProg Notification := do
  Prog.attempt .other (emitNotice none ⟨notice, body.redacted, 1, body.payload⟩ call.severity)
  appendEvent ⟨notice.notificationId, "notification_created", call.actorId⟩
  pointDedup rules key notice.notificationId
  pure notice

def createFresh (body : Body) (id kind origin : String) : NoticeProg Notification := do
  let now ← Prog.any Int
  let notice ← Prog.ofExcept (makeNotice call body id kind origin key now)
  storeNotice rules key call body notice

def createNotice (body : Body) : NoticeProg Notification := do
  let sequence ← Prog.get .other fun w => w.events.length
  let origin := call.originEventId.getD (rules.originId call sequence)
  let kind := call.relatedKind.getD (defaultKind call.relatedObjectId)
  let id := rules.noticeId call kind origin key
  let existing ← Prog.get (.lookup id) fun w => head w.notices id
  match existing with
  | some row => pure row.value.notice
  | none => createFresh rules key call body id kind origin

def emitBody : NoticeProg Notification := do
  Prog.require (rules.enabled = true) "Notifications are disabled"
  let body ← Prog.ofExcept (prepare rules call)
  let bumped ← bumpUnresolved rules key call
  match bumped with
  | some notice => pure notice
  | none => createNotice rules key call body

def emit : NoticeProg Unit := do
  let notice ← emitBody rules key call
  noteReturned ⟨notice.notificationId, call.severity, notice.state⟩

def emitAll : List EmitCall → NoticeProg Unit
  | [] => pure ()
  | call :: rest => do
    let _ ← (emit rules key call).toExcept
    emitAll rest
end

section
variable (rules : NoticeRules)

def Notification.moved (n : Notification) (state : NoticeState) (now : Int) : Notification :=
  match state with
  | .acknowledged => {n with state := state, acknowledgedAt := some now}
  | .resolved =>
    { n with
      state := state
      acknowledgedAt := some (n.acknowledgedAt.getD now)
      resolvedAt := some now }
  | _ => {n with state := state}

def releaseDedup (deduplicationKey notificationId : String) : NoticeProg Unit := do
  let pointer ← readPointer (rules.dedupRecordId deduplicationKey)
  match pointer with
  | none => pure ()
  | some pointer =>
    if pointer.value.active ∧ pointer.value.notificationId = notificationId then
      Prog.attempt .other (appendPointer (rules.dedupRecordId deduplicationKey)
        (some pointer.revision) {pointer.value with active := false})
    else pure ()

def transition (notificationId : String) (state : NoticeState) (actorId : String) :
    NoticeProg Unit := do
  Prog.require (rules.enabled = true) "Notifications are disabled"
  let stored ← readNotice notificationId
  let prior ← Prog.ofOption stored "Notification does not exist"
  Prog.require (prior.value.notice.state.allows state = true) "Notification transition is invalid"
  let now ← Prog.any Int
  Prog.attempt .other (appendNotice notificationId (some prior.revision)
    {prior.value with notice := prior.value.notice.moved state now})
  appendEvent ⟨notificationId, "notification_transitioned", actorId⟩
  if state = .resolved then releaseDedup rules prior.value.notice.deduplicationKey notificationId
  else pure ()
end
end RaytSystem.Notices
