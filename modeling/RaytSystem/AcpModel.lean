import RaytSystem.CanonicalIdentity
import RaytSystem.RecordTable
import RaytSystem.RelyGuarantee

/-! The ACP adapter: its sessions, the authority records that it consults and its commands. A
platform-store transaction is one access. -/
namespace RaytSystem.Acp
open Canonical Interleaving RecordTable

inductive SessionState
  | initializing | ready | streaming | cancelled | closed | failed
  deriving DecidableEq, Repr

def SessionState.active : SessionState → Bool
  | ready | streaming => true
  | _ => false

structure AcpCapabilitySet where
  capabilitySetId : String
  protocolVersion : String
  capabilities : List String
  deriving DecidableEq

structure AcpSession where
  acpSessionId : String
  runtimeSessionId : String
  adapterId : String
  capabilitySetId : String
  workspaceId : String
  state : SessionState
  resumeTokenSha256 : Option String
  createdAt : Int
  updatedAt : Int
  deriving DecidableEq

inductive AcpEventType
  | message | toolCall | permissionRequest | terminalOutput | fileChange | cancelled | completed
  | error
  deriving DecidableEq, Repr

def AcpEventType.value : AcpEventType → String
  | message => "message"
  | toolCall => "tool_call"
  | permissionRequest => "permission_request"
  | terminalOutput => "terminal_output"
  | fileChange => "file_change"
  | cancelled => "cancelled"
  | completed => "completed"
  | error => "error"

def AcpEventType.capability : AcpEventType → Option String
  | message => some "messages"
  | toolCall => some "tool_calls"
  | permissionRequest => some "permission_requests"
  | terminalOutput => some "terminal_output"
  | fileChange => some "file_changes"
  | cancelled => some "cancellation"
  | completed | error => none

def AcpEventType.terminal : AcpEventType → Option SessionState
  | cancelled => some .cancelled
  | completed => some .closed
  | error => some .failed
  | _ => none

def AcpEventType.privileged : AcpEventType → Bool
  | toolCall | fileChange => true
  | _ => false

def AcpEventType.decided (t : AcpEventType) : Bool := t.privileged || t == permissionRequest

def AcpEventType.action (t : AcpEventType) : String := "acp_" ++ t.value

structure AcpEvent where
  eventId : String
  acpSessionId : String
  sequence : ℕ
  eventType : AcpEventType
  payloadSha256 : String
  policyDecisionId : Option String
  approvalId : Option String
  redacted : Bool
  createdAt : Int

structure RuntimeSession where
  isActive : Bool
  runtimeAdapterId : String
  workspaceId : String

def supportedCapabilities : List String :=
  ["messages", "streaming_events", "tool_calls", "permission_requests", "cancellation",
    "terminal_output", "file_changes", "session_resume"]

section

inductive PolicyOutcome
  | allow | deny | requireApproval | quarantine | redact
  deriving DecidableEq, Repr

structure PolicyDecision where
  policyDecisionId : String
  action : String
  targetId : String
  payloadSha256 : String
  destination : Option String
  outcome : PolicyOutcome

structure ApprovalRecord where
  approvalId : String
  isApproval : Bool
  action : String
  targetId : String
  artifactSha256 : String
  destination : Option String
  scope : List String
  approvedAt : Int
  expiresAt : Int

structure ExecutionApproval where
  approvalId : String
  action : String
  payloadSha256 : String
  destination : Option String
  /-- The employee, the task, the run and the workspace that are named. -/
  targetBindings : List String
  scope : List String
  approvedAt : Int
  expiresAt : Int

inductive Approval
  | record (a : ApprovalRecord)
  | execution (a : ExecutionApproval)

def Approval.approvedAt : Approval → Int
  | record a => a.approvedAt
  | execution a => a.approvedAt

/-- What the trusted stores hold under an identifier, and the moment up to which pending approvals
are revoked. -/
structure Authority where
  decisions : String → Option PolicyDecision
  approvals : String → Option Approval
  revokedAfter : Option Int

/-- What the authority records say and what the clock shows, from one change of them to the next. -/
structure Moment where
  authority : Authority
  clock : Int

/-- An observer's note of a call that accepts an event: how many moments there had been when it
began, and when it stored the event. -/
structure Span where
  begun : ℕ
  stored : ℕ

structure AcpRules where
  canonical : CanonicalEnv
  validateEvent : List (String × PyValue) → Option AcpEvent
  /-- `identity_payload` -/
  eventIdentity : AcpEvent → PyValue
  blocksProcessing : ByteArray → Bool
  /-- What `secrets.token_hex` makes of the bytes that it draws. -/
  tokenHex : ℕ → String
  tokenSha256 : String → String
  /-- The identifiers that the contracts derive. -/
  capabilitySetId : String → List String → String
  sessionId : String → String → String → String → String
  decisionId : PolicyDecision → String
  approvalId : ApprovalRecord → String
  executionApprovalId : ExecutionApproval → String

variable (rules : AcpRules)

/-- What `require_policy_decision` asks of the decision that it finds. -/
def decisionValid (d : PolicyDecision) (action targetId payloadSha256 : String) : Bool :=
  rules.decisionId d == d.policyDecisionId && d.action == action && d.targetId == targetId &&
    d.payloadSha256 == payloadSha256 && d.destination == none &&
    (d.outcome == .allow || d.outcome == .requireApproval)

def requiredScope : List String := ["acp_privileged_event"]

/-- What `require_approval` asks of the approval that it finds. -/
def approvalValid (a : Approval) (action targetId artifactSha256 : String) (now : Int) : Bool :=
  match a with
  | .record a =>
    rules.approvalId a == a.approvalId && a.isApproval && a.action == action &&
      a.targetId == targetId && a.artifactSha256 == artifactSha256 && a.destination == none &&
      decide (a.approvedAt ≤ now) && decide (now < a.expiresAt) &&
      requiredScope.all (a.scope.contains ·)
  | .execution a =>
    rules.executionApprovalId a == a.approvalId && a.action == action &&
      a.payloadSha256 == artifactSha256 && a.destination == none &&
      a.targetBindings.contains targetId && requiredScope.all (a.scope.contains ·) &&
      decide (a.approvedAt ≤ now) && decide (now < a.expiresAt)

def notRevoked (a : Approval) (revokedAfter : Option Int) : Bool :=
  revokedAfter.elim true fun t => decide (t ≤ a.approvedAt)
end

inductive AcpEntry
  | initialized (capabilitySetId : String) (capabilities : List String)
  | received (eventId : String) (sequence : ℕ) (eventType : AcpEventType) (payloadSha256 : String)
    (redacted : Bool) (noted : Span)
  | moved (state : SessionState) (detail : List (String × String))
  | resumed (state : SessionState)

structure AcpRow where
  aggregateId : String
  entry : AcpEntry

structure AcpWorld where
  sessions : Table String AcpSession
  sequences : Table String ℕ
  capabilities : Table String AcpCapabilitySet
  /-- The audit streams, the oldest row first. -/
  events : String → List AcpRow
  runtimeSessions : String → Option RuntimeSession
  authority : Authority
  clock : Int
  /-- An observer's note of the moments that there have been, the last one at the end. -/
  moments : List Moment
  /-- An observer's note of the digests of resume tokens that were stored. -/
  issued : List String
  /-- An observer's note of the digests that resumes succeeded with, the last one first. -/
  redeemed : List String

def AcpWorld.moment (w : AcpWorld) : Moment := ⟨w.authority, w.clock⟩

inductive AcpAccess
  /-- A transaction stores the digest of a token just drawn. -/
  | issue (tokenSha256 : String)
  | other

abbrev AcpProg := Prog AcpWorld AcpAccess String

def found {α : Type} (x : Option α) (message : String) : Except String α :=
  match x with
  | some a => .ok a
  | none => .error message

def requires (holds : Bool) (message : String) : Except String Unit :=
  if holds then .ok () else .error message

def revisionChanged : String := "Record revision changed"

def appendSession (id : String) (expected : Option ℕ) (s : AcpSession) (w : AcpWorld) :
    Except String AcpWorld := do
  let sessions ← found (append w.sessions id expected s) revisionChanged
  pure {w with sessions := sessions}

def appendSequence (id : String) (expected : Option ℕ) (last : ℕ) (w : AcpWorld) :
    Except String AcpWorld := do
  let sequences ← found (append w.sequences id expected last) revisionChanged
  pure {w with sequences := sequences}

def appendEvent (id : String) (row : AcpRow) (w : AcpWorld) : AcpWorld :=
  {w with events := Function.update w.events id (w.events id ++ [row])}

def storeCapabilities (c : AcpCapabilitySet) (w : AcpWorld) : AcpWorld :=
  match head w.capabilities c.capabilitySetId with
  | some _ => w
  | none => {w with capabilities := push w.capabilities c.capabilitySetId c}

def register (c : AcpCapabilitySet) (s : AcpSession) (digest : String) (w : AcpWorld) :
    Except String (Unit × AcpWorld) := do
  requires (head w.sessions s.acpSessionId).isNone "ACP session is already initialized"
  let w ← appendSession s.acpSessionId none s (storeCapabilities c w)
  let w ← appendSequence s.acpSessionId none 0 w
  let w := appendEvent s.acpSessionId
    ⟨s.acpSessionId, .initialized c.capabilitySetId c.capabilities⟩ w
  pure ((), {w with issued := digest :: w.issued})

def AcpSession.moved (s : AcpSession) (target : SessionState) (now : Int) : AcpSession :=
  {s with state := target, updatedAt := now}

def transition (record : Stored AcpSession) (target : SessionState) (now : Int)
    (detail : List (String × String)) (w : AcpWorld) : Except String (AcpSession × AcpWorld) := do
  let updated := record.value.moved target now
  let id := record.value.acpSessionId
  let w ← appendSession id (some record.revision) updated w
  pure (updated, appendEvent id ⟨id, .moved target detail⟩ w)

def checkCapability (w : AcpWorld) (s : AcpSession) (t : AcpEventType) : Except String Unit :=
  match t.capability with
  | none => .ok ()
  | some required => do
    let c ← found (head w.capabilities s.capabilitySetId) "ACP capability set is unavailable"
    requires (c.value.capabilities.contains required) "ACP event capability was never negotiated"

def nextState (s : AcpSession) (t : AcpEventType) : Option SessionState :=
  t.terminal.orElse fun _ => if s.state = .ready then some .streaming else none

def advance (record : Stored AcpSession) (e : AcpEvent) (now : Int) (w : AcpWorld) :
    Except String AcpWorld :=
  match nextState record.value e.eventType with
  | none => .ok w
  | some target => do
    let (_, w) ← transition record target now [("cause_event_id", e.eventId)] w
    pure w

def receive (e : AcpEvent) (payloadSha256 : String) (redacted : Bool) (begun : ℕ) (now : Int)
    (w : AcpWorld) : Except String (Unit × AcpWorld) := do
  let record ← found (head w.sessions e.acpSessionId) "ACP event references an unknown session"
  requires record.value.state.active "ACP event references an inactive session"
  let sequence ← found (head w.sequences e.acpSessionId) "ACP sequence state is unavailable"
  checkCapability w record.value e.eventType
  requires (e.sequence == sequence.value + 1) "ACP event sequence is invalid"
  let w ← appendSequence e.acpSessionId (some sequence.revision) e.sequence w
  let w := appendEvent e.acpSessionId
    ⟨e.eventId, .received e.eventId e.sequence e.eventType payloadSha256 redacted
      ⟨begun, w.moments.length⟩⟩ w
  let w ← advance record e now w
  pure ((), w)

def redeem (id presented digest : String) (now : Int) (w : AcpWorld) :
    Except String (AcpSession × AcpWorld) := do
  let record ← found (head w.sessions id) "ACP session does not exist"
  requires record.value.state.active "ACP session is not resumable"
  let c ← found (head w.capabilities record.value.capabilitySetId)
    "ACP capability set is unavailable"
  requires (c.value.capabilities.contains "session_resume")
    "ACP session resume was never negotiated"
  requires (record.value.resumeTokenSha256 == some presented) "ACP resume token is invalid"
  let resumed := {record.value with resumeTokenSha256 := some digest, updatedAt := now}
  let w ← appendSession id (some record.revision) resumed w
  let w := appendEvent id ⟨id, .resumed resumed.state⟩ w
  pure (resumed, {w with issued := digest :: w.issued, redeemed := presented :: w.redeemed})

def terminate (id : String) (target : SessionState) (detail : List (String × String)) (now : Int)
    (w : AcpWorld) : Except String (AcpSession × AcpWorld) := do
  let record ← found (head w.sessions id) "ACP session does not exist"
  if record.value.state = target then pure (record.value, w)
  else do
    requires record.value.state.active "ACP session is already terminal"
    transition record target now detail w

section
variable (rules : AcpRules)

def readClock : AcpProg Int := .get .other AcpWorld.clock

def drawToken : AcpProg String := do
  let bytes ← .any ℕ
  pure (rules.tokenHex bytes)

def negotiate (requested : List String) : List String :=
  (supportedCapabilities.filter (requested.contains ·)).insertionSort (· ≤ ·)

def boundSession (s : Option RuntimeSession) (adapterId workspaceId : String) : Bool :=
  s.elim false fun s => s.isActive && s.runtimeAdapterId == adapterId &&
    s.workspaceId == workspaceId

def initializeSession (runtimeSessionId adapterId workspaceId protocolVersion : String)
    (requested : List String) : AcpProg Unit := do
  let runtime ← .get .other fun w => w.runtimeSessions runtimeSessionId
  .require (boundSession runtime adapterId workspaceId = true)
    "ACP session is not bound to an active runtime session"
  let negotiated := negotiate requested
  let setId := rules.capabilitySetId protocolVersion negotiated
  let token ← drawToken rules
  let now ← readClock
  let digest := rules.tokenSha256 token
  let id := rules.sessionId runtimeSessionId adapterId workspaceId setId
  .attempt (.issue digest) (register ⟨setId, protocolVersion, negotiated⟩
    ⟨id, runtimeSessionId, adapterId, setId, workspaceId, .ready, some digest, now, now⟩ digest)

/-- `canonical_json_bytes`, where a value that has no canonical form is a malformed event. -/
def rendered (v : PyValue) : Except String ByteArray :=
  match boundedJsonBytes rules.canonical v with
  | .ok bytes => .ok bytes
  | .error _ => .error "Malformed ACP event"

variable (raw : List (String × PyValue))

def payloadOf : Except String PyValue :=
  match (raw.lookup "payload").getD (.mapping []) with
  | .mapping entries => .ok (.mapping entries)
  | _ => .error "ACP event payload must be an object"

def normalized (payloadSha256 : String) : List (String × PyValue) :=
  PyDict.setEntries "redacted" (.bool true) (PyDict.setEntries "payload_sha256"
    (.str payloadSha256) (raw.filter fun kv => kv.1 != "payload"))

variable (e : AcpEvent)

def isOwnId : Bool :=
  match boundedId rules.canonical "acpevt" (rules.eventIdentity e) with
  | .ok id => id == e.eventId
  | .error _ => false

def checkAuthorityFields : Except String Unit := do
  requires (!(e.eventType == .permissionRequest && e.approvalId.isSome))
    "ACP permission requests never carry pre-granted approvals"
  requires (!(e.eventType.decided && e.policyDecisionId.isNone)) "ACP privileged event bypasses policy"
  requires (!(e.eventType.privileged && e.approvalId.isNone)) "ACP privileged event requires approval"

/-- `accept_event` up to the authority records: the event, its payload's digest and the scanner's
answer. -/
def readEvent : Except String (AcpEvent × String × Bool) := do
  let bytes ← rendered rules (.mapping raw)
  requires (bytes.size ≤ 256 * 1024) "ACP event exceeds the bounded limit"
  let payload ← payloadOf raw
  let payloadBytes ← rendered rules payload
  let payloadSha256 := rules.canonical.sha256Hex payloadBytes
  let e ← found (rules.validateEvent (normalized raw payloadSha256)) "Malformed ACP event"
  requires (isOwnId rules e)
    "ACP event ID is not hash-bound"
  checkAuthorityFields e
  pure (e, payloadSha256, rules.blocksProcessing payloadBytes)

def invalidAuthority : String := "ACP event authority is invalid"

def requirePolicyDecision (decisionId action targetId payloadSha256 : String) : AcpProg Unit := do
  let found ← .get .other fun w => w.authority.decisions decisionId
  let decision ← .ofOption found invalidAuthority
  .require (decisionValid rules decision action targetId payloadSha256 = true) invalidAuthority

def requireApproval (approvalId action targetId artifactSha256 : String) : AcpProg Unit := do
  let found ← .get .other fun w => w.authority.approvals approvalId
  let approval ← .ofOption found invalidAuthority
  let now ← readClock
  .require (approvalValid rules approval action targetId artifactSha256 now = true) invalidAuthority
  let revokedAfter ← .get .other fun w => w.authority.revokedAfter
  .require (notRevoked approval revokedAfter = true) invalidAuthority

def requireDecided (payloadSha256 : String) : AcpProg Unit :=
  if e.eventType.decided then
    requirePolicyDecision rules (e.policyDecisionId.getD "None") e.eventType.action e.eventId
      payloadSha256
  else pure ()

def requireApproved (payloadSha256 : String) : AcpProg Unit :=
  if e.eventType.privileged then
    requireApproval rules (e.approvalId.getD "None") e.eventType.action e.eventId payloadSha256
  else pure ()

def acceptEvent : AcpProg Unit := do
  let begun ← .get .other fun w => w.moments.length
  let read ← .ofExcept (readEvent rules raw)
  requireDecided rules read.1 read.2.1
  requireApproved rules read.1 read.2.1
  let now ← readClock
  .attempt .other (receive read.1 read.2.1 read.2.2 begun now)

def resume (id token : String) : AcpProg Unit := do
  .require (token ≠ "" ∧ token.length ≤ 512) "ACP resume token is invalid"
  let rotated ← drawToken rules
  let now ← readClock
  let digest := rules.tokenSha256 rotated
  let _ ← .attempt (.issue digest) (redeem id (rules.tokenSha256 token) digest now)

def finish (id : String) (target : SessionState) (detail : List (String × String)) :
    AcpProg Unit := do
  let now ← readClock
  let _ ← .attempt .other (terminate id target detail now)

def cancel (id reason : String) : AcpProg Unit := do
  .require (reason ≠ "" ∧ reason.length ≤ 1024) "ACP cancellation reason is invalid"
  finish id .cancelled [("reason", reason)]

def close (id : String) : AcpProg Unit := finish id .closed []

def fail (id reason : String) : AcpProg Unit := do
  .require (reason ≠ "" ∧ reason.length ≤ 1024) "ACP failure reason is invalid"
  finish id .failed [("reason", reason)]

inductive AcpCall
  | start (runtimeSessionId adapterId workspaceId protocolVersion : String)
    (requested : List String)
  | acceptEvent (raw : List (String × PyValue))
  | resume (id token : String)
  | cancel (id reason : String)
  | close (id : String)
  | fail (id reason : String)
  | decide (authority : Authority)
  | tick (clock : Int)
  | runtime (sessions : String → Option RuntimeSession)

def AcpWorld.turn (w : AcpWorld) (m : Moment) : AcpWorld :=
  {w with authority := m.authority, clock := m.clock, moments := w.moments ++ [m]}

def AcpCall.program : AcpCall → AcpProg Unit
  | start runtimeSessionId adapterId workspaceId protocolVersion requested =>
    initializeSession rules runtimeSessionId adapterId workspaceId protocolVersion requested
  | acceptEvent raw => Acp.acceptEvent rules raw
  | resume id token => Acp.resume rules id token
  | cancel id reason => Acp.cancel id reason
  | close id => Acp.close id
  | fail id reason => Acp.fail id reason
  | decide authority => .set .other (fun w => w.turn ⟨authority, w.clock⟩)
  | tick clock => .set .other (fun w => w.turn ⟨w.authority, clock⟩)
  | runtime sessions => .set .other fun w => {w with runtimeSessions := sessions}

def acpPool {ι : Type} (calls : ι → AcpCall) (first : Moment)
    (sessions : String → Option RuntimeSession) : Pool ι AcpWorld AcpAccess String Unit where
  thread i := some ((calls i).program rules)
  world := ⟨fun _ => [], fun _ => [], fun _ => [], fun _ => [], sessions, first.authority,
    first.clock, [first], [], []⟩

def Fresh : AcpAccess → AcpWorld → Prop
  | .issue digest, w => digest ∉ w.issued
  | .other, _ => True
end

end RaytSystem.Acp
