import Mathlib
import RaytSystem.ImmutableStore
import RaytSystem.PyText
import RaytSystem.StepProgram

/-! The Git checkpoint of a promoted generation: what `create` and `verify` check, read and
write. -/
namespace RaytSystem.Checkpoints
open Interleaving ImmutableStore PyText

abbrev Bytes := List UInt8

section

structure Decoded (α : Type) where
  value : α
  canonical : String

structure LedgerGeneration where
  generationId : String
  parentGenerationId : Option String
  createdAt : Int
  promotionTxnId : Option String
  promotionEventId : Option String
  verifyId : Bool

structure PromotionEvent where
  eventId : String
  txnId : String
  runId : String
  operationKey : String
  parentGenerationId : String
  newGenerationId : String
  committedAt : Int

structure PromotionTxn where
  txnId : String
  runId : String
  operationKey : String
  parentGenerationId : String
  nextGenerationId : String
  candidateManifestSha256 : Option String
  eventId : String
  partitionFencingToken : Int
  globalFencingToken : Int

structure RunManifest where
  runId : Option String
  operationKey : Option String
  txnId : Option String
  eventId : Option String
  generationId : Option String
  createdAt : Option Int

structure OutboxRow where
  eventId : String
  txnId : String
  payloadJson : String
  payloadSha256 : String
  state : String

structure PromotionRow where
  payloadJson : String
  runId : String
  operationKey : String
  parentGenerationId : String
  nextGenerationId : String
  manifestSha256 : String
  eventId : String
  partitionFencingToken : Int
  globalFencingToken : Int

structure Provenance where
  generations : String → Option String
  events : String → Option String
  runs : String → Option RunManifest
  controlAvailable : Bool
  outbox : String → Option OutboxRow
  promotions : String → Option PromotionRow
  operations : String → Option String

structure Material where
  state : Option String
  eventId : String
  generationId : String
  commitSha : String
  reference : String
  paths : List String
  createdAt : String
  deriving DecidableEq

abbrev Index := List (String × String)

/-- The codecs and digests, the files of the workspace and the secret gate, and what the
plumbing commands of Git compute. `zulu` writes an instant as records hold it. -/
structure CheckpointRules where
  nfc : String → String
  sha256Hex : String → String
  digest : Material → String
  deriveEvent : String → String
  readGeneration : String → Option (Decoded LedgerGeneration)
  readEvent : String → Option (Decoded PromotionEvent)
  readTxn : String → Option (Decoded PromotionTxn)
  isoformat : Int → String
  zulu : Int → String
  readFile : String → Except String Bytes
  allows : String → Bytes → Bool
  readTree : String → Option Index
  hashObject : Bytes → String
  updateIndex : Index → String → String → Option Index
  writeTree : Index → String
  commitTree (tree parent date message : String) : String

variable (rules : CheckpointRules)

def hasDigest (pre s : String) : Bool :=
  pre.toList.isPrefixOf s.toList && isSha256 (String.ofList (s.toList.drop pre.toList.length))

def milliseconds (t : Int) : Int := t.tdiv 1000

variable (disk : Provenance) (eventId generationId : String)

def verifyObjects : Except String (String × String × PromotionEvent) :=
  match disk.generations generationId, disk.events eventId with
  | some generationText, some eventText =>
    match rules.readGeneration generationText, rules.readEvent eventText with
    | some generation, some event =>
      if generationText ≠ generation.canonical ∨ eventText ≠ event.canonical then
        .error "Checkpoint provenance objects are not canonical"
      else if generation.value.verifyId = false ∨
          generation.value.generationId ≠ generationId ∨
          generation.value.promotionEventId ≠ some eventId ∨
          event.value.eventId ≠ eventId ∨
          event.value.newGenerationId ≠ generationId ∨
          some event.value.txnId ≠ generation.value.promotionTxnId ∨
          event.value.eventId ≠ rules.deriveEvent event.value.txnId ∨
          some event.value.parentGenerationId ≠ generation.value.parentGenerationId ∨
          event.value.committedAt ≠ generation.value.createdAt then
        .error "Checkpoint event and generation provenance disagree"
      else .ok (generationText, eventText, event.value)
    | _, _ => .error "Checkpoint provenance objects are missing or invalid"
  | _, _ => .error "Checkpoint provenance objects are missing or invalid"

def verifyRun (event : PromotionEvent) (generationId : String) : Except String Unit :=
  match disk.runs event.runId with
  | none => .error "Checkpoint run manifest is missing or invalid"
  | some run =>
    if run.runId ≠ some event.runId ∨ run.operationKey ≠ some event.operationKey ∨
        run.txnId ≠ some event.txnId ∨ run.eventId ≠ some event.eventId ∨
        run.generationId ≠ some generationId then
      .error "Checkpoint run manifest provenance disagrees"
    else match run.createdAt with
      | none => .error "Checkpoint run timestamp is invalid"
      | some createdAt =>
        if milliseconds createdAt ≠ milliseconds event.committedAt then
          .error "Checkpoint event timestamp disagrees with its run"
        else .ok ()

def verifyTxn (row : PromotionRow) (event : PromotionEvent) (generationText generationId : String) :
    Except String Unit :=
  match rules.readTxn row.payloadJson with
  | none => .error "Checkpoint promotion WAL payload is invalid"
  | some txn =>
    if row.payloadJson ≠ txn.canonical then
      .error "Checkpoint promotion WAL payload is not canonical"
    else if txn.value.txnId ≠ event.txnId ∨ txn.value.runId ≠ event.runId ∨
        txn.value.operationKey ≠ event.operationKey ∨
        txn.value.parentGenerationId ≠ event.parentGenerationId ∨
        txn.value.nextGenerationId ≠ generationId ∨ txn.value.eventId ≠ event.eventId ∨
        txn.value.candidateManifestSha256 ≠ some (rules.sha256Hex generationText) ∨
        row.runId ≠ event.runId ∨ row.operationKey ≠ event.operationKey ∨
        row.parentGenerationId ≠ event.parentGenerationId ∨
        row.nextGenerationId ≠ generationId ∨
        row.manifestSha256 ≠ rules.sha256Hex generationText ∨ row.eventId ≠ event.eventId ∨
        row.partitionFencingToken ≠ txn.value.partitionFencingToken ∨
        row.globalFencingToken ≠ txn.value.globalFencingToken then
      .error "Checkpoint promotion WAL provenance disagrees"
    else .ok ()

def verifyControl (event : PromotionEvent) (generationText eventText generationId : String) :
    Except String Unit :=
  if disk.controlAvailable = false then
    .error "Checkpoint durable control database is unavailable"
  else match disk.outbox event.eventId, disk.promotions event.txnId,
      disk.operations event.operationKey with
    | some outbox, some row, some runId =>
      if outbox.eventId ≠ event.eventId ∨ outbox.txnId ≠ event.txnId ∨
          outbox.state ≠ "appended" ∨ outbox.payloadJson ≠ eventText ∨
          outbox.payloadSha256 ≠ rules.sha256Hex eventText ∨ runId ≠ event.runId then
        .error "Checkpoint event outbox provenance disagrees"
      else verifyTxn rules row event generationText generationId
    | _, _, _ => .error "Checkpoint durable provenance row is missing"

def verifyProvenance (requireControl : Bool) : Except String PromotionEvent := do
  let (generationText, eventText, event) ← verifyObjects rules disk eventId generationId
  verifyRun disk event generationId
  if requireControl then verifyControl rules disk event generationText eventText generationId
  pure event
end

def validateRelativePath (value : String) : Except String String :=
  match relativePath value with
  | .ok relative => .ok relative
  | .error (.valueError _) => .error "Checkpoint path escapes the workspace"
  | .error .indexError => .error "tuple index out of range"

def forbiddenRoots : List String :=
  ["inbox", "_raw/blobs", "_raw/restricted", "ops/staging", "artifacts/drafts",
    "artifacts/outbox", ".raytsystem", ".qmd", ".git", "ops/control.sqlite",
    "ops/control.sqlite-shm", "ops/control.sqlite-wal", "ops/locks"]

def validatePath (value : String) : Except String String := do
  let relative ← validateRelativePath value
  if forbiddenRoots.any fun root => (pathParts root).isPrefixOf (pathParts relative) then
    .error ("Checkpoint path is policy-forbidden: " ++ relative)
  else pure relative

def requiredPaths (generationId eventId runId : String) : List String :=
  ["ledger/generations/" ++ generationId ++ ".json", "ops/events/" ++ eventId ++ ".json",
    "ops/runs/" ++ runId ++ "/manifest.json"]

def normalizePaths (paths : List String) : Except String (List String) := do
  let validated ← paths.mapM validatePath
  pure (sortedSet validated)

section

structure CheckpointRecord where
  material : Material
  payloadSha256 : String
  deriving DecidableEq

variable (rules : CheckpointRules)

def Material.canonical (m : Material) : Material where
  state := m.state.map rules.nfc
  eventId := rules.nfc m.eventId
  generationId := rules.nfc m.generationId
  commitSha := rules.nfc m.commitSha
  reference := rules.nfc m.reference
  paths := m.paths.map rules.nfc
  createdAt := rules.nfc m.createdAt

def checkpointRecord (m : Material) : CheckpointRecord := ⟨m, rules.digest (m.canonical rules)⟩

def CheckpointRecord.stored (r : CheckpointRecord) : CheckpointRecord :=
  ⟨r.material.canonical rules, rules.nfc r.payloadSha256⟩

def verifyCheckpointRecord (r : CheckpointRecord) : Except String Unit :=
  if r.payloadSha256 ≠ rules.digest (r.material.canonical rules) then
    .error "Checkpoint record payload hash mismatch"
  else .ok ()

def referenceOf (eventId : String) : String := "refs/raytsystem/checkpoints/" ++ eventId

structure CheckpointCall where
  eventId : String
  generationId : String
  paths : List String

def matchRecord (states : List (Option String)) (message : String) (call : CheckpointCall)
    (normalized : List String) (r : CheckpointRecord) : Except String String := do
  verifyCheckpointRecord rules r
  if r.material.state ∉ states ∨ r.material.eventId ≠ call.eventId ∨
      r.material.generationId ≠ call.generationId ∨
      r.material.reference ≠ referenceOf call.eventId ∨ r.material.paths ≠ normalized then
    .error message
  else pure r.material.commitSha

def matchCompleted := matchRecord rules [none, some "completed"]
  "Existing checkpoint record has different provenance"

def matchPending := matchRecord rules [some "prepared"]
  "Pending checkpoint has different provenance"

def recheckCompleted (event : PromotionEvent) (eventId generationId : String)
    (r : CheckpointRecord) : Except String (String × List String) := do
  verifyCheckpointRecord rules r
  let normalized ← normalizePaths r.material.paths
  if r.material.state ∉ [none, some "completed"] ∨ r.material.eventId ≠ eventId ∨
      r.material.generationId ≠ generationId ∨ r.material.reference ≠ referenceOf eventId ∨
      r.material.paths ≠ normalized ∨
      ¬ ∀ path ∈ requiredPaths generationId eventId event.runId, path ∈ normalized then
    .error "Completed checkpoint record provenance disagrees"
  else pure (r.material.commitSha, normalized)
end

section

structure CheckpointWorld where
  head : Option String
  objects : List String
  commits : List String
  refs : Store String String
  pending : Store String CheckpointRecord
  completed : Store String CheckpointRecord

abbrev CheckpointProg := Prog CheckpointWorld Unit String

structure GitCheckpointResult where
  eventId : String
  generationId : String
  commitSha : String
  reference : String
  paths : List String
  deriving DecidableEq

variable (rules : CheckpointRules) (disk : Provenance) (call : CheckpointCall)

def plumbingError : String := "Git checkpoint plumbing command failed"

def isCommitId (s : String) : Bool :=
  (s.toList.length == 40 || s.toList.length == 64) && s.toList.all isHexDigit

variable (commit : String)

def verifyCommitObject : CheckpointProg Unit := do
  .require (isCommitId commit = true) "Checkpoint record has a malformed commit ID"
  let found ← .get () fun w => w.commits.contains commit
  .require (found = true) plumbingError

def updateRef (reference commit : String) (w : CheckpointWorld) :
    Except String (Unit × CheckpointWorld) :=
  match w.refs reference with
  | some _ => .error plumbingError
  | none => .ok ((), {w with refs := Function.update w.refs reference (some commit)})

def tryResolveReference (reference : String) : CheckpointProg (Option String) :=
  .get () fun w => w.refs reference

def createReference (reference commit : String) : CheckpointProg Unit :=
  Prog.tryCatch (.attempt () (updateRef reference commit)) fun e => do
    let resolved ← tryResolveReference reference
    .require (resolved = some commit) e

def ensureReference (reference commit : String) : CheckpointProg Unit := do
  verifyCommitObject commit
  let resolved ← tryResolveReference reference
  let resolved ← match resolved with
    | some found => pure (some found)
    | none => do
      createReference reference commit
      tryResolveReference reference
  .require (resolved = some commit) "Checkpoint reference already targets a different commit"

def stagedBlob (path : String) : Except String String := do
  let data ← rules.readFile path
  if rules.allows path data then pure (rules.hashObject data)
  else .error ("Secret gate rejected staged path: " ++ path)

def stagedEntry (index : Index) (path blob : String) : Except String Index :=
  match rules.updateIndex index path blob with
  | some index => .ok index
  | none => .error plumbingError

def stagePaths : Index → List String → CheckpointProg Index
  | index, [] => pure index
  | index, path :: rest => do
    let blob ← .ofExcept (stagedBlob rules path)
    .set () fun w => {w with objects := w.objects ++ [blob]}
    let index ← .ofExcept (stagedEntry rules index path blob)
    stagePaths index rest

def commitMessage : String :=
  "checkpoint: raytsystem generation " ++ call.generationId ++ "\n\nraytsystem-Event: " ++
    call.eventId ++ "\nraytsystem-Generation: " ++ call.generationId ++ "\n"

def stagedIndex : Index → List String → Except String Index
  | index, [] => .ok index
  | index, path :: rest => do
    let blob ← stagedBlob rules path
    let index ← stagedEntry rules index path blob
    stagedIndex index rest

variable (event : PromotionEvent) (normalized : List String)

def buildCommit : CheckpointProg String := do
  let head ← .get () fun w => w.head
  let parent ← .ofOption head plumbingError
  let index ← .ofOption (rules.readTree parent) plumbingError
  let index ← stagePaths rules index normalized
  let tree := rules.writeTree index
  .set () fun w => {w with objects := w.objects ++ [tree]}
  let commit := rules.commitTree tree parent (rules.isoformat event.committedAt)
    (commitMessage call)
  .set () fun w => {w with commits := w.commits ++ [commit]}
  pure commit

def materialOf (state : String) (commit : String) (normalized : List String) (createdAt : Int) :
    Material :=
  ⟨some state, call.eventId, call.generationId, commit, referenceOf call.eventId, normalized,
    rules.zulu createdAt⟩

def preparedRecord (commit : String) (normalized : List String) : CheckpointRecord :=
  checkpointRecord rules (materialOf rules call "prepared" commit normalized event.committedAt)

def completedRecord (now : Int) : CheckpointRecord :=
  checkpointRecord rules (materialOf rules call "completed" commit normalized now)

def publishPending (r : CheckpointRecord) (w : CheckpointWorld) :
    Except String (Unit × CheckpointWorld) :=
  match publish w.pending call.eventId (r.stored rules) with
  | some pending => .ok ((), {w with pending := pending})
  | none => .error ("Immutable path collision: ops/checkpoints/pending/" ++ call.eventId ++ ".json")

def publishCompleted (r : CheckpointRecord) (w : CheckpointWorld) :
    Except String (Unit × CheckpointWorld) :=
  match publish w.completed call.eventId (r.stored rules) with
  | some completed => .ok ((), {w with completed := completed})
  | none => .error ("Immutable path collision: ops/checkpoints/" ++ call.eventId ++ ".json")

def preparedCommit : CheckpointProg String := do
  match ← Prog.get () fun w : CheckpointWorld => w.pending call.eventId with
  | some pending => .ofExcept (matchPending rules call normalized pending)
  | none => do
    let commit ← buildCommit rules call event normalized
    .attempt () (publishPending rules call (preparedRecord rules call event commit normalized))
    pure commit

variable (eventId generationId : String)

def checkIds : Except String Unit :=
  if hasDigest "evt_" eventId = false then .error "Malformed promotion event ID"
  else if hasDigest "gen_" generationId = false then .error "Malformed generation ID"
  else .ok ()

def admitRequest : Except String (PromotionEvent × List String) := do
  checkIds call.eventId call.generationId
  let event ← verifyProvenance rules disk call.eventId call.generationId true
  let normalized ← normalizePaths
    (call.paths ++ requiredPaths call.generationId call.eventId event.runId)
  if normalized = [] then .error "Checkpoint allowlist is empty"
  else pure (event, normalized)

def resultOf : GitCheckpointResult :=
  ⟨call.eventId, call.generationId, commit, referenceOf call.eventId, normalized⟩

def create : CheckpointProg GitCheckpointResult := do
  let (event, normalized) ← .ofExcept (admitRequest rules disk call)
  match ← Prog.get () fun w : CheckpointWorld => w.completed call.eventId with
  | some payload => do
    let commit ← .ofExcept (matchCompleted rules call normalized payload)
    ensureReference (referenceOf call.eventId) commit
    pure (resultOf call commit normalized)
  | none => do
    let commit ← preparedCommit rules call event normalized
    ensureReference (referenceOf call.eventId) commit
    let now ← .any Int
    .attempt () (publishCompleted rules call (completedRecord rules call commit normalized now))
    pure (resultOf call commit normalized)

def admitVerify : Except String PromotionEvent := do
  checkIds eventId generationId
  verifyProvenance rules disk eventId generationId false

def verify : CheckpointProg GitCheckpointResult := do
  let event ← .ofExcept (admitVerify rules disk eventId generationId)
  match ← Prog.get () fun w : CheckpointWorld => w.completed eventId with
  | none => throw "Completed checkpoint record is missing"
  | some payload => do
    let (commit, normalized) ← .ofExcept
      (recheckCompleted rules event eventId generationId payload)
    verifyCommitObject commit
    let resolved ← tryResolveReference (referenceOf eventId)
    .require (resolved = some commit) "Checkpoint ref and record disagree"
    pure ⟨eventId, generationId, commit, referenceOf eventId, normalized⟩
end
end RaytSystem.Checkpoints
