import Mathlib.Data.List.AList
import RaytSystem.RecordTable
import RaytSystem.StepProgram

/-! The identities of documents: records under the documents' paths, the disposable index that
takes the identities from them, and the commands that create and move documents. -/
namespace RaytSystem.Identity
open Interleaving RecordTable

abbrev Path := List String
abbrev DocumentId := String
abbrev Bytes := List UInt8
abbrev Time := ℕ

structure PathDecision where
  rootId : String
  visible : Bool
  editable : Bool

inductive IdentityState
  | active
  | moved
  deriving DecidableEq, Repr

structure IdentityPayload where
  documentId : DocumentId
  relativePath : Path
  firstSeenAt : Time
  movedTo : Option Path := none
  movedFrom : Option Path := none
  deriving DecidableEq, Repr

structure IdentityRecord where
  state : IdentityState
  payload : IdentityPayload
  deriving DecidableEq, Repr

structure DocumentRow where
  documentId : DocumentId
  relativePath : Path
  firstSeenAt : Time
  contentSha256 : String
  restricted : Bool
  deriving DecidableEq, Repr

inductive Operation
  | create
  | rename
  | move
  deriving DecidableEq, Repr

structure Request where
  operation : Operation
  documentId : Option DocumentId
  oldPath : Option Path
  newPath : Path
  sha256 : String
  expectedSnapshotId : String
  deriving DecidableEq, Repr

inductive OperationState
  | prepared
  | publishing
  | completed
  deriving DecidableEq, Repr

structure OperationRecord where
  state : OperationState
  request : Request
  createdId : Option DocumentId
  deriving DecidableEq, Repr

structure Receipt where
  snapshotId : String
  documentId : DocumentId
  contentSha256 : String
  deriving DecidableEq, Repr

structure Workspace where
  files : AList fun _ : Path => Bytes
  identities : Table Path IdentityRecord
  index : Option (List DocumentRow)
  operations : Table String OperationRecord
  receipts : String → Option (Request × Receipt)

inductive DocumentFault
  | notVisible
  | readOnly
  | contentRefused
  | malformedKey
  | keyReused
  | bindingChanged
  | receiptMissing
  | revisionChanged
  | malformedSnapshot
  | snapshotUnavailable
  | snapshotChanged
  | indexStale
  | documentMissing
  | destinationExists
  | destinationUnchanged
  | changedOrUnsafe
  | recoveryAmbiguous
  | restrictedContent
  | contentConflict
  | identityChanged
  | identityMalformed
  | identityNotPersisted
  | identityChangedBeforeMove
  | destinationIdentityExists
  | identityConflicts
  | rebuildFailed
  deriving DecidableEq, Repr

structure IdentityEnv where
  decide : Path → Option PathDecision
  deriveDocument : String → Path → DocumentId
  publicId : DocumentId → Bool
  sha256Hex : Bytes → String
  restricted : Path → Bytes → Bool
  maxFileBytes : ℕ
  snapshotId : List DocumentRow → String
  safeSnapshot : String → Bool
  safeKey : String → Bool
  derive_path : ∀ r r' p p', deriveDocument r p = deriveDocument r' p' → p = p'
  derive_public : ∀ r p, publicId (deriveDocument r p) = true
  snapshot_safe : ∀ rows, safeSnapshot (snapshotId rows) = true

abbrev DocumentProg := Prog Workspace Unit DocumentFault

variable (env : IdentityEnv)

namespace IdentityEnv

def visible (path : Path) : Bool := (env.decide path).any PathDecision.visible

def editable (path : Path) : Bool := (env.decide path).any fun d => d.visible && d.editable

def derived (path : Path) : DocumentId :=
  env.deriveDocument ((env.decide path).elim "" PathDecision.rootId) path

end IdentityEnv

variable (identities : Table Path IdentityRecord)

def identityForPath (path : Path) : Option (DocumentId × Time) :=
  match head identities path with
  | some ⟨_, record⟩ =>
    if record.state = .active ∧ env.publicId record.payload.documentId = true ∧
        env.visible path = true then
      some (record.payload.documentId, record.payload.firstSeenAt)
    else none
  | none => none

variable (relative : Path)

def ensureIdentity (documentId : Option DocumentId) (observedAt : Time) :
    Except DocumentFault ((DocumentId × Time) × Table Path IdentityRecord) :=
  if env.visible relative = true then
    match identityForPath env identities relative with
    | some existing =>
      if documentId.all (· = existing.1) then .ok (existing, identities)
      else .error .identityChanged
    | none =>
      let safeId := documentId.getD (env.derived relative)
      if env.publicId safeId = true then
        match append identities relative none
            ⟨.active, { documentId := safeId, relativePath := relative,
                        firstSeenAt := observedAt }⟩ with
        | some identities' => .ok ((safeId, observedAt), identities')
        | none => .error .identityNotPersisted
      else .error .identityMalformed
  else .error .notVisible

def moveIdentity (old new : Path) (documentId : DocumentId) :
    Except DocumentFault (Table Path IdentityRecord) :=
  if env.visible old = true ∧ env.visible new = true then
    match identityForPath env identities new with
    | some identity =>
      if identity.1 = documentId then .ok identities else .error .destinationIdentityExists
    | none =>
      match head identities old with
      | none => .error .identityChangedBeforeMove
      | some ⟨_, record⟩ =>
        if record.state = .active ∧ record.payload.documentId = documentId then
          if head identities new = none then
            .ok (push (push identities old ⟨.moved, {record.payload with movedTo := some new}⟩) new
              ⟨.active, { documentId, relativePath := new,
                          firstSeenAt := record.payload.firstSeenAt, movedFrom := some old }⟩)
          else .error .destinationIdentityExists
        else .error .identityChangedBeforeMove
  else .error .notVisible

def persistIdentities : List DocumentRow → Table Path IdentityRecord →
    Except DocumentFault (Table Path IdentityRecord)
  | [], identities => .ok identities
  | item :: missing, identities =>
    match head identities item.relativePath with
    | some ⟨_, current⟩ =>
      if current.state = .active ∧ current.payload.documentId = item.documentId then
        persistIdentities missing identities
      else .error .identityConflicts
    | none =>
      persistIdentities missing (push identities item.relativePath
        ⟨.active, { documentId := item.documentId, relativePath := item.relativePath,
                    firstSeenAt := item.firstSeenAt }⟩)

def scanFile (files : AList fun _ : Path => Bytes) (relative : Path) (firstSeen : Time)
    (documentId : Option DocumentId) : Option DocumentRow :=
  if env.visible relative = true then
    match files.lookup relative with
    | some data =>
      if data.length ≤ env.maxFileBytes then
        some { documentId := documentId.getD (env.derived relative)
               relativePath := relative
               firstSeenAt := firstSeen
               contentSha256 := env.sha256Hex data
               restricted := env.restricted relative data }
      else none
    | none => none
  else none

def rowForPath (rows : List DocumentRow) (path : Path) : Option DocumentRow :=
  rows.find? fun row => row.relativePath = path

def insertDocument (rows : List DocumentRow) (item : DocumentRow) :
    Except DocumentFault (List DocumentRow) :=
  if rows.any fun row => row.documentId = item.documentId || row.relativePath = item.relativePath
  then .error .rebuildFailed
  else .ok (rows ++ [item])

def scanStream (files : AList fun _ : Path => Bytes) (known : Path → Option (DocumentId × Time))
    (previous : Path → Option Time) (now : Time) :
    List Path → List DocumentRow → Except DocumentFault (List DocumentRow)
  | [], rows => .ok rows
  | relative :: paths, rows =>
    let firstSeen := (known relative).elim ((previous relative).getD now) Prod.snd
    match scanFile env files relative firstSeen ((known relative).map Prod.fst) with
    | none => scanStream files known previous now paths rows
    | some item =>
      match insertDocument rows item with
      | .error fault => .error fault
      | .ok rows' => scanStream files known previous now paths rows'

def rebuild (now : Time) (w : Workspace) : Except DocumentFault Workspace :=
  let known := identityForPath env w.identities
  let previous path := (rowForPath (w.index.getD []) path).map DocumentRow.firstSeenAt
  match scanStream env w.files known previous now w.files.keys [] with
  | .error fault => .error fault
  | .ok rows =>
    match persistIdentities (rows.filter fun row => (known row.relativePath).isNone)
        w.identities with
    | .error fault => .error fault
    | .ok identities => .ok {w with identities, index := some rows}

structure RefreshState where
  rows : List DocumentRow
  known : Path → Option (DocumentId × Time)
  identities : Table Path IdentityRecord

def refreshPath (files : AList fun _ : Path => Bytes) (now : Time) (s : RefreshState)
    (relative : Path) : Except DocumentFault Unit × RefreshState :=
  let previous := rowForPath s.rows relative
  let identity := (s.known relative).or
    (previous.map fun row => (row.documentId, row.firstSeenAt))
  let rows := s.rows.filter fun row => row.relativePath ≠ relative
  match scanFile env files relative (identity.elim now Prod.snd) (identity.map Prod.fst) with
  | none => (.ok (), {s with rows})
  | some item =>
    match ensureIdentity env s.identities relative (some item.documentId) item.firstSeenAt with
    | .error fault => (.error fault, s)
    | .ok (_, identities) =>
      let known := Function.update s.known relative (some (item.documentId, item.firstSeenAt))
      match insertDocument rows item with
      | .error fault => (.error fault, {s with identities})
      | .ok rows' => (.ok (), ⟨rows', known, identities⟩)

def refreshPaths (files : AList fun _ : Path => Bytes) (now : Time) :
    List Path → RefreshState → Except DocumentFault Unit × RefreshState
  | [], s => (.ok (), s)
  | relative :: paths, s =>
    match refreshPath env files now s relative with
    | (.error fault, s') => (.error fault, s')
    | (.ok (), s') => refreshPaths files now paths s'

def refreshWorkspace (current : Bool) (now : Time) (paths : List Path) (w : Workspace) :
    Except DocumentFault Unit × Workspace :=
  match current, w.index with
  | true, some rows =>
    match refreshPaths env w.files now paths
        ⟨rows, identityForPath env w.identities, w.identities⟩ with
    | (.error fault, s) => (.error fault, {w with identities := s.identities})
    | (.ok (), s) => (.ok (), {w with identities := s.identities, index := some s.rows})
  | _, _ =>
    match rebuild env now w with
    | .error fault => (.error fault, w)
    | .ok w' => (.ok (), w')

def rebuildIndex : DocumentProg Unit := do
  let now ← .any ℕ
  .attempt () fun w => (rebuild env now w).map fun w' => ((), w')

def ensureIndex : DocumentProg Unit := do
  let rows ← .get () fun w => w.index
  match rows with
  | some _ => pure ()
  | none => rebuildIndex env

def refresh (paths : List Path) : DocumentProg Unit := do
  let current ← .any Bool
  let now ← .any ℕ
  let outcome ← .step () (refreshWorkspace env current now paths)
  .ofExcept outcome

def currentRows : DocumentProg (List DocumentRow) := do
  let rows ← .get () fun w => w.index
  .ofOption rows .indexStale

def idempotentReceipt (key : String) (request : Request) : DocumentProg (Option Receipt) :=
  .attempt () fun w =>
    match w.receipts key with
    | none => .ok (none, w)
    | some (request', receipt) =>
      if request' = request then .ok (some receipt, w) else .error .keyReused

def storeReceipt (key : String) (request : Request) (receipt : Receipt) : DocumentProg Unit :=
  .attempt () fun w =>
    match w.receipts key with
    | none =>
      .ok ((), {w with receipts := Function.update w.receipts key (some (request, receipt))})
    | some (request', _) => if request' = request then .ok ((), w) else .error .keyReused

def prepareOperation (key : String) (request : Request) : DocumentProg (Stored OperationRecord) :=
  .attempt () fun w =>
    match head w.operations key with
    | none =>
      let record : OperationRecord := ⟨.prepared, request, none⟩
      .ok (⟨1, record⟩, {w with operations := push w.operations key record})
    | some prepared =>
      if prepared.value.request = request ∧ prepared.value.createdId = none then
        .ok (prepared, w)
      else .error .bindingChanged

def appendOperation (key : String) (record : OperationRecord) (expectedRevision : ℕ) :
    DocumentProg (Stored OperationRecord) :=
  .attempt () fun w =>
    match append w.operations key (some expectedRevision) record with
    | some operations => .ok (⟨expectedRevision + 1, record⟩, {w with operations})
    | none => .error .revisionChanged

def publishOperation (key : String) (request : Request) (prepared : Stored OperationRecord) :
    DocumentProg (Stored OperationRecord) :=
  if prepared.value.state = .publishing then pure prepared
  else appendOperation key ⟨.publishing, request, none⟩ prepared.revision

def requireSnapshot (value : String) (allowRebase : Bool) : DocumentProg Unit := do
  .require (env.safeSnapshot value = true) .malformedSnapshot
  let rows ← .get () fun w => w.index
  let rows ← .ofOption rows .snapshotUnavailable
  .require (value = env.snapshotId rows ∨ allowRebase = true) .snapshotChanged

def writeResult (documentId : DocumentId) : DocumentProg Receipt :=
  .attempt () fun w =>
    match w.index with
    | none => .error .indexStale
    | some rows =>
      match rows.find? fun row => row.documentId = documentId with
      | none => .error .documentMissing
      | some row =>
        if row.restricted then .error .restrictedContent
        else
          match w.files.lookup row.relativePath with
          | none => .error .documentMissing
          | some data =>
            if data.length ≤ env.maxFileBytes ∧ env.sha256Hex data = row.contentSha256 then
              .ok (⟨env.snapshotId rows, documentId, row.contentSha256⟩, w)
            else .error .documentMissing

def completeOperation (key : String) (request : Request) (prepared : Stored OperationRecord)
    (paths : List Path) (documentId : DocumentId) (createdId : Option DocumentId) :
    DocumentProg Receipt := do
  refresh env paths
  let result ← writeResult env documentId
  let _ ← appendOperation key ⟨.completed, request, createdId⟩ prepared.revision
  storeReceipt key request result
  pure result

def atomicCreate (data : Bytes) : DocumentProg Unit :=
  .attempt () fun w =>
    if relative ∈ w.files then .error .destinationExists
    else .ok ((), {w with files := w.files.insert relative data})

def atomicMove (source destination : Path) (expectedSha256 : String) : DocumentProg Unit :=
  .attempt () fun w =>
    match w.files.lookup source with
    | none => .error .changedOrUnsafe
    | some data =>
      if data.length ≤ env.maxFileBytes then
        if env.sha256Hex data = expectedSha256 then
          if destination ∈ w.files then .error .destinationExists
          else .ok ((), {w with files := (w.files.erase source).insert destination data})
        else .error .contentConflict
      else .error .changedOrUnsafe

def ensureDocument : DocumentProg DocumentId := do
  let now ← .any ℕ
  .attempt () fun w =>
    (ensureIdentity env w.identities relative none now).map fun found =>
      (found.1.1, {w with identities := found.2})

structure CreateRequest where
  relativePath : Path
  data : Bytes
  expectedSnapshotId : String
  key : String

def CreateRequest.request (r : CreateRequest) : Request where
  operation := .create
  documentId := none
  oldPath := none
  newPath := r.relativePath
  sha256 := env.sha256Hex r.data
  expectedSnapshotId := r.expectedSnapshotId

def locateCreated (r : CreateRequest) (recovering : Bool) : DocumentProg (Option DocumentId) := do
  let rows ← currentRows
  match rowForPath rows r.relativePath with
  | some existing =>
    .require (recovering = true ∧ existing.contentSha256 = env.sha256Hex r.data)
      .destinationExists
    pure (some existing.documentId)
  | none =>
    let file ← .get () fun w => w.files.lookup r.relativePath
    if recovering = true ∧ file.map env.sha256Hex = some (env.sha256Hex r.data) then do
      let documentId ← ensureDocument env r.relativePath
      refresh env [r.relativePath]
      pure (some documentId)
    else pure none

def publishCreated (r : CreateRequest) (prepared : Stored OperationRecord) :
    DocumentProg Receipt := do
  let publishing ← publishOperation r.key (r.request env) prepared
  atomicCreate r.relativePath r.data
  let documentId ← ensureDocument env r.relativePath
  completeOperation env r.key (r.request env) publishing [r.relativePath] documentId
    (some documentId)

def createPrepared (r : CreateRequest) (prepared : Stored OperationRecord) :
    DocumentProg Receipt := do
  let recovering : Bool := prepared.value.state = .publishing
  requireSnapshot env r.expectedSnapshotId recovering
  let found ← locateCreated env r recovering
  match found with
  | some documentId =>
    completeOperation env r.key (r.request env) prepared [r.relativePath] documentId
      (some documentId)
  | none => publishCreated env r prepared

def create (r : CreateRequest) : DocumentProg Receipt := do
  ensureIndex env
  .require (env.editable r.relativePath = true) .readOnly
  .require (r.data.length ≤ env.maxFileBytes ∧ env.restricted r.relativePath r.data = false)
    .contentRefused
  .require (env.safeKey r.key = true) .malformedKey
  let prior ← idempotentReceipt r.key (r.request env)
  match prior with
  | some receipt => pure receipt
  | none => do
    let prepared ← prepareOperation r.key (r.request env)
    createPrepared env r prepared

structure MoveRequest where
  operation : Operation
  documentId : DocumentId
  old : Path
  new : Path
  expectedSha256 : String
  expectedSnapshotId : String
  key : String

variable (r : MoveRequest)

def MoveRequest.request : Request where
  operation := r.operation
  documentId := some r.documentId
  oldPath := some r.old
  newPath := r.new
  sha256 := r.expectedSha256
  expectedSnapshotId := r.expectedSnapshotId

def readMoved (recovering : Bool) : DocumentProg (Bytes × Bool) :=
  .attempt () fun w =>
    match recovering, w.files.lookup r.old, w.files.lookup r.new with
    | true, none, some data => .ok ((data, true), w)
    | true, some data, none => .ok ((data, false), w)
    | true, _, _ => .error .recoveryAmbiguous
    | false, some data, _ =>
      if data.length ≤ env.maxFileBytes then .ok ((data, false), w) else .error .changedOrUnsafe
    | false, none, _ => .error .changedOrUnsafe

def publishMove (published : Bool) : DocumentProg Unit :=
  if published then pure () else atomicMove env r.old r.new r.expectedSha256

def followMove : DocumentProg Unit :=
  .attempt () fun w =>
    (moveIdentity env w.identities r.old r.new r.documentId).map fun identities =>
      ((), {w with identities})

def followOrReturn (publishing : Stored OperationRecord) : DocumentProg Receipt := do
  let followed ← (followMove env r).toExcept
  match followed with
  | .error fault => do
    let _ ← (atomicMove env r.new r.old r.expectedSha256).toExcept
    .fail fault
  | .ok () =>
    completeOperation env r.key r.request publishing [r.old, r.new] r.documentId none

def movePrepared (prepared : Stored OperationRecord) : DocumentProg Receipt := do
  let recovering : Bool := prepared.value.state = .publishing
  requireSnapshot env r.expectedSnapshotId true
  let (current, published) ← readMoved env r recovering
  .require (env.restricted r.old current = false) .restrictedContent
  .require (env.sha256Hex current = r.expectedSha256) .contentConflict
  let publishing ← publishOperation r.key r.request prepared
  publishMove env r published
  followOrReturn env r publishing

def moveDocument : DocumentProg Receipt := do
  ensureIndex env
  .require (env.editable r.old = true ∧ env.editable r.new = true) .readOnly
  .require (r.old ≠ r.new) .destinationUnchanged
  .require (env.safeKey r.key = true) .malformedKey
  let prior ← idempotentReceipt r.key r.request
  match prior with
  | some receipt => pure receipt
  | none => do
    let prepared ← prepareOperation r.key r.request
    movePrepared env r prepared

def resumableMove (key : String) (documentId : DocumentId) (operation : Operation) :
    DocumentProg (Option (Receipt ⊕ Request)) := do
  .require (env.safeKey key = true) .malformedKey
  .attempt () fun w =>
    match head w.operations key with
    | none => .ok (none, w)
    | some ⟨_, record⟩ =>
      if record.state = .prepared then .ok (none, w)
      else if record.request.operation = operation ∧
          record.request.documentId = some documentId then
        match w.receipts key with
        | some (request, receipt) =>
          if request = record.request then .ok (some (.inl receipt), w) else .error .keyReused
        | none =>
          if record.state = .completed then .error .receiptMissing
          else .ok (some (.inr record.request), w)
      else .error .bindingChanged

def documentRow (documentId : DocumentId) : DocumentProg DocumentRow := do
  let rows ← currentRows
  .ofOption (rows.find? fun row => row.documentId = documentId) .documentMissing

/-- What `rename` and `move` share: `destination` is where the document goes from its path, and
`binds` whether an interrupted operation went there. -/
def relocate (operation : Operation) (documentId : DocumentId) (destination : Path → Path)
    (binds : Path → Path → Bool) (expectedSha256 expectedSnapshotId key : String) :
    DocumentProg Receipt := do
  let resumed ← resumableMove env key documentId operation
  match resumed with
  | some (.inl receipt) => pure receipt
  | some (.inr request) => do
    let old ← .ofOption request.oldPath .bindingChanged
    .require (binds old request.newPath = true ∧ request.sha256 = expectedSha256 ∧
      request.expectedSnapshotId = expectedSnapshotId) .bindingChanged
    moveDocument env
      ⟨operation, documentId, old, request.newPath, expectedSha256, expectedSnapshotId, key⟩
  | none => do
    let row ← documentRow documentId
    moveDocument env ⟨operation, documentId, row.relativePath, destination row.relativePath,
      expectedSha256, expectedSnapshotId, key⟩

def rename (documentId : DocumentId) (newName : String)
    (expectedSha256 expectedSnapshotId key : String) : DocumentProg Receipt :=
  relocate env .rename documentId (fun old => old.dropLast ++ [newName])
    (fun _ new => new.getLast? = some newName) expectedSha256 expectedSnapshotId key

def move (documentId : DocumentId) (destinationFolder : Path)
    (expectedSha256 expectedSnapshotId key : String) : DocumentProg Receipt :=
  relocate env .move documentId (fun old => destinationFolder ++ old.getLast?.toList)
    (fun old new => new = destinationFolder ++ old.getLast?.toList) expectedSha256
    expectedSnapshotId key

end RaytSystem.Identity
