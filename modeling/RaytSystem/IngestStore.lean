import RaytSystem.IngestModel

/-! The accesses of ingestion: one read or one atomic write of a file, one transaction of the
control database, and the writer lock that a fenced commit holds over several accesses. -/
namespace RaytSystem.Ingestion
open Control ImmutableStore Interleaving

variable {α : Type}

def nowMs : IngestProg Time := .any Int

def inspect (f : IngestFiles → Except IngestError α) : IngestProg α :=
  .attempt .other fun w => match f w.files with
    | .ok a => .ok (a,w)
    | .error e => .error e

def fetch (f : IngestFiles → Option α) (e : IngestError) : IngestProg α :=
  .attempt .other fun w => match f w.files with
    | some a => .ok (a,w)
    | none => .error e

def peek (f : IngestFiles → α) : IngestProg α := .get .other fun w => f w.files

def write (f : IngestFiles → IngestFiles) : IngestProg Unit :=
  .set .other fun w => {w with files := f w.files}

def publishStep (f : IngestFiles → Option IngestFiles) (w : IngestWorld) :
    Except IngestError (Unit × IngestWorld) :=
  match f w.files with
  | some files => .ok ((),{w with files := files})
  | none => .error (.integrity "Immutable path collision")

def publishFile (f : IngestFiles → Option IngestFiles) : IngestProg Unit :=
  .attempt .other (publishStep f)

def publishListed {κ ν : Type} [DecidableEq κ] [DecidableEq ν] (d : PyDict κ ν) (k : κ) (v : ν) :
    Option (PyDict κ ν) :=
  match d.get k with
  | none => some (d.set k v)
  | some v' => if v' = v then some d else none

def publishGeneration (g : LedgerGeneration) : IngestProg Unit :=
  publishFile fun s => (publish s.generations g.generationId g).map fun t => {s with generations := t}

def publishClaim (sha256 : Digest) (c : Claim) : IngestProg Unit :=
  publishFile fun s => (publish s.claims sha256 c).map fun t => {s with claims := t}

def publishEvent (event : PromotionEvent) : IngestProg Unit :=
  publishFile fun s => (publishListed s.events event.eventId event).map fun t => {s with events := t}

def publishApproval (approval : ApprovalRecord) : IngestProg Unit :=
  publishFile fun s =>
    (publish s.accepted approval.approvalId approval).map fun t => {s with accepted := t}

def rebuildJsonl (ids : List Digest) : IngestProg Unit :=
  .require ids.Nodup (.integrity "Duplicate record ID in projection")

def readRegular (f : IngestFiles → Option α) (fits : α → Bool) : IngestProg α := do
  let a ← fetch f (.pathPolicy "Path cannot be opened")
  .require (fits a = true) (.pathPolicy "File exceeds the configured limit")
  pure a

def readGeneration (id : GenerationId) : IngestProg LedgerGeneration :=
  fetch (·.generations id) (.integrity "Invalid JSON object")

variable (env : IngestEnv)

def readCurrentGeneration : IngestProg GenerationId := do
  let value ← peek IngestFiles.current
  inspect fun s => match s.generations value with
    | some g => if env.fits.generation g = true then .ok value
      else .error (.integrity "Active generation does not exist")
    | none => .error (.integrity "Active generation does not exist")

def replaceCurrentGeneration (txn : PromotionTxn) (generationId : GenerationId) :
    IngestProg Unit := do
  .require (generationId ≠ .genesis) (.integrity "Malformed generation identifier")
  let _ ← fetch (·.generations generationId) (.integrity "Cannot activate missing generation")
  .set .other fun w =>
    {w with
      files := {w.files with current := generationId}
      pointerWrites := ⟨w.files.current, txn, generationId⟩ :: w.pointerWrites}

def verifyId (g : LedgerGeneration) : Bool :=
  match g.generationId with
  | .genesis => g.parentGenerationId.isNone && g.records.entries.isEmpty
  | .gen digest => digest == env.hash.generationId g.toGenerationSeed

variable (runId : RunId)

def readManifest : IngestProg RunManifest :=
  fetch (·.manifests runId) (.integrity "Invalid JSON object")

def putManifest (m : RunManifest) (s : IngestFiles) : IngestFiles :=
  {s with manifests := Function.update s.manifests runId (some m)}

def updateRunManifest (state : RunState) (update : RunManifest → RunManifest) :
    IngestProg Unit := do
  let payload ← readManifest runId
  write (putManifest runId {update payload with state := state})

def editStaging (f : Staging → Staging) : IngestProg Unit :=
  write fun s => {s with staging := Function.update s.staging runId (f (s.staging runId))}

variable (f : ControlDb → Except IngestError (α × ControlDb))

def transactStep (w : IngestWorld) : Except IngestError (α × IngestWorld) :=
  match w.writer with
  | some _ => .error .locked
  | none => match f w.db with
    | .ok (a,db) => .ok (a,{w with db := db})
    | .error e => .error e

def transact : IngestProg α :=
  .attempt .other (transactStep f)

def query (f : ControlDb → α) : IngestProg α := .get .other fun w => f w.db

def ofControl : ControlError → IngestError
  | .leaseBusy message => .leaseBusy message
  | .valueError message => .value message

variable (operationKey : Digest)

def updateOperation (state : RunState) (result : Option IngestResult) : IngestProg Unit :=
  transact fun db => match db.operations operationKey with
    | none => .error (.key "operation_key")
    | some row => .ok ((),{db with
        operations := Function.update db.operations operationKey (some ⟨row.runId, state, result⟩)
        runs := Function.update db.runs row.runId (some state)})

def acquireLease (env : IngestEnv) (worker partitionKey : String) (now : Time) :
    IngestProg LeaseToken :=
  transact fun db =>
    match Control.acquireLease db.leases partitionKey worker env.leaseTtlMs now with
    | .ok (lease,leases) => .ok (lease,{db with leases := leases})
    | .error e => .error (ofControl e)

def releaseLease (lease : LeaseToken) : IngestProg Unit :=
  transact fun db => .ok ((),{db with leases := (Control.releaseLease db.leases lease).2})

def beginHold (worker : String) (leases : List LeaseToken) (now : Time) :
    IngestProg (List LeaseToken) :=
  .attempt .other fun w => match w.writer with
    | some _ => .error .locked
    | none => match Control.holdValidLeases w.db.leases leases now (some env.leaseTtlMs) with
      | .ok (renewed,t) => .ok (renewed,{w with writer := some (worker,t)})
      | .error e => .error (ofControl e)

def rollback : IngestProg Unit := .set .other fun w => {w with writer := none}

def commit : IngestProg Unit :=
  .set .other fun w => match w.writer with
    | some (_,t) => {w with db := {w.db with leases := t}, writer := none}
    | none => w

def holdValidLeases (worker : String) (leases : List LeaseToken)
    (body : List LeaseToken → IngestProg α) : IngestProg α := do
  let now ← nowMs
  let renewed ← beginHold env worker leases now
  let a ← (body renewed).tryCatch fun e => do
    rollback
    throw e
  commit
  pure a

def renewHeldLeases (env : IngestEnv) (worker : String) (leases : List LeaseToken) :
    IngestProg (List LeaseToken) := do
  let now ← nowMs
  .attempt .other fun w => match w.writer with
    | some (owner,t) =>
      if owner = worker then
        match Control.renewHeldLeases t leases env.leaseTtlMs now with
        | .ok (renewed,t') => .ok (renewed,{w with writer := some (owner,t')})
        | .error e => .error (ofControl e)
      else .error (.runtime "Held lease renewal requires the writer transaction")
    | none => .error (.runtime "Held lease renewal requires the writer transaction")

def latestPromotion (rows : List PromotionRow) : Option PromotionRow :=
  (rows.filter fun r => r.operationKey == operationKey && r.state != .aborted).foldl
    (fun best row => match best with
      | none => some row
      | some b => if b.createdAtMs ≤ row.createdAtMs then some row else some b) none

def promotionForOperation : IngestProg (Option PromotionRow) :=
  query fun db => latestPromotion operationKey db.promotions

variable (db : ControlDb) (txnId : Digest)

def promotionRow : Option PromotionRow :=
  db.promotions.find? (·.txnId == txnId)

def setPromotion (f : PromotionRow → PromotionRow) : ControlDb :=
  {db with promotions := db.promotions.map fun r => if r.txnId = txnId then f r else r}

def PromotionRow.sameIdentity (r row : PromotionRow) : Bool :=
  r.operationKey == row.operationKey && r.runId == row.runId &&
    r.parentGenerationId == row.parentGenerationId &&
    r.nextGenerationId == row.nextGenerationId && r.manifestSha256 == row.manifestSha256 &&
    r.eventId == row.eventId

def PromotionState.replaceable (s : PromotionState) : Bool := s == .prepared || s == .committing

def storeRow (row : PromotionRow) (db : ControlDb) : Except IngestError (Unit × ControlDb) :=
  match promotionRow db row.txnId with
  | some existing =>
    if existing.sameIdentity row = false then .error (.runtime "Promotion WAL identity collision")
    else if existing.approvalHash ≠ row.approvalHash ∧ existing.state.replaceable = false then
      .error (.runtime "Committed promotion authority cannot be replaced")
    else .ok ((),setPromotion db row.txnId fun r =>
      {r with
        partitionFencingToken := row.partitionFencingToken
        globalFencingToken := row.globalFencingToken
        approvalHash := row.approvalHash
        payload := row.payload})
  | none =>
    if db.promotions.any fun r =>
        r.nextGenerationId == row.nextGenerationId || r.eventId == row.eventId then
      .error (.runtime "UNIQUE constraint failed")
    else .ok ((),{db with promotions := db.promotions ++ [row]})

def storePromotion (row : PromotionRow) : IngestProg Unit :=
  .attempt (.storePromotion row) (transactStep (storeRow row))

def PromotionState.next : PromotionState → List PromotionState
  | prepared => [committing, aborted]
  | committing => [committed, aborted]
  | committed => [reconciling]
  | reconciling => [completed]
  | completed => []
  | aborted => []

def updateRow (state : PromotionState) (db : ControlDb) : Except IngestError (Unit × ControlDb) :=
  match promotionRow db txnId with
  | none => .error (.key "txn_id")
  | some row =>
    if state ≠ row.state ∧ state ∉ row.state.next then
      .error (.runtime "Illegal promotion state transition")
    else .ok ((),setPromotion db txnId fun r => {r with state := state})

def updatePromotionState (state : PromotionState) : IngestProg Unit :=
  transact (updateRow txnId state)

variable (eventId : Digest)

def outboxRecord : Option OutboxRow :=
  db.outbox.find? (·.eventId == eventId)

def eventOutboxRecord : IngestProg (Option OutboxRow) :=
  query fun db => outboxRecord db eventId

def storeEventOutbox (row : OutboxRow) : IngestProg Unit :=
  transact fun db =>
    match db.outbox.find? fun r => r.eventId == row.eventId || r.txnId == row.txnId with
    | some existing =>
      if {existing with appended := row.appended} = row then .ok ((),db)
      else .error (.runtime "Event outbox identity collision")
    | none => .ok ((),{db with outbox := db.outbox ++ [row]})

def markEventAppended : IngestProg Unit :=
  transact fun db => .ok ((),{db with
    outbox := db.outbox.map fun r => if r.eventId = eventId then {r with appended := true} else r})

def promotionOrder : List PromotionState :=
  [.prepared, .committing, .committed, .reconciling, .completed]

def advanceEach (txnId : Digest) : List PromotionState → IngestProg Unit
  | [] => pure ()
  | s :: rest => do
    updatePromotionState txnId s
    advanceEach txnId rest

def advancePromotionState (target : PromotionState) : IngestProg Unit := do
  let found ← query fun db => promotionRow db txnId
  let row ← .ofOption found (.integrity "Promotion transaction is missing from WAL")
  .require (row.state ≠ .aborted) (.integrity "Aborted promotion cannot advance")
  let start := promotionOrder.idxOf row.state
  let stop := promotionOrder.idxOf target
  advanceEach txnId ((promotionOrder.take (stop + 1)).drop (start + 1))

end RaytSystem.Ingestion
