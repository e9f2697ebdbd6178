import RaytSystem.IngestValidate

/-! The promotion of a staged candidate: its authority, the write-ahead record, the fenced
replacement of the pointer, and the recovery of a promotion whose process was lost. -/
namespace RaytSystem.Ingestion
open Control ImmutableStore Interleaving

variable {α : Type}

section
variable (env : IngestEnv)

def deriveFixtureAuthority (p : Prepared) (m : RunManifest) : IngestProg (Option Digest) := do
  let result := p.result
  let source ← loadSource env result.sourceId
  let revision ← loadSourceRevision env result.sourceRevisionId
  let raw ← readRegular (·.blobs revision.rawPath) env.fits.content
  let contentSha256 := env.hash.content raw
  .require (m.runId = result.runId ∧ m.operationType = "ingest" ∧
      m.operationKey = result.operationKey ∧ m.sourceId = result.sourceId ∧
      m.inputSha256 = contentSha256 ∧ m.inputPath = source.locator)
    (.integrity "Run manifest provenance mismatch")
  .require (env.hash.sourceId source.locator = result.sourceId)
    (.integrity "Run input path does not bind the logical source")
  .require (revision.contentSha256 = contentSha256)
    (.integrity "Raw evidence hash mismatch during authority derivation")
  .require (env.allowsContent raw source.locator = true)
    (.quarantined "Source content was classified restricted before capture")
  let (extractor,extraction) ← reextract env
    (.integrity "Raw evidence cannot re-derive operation authority") source.locator raw
  classifyDerivedOrQuarantine env extraction
  let config := adapterConfigSha256 env extractor extraction
  if env.hash.operationKey result.sourceId contentSha256 config false none = result.operationKey then
    pure none
  else do
    let policySha256 ← (authorizeFixture env source.locator raw).tryCatch fun e => match e with
      | .approvalRequired _ =>
        throw (.integrity "Prepared operation no longer has verifiable fixture authority")
      | e => throw e
    .require (env.hash.operationKey result.sourceId contentSha256 config true (some policySha256) =
        result.operationKey)
      (.integrity "Prepared operation fingerprint cannot be re-derived")
    pure (some policySha256)

def assertApprovalValid (p : Prepared) (approval : ApprovalRecord) (time : Time) :
    IngestProg Unit :=
  .require (approval.approvalId = env.hash.approvalId approval ∧ approval.approves = true ∧
      approval.action = "promote" ∧ approval.targetId = p.txn.txnId ∧
      approval.artifactSha256 = p.txn.candidateManifestSha256 ∧ approval.destination = none ∧
      approval.approvedAt ≤ time ∧ time < approval.expiresAt ∧ approval.policyVersion = "1.0.0" ∧
      approval.policySha256 = env.policySha256 ∧ approval.scope = ["real_corpus"] ∧
      approval.conditions = [])
    (.approvalRequired "ApprovalRecord does not match the exact promotion candidate")

def loadAndValidateApproval (p : Prepared) (incoming : Option String) :
    IngestProg ApprovalRecord := do
  let text ← .ofOption incoming (.approvalRequired
    "Real-corpus promotion requires an ApprovalRecord file bound to the candidate")
  .require (env.allowsText text = true) (.quarantined "Approval was classified restricted")
  let approval ← .ofExcept (env.verifyApproval text)
  let time ← nowMs
  assertApprovalValid env p approval time
  publishApproval approval
  publishFile fun s =>
    (publish s.verified approval.approvalId env.verifierSha256).map fun t => {s with verified := t}
  pure approval

structure Grant where
  approval : Option ApprovalRecord
  fixtureAuthorized : Bool
  fixturePolicySha256 : Option Digest

def checkGrant (g : Grant) : IngestProg Unit :=
  if g.fixtureAuthorized = true then
    .require (g.approval = none ∧ g.fixturePolicySha256.isSome)
      (.integrity "Fixture promotion authority is internally inconsistent")
  else
    .require g.approval.isSome
      (.approvalRequired "Real promotion requires externally verified approval")

def authorityOf (operationKey : Digest) (g : Grant) : IngestProg (Authority × Digest) :=
  if g.fixtureAuthorized = true then do
    let policySha256 ← .ofOption g.fixturePolicySha256
      (.integrity "Fixture authority has no policy hash")
    let authorityHash := env.hash.fixtureAuthority operationKey policySha256
    pure (.fixture policySha256 authorityHash,authorityHash)
  else do
    let approval ← .ofOption g.approval (.approvalRequired "Real promotion approval disappeared")
    let authorityHash := env.hash.approval approval
    pure (.externalApproval approval.approvalId authorityHash,authorityHash)
end

section
variable (env : IngestEnv)

def derive (message : String) : IngestProg Unit := do
  let refused ← .any Bool
  .require (refused = false) (.integrity message)

def converged (db : ControlDb) (event : PromotionEvent) : Bool :=
  match promotionRow db event.txnId with
  | none => true
  | some row =>
    row.state == .completed &&
      (db.operations event.operationKey).any (fun o => o.state == .succeeded && o.result.isSome) &&
      db.runs event.runId == some .succeeded &&
      (outboxRecord db event.eventId).any (·.appended)

def assertActiveGenerationReconciled (g : LedgerGeneration) : IngestProg Unit :=
  if g.generationId = .genesis then pure ()
  else do
    let incomplete : IngestError :=
      .integrity "Active generation has incomplete reconciliation; recover its run first"
    let event ← fetch (fun s => g.promotionEventId.bind s.events.get) incomplete
    let marker ← fetch (·.materialized) incomplete
    .require (some event.eventId = g.promotionEventId ∧ some event.txnId = g.promotionTxnId ∧
        some event.parentGenerationId = g.parentGenerationId ∧
        event.newGenerationId = g.generationId ∧ marker = g.generationId)
      (.integrity "Active generation reconciliation provenance disagrees")
    let m ← readManifest event.runId
    .require (m.runId = event.runId ∧ m.operationKey = event.operationKey ∧
        m.txnId = some event.txnId ∧ m.eventId = some event.eventId ∧
        m.generationId = some g.generationId ∧ m.state = .succeeded)
      (.integrity "Active generation run has not reached durable terminal convergence")
    let done ← query fun db => converged db event
    .require (done = true)
      (.integrity "Active generation durable state has not converged; recover its run first")
    derive "Active generation Git checkpoint is incomplete; recover its run first"

def reconcile (worker : String) (p : Prepared) (leases : List LeaseToken) : IngestProg Unit := do
  publishEvent p.event
  let ids ← peek fun s => s.events.entries.map fun e => e.2.eventId
  rebuildJsonl ids
  markEventAppended p.event.eventId
  advancePromotionState p.txn.txnId .reconciling
  holdValidLeases env worker leases fun _ => do
    let current ← readCurrentGeneration env
    .require (current = p.generation.generationId)
      (.integrity "Derived reconciliation no longer owns ledger/CURRENT")
    derive "Derived projection rebuilt a different active generation"
    write fun s => {s with materialized := some s.current}
    derive "Git checkpoint was rejected"
    let current ← readCurrentGeneration env
    .require (current = p.generation.generationId)
      (.integrity "Derived reconciliation pointer changed unexpectedly")

def settle (worker : String) (p : Prepared) (leases : List LeaseToken) :
    IngestProg IngestResult := do
  advancePromotionState p.txn.txnId .committed
  updateOperation p.result.operationKey .reconciling none
  reconcile env worker p leases
  let final : IngestResult := {p.result with status := .succeeded}
  updateOperation p.result.operationKey .succeeded (some final)
  advancePromotionState p.txn.txnId .completed
  updateRunManifest p.result.runId .succeeded fun m =>
    {m with
      generationId := some final.generationId
      eventId := some p.event.eventId
      txnId := some p.txn.txnId}
  pure final
end

section
variable (env : IngestEnv)

def sourcePartition (sourceId : Digest) : String := s!"source:{sourceId}"

variable (worker : String)

def withLeases (sourceId : Digest) (body : Time → LeaseToken → LeaseToken → IngestProg α) :
    IngestProg α := do
  let now ← nowMs
  let source ← acquireLease env worker (sourcePartition sourceId) now
  let ledger ← (acquireLease env worker "ledger:current" now).toExcept
  match ledger with
  | .error e => (Prog.fail e).tryFinally (releaseLease source)
  | .ok ledger => (body now source ledger).tryFinally do
    releaseLease ledger
    releaseLease source

def superseded (wal : Option PromotionRow) (p : Prepared) : Option Digest :=
  match wal with
  | some row => if row.txnId ≠ p.txn.txnId ∧ row.state.replaceable = true then some row.txnId else none
  | none => none

def onActive (wal : Option PromotionRow) (active : GenerationId) (g : Grant) (p : Prepared) :
    IngestProg (Prepared × Option Digest) :=
  if active = p.txn.parentGenerationId ∨ active = p.txn.nextGenerationId then
    pure (p,superseded wal p)
  else do
    let own := wal.filter fun row => row.txnId == p.txn.txnId
    .require (own.all fun row => row.state.replaceable)
      (.integrity "Committed promotion WAL disagrees with the active generation")
    let p' ← rebasePrepared env p active
    validatePrepared env p'
    .require (g.approval = none)
      (.approvalRequired "Concurrent promotion changed the candidate; issue a new exact approval")
    pure (p',own.map fun row => row.txnId)

variable (p : Prepared) (txn : PromotionTxn)

def walRow (approvalHash : Digest) (now : Time) : PromotionRow where
  txnId := txn.txnId
  operationKey := p.result.operationKey
  runId := p.result.runId
  partitionFencingToken := txn.partitionFencingToken
  globalFencingToken := txn.globalFencingToken
  parentGenerationId := txn.parentGenerationId
  nextGenerationId := txn.nextGenerationId
  manifestSha256 := txn.candidateManifestSha256
  eventId := txn.eventId
  approvalHash := some approvalHash
  state := .prepared
  payload := txn
  createdAtMs := now

def recordedTxn (source ledger : LeaseToken) (g : Grant) (authority : Authority) : PromotionTxn :=
  {p.txn with
    partitionFencingToken := source.fencingToken
    globalFencingToken := ledger.fencingToken
    approvalId := g.approval.map (·.approvalId)
    authority := some authority}

def writeAhead (p : Prepared) (txn : PromotionTxn) (approvalHash : Digest)
    (replaced : Option Digest) (now : Time) : IngestProg Unit := do
  publishClaim p.claimObjectSha256 p.claim
  publishGeneration p.generation
  storePromotion (walRow p txn approvalHash now)
  storeEventOutbox ⟨p.event.eventId, txn.txnId, p.event, env.hash.event p.event, false⟩
  match replaced with
  | some txnId => updatePromotionState txnId .aborted
  | none => pure ()

def commitPointer (g : Grant) (leases : List LeaseToken) : IngestProg (List LeaseToken) := do
  validatePrepared env p
  let m ← readManifest p.result.runId
  let derived ← deriveFixtureAuthority env p m
  .require (derived.isSome = g.fixtureAuthorized ∧ derived = g.fixturePolicySha256)
    (.approvalRequired "Promotion authority changed before the fenced commit")
  match g.approval with
  | some approval => do
    let time ← nowMs
    assertApprovalValid env p approval time
  | none => pure ()
  let leases ← renewHeldLeases env worker leases
  let guarded ← readCurrentGeneration env
  .require (guarded = txn.parentGenerationId)
    (.integrity "Parent generation changed before fenced pointer commit")
  replaceCurrentGeneration txn txn.nextGenerationId
  pure leases

def commitCandidate (g : Grant) (leases : List LeaseToken) : IngestProg (List LeaseToken) := do
  let current ← readCurrentGeneration env
  if current = txn.parentGenerationId then do
    advancePromotionState txn.txnId .committing
    holdValidLeases env worker leases (commitPointer env worker p txn g)
  else do
    .require (current = txn.nextGenerationId) (.integrity "Parent generation changed")
    pure leases

def endWithoutChange (active : LedgerGeneration) (activeId : GenerationId) :
    IngestProg IngestResult := do
  let final : IngestResult := {p.result with status := .succeeded, noop := true, generationId := activeId}
  updateOperation p.result.operationKey .succeeded (some final)
  updateRunManifest p.result.runId .succeeded fun m =>
    {m with
      generationId := some activeId
      eventId := active.promotionEventId
      txnId := active.promotionTxnId
      semanticNoop := true}
  pure final

def checkActive (wal : Option PromotionRow) (active : LedgerGeneration) (activeId : GenerationId) :
    IngestProg Unit :=
  if (wal.any fun row => row.txnId == p.txn.txnId) = true ∧ activeId = p.txn.nextGenerationId then
    pure ()
  else assertActiveGenerationReconciled active

def addsNothing (wal : Option PromotionRow) (active : LedgerGeneration) : Bool :=
  wal.isNone && (active.records.get p.claim.claimId).any fun entry =>
    !entry.tombstone && entry.objectSha256 == p.claimObjectSha256

def promoteCandidate (g : Grant) (now : Time) (source ledger : LeaseToken)
    (wal : Option PromotionRow) (activeId : GenerationId) : IngestProg IngestResult := do
  let (p,replaced) ← onActive env wal activeId g p
  let (authority,approvalHash) ← authorityOf env p.result.operationKey g
  let txn := recordedTxn p source ledger g authority
  writeAhead env p txn approvalHash replaced now
  let leases ← commitCandidate env worker p txn g [source,ledger]
  settle env worker p leases

def promoteHeld (g : Grant) (now : Time) (source ledger : LeaseToken) :
    IngestProg IngestResult := do
  let activeId ← readCurrentGeneration env
  let active ← readGeneration activeId
  let wal ← promotionForOperation p.result.operationKey
  checkActive p wal active activeId
  if addsNothing p wal active = true then endWithoutChange p active activeId
  else promoteCandidate env worker p g now source ledger wal activeId

def promote (g : Grant) : IngestProg IngestResult := do
  checkGrant g
  validatePrepared env p
  withLeases env worker p.result.sourceId (promoteHeld env worker p g)
end

section
variable (env : IngestEnv) (p : Prepared) (wal : PromotionRow)

def checkCommittedRow : IngestProg Unit := do
  let txn := p.txn
  .require (wal.payload = txn) (.integrity "Committed promotion WAL payload changed")
  .require (wal.txnId = txn.txnId ∧ wal.runId = txn.runId ∧ wal.operationKey = txn.operationKey ∧
      wal.parentGenerationId = txn.parentGenerationId ∧
      wal.nextGenerationId = txn.nextGenerationId ∧
      wal.manifestSha256 = txn.candidateManifestSha256 ∧ wal.eventId = txn.eventId)
    (.integrity "Committed promotion WAL columns disagree")
  .require (wal.partitionFencingToken = txn.partitionFencingToken ∧
      wal.globalFencingToken = txn.globalFencingToken)
    (.integrity "Committed promotion fencing record disagrees")

def checkCommittedAuthority : IngestProg Unit := do
  match p.txn.authority with
  | none => throw (.integrity "Committed authority snapshot is missing")
  | some (.fixture policySha256 authorityHash) =>
    .require (p.txn.approvalId = none ∧
        authorityHash = env.hash.fixtureAuthority p.txn.operationKey policySha256 ∧
        wal.approvalHash = some authorityHash)
      (.integrity "Committed fixture authority snapshot changed")
  | some (.externalApproval approvalId authorityHash) => do
    let recorded ← .ofOption p.txn.approvalId (.integrity "Committed approval ID is missing")
    let accepted ← fetch (·.accepted recorded) (.integrity "Accepted approval record is missing")
    let _ ← fetch (·.verified recorded)
      (.integrity "Accepted approval verification metadata is missing")
    .require (accepted.approvalId = recorded ∧ approvalId = recorded ∧
        authorityHash = env.hash.approval accepted ∧
        wal.approvalHash = some (env.hash.approval accepted))
      (.integrity "Committed accepted approval changed")

def validateCommittedPrepared : IngestProg Unit := do
  let txn := p.txn
  let current ← readCurrentGeneration env
  .require (current = p.generation.generationId)
    (.integrity "Committed recovery does not own ledger/CURRENT")
  let generation ← readGeneration p.generation.generationId
  let claim ← fetch (·.claims p.claimObjectSha256) (.pathPolicy "Claim object is missing")
  .require (generation = p.generation ∧ verifyId env generation = true ∧
      env.hash.generation generation = txn.candidateManifestSha256 ∧ claim = p.claim ∧
      env.hash.claim claim = p.claimObjectSha256)
    (.integrity "Committed generation or claim object failed hash closure")
  let entry ← .ofOption (generation.records.get claim.claimId)
    (.integrity "Committed generation transaction closure failed")
  .require (entry.objectSha256 = p.claimObjectSha256 ∧
      txn.outputHashes = [(claim.claimId,p.claimObjectSha256)] ∧
      generation.promotionTxnId = some txn.txnId ∧
      generation.promotionEventId = some p.event.eventId ∧
      generation.parentGenerationId = some txn.parentGenerationId)
    (.integrity "Committed generation transaction closure failed")
  validateGenerationObjects env generation claim none
  checkCommittedRow p wal
  let eventRow ← eventOutboxRecord p.event.eventId
  let eventRow ← .ofOption eventRow (.integrity "Committed event outbox closure failed")
  .require (eventRow.txnId = txn.txnId ∧ eventRow.payload = p.event ∧
      eventRow.payloadSha256 = env.hash.event p.event ∧
      p.event.eventId = env.hash.eventId txn.txnId ∧ p.event.runId = txn.runId ∧
      p.event.operationKey = txn.operationKey ∧
      p.event.parentGenerationId = txn.parentGenerationId ∧
      p.event.newGenerationId = txn.nextGenerationId)
    (.integrity "Committed event outbox closure failed")
  .require (txn.result = p.result)
    (.integrity "Committed result snapshot is missing or changed")
  checkCommittedAuthority env p wal

variable (worker : String)

def holdCommitted (p : Prepared) (leases : List LeaseToken) : IngestProg (List LeaseToken) := do
  let latest ← promotionForOperation p.result.operationKey
  let latest ← .ofOption latest (.integrity "Committed recovery WAL changed under its lease")
  .require (latest.txnId = p.txn.txnId)
    (.integrity "Committed recovery WAL changed under its lease")
  validateCommittedPrepared env p latest
  let current ← readCurrentGeneration env
  .require (current = p.generation.generationId)
    (.integrity "Committed generation pointer changed during recovery")
  renewHeldLeases env worker leases

def recoverCommitted (p : Prepared) (wal : PromotionRow) : IngestProg IngestResult := do
  validateCommittedPrepared env p wal
  withLeases env worker p.result.sourceId fun _ source ledger => do
    let leases ← holdValidLeases env worker [source,ledger] (holdCommitted env worker p)
    settle env worker p leases

def loadCandidate (operationKey : Digest) (runId : RunId) : IngestProg (Option Prepared) := do
  let staged ← loadPrepared env runId
  match staged with
  | some p => pure (some p)
  | none => loadFromWal operationKey runId

variable (runId : RunId)

def terminalResult (operationKey : Digest) (wal : Option PromotionRow) (result : IngestResult) :
    IngestProg (Option IngestResult) := do
  let result : IngestResult := {result with noop := true}
  .require (result.runId = runId ∧ result.operationKey = operationKey)
    (.integrity "Successful operation result provenance mismatch")
  let activeId ← readCurrentGeneration env
  let active ← readGeneration activeId
  let reconciled ← (assertActiveGenerationReconciled active).toExcept
  match reconciled with
  | .ok () => pure (some result)
  | .error (.integrity message) =>
    if (wal.any fun row => row.nextGenerationId == activeId) = true then pure none
    else throw (.integrity message)
  | .error e => throw e

variable (m : RunManifest)

def recoverStaged (runId : RunId) (fixture : Bool) (approval : Option String) :
    IngestProg IngestResult := do
  let found ← loadCandidate env m.operationKey runId
  let p ← .ofOption found (.integrity "Run has no recoverable prepared bundle")
  validatePrepared env p
  let derived ← deriveFixtureAuthority env p m
  .require (m.fixtureAuthorized = derived.isSome)
    (.integrity "Run fixture authority audit fields were changed")
  .require (m.fixturePolicySha256 = derived)
    (.integrity "Run fixture policy audit hash was changed")
  if derived.isSome = true then do
    .require (fixture = true ∧ approval = none)
      (.approvalRequired "Fixture recovery requires the authority recorded at preparation")
    promote env worker p ⟨none, true, derived⟩
  else do
    .require (fixture = false)
      (.approvalRequired "A real prepared run cannot be relabeled as a fixture")
    let approval ← loadAndValidateApproval env p approval
    promote env worker p ⟨some approval, false, none⟩

def endedResult (operation : OperationRow) (wal : Option PromotionRow) :
    IngestProg (Option IngestResult) :=
  match operation.result with
  | some result =>
    if operation.state = .succeeded ∧ m.state = .succeeded ∧
        wal.all (fun row => row.state == .completed) = true then
      terminalResult env runId m.operationKey wal result
    else pure none
  | none => pure none

def recoverOpen (runId : RunId) (fixture : Bool) (approval : Option String)
    (wal : Option PromotionRow) : IngestProg IngestResult :=
  match wal with
  | none => recoverStaged env worker m runId fixture approval
  | some row => do
    let current ← readCurrentGeneration env
    if current = row.nextGenerationId then do
      let found ← loadFromWal m.operationKey runId
      let p ← .ofOption found (.integrity "Committed recovery WAL disappeared")
      recoverCommitted env worker p row
    else recoverStaged env worker m runId fixture approval

def recoverRun (fixture : Bool) (approval : Option String) : IngestProg IngestResult := do
  let m ← readManifest runId
  let operation ← query fun db => db.operations m.operationKey
  let operation ← .ofOption operation
    (.integrity "Recovery operation is missing from the durable control DB")
  .require (operation.runId = runId) (.integrity "Recovery operation run ownership mismatch")
  let wal ← promotionForOperation m.operationKey
  let ended ← endedResult env runId m operation wal
  match ended with
  | some result => pure result
  | none => recoverOpen env worker m runId fixture approval wal
end

end RaytSystem.Ingestion
