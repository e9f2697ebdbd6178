import RaytSystem.IngestStore

/-! The staged candidate of a run: its claim, the generation that adds it to a parent, the
promotion transaction and its event. -/
namespace RaytSystem.Ingestion
open Control ImmutableStore Interleaving

structure Prepared where
  result : IngestResult
  claim : Claim
  claimObjectSha256 : Digest
  generation : LedgerGeneration
  txn : PromotionTxn
  event : PromotionEvent
  runCreatedAt : Time
  deriving DecidableEq

section
variable (env : IngestEnv)

def candidateSeed (parentId : GenerationId) (parent : LedgerGeneration) (claim : Claim)
    (claimSha256 txnId : Digest) (createdAt : Time) : GenerationSeed where
  parentGenerationId := some parentId
  records := parent.records.set claim.claimId ⟨"claim", claim.claimId, claimSha256, false⟩
  schemaRegistrySha256 := env.schemaRegistrySha256
  createdAt := createdAt
  promotionTxnId := some txnId
  promotionEventId := some (env.hash.eventId txnId)

/-- The candidate of a run on one parent. `updatedAt` and the fencing tokens are those of the
transaction; the result names the candidate's generation. -/
def candidate (result : IngestResult) (parentId : GenerationId) (parent : LedgerGeneration)
    (claim : Claim) (claimSha256 : Digest) (partitionToken globalToken : Nat)
    (createdAt updatedAt : Time) : Prepared :=
  let txnId := env.hash.txnId result.operationKey parentId claimSha256
  let eventId := env.hash.eventId txnId
  let seed := candidateSeed env parentId parent claim claimSha256 txnId createdAt
  let generationId := GenerationId.gen (env.hash.generationId seed)
  let generation : LedgerGeneration := {seed with generationId := generationId}
  let result := {result with generationId := generationId}
  { result := result
    claim := claim
    claimObjectSha256 := claimSha256
    generation := generation
    txn :=
      { txnId := txnId
        runId := result.runId
        operationKey := result.operationKey
        parentGenerationId := parentId
        nextGenerationId := generationId
        candidateManifestSha256 := env.hash.generation generation
        eventId := eventId
        partitionFencingToken := partitionToken
        globalFencingToken := globalToken
        outputHashes := [(claim.claimId, claimSha256)]
        approvalId := none
        createdAt := createdAt
        updatedAt := updatedAt
        result := result
        authority := none }
    event := ⟨eventId, txnId, result.runId, result.operationKey, parentId, generationId, createdAt⟩
    runCreatedAt := createdAt }

def mergeClaimWithGeneration (generation : LedgerGeneration) (claim : Claim) :
    IngestProg (Claim × Digest) :=
  match generation.records.get claim.claimId with
  | none => pure (claim, env.hash.claim claim)
  | some entry =>
    if entry.tombstone = true then pure (claim, env.hash.claim claim)
    else do
      let prior ← fetch (·.claims entry.objectSha256) (.pathPolicy "Prior claim object is missing")
      .require (env.hash.claim prior = entry.objectSha256)
        (.integrity "Prior claim object hash changed before evidence merge")
      .require (prior.claimId = claim.claimId ∧ prior.statement = claim.statement ∧
          prior.language = claim.language)
        (.integrity "Same claim ID has incompatible proposition content")
      let merged := {prior with
        evidenceIds := (prior.evidenceIds ++ claim.evidenceIds).dedup.insertionSort (· ≤ ·)
        recordedAt := min prior.recordedAt claim.recordedAt}
      pure (merged, env.hash.claim merged)
end

section
variable (env : IngestEnv)

def bundleHashes (p : Prepared) : BundleHashes :=
  ⟨env.hash.claim p.claim, env.hash.generation p.generation, env.hash.txn p.txn,
    env.hash.event p.event⟩

def writeStagingBundle (p : Prepared) : IngestProg Unit := do
  let runId := p.result.runId
  editStaging runId fun s => {s with marker := none}
  editStaging runId fun s => {s with claim := some p.claim}
  editStaging runId fun s => {s with generation := some p.generation}
  editStaging runId fun s => {s with txn := some p.txn}
  editStaging runId fun s => {s with event := some p.event}
  let files := bundleHashes env p
  editStaging runId fun s =>
    {s with marker := some ⟨p.txn.runId, env.hash.bundleId p.txn.runId files, files⟩}

def rebasePrepared (prepared : Prepared) (parentId : GenerationId) : IngestProg Prepared := do
  let parent ← readGeneration parentId
  .require (verifyId env parent = true) (.integrity "Cannot rebase onto an invalid generation")
  let (claim,claimSha256) ← mergeClaimWithGeneration env parent prepared.claim
  let updatedAt ← nowMs
  let rebased := candidate env prepared.result parentId parent claim claimSha256
    prepared.txn.partitionFencingToken prepared.txn.globalFencingToken prepared.runCreatedAt
    updatedAt
  writeStagingBundle env rebased
  updateRunManifest rebased.result.runId .prepared fun m =>
    {m with
      generationId := some rebased.generation.generationId
      eventId := some rebased.event.eventId
      txnId := some rebased.txn.txnId}
  pure rebased

def checkBundleFile {α : Type} (f : Staging → Option α) (runId : RunId) (hash : α → Digest)
    (expected : Digest) : IngestProg Unit := do
  let a ← fetch (fun s => f (s.staging runId)) (.integrity "Staged transaction bundle is incomplete")
  .require (hash a = expected) (.integrity "Staged transaction bundle hash mismatch")

def readBundleFile {α : Type} (f : Staging → Option α) (runId : RunId) : IngestProg α :=
  fetch (fun s => f (s.staging runId)) (.integrity "Invalid JSON object")

def requireField {α : Type} (o : Option α) (name : String) : IngestProg α := .ofOption o (.key name)

def loadedSegment (m : RunManifest) (claim : Claim) : IngestProg Digest :=
  match m.segmentId with
  | some segmentId => pure segmentId
  | none => .ofOption claim.evidenceIds.head? (.key "evidence_ids")

def assemblePrepared (runId : RunId) (m : RunManifest) (claim : Claim)
    (generation : LedgerGeneration) (txn : PromotionTxn) (event : PromotionEvent) :
    IngestProg Prepared := do
  .require (txn.runId = runId ∧ event.txnId = txn.txnId)
    (.integrity "Staged transaction ownership mismatch")
  .require (generation.generationId = txn.nextGenerationId)
    (.integrity "Staged generation does not match transaction")
  let claimSha256 ← .ofOption (txn.outputHashes.lookup claim.claimId)
    (.integrity "Staged transaction does not bind its claim")
  let sourceRevisionId ← requireField m.sourceRevisionId "source_revision_id"
  let rawPath ← requireField m.rawPath "raw_path"
  let normalizationId ← requireField m.normalizationId "normalization_id"
  let normalizedPath ← requireField m.normalizedPath "normalized_path"
  let segmentId ← loadedSegment m claim
  pure
    { result :=
        { status := .prepared
          noop := false
          runId := runId
          operationKey := m.operationKey
          sourceId := m.sourceId
          sourceRevisionId := sourceRevisionId
          rawPath := rawPath
          normalizationId := normalizationId
          normalizedPath := normalizedPath
          segmentId := segmentId
          generationId := generation.generationId }
      claim := claim
      claimObjectSha256 := claimSha256
      generation := generation
      txn := txn
      event := event
      runCreatedAt := m.createdAt }

def loadPrepared (runId : RunId) : IngestProg (Option Prepared) := do
  let marker ← peek fun s => (s.staging runId).marker
  match marker with
  | none => pure none
  | some marker =>
    .require (marker.runId = runId) (.integrity "Staged transaction bundle marker is malformed")
    checkBundleFile Staging.claim runId env.hash.claim marker.files.claim
    checkBundleFile Staging.generation runId env.hash.generation marker.files.generation
    checkBundleFile Staging.txn runId env.hash.txn marker.files.txn
    checkBundleFile Staging.event runId env.hash.event marker.files.event
    .require (marker.bundleId = env.hash.bundleId runId marker.files)
      (.integrity "Staged transaction bundle identity mismatch")
    let m ← readManifest runId
    let claim ← readBundleFile Staging.claim runId
    let generation ← readBundleFile Staging.generation runId
    let txn ← readBundleFile Staging.txn runId
    let event ← readBundleFile Staging.event runId
    some <$> assemblePrepared runId m claim generation txn event

def loadFromWal (operationKey : Digest) (runId : RunId) : IngestProg (Option Prepared) := do
  let row ← promotionForOperation operationKey
  match row with
  | none => pure none
  | some row =>
    .require (row.runId = runId) (.integrity "Promotion WAL run ownership mismatch")
    let txn := row.payload
    .require (txn.nextGenerationId ≠ .genesis) (.integrity "Malformed generation identifier")
    let generation ← readGeneration txn.nextGenerationId
    let eventRow ← eventOutboxRecord txn.eventId
    let eventRow ← .ofOption eventRow (.integrity "Promotion WAL event outbox is missing")
    match txn.outputHashes with
    | [(_,claimSha256)] =>
      let claim ← fetch (·.claims claimSha256) (.integrity "Invalid JSON object")
      .require (txn.result.runId = runId ∧ txn.result.operationKey = operationKey ∧
          txn.result.generationId = txn.nextGenerationId)
        (.integrity "Promotion WAL result snapshot disagrees")
      pure (some
        { result := {txn.result with noop := false}
          claim := claim
          claimObjectSha256 := claimSha256
          generation := generation
          txn := txn
          event := eventRow.payload
          runCreatedAt := txn.createdAt })
    | _ => throw (.integrity "M1 promotion WAL must reference exactly one claim")
end

end RaytSystem.Ingestion
