import RaytSystem.IngestStaging

/-! The checks of a staged candidate: its own identities, the objects of its generation, and
the evidence behind them down to the captured bytes. -/
namespace RaytSystem.Ingestion
open Control ImmutableStore Interleaving PyText

section
variable (env : IngestEnv)

def scanSources (sourceId : Digest) :
    List (Digest × Source) → Option Source → Except IngestError (Option Source)
  | [], found => .ok found
  | (name,source) :: rest, found =>
    if name ≠ env.hash.source source then
      .error (.integrity "Source object filename hash mismatch")
    else if source.sourceId ≠ sourceId then scanSources sourceId rest found
    else if found.isSome = true then
      .error (.integrity "Logical source has multiple immutable definitions")
    else if source.identityKeySha256 ≠ env.hash.text source.locator ∨
        source.sourceId ≠ env.hash.sourceId source.locator then
      .error (.integrity "Source identity does not match immutable origin")
    else scanSources sourceId rest (some source)

def loadSource (sourceId : Digest) : IngestProg Source :=
  inspect fun s => match scanSources env sourceId s.sources.entries none with
    | .ok (some source) => .ok source
    | .ok none => .error (.integrity "Source record is missing")
    | .error e => .error e

def revisionMissing : IngestError := .integrity "Source revision record is missing"

def scanRevisions (sourceRevisionId : Digest) :
    List (Digest × SourceRevision) → Option SourceRevision →
      Except IngestError (Option SourceRevision)
  | [], found => .ok found
  | (name,revision) :: rest, found =>
    if name ≠ env.hash.revision revision then
      .error (.integrity "Source revision object filename hash mismatch")
    else if revision.sourceRevisionId ≠
        env.hash.revisionId revision.sourceId revision.contentSha256 then
      .error (.integrity "Source revision logical ID mismatch")
    else if revision.sourceRevisionId ≠ sourceRevisionId then
      scanRevisions sourceRevisionId rest found
    else if found.isSome = true then
      .error (.integrity "Logical source revision has multiple immutable definitions")
    else scanRevisions sourceRevisionId rest (some revision)

def loadSourceRevision (sourceRevisionId : Digest) : IngestProg SourceRevision :=
  inspect fun s => match scanRevisions env sourceRevisionId s.revisions.entries none with
    | .ok (some revision) => .ok revision
    | .ok none => .error revisionMissing
    | .error e => .error e

def excerptTable (empty duplicated : IngestError) :
    List Excerpt → PyDict Digest String → Except IngestError (PyDict Digest String)
  | [], table => .ok table
  | x :: rest, table =>
    if x.excerpt = "" then .error empty
    else if (table.get x.segmentId).isSome = true then .error duplicated
    else excerptTable empty duplicated rest (table.set x.segmentId x.excerpt)

def loadExcerpts (n : Normalization) : IngestProg (PyDict Digest String) := do
  let (path,sha256) ← .ofOption n.excerpts
    (.integrity "Normalization excerpt binding is missing")
  let data ← readRegular (·.excerpts path) env.fits.excerpts
  .require (env.hash.excerpts data = sha256) (.integrity "Normalized excerpts hash mismatch")
  .ofExcept (excerptTable (.integrity "Normalized excerpt record has invalid values")
    (.integrity "Normalized excerpt ID is duplicated") data .empty)

variable (sourceRevisionId normalizationId : Digest)

def createSegment (ordinal : Nat) (span : ExtractedSpan) : Segment :=
  let excerptSha256 := env.hash.text span.excerpt
  ⟨env.hash.segmentId normalizationId span.locator excerptSha256, sourceRevisionId,
    normalizationId, ordinal, span.locator, excerptSha256, span.modality⟩

variable (spans : List ExtractedSpan)

def segmentsOf : List Segment :=
  spans.mapIdx fun ordinal span => createSegment env sourceRevisionId normalizationId ordinal span

def segmentIds (segments : List Segment) : List Digest := segments.map Segment.segmentId

def sameSet (xs ys : List Digest) : Bool := xs.all ys.contains && ys.all xs.contains

def locatorInside (lines : List String) (segment : Segment) : Bool :=
  match segment.locator with
  | .text (some line) _ _ _ => line ≤ lines.length
  | .text none _ _ _ => false
  | .place _ _ => true

def locatorResolves (lines : List String) (segment : Segment) (excerpt : String) : Bool :=
  match segment.locator with
  | .text (some line) _ _ _ => line ≤ lines.length && lines[line - 1]? == some excerpt
  | .text none _ _ _ => false
  | .place _ _ => true

def adapterConfigSha256 (extractor : Extractor) (extraction : Extraction) : Digest :=
  env.hash.adapterConfig extractor.name extractor.version (env.hash.text extraction.document)
    extractor.runtime

def classifyDerivedOrQuarantine (extraction : Extraction) : IngestProg Unit :=
  .require ((extraction.document :: extraction.spans.map (·.excerpt)).all env.allowsText = true)
    (.quarantined "Extracted content was classified restricted before normalization")

def authorizeFixture (path : String) (data : Bytes) : IngestProg Digest :=
  .ofExcept (env.fixturePolicy path data)

def reextract (error : IngestError) (path : String) (raw : Bytes) :
    IngestProg (Extractor × Extraction) := do
  match env.selectExtractor path with
  | .error _ => throw error
  | .ok extractor =>
    if extractor.isPdf = true ∧ extractor.restricted = false then
      let _ ← authorizeFixture env path raw
    match env.extract extractor raw path with
    | .error _ => throw error
    | .ok extraction => pure (extractor,extraction)

def matchesExtraction (segments : List Segment) (excerpts : PyDict Digest String) : Prop :=
  segments = segmentsOf env sourceRevisionId normalizationId spans ∧
    ∀ x ∈ segments.zip spans, excerpts.get x.1.segmentId = some x.2.excerpt

instance (sourceRevisionId normalizationId : Digest) (spans : List ExtractedSpan)
    (segments : List Segment) (excerpts : PyDict Digest String) :
    Decidable (matchesExtraction env sourceRevisionId normalizationId spans segments excerpts) := by
  unfold matchesExtraction
  infer_instance
end

section
variable (env : IngestEnv)

def readInherited {α : Type} (f : IngestFiles → Option α) (fits : α → Bool) : IngestProg α :=
  inspect fun s => match f s with
    | some a =>
      if fits a = true then .ok a
      else .error (.integrity "Inherited evidence artifact is missing")
    | none => .error (.integrity "Inherited evidence artifact is missing")

def inheritedIdentity (path : SnapshotPath) (n : Normalization) : Prop :=
  n.sourceRevisionId = path.1 ∧ n.normalizationId = path.2 ∧
    env.hash.normalizationId n.sourceRevisionId n.extractorName n.extractorVersion
      n.configSha256 = path.2 ∧
    n.documentPath = some path ∧ n.segmentsPath = some path ∧ n.excerpts.map Prod.fst = some path

instance (path : SnapshotPath) (n : Normalization) : Decidable (inheritedIdentity env path n) := by
  unfold inheritedIdentity
  infer_instance

def checkInheritedSegment (path : SnapshotPath) (lines : List String)
    (excerpts : PyDict Digest String) (x : Segment × Nat) : IngestProg Unit := do
  let excerpt ← .ofOption (excerpts.get x.1.segmentId) (.key "segment_id")
  .require (x.1.segmentId = env.hash.segmentId x.1.normalizationId x.1.locator x.1.excerptSha256 ∧
      x.1.sourceRevisionId = path.1 ∧ x.1.normalizationId = path.2 ∧ x.1.ordinal = x.2 ∧
      env.hash.text excerpt = x.1.excerptSha256)
    (.integrity "Inherited evidence segment identity changed")
  .require (locatorResolves lines x.1 excerpt = true)
    (.integrity "Inherited text locator no longer resolves")

def checkInheritedPdf (n : Normalization) (revision : SourceRevision) : IngestProg Unit := do
  let source ← loadSource env revision.sourceId
  match env.selectExtractor source.locator with
  | .error _ => throw (.integrity "Inherited PDF extractor is unavailable")
  | .ok extractor =>
    .require (extractor.isPdf = true ∧
        ¬(n.runtime.lookup "containment_profile" = some "macos_restricted_v1" ∧
          extractor.restricted = false))
      (.integrity "Inherited PDF requires its original OS containment profile")

def reextractInherited (path : SnapshotPath) (n : Normalization) (revision : SourceRevision)
    (raw : Bytes) (document : String) (segments : List Segment)
    (excerpts : PyDict Digest String) : IngestProg Unit := do
  let source ← loadSource env revision.sourceId
  let error : IngestError := .integrity "Inherited raw evidence cannot be re-extracted"
  match env.selectExtractor source.locator with
  | .error _ => throw error
  | .ok extractor =>
    .require (¬(extractor.isPdf = true ∧ extractor.restricted = false ∧
        n.runtime.lookup "containment_profile" ≠ some "fixture_python_guard_v1"))
      (.integrity "Inherited PDF requires its original OS containment profile")
    match env.extract extractor raw source.locator with
    | .error _ => throw error
    | .ok extraction =>
      .require (extractor.name = n.extractorName ∧ extractor.version = n.extractorVersion ∧
          extraction.document = document ∧ extraction.spans.length = segments.length)
        (.integrity "Inherited normalization differs from raw extraction")
      .require (matchesExtraction env revision.sourceRevisionId path.2 extraction.spans segments
          excerpts)
        (.integrity "Inherited typed span differs from raw extraction")

def validateEvidenceSnapshot (path : SnapshotPath) (evidenceId : Digest) (again : Bool) :
    IngestProg Unit := do
  let n ← readRegular (·.normalizations path) fun _ => true
  .require (inheritedIdentity env path n)
    (.integrity "Inherited normalization identity or paths changed")
  let document ← readInherited (·.documents path) env.fits.document
  let segments ← readInherited (·.segments.get path) env.fits.segments
  let excerptRecords ← readInherited (·.excerpts path) env.fits.excerpts
  .require (env.hash.text document = n.documentSha256 ∧
      some (env.hash.segments segments) = n.segmentsSha256 ∧
      n.excerpts.map Prod.snd = some (env.hash.excerpts excerptRecords))
    (.integrity "Inherited normalization artifact hash changed")
  .require (env.hash.adapterConfig n.extractorName n.extractorVersion n.documentSha256 n.runtime =
      n.configSha256)
    (.integrity "Inherited extractor runtime fingerprint changed")
  .require (segments.length = n.segmentCount)
    (.integrity "Inherited normalization segment count changed")
  let excerpts ← .ofExcept (excerptTable
    (.integrity "Inherited excerpt record values are invalid")
    (.integrity "Inherited excerpt record values are invalid") excerptRecords .empty)
  .require (sameSet excerpts.keys (segmentIds segments) = true)
    (.integrity "Inherited excerpt set does not close its segments")
  Prog.each (checkInheritedSegment env path (splitLines document) excerpts) segments.zipIdx
  .require (evidenceId ∈ segmentIds segments)
    (.integrity "Inherited evidence target disappeared")
  let revision ← loadSourceRevision env path.1
  let raw ← readRegular (·.blobs revision.rawPath) env.fits.content
  .require (env.hash.content raw = revision.contentSha256 ∧
      revision.rawPath = revision.contentSha256)
    (.integrity "Raw evidence hash mismatch for active claim")
  if n.extractorName = "pypdf_text" then checkInheritedPdf env n revision
  if again = true then reextractInherited env path n revision raw document segments excerpts

def snapshotsOf (evidenceId : Digest) (s : IngestFiles) : List SnapshotPath :=
  (s.segments.entries.filter fun x =>
    env.fits.segments x.2 && (segmentIds x.2).contains evidenceId).map Prod.fst

variable (reextractId : Option Digest)

def validateEvidence (evidenceId : Digest) : IngestProg Unit := do
  let found ← peek (snapshotsOf env evidenceId)
  match found with
  | [path] => validateEvidenceSnapshot env path evidenceId (some path.2 == reextractId)
  | _ =>
    throw (.integrity "Active claim evidence does not resolve to exactly one immutable span")

def validateClaimEvidence (claim : Claim) : IngestProg Unit :=
  Prog.each (validateEvidence env reextractId) claim.evidenceIds

def validateEntry (staged : Claim) (reextractId : Option Digest)
    (x : Digest × GenerationEntry) : IngestProg Unit :=
  if x.2.tombstone = true then pure ()
  else do
    .require (x.2.kind = "claim" ∧ x.1 = x.2.logicalId)
      (.integrity "M1 generation contains an unsupported record entry")
    let claim ← if x.2.logicalId = staged.claimId then pure staged
      else readRegular (·.claims x.2.objectSha256) env.fits.claim
    .require (env.hash.claim claim = x.2.objectSha256)
      (.integrity "Generation object hash mismatch")
    .require (claim.claimId = x.2.logicalId ∧
        claim.claimId = env.hash.claimId claim.statement claim.language)
      (.integrity "Generation claim logical ID mismatch")
    validateClaimEvidence env reextractId claim

def validateGenerationObjects (generation : LedgerGeneration) (staged : Claim)
    (reextractId : Option Digest) : IngestProg Unit :=
  Prog.each (validateEntry env staged reextractId) generation.records.entries
end

section
variable (env : IngestEnv) (p : Prepared)

def checkClaim : IngestProg Unit := do
  .require (p.txn.result = p.result)
    (.integrity "Staged transaction result snapshot mismatch")
  .require (p.generation.generationId ≠ .genesis) (.integrity "Malformed generation identifier")
  .require (env.allowsClaim p.claim = true)
    (.quarantined "Canonical claim candidate was classified restricted before promotion")
  .require (env.hash.claim p.claim = p.claimObjectSha256)
    (.integrity "Staged claim hash mismatch")
  .require (p.claim.claimId = env.hash.claimId p.claim.statement p.claim.language)
    (.integrity "Staged claim logical ID mismatch")
  let entry ← .ofOption (p.generation.records.get p.claim.claimId)
    (.integrity "Staged claim is not closed by generation and transaction")
  .require (entry.kind = "claim" ∧ entry.logicalId = p.claim.claimId ∧
      entry.objectSha256 = p.claimObjectSha256 ∧
      p.txn.outputHashes = [(p.claim.claimId,p.claimObjectSha256)])
    (.integrity "Staged claim is not closed by generation and transaction")

def checkGeneration : IngestProg Unit := do
  .require (verifyId env p.generation = true ∧ p.generation.generationId = p.txn.nextGenerationId)
    (.integrity "Staged generation identity mismatch")
  .require (p.generation.schemaRegistrySha256 = env.schemaRegistrySha256)
    (.integrity "Candidate generation uses a stale schema registry")
  let parent ← readGeneration p.txn.parentGenerationId
  .require (verifyId env parent = true) (.integrity "Candidate parent generation is invalid")
  let entry ← .ofOption (p.generation.records.get p.claim.claimId)
    (.integrity "Staged claim is not closed by generation and transaction")
  .require (p.generation.records.same (parent.records.set p.claim.claimId entry) = true)
    (.integrity "Candidate generation does not exactly extend its parent")
  validateGenerationObjects env p.generation p.claim (some p.result.normalizationId)
  .require (p.txn.candidateManifestSha256 = env.hash.generation p.generation)
    (.integrity "Staged generation manifest hash mismatch")

def checkTransaction : IngestProg Unit := do
  .require (p.txn.txnId =
      env.hash.txnId p.result.operationKey p.txn.parentGenerationId p.claimObjectSha256)
    (.integrity "Staged transaction identity mismatch")
  .require (p.txn.runId = p.result.runId ∧ p.txn.operationKey = p.result.operationKey ∧
      p.txn.eventId = env.hash.eventId p.txn.txnId ∧
      p.generation.parentGenerationId = some p.txn.parentGenerationId ∧
      p.generation.promotionTxnId = some p.txn.txnId ∧
      p.generation.promotionEventId = some p.txn.eventId)
    (.integrity "Staged transaction cross-reference mismatch")
  .require (p.event.eventId = env.hash.eventId p.txn.txnId ∧ p.event.txnId = p.txn.txnId ∧
      p.event.runId = p.result.runId ∧ p.event.operationKey = p.result.operationKey ∧
      p.event.parentGenerationId = p.txn.parentGenerationId ∧
      p.event.newGenerationId = p.txn.nextGenerationId)
    (.integrity "Staged event cross-reference mismatch")

def checkSegment (revision : SourceRevision) (n : Normalization) (x : Segment × Nat) :
    IngestProg Unit := do
  .require (x.1.segmentId = env.hash.segmentId x.1.normalizationId x.1.locator x.1.excerptSha256)
    (.integrity "Normalized segment identity mismatch")
  .require (x.1.sourceRevisionId = revision.sourceRevisionId ∧
      x.1.normalizationId = n.normalizationId ∧ x.1.ordinal = x.2)
    (.integrity "Normalized segment ownership or order mismatch")

def checkExcerpt (lines : List String) (excerpts : PyDict Digest String) (segment : Segment) :
    IngestProg Unit := do
  let excerpt ← .ofOption (excerpts.get segment.segmentId) (.key "segment_id")
  .require (env.hash.text excerpt = segment.excerptSha256)
    (.integrity "Evidence excerpt hash mismatch")
  .require (locatorInside lines segment = true)
    (.integrity "Evidence line is outside normalized document")
  .require (locatorResolves lines segment excerpt = true)
    (.integrity "Text locator does not resolve to its excerpt")

variable (result : IngestResult)

def checkRevision : IngestProg (SourceRevision × Bytes) := do
  let revision ← loadSourceRevision env result.sourceRevisionId
  .require (revision.sourceId = result.sourceId ∧ revision.rawPath = result.rawPath)
    (.integrity "Source revision ownership mismatch")
  let raw ← readRegular (·.blobs revision.rawPath) env.fits.content
  .require (env.hash.content raw = revision.contentSha256)
    (.integrity "Raw evidence hash mismatch")
  .require (revision.rawPath = revision.contentSha256)
    (.integrity "Raw evidence path is not content-addressed")
  pure (revision,raw)

def checkSnapshot (claim : Claim) (revision : SourceRevision) :
    IngestProg (Normalization × String × List Segment × PyDict Digest String) := do
  let path : SnapshotPath := (result.sourceRevisionId,result.normalizationId)
  .require (result.normalizedPath = path)
    (.integrity "Normalization path does not match its identities")
  let n ← readRegular (·.normalizations path) fun _ => true
  .require (n.normalizationId = result.normalizationId ∧
      n.normalizationId = env.hash.normalizationId revision.sourceRevisionId n.extractorName
        n.extractorVersion n.configSha256 ∧
      n.sourceRevisionId = revision.sourceRevisionId)
    (.integrity "Normalization identity mismatch")
  .require (n.documentPath.isSome ∧ n.segmentsPath.isSome)
    (.integrity "Normalization artifacts are missing")
  .require (n.documentPath = some path ∧ n.segmentsPath = some path ∧
      n.excerpts.map Prod.fst = some path)
    (.integrity "Normalization artifacts escape their immutable snapshot")
  let document ← readRegular (·.documents path) env.fits.document
  let segments ← readRegular (·.segments.get path) env.fits.segments
  .require (env.hash.text document = n.documentSha256)
    (.integrity "Normalized document hash mismatch")
  .require (some (env.hash.segments segments) = n.segmentsSha256)
    (.integrity "Normalized segments hash mismatch")
  Prog.each (checkSegment env revision n) segments.zipIdx
  .require ((segmentIds segments).dedup.length = n.segmentCount)
    (.integrity "Normalization segment count mismatch")
  .require (result.segmentId ∈ segmentIds segments)
    (.integrity "Result references unresolved segment")
  .require (result.segmentId ∈ claim.evidenceIds)
    (.integrity "Claim lost the current proposal evidence during merge")
  let excerpts ← loadExcerpts env n
  .require (sameSet excerpts.keys (segmentIds segments) = true)
    (.integrity "Normalized excerpts do not close the segment set")
  Prog.each (checkExcerpt env (splitLines document) excerpts) segments
  pure (n,document,segments,excerpts)

def checkExtraction (revision : SourceRevision) (raw : Bytes) (n : Normalization)
    (document : String) (segments : List Segment) (excerpts : PyDict Digest String) :
    IngestProg Unit := do
  let source ← loadSource env result.sourceId
  let m ← readManifest result.runId
  .require (m.inputPath = source.locator)
    (.integrity "Run input path disagrees with immutable source provenance")
  let (extractor,extraction) ← reextract env
    (.integrity "Raw evidence cannot be deterministically re-extracted") source.locator raw
  classifyDerivedOrQuarantine env extraction
  .require (extractor.name = n.extractorName ∧ extractor.version = n.extractorVersion ∧
      extraction.document = document ∧ extraction.spans.length = segments.length)
    (.integrity "Normalization does not match deterministic raw extraction")
  .require (n.configSha256 = adapterConfigSha256 env extractor extraction)
    (.integrity "Normalization adapter fingerprint mismatch")
  .require (matchesExtraction env revision.sourceRevisionId n.normalizationId extraction.spans
      segments excerpts)
    (.integrity "Typed locator/excerpt does not resolve to raw extraction")

def validatePrepared : IngestProg Unit := do
  checkClaim env p
  checkGeneration env p
  checkTransaction env p
  let (revision,raw) ← checkRevision env p.result
  let (n,document,segments,excerpts) ← checkSnapshot env p.result p.claim revision
  checkExtraction env p.result revision raw n document segments excerpts
end

end RaytSystem.Ingestion
