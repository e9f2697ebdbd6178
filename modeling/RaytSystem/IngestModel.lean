import RaytSystem.ControlLease
import RaytSystem.ImmutableStore
import RaytSystem.PyDict
import RaytSystem.PyText
import RaytSystem.AccessRules

/-! What ingestion keeps on disk and in the control database: captured sources, their
normalized segments, the staged candidate of each run, the ledger and its pointer. Texts and
times are in their canonical form. -/
namespace RaytSystem.Ingestion
open Control ImmutableStore Interleaving

abbrev Digest := Nat
abbrev RunId := Nat
abbrev Time := Int
abbrev Bytes := List UInt8

inductive GenerationId where
  | genesis
  | gen (digest : Digest)
  deriving DecidableEq, Repr

inductive Locator where
  | text (lineStart lineEnd charStart charEnd : Option Nat)
  | place (kind : String) (position : List Int)
  deriving DecidableEq

structure ExtractedSpan where
  excerpt : String
  locator : Locator
  modality : String
  deriving DecidableEq

structure Extraction where
  document : String
  spans : List ExtractedSpan
  deriving DecidableEq

structure Extractor where
  name : String
  version : String
  mediaType : String
  isPdf : Bool
  restricted : Bool
  runtime : List (String × String)
  deriving DecidableEq

structure Source where
  sourceId : Digest
  identityKeySha256 : Digest
  locator : String
  sourceType : String
  displayName : String
  rights : String
  createdAt : Time
  deriving DecidableEq

structure SourceRevision where
  sourceRevisionId : Digest
  sourceId : Digest
  contentSha256 : Digest
  byteLength : Nat
  mediaType : String
  rawPath : Digest
  capturedAt : Time
  deriving DecidableEq

structure Segment where
  segmentId : Digest
  sourceRevisionId : Digest
  normalizationId : Digest
  ordinal : Nat
  locator : Locator
  excerptSha256 : Digest
  modality : String
  deriving DecidableEq

structure Excerpt where
  segmentId : Digest
  excerpt : String
  deriving DecidableEq

abbrev SnapshotPath := Digest × Digest

structure Normalization where
  normalizationId : Digest
  sourceRevisionId : Digest
  extractorName : String
  extractorVersion : String
  configSha256 : Digest
  documentSha256 : Digest
  segmentsSha256 : Option Digest
  documentPath : Option SnapshotPath
  segmentsPath : Option SnapshotPath
  segmentCount : Nat
  excerpts : Option (SnapshotPath × Digest)
  runtime : List (String × String)
  createdAt : Time
  deriving DecidableEq

structure EvidenceItem where
  sourceRevisionId : Digest
  normalizationId : Digest
  segmentId : Digest
  locator : Locator
  excerpt : String
  excerptSha256 : Digest
  capturedAt : Time
  deriving DecidableEq

structure EvidencePack where
  evidencePackId : Digest
  runId : RunId
  items : List EvidenceItem
  packSha256 : Digest
  createdAt : Time
  deriving DecidableEq

structure ProposalRequest where
  proposalRequestId : Digest
  runId : RunId
  operationKey : Digest
  evidencePackId : Digest
  evidencePackSha256 : Digest
  allowedEvidenceIds : List Digest
  createdAt : Time
  deriving DecidableEq

structure ProposalItem where
  proposalItemId : Digest
  kind : String
  statement : Option (Option String)
  language : Option (Option String)
  evidenceIds : List Digest
  deriving DecidableEq

structure ProposalResponse where
  proposalResponseId : Digest
  requestKind : String
  requestId : Digest
  requestSha256 : Digest
  allowedEvidenceIds : List Digest
  proposedItems : List ProposalItem
  createdAt : Time
  deriving DecidableEq

structure Claim where
  claimId : Digest
  propositionKey : Digest
  statement : String
  language : String
  evidenceIds : List Digest
  recordedAt : Time
  deriving DecidableEq

structure GenerationEntry where
  kind : String
  logicalId : Digest
  objectSha256 : Digest
  tombstone : Bool
  deriving DecidableEq

structure GenerationSeed where
  parentGenerationId : Option GenerationId
  records : PyDict Digest GenerationEntry
  schemaRegistrySha256 : Option Digest
  createdAt : Time
  promotionTxnId : Option Digest
  promotionEventId : Option Digest
  deriving DecidableEq

structure LedgerGeneration extends GenerationSeed where
  generationId : GenerationId
  deriving DecidableEq

inductive ResultStatus where
  | prepared | succeeded
  deriving DecidableEq, Repr

structure IngestResult where
  status : ResultStatus
  noop : Bool
  runId : RunId
  operationKey : Digest
  sourceId : Digest
  sourceRevisionId : Digest
  rawPath : Digest
  normalizationId : Digest
  normalizedPath : SnapshotPath
  segmentId : Digest
  generationId : GenerationId
  deriving DecidableEq

inductive Authority where
  | fixture (policySha256 authorityHash : Digest)
  | externalApproval (approvalId authorityHash : Digest)
  deriving DecidableEq

structure PromotionTxn where
  txnId : Digest
  runId : RunId
  operationKey : Digest
  parentGenerationId : GenerationId
  nextGenerationId : GenerationId
  candidateManifestSha256 : Digest
  eventId : Digest
  partitionFencingToken : Nat
  globalFencingToken : Nat
  outputHashes : List (Digest × Digest)
  approvalId : Option Digest
  createdAt : Time
  updatedAt : Time
  result : IngestResult
  authority : Option Authority
  deriving DecidableEq

structure PromotionEvent where
  eventId : Digest
  txnId : Digest
  runId : RunId
  operationKey : Digest
  parentGenerationId : GenerationId
  newGenerationId : GenerationId
  committedAt : Time
  deriving DecidableEq

structure ApprovalRecord where
  approvalId : Digest
  approves : Bool
  action : String
  targetId : Digest
  artifactSha256 : Digest
  destination : Option String
  scope : List String
  policyVersion : String
  policySha256 : Option Digest
  approver : String
  approvedAt : Time
  expiresAt : Time
  conditions : List String
  deriving DecidableEq

structure BundleHashes where
  claim : Digest
  generation : Digest
  txn : Digest
  event : Digest
  deriving DecidableEq

structure BundleMarker where
  runId : RunId
  bundleId : Digest
  files : BundleHashes
  deriving DecidableEq

inductive RunState where
  | running | normalizing | staging | prepared | awaitingApproval | promoted | reconciling
  | succeeded
  deriving DecidableEq, Repr

structure RunManifest where
  runId : RunId
  operationType : String
  operationKey : Digest
  sourceId : Digest
  inputSha256 : Digest
  inputPath : String
  fixtureAuthorized : Bool
  fixturePolicySha256 : Option Digest
  state : RunState
  createdAt : Time
  sourceRevisionId : Option Digest
  rawPath : Option Digest
  normalizationId : Option Digest
  normalizedPath : Option SnapshotPath
  generationId : Option GenerationId
  eventId : Option Digest
  txnId : Option Digest
  segmentId : Option Digest
  semanticNoop : Bool
  deriving DecidableEq

structure Staging where
  pack : Option EvidencePack
  request : Option ProposalRequest
  response : Option ProposalResponse
  claim : Option Claim
  generation : Option LedgerGeneration
  txn : Option PromotionTxn
  event : Option PromotionEvent
  marker : Option BundleMarker

def Staging.empty : Staging := ⟨none, none, none, none, none, none, none, none⟩

structure IngestFiles where
  current : GenerationId
  generations : Store GenerationId LedgerGeneration
  claims : Store Digest Claim
  blobs : Store Digest Bytes
  sources : PyDict Digest Source
  revisions : PyDict Digest SourceRevision
  documents : Store SnapshotPath String
  segments : PyDict SnapshotPath (List Segment)
  excerpts : Store SnapshotPath (List Excerpt)
  normalizations : Store SnapshotPath Normalization
  manifests : RunId → Option RunManifest
  staging : RunId → Staging
  events : PyDict Digest PromotionEvent
  materialized : Option GenerationId
  accepted : Store Digest ApprovalRecord
  verified : Store Digest Digest

structure OperationRow where
  runId : RunId
  state : RunState
  result : Option IngestResult
  deriving DecidableEq

inductive PromotionState where
  | prepared | committing | committed | reconciling | completed | aborted
  deriving DecidableEq, Repr

structure PromotionRow where
  txnId : Digest
  operationKey : Digest
  runId : RunId
  partitionFencingToken : Nat
  globalFencingToken : Nat
  parentGenerationId : GenerationId
  nextGenerationId : GenerationId
  manifestSha256 : Digest
  eventId : Digest
  approvalHash : Option Digest
  state : PromotionState
  payload : PromotionTxn
  createdAtMs : Time
  deriving DecidableEq

structure OutboxRow where
  eventId : Digest
  txnId : Digest
  payload : PromotionEvent
  payloadSha256 : Digest
  appended : Bool
  deriving DecidableEq

structure ControlDb where
  leases : LeaseTable
  operations : Digest → Option OperationRow
  runs : RunId → Option RunState
  promotions : List PromotionRow
  outbox : List OutboxRow

structure PointerWrite where
  replaced : GenerationId
  txn : PromotionTxn
  written : GenerationId
  deriving DecidableEq

/-- `writer` is the worker that holds the database's writer lock over several accesses,
with the lease table that its commit will leave. -/
structure IngestWorld where
  files : IngestFiles
  db : ControlDb
  writer : Option (String × LeaseTable)
  pointerWrites : List PointerWrite

inductive IngestError where
  | integrity (message : String)
  | approvalRequired (message : String)
  | unsupported (message : String)
  | quarantined (message : String)
  | leaseBusy (message : String)
  | runtime (message : String)
  | value (message : String)
  | pathPolicy (message : String)
  | key (name : String)
  | locked
  deriving DecidableEq, Repr

inductive IngestAccess where
  | publishSource (sourceId : Digest)
  | storePromotion (row : PromotionRow)
  | other
  deriving DecidableEq

abbrev IngestProg (α : Type) := Prog IngestWorld IngestAccess IngestError α

structure Hashing where
  content : Bytes → Digest
  text : String → Digest
  sourceId : String → Digest
  source : Source → Digest
  revisionId : Digest → Digest → Digest
  revision : SourceRevision → Digest
  adapterConfig : String → String → Digest → List (String × String) → Digest
  normalizationId : Digest → String → String → Digest → Digest
  segmentId : Digest → Locator → Digest → Digest
  segments : List Segment → Digest
  excerpts : List Excerpt → Digest
  packItems : RunId → List EvidenceItem → Digest
  packId : RunId → List EvidenceItem → Digest
  pack : EvidencePack → Digest
  requestId : RunId → Digest → Digest → Digest
  request : ProposalRequest → Digest
  itemId : Digest → Digest → Digest
  responseId : Digest → List ProposalItem → Digest
  claimId : String → String → Digest
  proposition : String → String → Digest
  claim : Claim → Digest
  txnId : Digest → GenerationId → Digest → Digest
  eventId : Digest → Digest
  generationId : GenerationSeed → Digest
  generation : LedgerGeneration → Digest
  txn : PromotionTxn → Digest
  event : PromotionEvent → Digest
  bundleId : RunId → BundleHashes → Digest
  operationKey : Digest → Digest → Digest → Bool → Option Digest → Digest
  fixtureAuthority : Digest → Digest → Digest
  approvalId : ApprovalRecord → Digest
  approval : ApprovalRecord → Digest
  verificationId : Digest → Digest → Digest

structure ReadLimits where
  content : Bytes → Bool
  document : String → Bool
  segments : List Segment → Bool
  excerpts : List Excerpt → Bool
  claim : Claim → Bool
  generation : LedgerGeneration → Bool

structure IngestEnv where
  hash : Hashing
  fits : ReadLimits
  leaseTtlMs : Int
  schemaRegistrySha256 : Option Digest
  policySha256 : Option Digest
  selectExtractor : String → Except String Extractor
  extract : Extractor → Bytes → String → Except String Extraction
  fixturePolicy : String → Bytes → Except IngestError Digest
  allowsContent : Bytes → String → Bool
  allowsText : String → Bool
  allowsClaim : Claim → Bool
  allowsResponse : ProposalResponse → Bool
  verifyApproval : String → Except IngestError ApprovalRecord
  verifierSha256 : Digest

end RaytSystem.Ingestion
