import RaytSystem.MetadataIndex
import RaytSystem.RecordTable

/-! Packages: their manifests and revisions, the directory trees they come from and go to, and
what the lifecycle service keeps of them. -/
namespace RaytSystem.Packages
open Extraction RecordTable

inductive PackageFault
  /-- `PackageLifecycleError` -/
  | lifecycle (message : String)
  /-- `ValueError` of a token check. -/
  | token (label : String)
  /-- `PlatformStoreError` -/
  | store (message : String)
  /-- A text that UTF-8 cannot encode. -/
  | unencodable
  | fileExists
  | other
  deriving DecidableEq, Repr

variable (c : ℕ)

def isLower : Bool := 0x61 ≤ c && c ≤ 0x7a

def isDigit : Bool := 0x30 ≤ c && c ≤ 0x39

def isIdentifierChar : Bool := isLower c || isDigit c || (chars "_:.@/-").contains c

def isIdentifier : Text → Bool
  | [] => false
  | c :: rest => isLower c && 1 ≤ rest.length && rest.length ≤ 255 && rest.all isIdentifierChar

def isHexDigit : Bool := isDigit c || (0x61 ≤ c && c ≤ 0x66)

variable (t : Text)

def isSha256 : Bool := t.length == 64 && t.all isHexDigit

def isNonEmptyStr : Bool := 1 ≤ t.length && t.length ≤ 4096

def isWhiteSpace : Bool := isSpace c && !(0x1c ≤ c && c ≤ 0x1f)

def trim : Text := ((t.dropWhile isWhiteSpace).reverse.dropWhile isWhiteSpace).reverse

def isToken : Bool := t ≠ [] && t.length ≤ 256 && !t.any isSpace

def isPinned : Bool :=
  ((splitOn 0x2e t).length == 3 && (splitOn 0x2e t).all fun part => part ≠ [] && part.all isDigit) ||
    (40 ≤ t.length && t.length ≤ 64 && t.all isHexDigit)

def unsafeReferencePath : Bool :=
  t.head? == some 0x2f || t.head? == some 0x7e || t.contains 0x5c ||
    (parsePath t).tail.contains (chars "..")

inductive PackageLifecycleState
  | discovered | inspected | quarantined | validated | evaluated | approved | installed | active
  | superseded | rolledBack | blocked
  deriving DecidableEq, Repr

def PackageLifecycleState.rollbackSource (s : PackageLifecycleState) : Bool :=
  s == .superseded || s == .installed || s == .rolledBack

structure PackageManifest where
  packageId : Text
  name : Text
  version : Text
  publisher : Text
  sourceUrl : Option Text := none
  sourceCommit : Option Text := none
  contentSha256 : Text
  signature : Option Text := none
  licenseExpression : Text
  raytsystemCompatibility : Text
  dependencies : List (Text × Text) := []
  permissions : List Text := []
  runtimeRequirements : List Text := []
  toolIds : List Text := []
  skillIds : List Text := []
  agentIds : List Text := []
  workflowIds : List Text := []
  templateIds : List Text := []
  fixtureIds : List Text := []
  evalSuiteIds : List Text := []
  deriving DecidableEq

namespace PackageManifest

variable (m : PackageManifest)

def collections : List (List Text) :=
  [m.permissions, m.runtimeRequirements, m.toolIds, m.skillIds, m.agentIds, m.workflowIds,
    m.templateIds, m.fixtureIds, m.evalSuiteIds]

def references : List Text :=
  m.dependencies.map Prod.fst ++ m.collections.flatten

def fieldsValid : Bool :=
  isIdentifier m.packageId && isNonEmptyStr m.name && isNonEmptyStr m.version &&
    isNonEmptyStr m.publisher && m.sourceUrl.all isNonEmptyStr && m.sourceCommit.all isNonEmptyStr &&
    isSha256 m.contentSha256 && m.signature.all isNonEmptyStr && isNonEmptyStr m.licenseExpression &&
    isNonEmptyStr m.raytsystemCompatibility &&
    (m.dependencies.all fun d => isIdentifier d.1 && isNonEmptyStr d.2) &&
    m.collections.all fun values => values.all isIdentifier

def invariants : Bool :=
  (m.collections.all fun values => decide values.Nodup) &&
    m.dependencies.all fun d => strip d.2 ≠ []

def accepted : Bool := m.fieldsValid && m.invariants

def mapText (f : Text → Text) (m : PackageManifest) : PackageManifest :=
  {m with
    name := f m.name
    version := f m.version
    publisher := f m.publisher
    sourceUrl := m.sourceUrl.map f
    sourceCommit := m.sourceCommit.map f
    signature := m.signature.map f
    licenseExpression := f m.licenseExpression
    raytsystemCompatibility := f m.raytsystemCompatibility
    dependencies := m.dependencies.map fun d => (d.1, f d.2)}

end PackageManifest

structure PackageRevision where
  revisionId : Text
  packageId : Text
  manifestSha256 : Text
  contentSha256 : Text
  state : PackageLifecycleState
  previousRevisionId : Option Text := none
  validationReportSha256 : Option Text := none
  evalRunIds : List Text := []
  approvalId : Option Text := none
  activatedBy : Option Text := none
  deriving DecidableEq

namespace PackageRevision

def mapText (f : Text → Text) (r : PackageRevision) : PackageRevision :=
  {r with
    revisionId := f r.revisionId
    packageId := f r.packageId
    manifestSha256 := f r.manifestSha256
    contentSha256 := f r.contentSha256
    previousRevisionId := r.previousRevisionId.map f
    validationReportSha256 := r.validationReportSha256.map f
    evalRunIds := r.evalRunIds.map f
    approvalId := r.approvalId.map f
    activatedBy := r.activatedBy.map f}

variable (r : PackageRevision)

def texts : List Text :=
  [r.revisionId, r.packageId, r.manifestSha256, r.contentSha256] ++ r.previousRevisionId.toList ++
    r.validationReportSha256.toList ++ r.evalRunIds ++ r.approvalId.toList ++ r.activatedBy.toList

def fieldsValid : Bool :=
  isIdentifier r.revisionId && isIdentifier r.packageId && isSha256 r.manifestSha256 &&
    isSha256 r.contentSha256 && r.previousRevisionId.all isIdentifier &&
    r.validationReportSha256.all isSha256 && r.evalRunIds.all isIdentifier &&
    r.approvalId.all isIdentifier && r.activatedBy.all isIdentifier

def revisionState : Bool :=
  ((r.state ≠ .active && r.state ≠ .approved) || r.approvalId.isSome) &&
    (r.state ≠ .active || r.activatedBy.isSome)

def accepted : Bool := r.fieldsValid && r.revisionState

end PackageRevision

structure RevisionRecord where
  revision : PackageRevision
  validationFailures : Option (List String) := none
  signatureVerified : Option Bool := none
  deriving DecidableEq

def RevisionRecord.state (r : RevisionRecord) : PackageLifecycleState := r.revision.state

structure ManifestRecord where
  manifest : PackageManifest
  sourceRelative : Text
  fileCount : ℕ
  deriving DecidableEq

structure ActiveRecord where
  packageId : Text
  revisionId : Text
  contentSha256 : Text
  activatedBy : Text
  approvalId : Option Text
  rolledBackFrom : Option Text := none
  rollbackReason : Option Text := none
  deriving DecidableEq

structure DiscoveryRecord where
  sourceRelative : Text
  inspected : Bool := false
  revisionId : Option Text := none
  deriving DecidableEq

structure EvalRun where
  state : String
  payloadState : String
  suiteId : Option Text

structure ApprovalRequest where
  approvalId : Text
  targetId : Text
  artifactSha256 : Text
  unsignedPack : Bool

structure PackageEvent where
  streamId : Text
  aggregateId : Text
  eventType : String
  actorId : Text
  deriving DecidableEq

inductive FileNode
  | directory
  | file (data : Bytes) (links : ℕ)
  | symlink
  | special
  deriving DecidableEq

structure TreeEntry where
  path : Text
  node : FileNode
  deriving DecidableEq

abbrev Tree := List TreeEntry

inductive PathState
  | absent
  | file
  | directory (tree : Tree)
  deriving DecidableEq

inductive SourcePath
  | missing
  | crossesSymlink
  | escapes
  | directory (tree : Tree)

inductive ManifestYaml
  | invalid
  | other
  | mapping (fields : Option PackageManifest)

structure PackageEnv where
  enabled : Bool
  blocksProcessing : Bytes → Text → Bool
  safeLoad : Bytes → ManifestYaml
  /-- `_hash_material` of `package.yaml`. -/
  manifestMaterial : Bytes → Except PackageFault Bytes
  sha256Hex : Bytes → Text
  treeSha256 : List (Text × Text) → Text
  manifestSha256 : PackageManifest → Text
  /-- The digest of a validation report: its revision, its failures and the manifest's record. -/
  reportSha256 : Text → List String → ManifestRecord → Text
  /-- `derive_id("pkgrev", ..)` of the package, the digests and the previous revision. -/
  revisionId : Text → Text → Text → Option Text → Text
  discoveryId : Text → Text
  nfc : Text → Text
  revisionId_valid : ∀ package manifest content previous,
    isIdentifier (revisionId package manifest content previous) = true
  reportSha256_valid : ∀ id failures manifest, isSha256 (reportSha256 id failures manifest) = true
  nfc_ascii : ∀ t, (∀ c ∈ t, c < 0x80) → nfc t = t

structure PackageWorld where
  manifests : Table Text ManifestRecord
  revisions : Table Text RevisionRecord
  active : Table Text ActiveRecord
  discoveries : Table Text DiscoveryRecord
  events : List PackageEvent
  staging : Text → PathState
  installed : Text → PathState
  evalRuns : Text → Option EvalRun
  /-- `AuthorityResolver.require_approval` -/
  authorised : ApprovalRequest → Bool
  /-- Below the workspace, by the components of the path. -/
  sources : List Text → SourcePath

def PackageWorld.untouched (evalRuns : Text → Option EvalRun) (authorised : ApprovalRequest → Bool)
    (sources : List Text → SourcePath) : PackageWorld where
  manifests _ := []
  revisions _ := []
  active _ := []
  discoveries _ := []
  events := []
  staging _ := .absent
  installed _ := .absent
  evalRuns := evalRuns
  authorised := authorised
  sources := sources

section
variable (env : PackageEnv)

def cleanRevision (r : RevisionRecord) : Except PackageFault PackageRevision :=
  let revision := r.revision.mapText trim
  if revision.accepted then .ok revision else .error (.lifecycle "Package revision is invalid")

def manifestFromRecord (r : ManifestRecord) : Except PackageFault PackageManifest :=
  if r.manifest.accepted then .ok r.manifest
  else .error (.lifecycle "Package manifest record is invalid")

def signatureMarker (r : RevisionRecord) : Bool := r.signatureVerified == some true

def requires (b : Bool) (message : String) : Except PackageFault Unit :=
  if b then .ok () else .error (.lifecycle message)

def found {α : Type} (x : Option α) (message : String) : Except PackageFault α :=
  match x with
  | some a => .ok a
  | none => .error (.lifecycle message)

def requireEnabled : Except PackageFault Unit := requires env.enabled "Package lifecycle is disabled"

def recordKey (t : Text) : Except PackageFault Unit :=
  if isToken t then if encodable t then .ok () else .error .unencodable
  else .error (.token "record ID")

attribute [local instance] text_lawful in
def sourceDirectory (w : PackageWorld) (relative : Text) : Except PackageFault Tree :=
  let path := parsePath relative
  if path.root ≠ [] ∨ chars ".." ∈ path.tail ∨ path.tail = [] then
    .error (.lifecycle "Package source must be workspace-relative")
  else match w.sources path.tail with
    | .crossesSymlink => .error (.lifecycle "Package source cannot cross a symlink")
    | .missing => .error (.lifecycle "Package source does not exist")
    | .escapes => .error (.lifecycle "Package source escapes the workspace")
    | .directory tree => .ok tree

def maxFiles : ℕ := 2000
def maxFileBytes : ℕ := 4 * 1024 * 1024
def maxTotalBytes : ℕ := 64 * 1024 * 1024

def packageYaml : Text := chars "package.yaml"

def hashMaterial (relative : Text) (data : Bytes) : Except PackageFault Bytes :=
  if relative = packageYaml then env.manifestMaterial data else .ok data

def readableFile (path : Text) (data : Bytes) (links : ℕ) : Bool :=
  !path.contains 0x5c && path[1]? != some 0x3a && links == 1 && data.length ≤ maxFileBytes

def scanEntries : Tree → ℕ → ℕ → Except PackageFault (List (Text × Text))
  | [], _, _ => .ok []
  | entry :: rest, count, total =>
    match entry.node with
    | .symlink => .error (.lifecycle "Package symlinks are forbidden")
    | .directory => scanEntries rest count total
    | .special => scanEntries rest count total
    | .file data links => do
      requires (count < maxFiles) "Package contains too many files"
      requires (readableFile entry.path data links) "Package file is unsafe"
      requires (total + data.length ≤ maxTotalBytes) "Package is too large"
      requires (!env.blocksProcessing data entry.path) "Package contains restricted content"
      let material ← hashMaterial env entry.path data
      let hashes ← scanEntries rest (count + 1) (total + data.length)
      return (entry.path, env.sha256Hex material) :: hashes

def scanTree (tree : Tree) : Except PackageFault (List Text × Text) := do
  let hashes ← scanEntries env tree 0 0
  requires (hashes ≠ []) "Package is empty"
  if hashes.all fun file => encodable file.1 then
    return (hashes.map Prod.fst, env.treeSha256 hashes)
  else .error .unencodable

def fileData (tree : Tree) (path : Text) : Bytes :=
  match tree.find? fun entry => entry.path = path with
  | some ⟨_, .file data _⟩ => data
  | _ => []

def readManifest (tree : Tree) (contentSha256 : Text) : Except PackageFault PackageManifest :=
  match env.safeLoad (fileData tree packageYaml) with
  | .invalid => .error (.lifecycle "Package manifest is invalid")
  | .other => .error (.lifecycle "Package manifest must be a mapping")
  | .mapping none => .error (.lifecycle "Package manifest contract validation failed")
  | .mapping (some fields) =>
    let manifest := {fields with contentSha256 := contentSha256}
    if manifest.accepted then .ok manifest
    else .error (.lifecycle "Package manifest contract validation failed")

def contentOf : PathState → Except PackageFault (Option Text)
  | .directory tree => do return some (← scanTree env tree).2
  | _ => .ok none

def validationFailures (w : PackageWorld) (m : PackageManifest) : List String :=
  (if m.signature.any fun s => s ≠ chars "sha256:" ++ m.contentSha256 then
    ["invalid_package_signature"] else []) ++
  (if m.dependencies.any fun d => !isPinned d.2 then ["dependency_not_pinned"] else []) ++
  (if m.dependencies.any fun d => (head w.active d.1).isNone then
    ["dependency_unresolved"] else []) ++
  (if m.references.any unsafeReferencePath then ["unsafe_reference_path"] else []) ++
  (if m.permissions.contains (chars "self_modify") then ["self_modifying_skill"] else [])

def verifiedEvalSuites (w : PackageWorld) : List Text → Except PackageFault (List Text)
  | [] => .ok []
  | run :: rest => do
    recordKey run
    let record ← found (w.evalRuns run) "Package approval references an unknown eval run"
    requires (record.state == "passed" && record.payloadState == "passed")
      "Package approval references a failed eval run"
    let suite ← found (record.suiteId.filter fun s => s ≠ [])
      "Package approval references an invalid eval run"
    return suite :: (← verifiedEvalSuites w rest)
end

end RaytSystem.Packages
