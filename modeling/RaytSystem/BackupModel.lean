import RaytSystem.PyText
import RaytSystem.WorkspaceTree

/-! The private backup: `create`, `verify` and `restore`. The branches for other kinds, which redact,
and the audit record of a published bundle are left out. -/
namespace RaytSystem.Backup
open PyText

def asPosix (path : Path) : String := "/".intercalate path

def privateRoots : List Path :=
  [["AGENTS.md"], ["WORK.md"], ["README.md"], ["LICENSE"], ["NOTICE"], ["config"], ["_raw"],
    ["normalized"], ["ledger"], ["ops","events"], ["ops","runs"], ["ops","task-ledger"],
    ["ops","document-revisions"], ["knowledge","manual"], ["docs"], ["website","docs"], ["packs"],
    ["skills"]]

def excludedNames : List String := [".env", ".DS_Store"]
def skippedParts : List String := ["__pycache__", "node_modules", ".git"]
def maxBundleMembers : ℕ := 150000
def maxMemberBytes : ℕ := 128 * 1024 * 1024
def maxBundleBytes : ℕ := 2 * 1024 * 1024 * 1024
def maxBundleMetadataBytes : ℕ := 64 * 1024 * 1024
def maxSourceBytes : ℕ := 32 * 1024 * 1024
def platformDbRelative : Path := ["ops","platform.sqlite"]
def encryptedRoot : Path := ["ops","encrypted"]
def manifestMember : Path := ["META","manifest.json"]
def redactionMember : Path := ["META","redaction-report.json"]

def selectRoot (selected : List Path) (candidate : Path) : List Path :=
  if selected.any fun parent => parent.isPrefixOf candidate then selected
  else selected ++ [candidate]

def compactBackupRoots (roots : List Path) : List Path :=
  (roots.dedup.insertionSort fun a b =>
    a.length < b.length ∨ (a.length = b.length ∧ asPosix a ≤ asPosix b)).foldl selectRoot []

inductive DocumentMode
  | readWrite | readOnly | protectedReadOnly | hidden
  deriving DecidableEq

structure Workspace where
  /-- The parts of the absolute path of the root. -/
  location : List String
  tree : WorkspaceNode
  backupEnabled : Bool
  restrictedEncryptionEnabled : Bool
  /-- The roots of `load_document_config`, or nothing where it raises. -/
  documents : Option (List (Path × DocumentMode))
  /-- What SQLite's backup of the platform store gives. -/
  store : Option (List UInt8)

abbrev Members := List (Path × List UInt8)

def requires (b : Bool) (message : String) : Except String Unit :=
  if b then .ok () else .error message

variable (ws : Workspace)

def configuredDocumentRoots : Except String (List Path) :=
  match ws.tree.locate ["config","raytsystem.toml"] with
  | none => .ok []
  | some (_, config) =>
    if config.pathExists then
      match ws.documents with
      | none => .error "Document roots are invalid; backup refused"
      | some roots => .ok (((roots.filter fun root => root.2 ≠ .hidden).map Prod.fst).dedup)
    else .ok []

structure Candidate where
  path : Path
  crossed : Bool
  node : WorkspaceNode

def iterBackupPaths (tree : WorkspaceNode) (root : Path) : List Candidate :=
  match tree.locate root with
  | some (crossed, .directory names child) =>
    (WorkspaceNode.walk root (.directory names child)).map fun entry => ⟨entry.1, crossed, entry.2⟩
  | some (_, .special) => []
  | some (crossed, node) => [⟨root, crossed, node⟩]
  | none => []

def excludedName (path : Path) : Bool :=
  match path.getLast? with
  | some name => name ∈ excludedNames || startsWith name ".env"
  | none => false

def skipped (parts : List String) : Bool := parts.any (· ∈ skippedParts)

def readRegularFile (c : Candidate) : Except String (List UInt8) :=
  match c.node with
  | .file data links =>
    if c.path = [] ∨ '\\' ∈ (asPosix c.path).toList ∨ (asPosix c.path).toList[1]? = some ':' ∨
        c.crossed = true ∨ links ≠ 1 ∨ maxSourceBytes < data.length then
      .error ("Unsafe backup source: " ++ asPosix c.path)
    else .ok data
  | _ => .error ("Unsafe backup source: " ++ asPosix c.path)

structure Collection where
  members : Members := []
  removed : List Path := []
  visited : List Path := []
  totalBytes : ℕ := 0

variable (s : Collection)

def stageMember (path : Path) (data : List UInt8) : Except String Collection :=
  if maxBundleBytes < s.totalBytes + data.length then
    .error "Backup source bytes exceed the safe bundle limit"
  else
    .ok {s with members := s.members ++ [(path,data)], totalBytes := s.totalBytes + data.length}

def collectNew (c : Candidate) : Except String Collection :=
  match c.node with
  | .symlink _ | .dangling => .ok {s with removed := s.removed ++ [c.path]}
  | .special | .directory _ _ => .ok s
  | .file _ _ =>
    if excludedName c.path then .ok {s with removed := s.removed ++ [c.path]}
    else if skipped (ws.location ++ c.path) then .ok s
    else do
      let data ← readRegularFile c
      stageMember s c.path data

def collectOne (c : Candidate) : Except String Collection :=
  if c.path ∈ s.visited then .ok s
  else if maxBundleMembers < s.visited.length + 1 + 2 then
    .error "Backup contains too many source members"
  else collectNew ws {s with visited := c.path :: s.visited} c

def collectAll (ws : Workspace) : Collection → List Candidate → Except String Collection
  | s, [] => .ok s
  | s, c :: cs => do
    let s ← collectOne ws s c
    collectAll ws s cs

def collect (roots : List Path) : Except String Collection :=
  collectAll ws {} (roots.flatMap (iterBackupPaths ws.tree))

section

def validMember (path : Path) : Bool :=
  path ≠ [] && !(path.contains "..") &&
    (asPosix path).toList.all fun c => c ≠ '\\' && c ≠ Char.ofNat 0

def measure (tooLarge : String) : ℕ → Members → Except String ℕ
  | total, [] => .ok total
  | total, (path, data) :: rest => do
    requires (validMember path) "Backup contains a path traversal member"
    requires (data.length ≤ maxMemberBytes) "Backup member size is invalid"
    requires (total + data.length ≤ maxBundleBytes) tooLarge
    measure tooLarge (total + data.length) rest

def validateSpooledMembers (members : Members) : Except String ℕ := do
  requires (members.length + 2 ≤ maxBundleMembers) "Backup contains too many members"
  measure "Backup source bytes exceed the safe bundle limit" 0 members

def platformSnapshotFile (ws : Workspace) (maxBytes : ℕ) : Except String (Option (List UInt8)) :=
  match ws.tree.locate platformDbRelative with
  | none => .ok none
  | some (_, .file _ 1) =>
    match ws.store with
    | none => .error "Platform-store snapshot is unsafe or unavailable"
    | some data =>
      if maxBytes = 0 ∨ maxBytes < data.length then
        .error "Platform-store snapshot exceeds the backup member limit"
      else .ok (some data)
  | some _ => .error "Platform-store snapshot is unsafe or unavailable"

def setEntry {α : Type} (entries : List (Path × α)) (key : Path) (value : α) : List (Path × α) :=
  entries.filter (·.1 ≠ key) ++ [(key,value)]

def withSnapshot (members : Members) : Option (List UInt8) → Members
  | none => members
  | some data => setEntry members platformDbRelative data

def sortedItems {α : Type} (entries : List (Path × α)) : List (Path × α) :=
  entries.insertionSort fun a b => asPosix a.1 ≤ asPosix b.1

inductive BackupKind
  | privateBackup | publicReleaseExport | diagnosticExport | workspaceTransfer
  deriving DecidableEq

structure RedactionReport where
  kind : BackupKind
  removed : List Path
  redacted : List Path
  unresolved : List Path
  deriving DecidableEq

structure ManifestPayload where
  kind : BackupKind
  raytsystemVersion : String
  schemaVersions : List (String × String)
  fileHashes : List (Path × String)
  excludedPaths : List Path
  restrictedDataIncluded : Bool
  encrypted : Bool
  redactionReportSha256 : Option String
  createdAt : String
  deriving DecidableEq

structure BackupManifest extends ManifestPayload where
  manifestSha256 : String
  backupId : String
  deriving DecidableEq

structure Library where
  sha256 : List UInt8 → String
  payloadBytes : ManifestPayload → List UInt8
  reportBytes : RedactionReport → List UInt8
  deriveId : String → BackupKind → String
  dumpManifest : BackupManifest → List UInt8
  loadManifest : List UInt8 → Option BackupManifest
  dumpReport : RedactionReport → List UInt8
  loadReport : List UInt8 → Option RedactionReport
  isEncryptedBlob : List UInt8 → Bool

variable (lib : Library) (m : BackupManifest)

def BackupManifest.verifyHash : Bool :=
  m.manifestSha256 = lib.sha256 (lib.payloadBytes m.toManifestPayload)

def BackupManifest.verifyId : Bool :=
  m.backupId = lib.deriveId m.manifestSha256 m.kind

def trimPath (path : Path) : Path :=
  let tail := match path.reverse with
    | [] => []
    | last :: front => (String.ofList
        (last.toList.reverse.dropWhile isWhiteSpace).reverse :: front).reverse
  match tail with
  | [] => []
  | first :: rest =>
    String.ofList (first.toList.dropWhile isWhiteSpace) :: rest.filter (· ≠ "")

def validRelativePath (path : Path) : Bool :=
  match path with
  | [] => false
  | first :: _ =>
    first ≠ "" && !(path.contains "..") && !(path.contains ".") && !(first.toList.contains ':') &&
      (asPosix path).toList.all fun c => c ≠ '\\' && c ≠ Char.ofNat 0

def trimmedHashes (hashes : List (Path × String)) : List (Path × String) :=
  hashes.foldl (fun entries entry => setEntry entries (trimPath entry.1) entry.2) []

def modelValidate : Except String BackupManifest := do
  requires (m.fileHashes.all fun entry => validRelativePath (trimPath entry.1)) "ValidationError"
  return {m with fileHashes := trimmedHashes m.fileHashes}

structure Publication where
  manifest : BackupManifest
  report : RedactionReport
  archive : Members
  deriving DecidableEq

def configuredRoots (ws : Workspace) (restricted : Bool) : Except String (List Path) := do
  let configured ← configuredDocumentRoots ws
  return compactBackupRoots (privateRoots ++ configured) ++
    if restricted then [encryptedRoot] else []

def checkEncrypted (members : Members) : Bool → Except String Unit
  | false => .ok ()
  | true => do
    let encrypted := members.filter fun member => encryptedRoot.isPrefixOf member.1
    requires (!encrypted.isEmpty) "Restricted backup requested but no encrypted blobs exist"
    match encrypted.find? fun member => !lib.isEncryptedBlob member.2 with
    | none => .ok ()
    | some member => .error ("Restricted backup member is not encrypted: " ++ asPosix member.1)

def gather (ws : Workspace) (restricted : Bool) : Except String (Members × List Path) := do
  requires ws.backupEnabled "Backup and export are disabled"
  requires (!restricted || ws.restrictedEncryptionEnabled)
    "Restricted data cannot be included without encryption"
  let roots ← configuredRoots ws restricted
  let collected ← collect ws roots
  checkEncrypted lib collected.members restricted
  let collectedBytes ← validateSpooledMembers collected.members
  let snapshot ← platformSnapshotFile ws (min maxMemberBytes (maxBundleBytes - collectedBytes))
  return (withSnapshot collected.members snapshot, collected.removed)

def redactionReport (removed : List Path) : RedactionReport :=
  { kind := .privateBackup, removed := removed, redacted := [], unresolved := [] }

def manifestPayload (members : Members) (report : RedactionReport) (restricted : Bool)
    (createdAt : String) : ManifestPayload where
  kind := .privateBackup
  raytsystemVersion := "0.1.0"
  schemaVersions := [("contracts","1.4.0"), ("platform_store","1"), ("bundle","1")]
  fileHashes := (sortedItems members).map fun member => (member.1,lib.sha256 member.2)
  excludedPaths := [[".raytsystem","index.sqlite"], [".raytsystem","documents.sqlite"],
    ["knowledge","graph.json"]]
  restrictedDataIncluded := restricted
  encrypted := restricted
  redactionReportSha256 := some (lib.sha256 (lib.reportBytes report))
  createdAt := createdAt

def draftManifest (payload : ManifestPayload) : BackupManifest :=
  let hash := lib.sha256 (lib.payloadBytes payload)
  { payload with manifestSha256 := hash, backupId := lib.deriveId hash payload.kind }

def writeArchive (members : Members) (manifest : BackupManifest) (report : RedactionReport) :
    Members :=
  sortedItems members ++
    [(manifestMember,lib.dumpManifest manifest), (redactionMember,lib.dumpReport report)]

def create (ws : Workspace) (restricted : Bool) (createdAt : String) :
    Except String Publication := do
  let (members, removed) ← gather lib ws restricted
  let memberBytes ← validateSpooledMembers members
  let report := redactionReport removed
  let manifest ← modelValidate (draftManifest lib (manifestPayload lib members report restricted
    createdAt))
  requires (manifest.verifyHash lib && manifest.verifyId lib) "Backup manifest identity is invalid"
  let manifestSize := (lib.dumpManifest manifest).length
  let reportSize := (lib.dumpReport report).length
  requires (manifestSize ≤ maxBundleMetadataBytes && reportSize ≤ maxBundleMetadataBytes &&
      memberBytes + manifestSize + reportSize ≤ maxBundleBytes)
    "Backup metadata exceeds the safe size limit"
  return ⟨manifest, report, writeArchive lib members manifest report⟩
end

section
variable (lib : Library) (archive : Members)

def readEntry (path : Path) : Except String (List UInt8) :=
  match archive.reverse.find? (·.1 = path) with
  | some entry => .ok entry.2
  | none => .error "Backup bundle is unreadable"

def parsed {α : Type} (x : Option α) : Except String α :=
  match x with
  | some a => .ok a
  | none => .error "Backup bundle is unreadable"

def checkedMember (message : String) (entry : Path × String) : Except String (List UInt8) := do
  let data ← readEntry archive entry.1
  requires (lib.sha256 data = entry.2) message
  return data

def checkMembers (archive : Members) : List (Path × String) → Except String Unit
  | [] => .ok ()
  | entry :: rest => do
    let _ ← checkedMember lib archive ("Backup member hash failed: " ++ asPosix entry.1) entry
    checkMembers archive rest

def sameNames (names : List Path) (hashes : List (Path × String)) : Bool :=
  let expected := hashes.map Prod.fst ++ [manifestMember, redactionMember]
  names.all (· ∈ expected) && expected.all (· ∈ names)

def verify : Except String BackupManifest := do
  let names := archive.map Prod.fst
  requires (names.length ≤ maxBundleMembers && names.Nodup && manifestMember ∈ names &&
    redactionMember ∈ names) "Backup member list is invalid"
  let _ ← measure "Backup bundle is too large" 0 archive
  let manifestData ← readEntry archive manifestMember
  requires (manifestData.length ≤ maxBundleMetadataBytes) "Backup manifest is too large"
  let manifest ← parsed (lib.loadManifest manifestData)
  requires (manifest.verifyHash lib && manifest.verifyId lib) "Backup manifest hash is invalid"
  let redactionData ← readEntry archive redactionMember
  requires (redactionData.length ≤ maxBundleMetadataBytes) "Backup redaction report is too large"
  let report ← parsed (lib.loadReport redactionData)
  requires (manifest.redactionReportSha256 = some (lib.sha256 (lib.reportBytes report)))
    "Backup redaction report hash is invalid"
  requires (sameNames names manifest.fileHashes) "Backup members do not match the manifest"
  checkMembers lib archive manifest.fileHashes
  return manifest

def majorVersion (version : String) : List Char := version.toList.takeWhile (· ≠ '.')

def incompatible (manifest : BackupManifest) : Bool :=
  let contracts := ((manifest.schemaVersions.find? (·.1 = "contracts")).map Prod.snd).getD "0"
  contracts ≠ "1.4.0" && majorVersion contracts ≠ majorVersion "1.4.0"

def writeStaged (staging : Members) (path : Path) (data : List UInt8) : Except String Members :=
  if staging.any fun entry => path.isPrefixOf entry.1 then
    .error "Restore refuses to overwrite an existing path"
  else if staging.any fun entry => entry.1.isPrefixOf path then
    .error "Unsafe directory component"
  else .ok (staging ++ [(path,data)])

def restoreMembers (archive : Members) : Members → List (Path × String) → Except String Members
  | staging, [] => .ok staging
  | staging, entry :: rest => do
    requires (validMember entry.1) "Backup contains a path traversal member"
    let data ← checkedMember lib archive "Restore member hash changed" entry
    let staging ← writeStaged staging entry.1 data
    restoreMembers archive staging rest

def restore (ws : Workspace) (archive : Members) (destination : List Path) :
    Except String Members := do
  requires ws.backupEnabled "Backup and export are disabled"
  let planned ← verify lib archive
  requires (!incompatible planned) "Backup schema is incompatible"
  requires destination.isEmpty "Restore requires an empty destination"
  let manifest ← verify lib archive
  restoreMembers lib archive [] (sortedItems manifest.fileHashes)
end

end RaytSystem.Backup
