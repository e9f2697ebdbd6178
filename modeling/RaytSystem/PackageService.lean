import RaytSystem.PackageModel
import RaytSystem.RelyGuarantee

/-! The package lifecycle service. Each call first reads and checks, which leaves the world alone,
and then writes; every write is an access of its own. -/
namespace RaytSystem.Packages
open Extraction Interleaving RecordTable

abbrev PackageProg := Prog PackageWorld Unit PackageFault

section
variable (env : PackageEnv)

def consult {α : Type} (f : PackageWorld → Except PackageFault α) : PackageProg α :=
  .attempt () fun w => (f w).map fun a => (a, w)

def appended {ρ : Type} (t : Table Text ρ) (id : Text) (expected : Option ℕ) (texts : List Text)
    (r : ρ) : Except PackageFault (Table Text ρ) :=
  if texts.all encodable then
    match append t id expected r with
    | some t' => .ok t'
    | none => .error (.store "Record revision changed")
  else .error .unencodable

def RevisionRecord.stored (r : RevisionRecord) : RevisionRecord :=
  {r with revision := r.revision.mapText env.nfc}

def ManifestRecord.stored (r : ManifestRecord) : ManifestRecord :=
  {r with
    manifest := r.manifest.mapText env.nfc
    sourceRelative := env.nfc r.sourceRelative}

def ActiveRecord.stored (r : ActiveRecord) : ActiveRecord :=
  {r with
    activatedBy := env.nfc r.activatedBy
    rollbackReason := r.rollbackReason.map env.nfc}

def appendRevision (id : Text) (expected : Option ℕ) (r : RevisionRecord) : PackageProg Unit :=
  .attempt () fun w =>
    (appended w.revisions id expected r.revision.texts (r.stored env)).map fun t =>
      ((), {w with revisions := t})

def appendManifest (id : Text) (expected : Option ℕ) (r : ManifestRecord) : PackageProg Unit :=
  .attempt () fun w =>
    (appended w.manifests id expected [r.sourceRelative] (r.stored env)).map fun t =>
      ((), {w with manifests := t})

def appendActive (id : Text) (expected : Option ℕ) (r : ActiveRecord) : PackageProg Unit :=
  .attempt () fun w =>
    (appended w.active id expected (r.activatedBy :: r.rollbackReason.toList) (r.stored env)).map
      fun t => ((), {w with active := t})

def appendDiscovery (id : Text) (expected : Option ℕ) (r : DiscoveryRecord) : PackageProg Unit :=
  .attempt () fun w =>
    (appended w.discoveries id expected [r.sourceRelative] r).map fun t =>
      ((), {w with discoveries := t})

def appendEvent (event : PackageEvent) : PackageProg Unit :=
  .attempt () fun w =>
    if isToken event.actorId then
      if encodable event.actorId then .ok ((), {w with events := w.events ++ [event]})
      else .error .unencodable
    else .error (.token "actor ID")

def inspector : Text := chars "raytsystem_package_inspector"
def validator : Text := chars "raytsystem_package_validator"
def installer : Text := chars "raytsystem_package_installer"
end

section
variable (env : PackageEnv) (source : Text)

def discover : PackageProg Unit := do
  let existing ← consult fun w => do
    requireEnabled env
    let _ ← sourceDirectory w source
    return head w.discoveries (env.discoveryId source)
  match existing with
  | some _ => pure ()
  | none => do
    appendDiscovery (env.discoveryId source) none {sourceRelative := env.nfc source}
    appendEvent ⟨env.discoveryId source, env.discoveryId source, "package_discovered", inspector⟩

def resolveSource (w : PackageWorld) : Except PackageFault (Text × Option Text) :=
  if (chars "pkgdisc_").isPrefixOf source then do
    recordKey source
    let record ← found (head w.discoveries source) "Package discovery record is unavailable"
    requires (record.value.sourceRelative ≠ []) "Package discovery record is unavailable"
    return (record.value.sourceRelative, some source)
  else .ok (source, none)

variable (asUpdate : Bool)

def previousRevision (packageId : Text) (w : PackageWorld) : Except PackageFault (Option Text) :=
  if asUpdate then do
    let active ← found (head w.active packageId) "Package update requires an active revision"
    return some active.value.revisionId
  else .ok none

structure Inspection where
  manifest : PackageManifest
  sourceRelative : Text
  discoveryId : Option Text
  fileCount : ℕ
  revision : PackageRevision

def inspection (source : Text) (w : PackageWorld) : Except PackageFault Inspection := do
  requireEnabled env
  let (sourceRelative, discoveryId) ← resolveSource source w
  let tree ← sourceDirectory w sourceRelative
  let (files, contentSha256) ← scanTree env tree
  requires (files.contains packageYaml) "Package manifest is missing"
  let manifest ← readManifest env tree contentSha256
  let previous ← previousRevision asUpdate manifest.packageId w
  let manifestSha256 := env.manifestSha256 manifest
  let revisionId := env.revisionId manifest.packageId manifestSha256 contentSha256 previous
  return {
    manifest := manifest
    sourceRelative := sourceRelative
    discoveryId := discoveryId
    fileCount := files.length
    revision := {
      revisionId := revisionId
      packageId := manifest.packageId
      manifestSha256 := manifestSha256
      contentSha256 := contentSha256
      state := .quarantined
      previousRevisionId := previous}}

def recordInspection (i : Inspection) : PackageProg Unit := do
  let existing ← .get () fun w => head w.revisions i.revision.revisionId
  match existing with
  | some _ => pure ()
  | none => do
    appendManifest env i.revision.revisionId none ⟨i.manifest, i.sourceRelative, i.fileCount⟩
    appendRevision env i.revision.revisionId none {revision := i.revision}
    appendEvent ⟨i.manifest.packageId, i.revision.revisionId, "package_inspected", inspector⟩

def Inspection.mark (d : DiscoveryRecord) (i : Inspection) : DiscoveryRecord :=
  {d with inspected := true, revisionId := some i.revision.revisionId}

def markInspected (i : Inspection) : PackageProg Unit :=
  match i.discoveryId with
  | none => pure ()
  | some id => do
    let discovery ← .get () fun w => head w.discoveries id
    match discovery with
    | none => pure ()
    | some d =>
      if d.value.inspected then pure ()
      else appendDiscovery id (some d.revision) (i.mark d.value)

def ingest (source : Text) : PackageProg Inspection := do
  let i ← consult (inspection env asUpdate source)
  recordInspection env i
  markInspected i
  return i

def inspect : PackageProg PackageRevision := do
  let i ← ingest env false source
  return i.revision
end

section
variable (env : PackageEnv)

structure Validation where
  prior : Stored RevisionRecord
  revision : PackageRevision
  failures : List String
  report : Text

variable (revisionId : Text)

def validation (w : PackageWorld) : Except PackageFault Validation := do
  requireEnabled env
  recordKey revisionId
  let prior ← found (head w.revisions revisionId) "Package revision does not exist"
  let manifestRecord ← found (head w.manifests revisionId) "Package revision does not exist"
  let revision ← cleanRevision prior.value
  let manifest ← manifestFromRecord manifestRecord.value
  let failures := validationFailures w manifest
  return ⟨prior, revision, failures, env.reportSha256 revisionId failures manifestRecord.value⟩

def Validation.validated (v : Validation) : PackageRevision :=
  {v.revision with
    state := if v.failures = [] then .validated else .blocked
    validationReportSha256 := some v.report}

def validate : PackageProg PackageRevision := do
  let v ← consult (validation env revisionId)
  appendRevision env revisionId (some v.prior.revision) {
    revision := v.validated
    validationFailures := some v.failures
    signatureVerified := some false}
  appendEvent ⟨v.revision.packageId, revisionId, "package_validated", validator⟩
  .require (v.failures = []) (.lifecycle ("Package validation failed: " ++ ",".intercalate v.failures))
  return v.validated

def update (source : Text) : PackageProg PackageRevision := do
  let i ← ingest env true source
  validate env i.revision.revisionId

def previousSuites (r : PackageRevision) (w : PackageWorld) : Except PackageFault (List Text) :=
  match r.previousRevisionId with
  | none => .ok []
  | some previous => do
    let record ← found (head w.manifests previous) "Previous package revision manifest is missing"
    return (← manifestFromRecord record.value).evalSuiteIds

structure Replaced where
  prior : Stored RevisionRecord
  revision : PackageRevision

def approval (revisionId approvalId : Text) (evalRunIds : List Text) (w : PackageWorld) :
    Except PackageFault Replaced := do
  requireEnabled env
  requires (approvalId ≠ []) "Package approval is required"
  recordKey revisionId
  let prior ← found (head w.revisions revisionId) "Package revision does not exist"
  let manifestRecord ← found (head w.manifests revisionId) "Package revision does not exist"
  let revision ← cleanRevision prior.value
  requires (revision.state == .validated) "Only validated packages may be approved"
  let manifest ← manifestFromRecord manifestRecord.value
  let covered ← verifiedEvalSuites w evalRunIds
  let previous ← previousSuites revision w
  requires ((manifest.evalSuiteIds ++ previous).all covered.contains)
    "Package approval does not cover the required eval suites"
  requires (w.authorised ⟨approvalId, revisionId, revision.contentSha256,
    !signatureMarker prior.value⟩) "Package approval authority is invalid"
  return ⟨prior, revision⟩

def approve (revisionId actorId approvalId : Text) (evalRunIds : List Text) :
    PackageProg PackageRevision := do
  let a ← consult (approval env revisionId approvalId evalRunIds)
  let approved := {a.revision with
    state := .approved
    evalRunIds := evalRunIds
    approvalId := some approvalId
    activatedBy := some actorId}
  appendRevision env revisionId (some a.prior.revision)
    {revision := approved, signatureVerified := some (signatureMarker a.prior.value)}
  appendEvent ⟨a.revision.packageId, revisionId, "package_approved", actorId⟩
  return approved

structure Installation extends Replaced where
  source : Tree
  observed : Text
  present : Bool

def installation (revisionId : Text) (w : PackageWorld) : Except PackageFault Installation := do
  requireEnabled env
  recordKey revisionId
  let prior ← found (head w.revisions revisionId) "Package revision does not exist"
  let manifestRecord ← found (head w.manifests revisionId) "Package revision does not exist"
  let revision ← cleanRevision prior.value
  requires (revision.state == .approved) "Package must be approved before installation"
  let source ← sourceDirectory w manifestRecord.value.sourceRelative
  let (_, observed) ← scanTree env source
  requires (observed == revision.contentSha256) "Package changed after approval"
  match w.installed revisionId with
  | .absent => return ⟨⟨prior, revision⟩, source, observed, false⟩
  | path => do
    let content ← contentOf env path
    requires (content == some observed) "Installed package path is inconsistent"
    return ⟨⟨prior, revision⟩, source, observed, true⟩

def copyNode : FileNode → Option FileNode
  | .directory => some .directory
  | .file data _ => some (.file data 1)
  | .symlink => none
  | .special => none

def PathState.add (entry : TreeEntry) : PathState → PathState
  | .directory tree => .directory (tree ++ [entry])
  | path => path

def copyEntry (entry : TreeEntry) : PackageProg Unit :=
  match copyNode entry.node with
  | none => pure ()
  | some node => .set () fun w =>
    {w with staging :=
      Function.update w.staging revisionId ((w.staging revisionId).add ⟨entry.path, node⟩)}

def makeStaging : PackageProg Unit :=
  .attempt () fun w =>
    if w.staging revisionId = .absent then
      .ok ((), {w with staging := Function.update w.staging revisionId (.directory [])})
    else .error .fileExists

def placeStaging : PackageProg Unit :=
  .set () fun w =>
    {w with
      installed := Function.update w.installed revisionId (w.staging revisionId)
      staging := Function.update w.staging revisionId .absent}

def stage (i : Installation) : PackageProg Unit :=
  if i.present then pure ()
  else do
    makeStaging revisionId
    .each (copyEntry revisionId) i.source
    let content ← consult fun w => contentOf env (w.staging revisionId)
    .require (content = some i.observed) (.lifecycle "Staged package hash mismatch")
    placeStaging revisionId

def install : PackageProg PackageRevision := do
  let i ← consult (installation env revisionId)
  stage env revisionId i
  let installed := {i.revision with state := .installed}
  appendRevision env revisionId (some i.prior.revision)
    {revision := installed, signatureVerified := some (signatureMarker i.prior.value)}
  appendEvent ⟨i.revision.packageId, revisionId, "package_installed", installer⟩
  return installed
end

section
variable (env : PackageEnv)

def supersession (previousId : Text) (incoming : PackageRevision) (w : PackageWorld) :
    Except PackageFault (Option (Text × Replaced)) :=
  if previousId = [] ∨ previousId = incoming.revisionId then .ok none
  else match head w.revisions previousId with
    | none => .ok none
    | some prior =>
      if prior.value.state = .active then do
        let revision ← cleanRevision prior.value
        return some (previousId, ⟨prior, revision⟩)
      else .ok none

structure Activation extends Replaced where
  priorActive : Option (Stored ActiveRecord)
  superseded : Option (Text × Replaced)

def activation (revisionId approvalId : Text) (w : PackageWorld) :
    Except PackageFault Activation := do
  requireEnabled env
  recordKey revisionId
  let prior ← found (head w.revisions revisionId) "Package revision does not exist"
  let revision ← cleanRevision prior.value
  requires (revision.state == .installed) "Only installed packages may be activated"
  requires (revision.approvalId == some approvalId)
    "Activation approval does not match the approved revision"
  let content ← contentOf env (w.installed revisionId)
  requires (content == some revision.contentSha256) "Installed package content hash does not verify"
  match head w.active revision.packageId with
  | none => return ⟨⟨prior, revision⟩, none, none⟩
  | some priorActive => do
    let superseded ← supersession priorActive.value.revisionId revision w
    return ⟨⟨prior, revision⟩, some priorActive, superseded⟩

def supersede (incoming : PackageRevision) : Option (Text × Replaced) → PackageProg Unit
  | none => pure ()
  | some (previousId, previous) => do
    appendRevision env previousId (some previous.prior.revision) {
      revision := {previous.revision with state := .superseded}
      signatureVerified := some (signatureMarker previous.prior.value)}
    appendEvent ⟨incoming.packageId, previousId, "package_superseded", installer⟩

def Replaced.activated (r : Replaced) (actorId : Text) : RevisionRecord where
  revision := {r.revision with state := .active, activatedBy := some actorId}
  signatureVerified := some (signatureMarker r.prior.value)

def activate (revisionId actorId approvalId : Text) : PackageProg PackageRevision := do
  let a ← consult (activation env revisionId approvalId)
  supersede env a.revision a.superseded
  let active := a.activated actorId
  appendRevision env revisionId (some a.prior.revision) active
  appendActive env a.revision.packageId (a.priorActive.map Stored.revision) {
    packageId := a.revision.packageId
    revisionId := revisionId
    contentSha256 := a.revision.contentSha256
    activatedBy := actorId
    approvalId := some approvalId}
  appendEvent ⟨a.revision.packageId, revisionId, "package_activated", actorId⟩
  return active.revision

structure Rollback extends Replaced where
  activeHead : Stored ActiveRecord
  current : Option Replaced

def currentRevision (id : Text) (w : PackageWorld) : Except PackageFault (Option Replaced) :=
  match head w.revisions id with
  | none => .ok none
  | some prior => do
    let revision ← cleanRevision prior.value
    return some ⟨prior, revision⟩

def rollbackPlan (packageId toRevisionId reason : Text) (w : PackageWorld) :
    Except PackageFault Rollback := do
  requireEnabled env
  requires (strip reason ≠ []) "Package rollback requires an explicit reason"
  recordKey packageId
  let activeHead ← found (head w.active packageId) "Package has no active revision to roll back"
  requires (activeHead.value.revisionId ≠ toRevisionId)
    "Package is already at the requested revision"
  recordKey toRevisionId
  let prior ← found (head w.revisions toRevisionId) "Package revision does not exist"
  let target ← cleanRevision prior.value
  requires (target.packageId == packageId) "Rollback target belongs to another package"
  requires (target.state.rollbackSource && target.approvalId.isSome)
    "Rollback target was never approved and installed for this package"
  let content ← contentOf env (w.installed toRevisionId)
  requires (content == some target.contentSha256) "Rollback target content hash does not verify"
  let current ← currentRevision activeHead.value.revisionId w
  return ⟨⟨prior, target⟩, activeHead, current⟩

def markRolledBack (currentId : Text) : Option Replaced → PackageProg Unit
  | none => pure ()
  | some current => appendRevision env currentId (some current.prior.revision) {
      revision := {current.revision with state := .rolledBack}
      signatureVerified := some (signatureMarker current.prior.value)}

def rollback (packageId toRevisionId actorId reason : Text) : PackageProg PackageRevision := do
  let r ← consult (rollbackPlan env packageId toRevisionId reason)
  markRolledBack env r.activeHead.value.revisionId r.current
  let restored := r.activated actorId
  appendRevision env toRevisionId (some r.prior.revision) restored
  appendActive env packageId (some r.activeHead.revision) {
    packageId := packageId
    revisionId := toRevisionId
    contentSha256 := r.revision.contentSha256
    activatedBy := actorId
    approvalId := r.revision.approvalId
    rolledBackFrom := some r.activeHead.value.revisionId
    rollbackReason := some reason}
  appendEvent ⟨packageId, toRevisionId, "package_rolled_back", actorId⟩
  return restored.revision
end

inductive PackageCall
  | discover (source : Text)
  | inspect (source : Text)
  | update (source : Text)
  | validate (revisionId : Text)
  | approve (revisionId actorId approvalId : Text) (evalRunIds : List Text)
  | install (revisionId : Text)
  | activate (revisionId actorId approvalId : Text)
  | rollback (packageId toRevisionId actorId reason : Text)
  | outside (evalRuns : Text → Option EvalRun) (authorised : ApprovalRequest → Bool)
      (sources : List Text → SourcePath)

def PackageCall.program (env : PackageEnv) : PackageCall → PackageProg Unit
  | discover source => Packages.discover env source
  | inspect source => do let _ ← Packages.inspect env source
  | update source => do let _ ← Packages.update env source
  | validate revisionId => do let _ ← Packages.validate env revisionId
  | approve revisionId actorId approvalId evalRunIds => do
    let _ ← Packages.approve env revisionId actorId approvalId evalRunIds
  | install revisionId => do let _ ← Packages.install env revisionId
  | activate revisionId actorId approvalId => do
    let _ ← Packages.activate env revisionId actorId approvalId
  | rollback packageId toRevisionId actorId reason => do
    let _ ← Packages.rollback env packageId toRevisionId actorId reason
  | outside evalRuns authorised sources => .set () fun w =>
    {w with evalRuns := evalRuns, authorised := authorised, sources := sources}

end RaytSystem.Packages
