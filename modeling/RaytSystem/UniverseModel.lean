import RaytSystem.CorpusModel
import RaytSystem.ExtractionModel
import RaytSystem.KeyedUnion
import RaytSystem.TaskClosure

/-! The graph of a workspace: its planes, what each of them draws, and the snapshot that is made of
the drawing. -/
namespace RaytSystem.Universe
open PyText Catalog Corpus Tasking CodeGraph

variable (n : CodeNode)

def validCodeNode : Bool :=
  isIdentifier n.nodeId && 1 ≤ n.label.length && n.label.length ≤ 256 && trim n.label == n.label &&
    n.qualifiedName.length ≤ 1024

def validCodeEdge (e : CodeEdge) : Bool :=
  isIdentifier e.edgeId && isIdentifier e.source && isIdentifier e.target

structure CodeSnapshot where
  snapshotId : Identifier
  logicalFingerprint : Sha256
  fileCount : ℕ
  nodes : List CodeNode
  edges : List CodeEdge
  ambiguousEdges : ℕ
  createdAt : Int
  validNodes : ∀ n ∈ nodes, validCodeNode n = true
  validEdges : ∀ e ∈ edges, validCodeEdge e = true
  uniqueNodes : (nodes.map fun n => n.nodeId).Nodup
  uniqueEdges : (edges.map fun e => e.edgeId).Nodup
  closed : ∀ e ∈ edges, e.source ∈ nodes.map (fun n => n.nodeId) ∧
    e.target ∈ nodes.map fun n => n.nodeId

inductive CodeGraphState
  | missing | current | unchecked | stale | building | error
  deriving DecidableEq, Repr

def CodeGraphState.value : CodeGraphState → String
  | missing => "missing"
  | current => "current"
  | unchecked => "unchecked"
  | stale => "stale"
  | building => "building"
  | error => "error"

structure RunSummary where
  runId : Identifier
  operationType : Identifier
  state : Identifier
  generationId : Option Identifier
  semanticNoop : Bool
  updatedAt : Int
  manifestSha256 : Sha256

structure Planes where
  corpus : ActiveCorpus
  tasks : TaskBoardSnapshot
  catalog : CatalogSnapshot
  runs : List RunSummary
  code : Option (CodeSnapshot × Sha256)
  codeState : CodeGraphState
  viewNodes : ℕ
  viewEdges : ℕ

def shortId (value : String) : String :=
  let cs := value.toList
  if cs.length ≤ 18 then value
  else String.ofList (cs.take 9 ++ '…' :: cs.drop (cs.length - 6))

def truncate (value : String) (limit : ℕ) : String :=
  let cs := value.toList
  if cs.length ≤ limit then value
  else String.ofList (((cs.take (limit - 1)).reverse.dropWhile isSpace).reverse ++ ['…'])

def titleList : Bool → List Char → List Char
  | _, [] => []
  | after, c :: cs =>
    if c.isAlpha then (if after then c.toLower else c.toUpper) :: titleList true cs
    else c :: titleList false cs

def operationTitle (operationType : String) : String :=
  String.ofList (titleList false (operationType.toList.map fun c => if c = '_' then ' ' else c))

def flag (b : Bool) : String := if b then "true" else "false"

def taskPriorityValue : TaskPriority → String
  | .low => "low"
  | .normal => "normal"
  | .high => "high"
  | .urgent => "urgent"

structure NodeSpec where
  nodeId : String
  kind : String
  label : String
  subtitle : String
  status : String
  ring : String
  importance : ℕ
  recordedAt : Option Int := none
  sourceRef : Option String := none
  metadata : List (String × String) := []
  deriving DecidableEq

structure EdgeSpec where
  source : String
  target : String
  kind : String
  status : String := "active"
  directed : Bool := true
  qualifier : String := ""
  metadata : List (String × String) := []
  deriving DecidableEq

inductive Call
  | node (n : NodeSpec)
  | edge (e : EdgeSpec)

def workspaceId : String := "workspace_current"

section
variable (w : Planes)

def generationId : String := w.corpus.generation.generationId.val

def workspaceNode : NodeSpec where
  nodeId := workspaceId
  kind := "workspace"
  label := "raytsystem workspace"
  subtitle := "Local control plane"
  status := "local_only"
  ring := "core"
  importance := 100
  recordedAt := some w.corpus.generation.createdAt

def generationNode : NodeSpec where
  nodeId := generationId w
  kind := "generation"
  label := "Knowledge generation"
  subtitle := shortId (generationId w)
  status := "active"
  ring := "core"
  importance := 92
  recordedAt := some w.corpus.generation.createdAt
  metadata := [("sha256", w.corpus.generationSha256.hex)]

def taskGenerationNode (id : String) : NodeSpec where
  nodeId := id
  kind := "task_generation"
  label := "Task generation"
  subtitle := shortId id
  status := "active"
  ring := "work"
  importance := 78
  recordedAt := (w.tasks.tasks.map fun t => t.updatedAt).max?
  metadata := [("sha256", w.tasks.generationSha256.elim "" fun sha => sha.hex)]

def coreCalls : List Call :=
  [.node (workspaceNode w), .node (generationNode w),
    .edge {source := workspaceId, target := generationId w, kind := "activates"}]

def taskGenerationCalls : List Call :=
  match w.tasks.generationId with
  | some id => [.node (taskGenerationNode w id),
      .edge {source := workspaceId, target := id, kind := "activates"}]
  | none => []
end

def drawEach {α : Type} (items : List α) (node : α → NodeSpec) (edges : α → List EdgeSpec) :
    List Call :=
  items.flatMap fun a => .node (node a) :: (edges a).map .edge

section
variable (w : Planes)

def instructionNode (d : InstructionDocument) : NodeSpec where
  nodeId := d.documentId.val
  kind := "instruction"
  label := d.label.val
  subtitle := d.kind.val
  status := sensitivityValue d.sensitivity
  ring := "instruction"
  importance := 72
  metadata := [("sha256", d.contentSha256.hex), ("size_bytes", toString d.sizeBytes)]

def adapterNode (d : RuntimeAdapterDefinition) : NodeSpec where
  nodeId := d.adapterId.val
  kind := "adapter"
  label := d.name.val
  subtitle := d.isolationMode.val
  status := d.state.value
  ring := "application"
  importance := 54
  metadata := [("version", d.version.val), ("reason", d.reason.elim "" fun r => r.val),
    ("egress", d.egressDestination.elim "none" fun e => e.val)]

def packStatus (p : PackManifest) : String := if p.optional then "optional" else "core"

def packNode (p : PackManifest) : NodeSpec where
  nodeId := p.packId.val
  kind := "pack"
  label := p.name.val
  subtitle := p.description.val
  status := packStatus p
  ring := "instruction"
  importance := 64
  metadata := [("version", p.version.val), ("license", p.licenseExpression.val),
    ("trust", p.trustClass.value)]

def skillStatus (s : SkillDefinition) : String := if s.enabled then "enabled" else "restricted"

def skillNode (s : SkillDefinition) : NodeSpec where
  nodeId := s.skillId.val
  kind := "skill"
  label := s.name.val
  subtitle := s.description.val
  status := skillStatus s
  ring := "capability"
  importance := 68
  metadata := [("sha256", s.sourceSha256.hex), ("trust", s.trustClass.value),
    ("test_status", s.testStatus.value), ("sensitivity", sensitivityValue s.sensitivity)]

variable (a : AgentDefinition)

def agentStatus : String := if a.enabled then "configured" else "declared"

def agentNode : NodeSpec where
  nodeId := a.agentId.val
  kind := "agent"
  label := a.name.val
  subtitle := a.description.val
  status := agentStatus a
  ring := "capability"
  importance := 76
  metadata := [("role", a.role.val), ("version", a.version.val),
    ("filesystem_request", a.requestedFilesystemMode.value),
    ("egress", a.egressDestination.elim "none" fun e => e.val)]

def instructionByPath (path : String) : Option String :=
  (w.catalog.parts.instructions.reverse.find? fun d => d.path = path).map fun d => d.documentId.val

def contextEdges (source : String) (paths : List String) : List EdgeSpec :=
  (paths.filterMap (instructionByPath w)).map fun target =>
    {source := source, target := target, kind := "governed_by"}

def packEdges (known : List String) (p : PackManifest) : List EdgeSpec :=
  ((p.skillIds.map Subtype.val).filter (· ∈ known)).map (fun skillId =>
    ({source := p.packId.val, target := skillId, kind := "includes",
      qualifier := p.packId.val} : EdgeSpec)) ++ contextEdges w p.packId.val p.contextPaths

def agentEdges : List EdgeSpec :=
  [{source := a.packId.val, target := a.agentId.val, kind := "contains"},
    {source := a.agentId.val, target := a.runtimeAdapterId.val, kind := "configured_for"}] ++
    (a.skillIds.map fun id => {source := a.agentId.val, target := id.val, kind := "uses"}) ++
    contextEdges w a.agentId.val a.contextPaths

def instructionCalls : List Call :=
  drawEach w.catalog.parts.instructions instructionNode fun d =>
    [{source := workspaceId, target := d.documentId.val, kind := "governed_by"}]

def adapterCalls : List Call :=
  drawEach w.catalog.parts.adapters adapterNode fun d =>
    [{source := workspaceId, target := d.adapterId.val, kind := "offers"}]

def packCalls : List Call :=
  drawEach w.catalog.parts.packs packNode fun p =>
    [{source := workspaceId, target := p.packId.val, kind := "contains"}]

def skillCalls : List Call :=
  drawEach w.catalog.parts.skills skillNode fun s =>
    [{source := s.packId.val, target := s.skillId.val, kind := "contains"}]

def agentCalls : List Call := drawEach w.catalog.parts.agents agentNode (agentEdges w)
end

section
variable (w : Planes)

def taskNode (t : AgentTask) : NodeSpec where
  nodeId := t.taskId
  kind := "task"
  label := t.title
  subtitle := taskPriorityValue t.priority
  status := t.status.value
  ring := "work"
  importance := if t.status = .blocked then 80 else 66
  recordedAt := some t.updatedAt
  metadata := [("priority", taskPriorityValue t.priority), ("project_id", t.projectId),
    ("revision", toString t.revision), ("sensitivity", sensitivityValue t.sensitivity)]

def taskEdges (t : AgentTask) : List EdgeSpec :=
  {source := w.tasks.generationId.getD workspaceId, target := t.taskId, kind := "contains"} ::
    ((t.assigneeIds.filter
      (· ∈ w.catalog.parts.agents.map fun a => a.agentId.val)).map (fun id =>
        ({source := t.taskId, target := id, kind := "assigned_to"} : EdgeSpec)) ++
    (t.skillIds.filter (· ∈ w.catalog.parts.skills.map fun s => s.skillId.val)).map (fun id =>
      ({source := t.taskId, target := id, kind := "uses"} : EdgeSpec)) ++
    (t.dependencyIds.filter (· ∈ w.tasks.tasks.map fun t => t.taskId)).map fun id =>
      ({source := t.taskId, target := id, kind := "depends_on"} : EdgeSpec))

def runNode (r : RunSummary) : NodeSpec where
  nodeId := r.runId.val
  kind := "run"
  label := operationTitle r.operationType.val
  subtitle := shortId r.runId.val
  status := r.state.val
  ring := "work"
  importance := 58
  recordedAt := some r.updatedAt
  metadata := [("manifest_sha256", r.manifestSha256.hex), ("semantic_noop", flag r.semanticNoop)]

def runEdges (r : RunSummary) : List EdgeSpec :=
  {source := workspaceId, target := r.runId.val, kind := "recorded"} ::
    if r.generationId = some w.corpus.generation.generationId then
      [{source := r.runId.val, target := generationId w, kind := "produced"}]
    else []

def taskCalls : List Call := drawEach w.tasks.tasks taskNode (taskEdges w)

def runCalls : List Call := drawEach w.runs runNode (runEdges w)
end

section
variable (w : Planes)

def sourceNode (s : Source) : NodeSpec where
  nodeId := s.sourceId.val
  kind := "source"
  label := s.displayName.elim s.sourceType.val fun name => name.val
  subtitle := s.sourceType.val
  status := sensitivityValue s.sensitivity
  ring := "evidence"
  importance := 64
  recordedAt := some s.createdAt
  metadata := [("trust", s.trustClass.value), ("rights", s.rights.val)]

def evidenceNode (e : ResolvedEvidence) : NodeSpec where
  nodeId := e.segment.segmentId.val
  kind := "evidence"
  label := "Evidence " ++ shortId e.segment.segmentId.val
  subtitle := e.segment.locatorKind.value
  status := "verified"
  ring := "evidence"
  importance := 70
  recordedAt := some e.normalization.createdAt
  sourceRef := some e.source.sourceId.val
  metadata := [("source_id", e.source.sourceId.val),
    ("revision_id", e.revision.sourceRevisionId.val),
    ("normalization_id", e.normalization.normalizationId.val),
    ("locator_kind", e.segment.locatorKind.value), ("excerpt_sha256", e.segment.excerptSha256.hex)]

def entityNode (e : Entity) : NodeSpec where
  nodeId := e.entityId.val
  kind := "entity"
  label := e.canonicalLabel.val
  subtitle := e.entityType.val
  status := e.lifecycleStatus.value
  ring := "knowledge"
  importance := 62
  metadata := [("entity_type", e.entityType.val)]

def claimNode (c : Claim) : NodeSpec where
  nodeId := c.claimId.val
  kind := "claim"
  label := truncate c.statement.val 180
  subtitle := c.language
  status := c.status.value
  ring := "knowledge"
  importance := if c.status = .supported ∨ c.status = .confirmed then 82 else 70
  recordedAt := some c.recordedAt
  metadata := [("evidence_count", toString c.evidenceIds.length),
    ("relation_count", toString c.relationIds.length)]

attribute [local instance] identifier_lawful in
def entityEdges (e : Entity) : List EdgeSpec :=
  {source := generationId w, target := e.entityId.val, kind := "contains"} ::
    (e.supersededBy.filter (· ∈ w.corpus.entities.map fun e => e.entityId)).map fun id =>
      {source := e.entityId.val, target := id.val, kind := "superseded_by"}

def liveClaims : List Identifier := w.corpus.claims.map fun c => c.claimId

attribute [local instance] identifier_lawful in
def claimEdges (c : Claim) : List EdgeSpec :=
  {source := generationId w, target := c.claimId.val, kind := "contains"} ::
    ((c.evidenceIds.map fun id =>
        ({source := id.val, target := c.claimId.val, kind := "supports"} : EdgeSpec)) ++
      (c.supersedes.filter (· ∈ liveClaims w)).map (fun id =>
        ({source := c.claimId.val, target := id.val, kind := "supersedes"} : EdgeSpec)) ++
      (c.contradicts.filter (· ∈ liveClaims w)).map fun id =>
        ({source := c.claimId.val, target := id.val, kind := "contradicts"} : EdgeSpec))

attribute [local instance] identifier_lawful in
def relationEdges (r : Relation) : List EdgeSpec :=
  ((r.claimIds.filter (· ∈ liveClaims w)).map fun id =>
      ({source := id.val, target := r.subjectEntityId.val, kind := "asserts_about",
        qualifier := r.relationId.val} : EdgeSpec)) ++
    match r.object with
    | .entity id =>
      [{source := r.subjectEntityId.val, target := id.val, kind := r.predicate.val,
        status := r.lifecycleStatus.value, qualifier := r.relationId.val,
        metadata := [("relation_id", r.relationId.val)]}]
    | .literal _ => []

def sourceCalls : List Call :=
  drawEach w.corpus.sources sourceNode fun s =>
    [{source := generationId w, target := s.sourceId.val, kind := "contains"}]

def evidenceCalls : List Call :=
  drawEach w.corpus.evidence evidenceNode fun e =>
    [{source := e.source.sourceId.val, target := e.segment.segmentId.val, kind := "contains"}]

def entityCalls : List Call := drawEach w.corpus.entities entityNode (entityEdges w)

def claimCalls : List Call := drawEach w.corpus.claims claimNode (claimEdges w)
end

def kindPriority : CodeNodeKind → ℕ
  | .repository => 0
  | .package => 1
  | .module => 2
  | .apiEndpoint => 3
  | .cls => 4
  | .test => 5
  | .file => 6
  | .function => 7
  | .method => 8
  | _ => 9

def precedes (a b : CodeNode) : Bool :=
  ((compare (!a.isGod) (!b.isGod)).then ((compare (!a.isBridge) (!b.isBridge)).then
    ((compare (kindPriority a.kind) (kindPriority b.kind)).then
      (compare a.nodeId b.nodeId)))).isLE

def codeSlice (maxNodes maxEdges : ℕ) (s : CodeSnapshot) : List CodeNode × List CodeEdge :=
  let selected := (s.nodes.insertionSort fun a b => precedes a b = true).take maxNodes
  let ids := selected.map fun n => n.nodeId
  (selected, (s.edges.filter fun e => e.source ∈ ids ∧ e.target ∈ ids).take maxEdges)

def codeImportance : ℕ :=
  let base := match n.kind with
    | .repository => 96
    | .package => 84
    | .module => 82
    | .apiEndpoint => 78
    | .cls => 72
    | .file => 58
    | .test => 56
    | .function => 52
    | .method => 50
    | .configuration => 48
    | .adr => 48
    | .rationale => 36
    | _ => 44
  min 100 (base + (if n.isGod then 8 else 0) + if n.isBridge then 6 else 0)

def publicCodeMetadata : List String :=
  ["candidate_count", "configuration", "external", "handler", "language", "method", "module",
    "reference_kind", "resolution_key", "route", "symbol"]

def locationMetadata (l : SourceLocation) : List (String × String) :=
  [("start_line", toString l.startLine), ("start_column", toString l.startColumn),
    ("end_line", toString l.endLine), ("end_column", toString l.endColumn)]

def codeSubtitle : String :=
  let path := n.path.getD ""
  if path ≠ "" then path
  else if n.qualifiedName ≠ "" then n.qualifiedName
  else "Code graph node"

variable (w : Planes)

def codeNode (s : CodeSnapshot) (n : CodeNode) : NodeSpec where
  nodeId := n.nodeId
  kind := n.kind.value
  label := n.label
  subtitle := codeSubtitle n
  status := w.codeState.value
  ring := "code"
  importance := codeImportance n
  recordedAt := some s.createdAt
  metadata := (n.metadata.entries.filter fun kv => kv.1 ∈ publicCodeMetadata) ++
    [("qualified_name", n.qualifiedName), ("path", n.path.getD ""),
      ("content_fingerprint", n.contentFingerprint), ("extractor", n.extractor),
      ("extractor_version", n.extractorVersion),
      ("community_id", n.communityId.elim "" toString), ("is_god", flag n.isGod),
      ("is_bridge", flag n.isBridge), ("code_snapshot_id", s.snapshotId.val)] ++
    n.location.elim [] locationMetadata

def confidenceStatus : EdgeConfidence → String
  | .extracted => "extracted"
  | .inferred => "inferred"
  | .ambiguous => "ambiguous"

variable (s : CodeSnapshot)

def codeEdgeMetadata (e : CodeEdge) : List (String × String) :=
  [("code_edge_id", e.edgeId), ("confidence", e.confidence.value), ("source_file", e.sourceFile),
    ("source_line", e.sourceLocation.elim "" fun l => toString l.startLine),
    ("extractor", e.extractor), ("content_fingerprint", e.contentFingerprint),
    ("code_snapshot_id", s.snapshotId.val)]

def codeEdges (nodes : List CodeNode) (e : CodeEdge) : List EdgeSpec :=
  let metadata := codeEdgeMetadata s e
  let sourceKind := (nodes.find? fun n => n.nodeId = e.source).map fun n => n.kind
  let drawn (kind qualifier : String) (metadata : List (String × String)) : EdgeSpec :=
    ⟨e.source, e.target, kind, confidenceStatus e.confidence, true, qualifier, metadata⟩
  drawn e.relation.value e.edgeId metadata ::
    ((if e.relation = .tests ∧ sourceKind = some .test then
        [drawn "verifies" (e.edgeId ++ ":verifies")
          (metadata ++ [("cross_plane", "test_to_code")])]
      else []) ++
      if e.relation = .references ∧ sourceKind = some .adr then
        [drawn "explains" (e.edgeId ++ ":explains") (metadata ++ [("cross_plane", "adr_to_code")])]
      else [])

def repositoryEdges (nodes : List CodeNode) : List EdgeSpec :=
  (nodes.filter fun n => n.kind = .repository).map fun n =>
    {source := workspaceId, target := n.nodeId, kind := "contains", qualifier := s.snapshotId.val}

def codeCalls : List Call :=
  match w.code with
  | none => []
  | some (s, _) =>
    let (nodes, edges) := codeSlice w.viewNodes w.viewEdges s
    (nodes.map fun n => .node (codeNode w s n)) ++
      (edges.flatMap (codeEdges s nodes)).map .edge ++ (repositoryEdges s nodes).map .edge

def nodesOf (calls : List Call) : List NodeSpec :=
  calls.filterMap fun
    | .node n => some n
    | .edge _ => none

def edgesOf (calls : List Call) : List EdgeSpec :=
  calls.filterMap fun
    | .node _ => none
    | .edge e => some e

def firstCalls : List Call :=
  coreCalls w ++ taskGenerationCalls w ++ instructionCalls w ++ adapterCalls w ++ packCalls w ++
    skillCalls w

def knownIds : List String := (nodesOf (firstCalls w)).map fun n => n.nodeId

def calls : List Call :=
  firstCalls w ++ (w.catalog.parts.packs.flatMap (packEdges w (knownIds w))).map .edge ++
    agentCalls w ++ taskCalls w ++ runCalls w ++ sourceCalls w ++ evidenceCalls w ++
    entityCalls w ++ claimCalls w ++ (w.corpus.relations.flatMap (relationEdges w)).map .edge ++
    codeCalls w

inductive UniverseFault
  | universe (message : String)
  | validation
  deriving DecidableEq, Repr

structure Drawing where
  nodes : List NodeSpec
  edges : List EdgeSpec

def edgeKey (e : EdgeSpec) : String × String × String × String :=
  (e.source, e.target, e.kind, e.qualifier)

def addNode (d : Drawing) (n : NodeSpec) : Except UniverseFault Drawing :=
  match KeyedUnion.insert NodeSpec.nodeId d.nodes n with
  | some nodes => .ok {d with nodes}
  | none => .error (.universe "Graph node identity collision")

def addEdge (d : Drawing) (e : EdgeSpec) : Drawing :=
  {d with edges := KeyedUnion.keep edgeKey d.edges e}

def draw : Drawing → List Call → Except UniverseFault Drawing
  | d, [] => .ok d
  | d, .node n :: rest => do
    let d ← addNode d n
    draw d rest
  | d, .edge e :: rest => draw (addEdge d e) rest

section

structure GraphNodeView where
  nodeId : String
  kind : String
  label : String
  subtitle : String
  status : String
  ring : String
  importance : ℕ
  x : Int
  y : Int
  recordedAt : Option Int
  sourceRef : Option String
  metadata : List (String × String)

def GraphNodeView.valid (v : GraphNodeView) : Prop :=
  isIdentifier v.nodeId = true ∧ isIdentifier v.kind = true ∧ isNonEmptyStr v.label = true ∧
    v.subtitle.length ≤ 4096 ∧ isIdentifier v.status = true ∧ isIdentifier v.ring = true ∧
    (1 ≤ v.importance ∧ v.importance ≤ 100) ∧ (-100000 ≤ v.x ∧ v.x ≤ 100000) ∧
    (-100000 ≤ v.y ∧ v.y ≤ 100000) ∧ v.sourceRef.all isIdentifier = true

instance (v : GraphNodeView) : Decidable v.valid := by
  unfold GraphNodeView.valid
  infer_instance

structure GraphEdgeView where
  edgeId : String
  source : String
  target : String
  kind : String
  status : String
  directed : Bool
  metadata : List (String × String)

def GraphEdgeView.valid (v : GraphEdgeView) : Prop :=
  isIdentifier v.edgeId = true ∧ isIdentifier v.source = true ∧ isIdentifier v.target = true ∧
    isIdentifier v.kind = true ∧ isIdentifier v.status = true

instance (v : GraphEdgeView) : Decidable v.valid := by
  unfold GraphEdgeView.valid
  infer_instance

structure GraphSnapshot where
  graphSnapshotId : String
  knowledgeGenerationId : Identifier
  knowledgeGenerationSha256 : Sha256
  taskGenerationId : Option String
  taskGenerationSha256 : Option Sha256
  catalogSha256 : Sha256
  codeSnapshotId : Option Identifier
  codeSnapshotSha256 : Option Sha256
  codeSnapshotFingerprint : Option Sha256
  codeGraphState : CodeGraphState
  codeFileCount : ℕ
  codeNodeCount : ℕ
  codeEdgeCount : ℕ
  codeAmbiguousEdges : ℕ
  codeViewNodeCount : ℕ
  codeViewEdgeCount : ℕ
  codeViewTruncated : Bool
  nodes : List {v : GraphNodeView // v.valid}
  edges : List {v : GraphEdgeView // v.valid}
  createdAt : Int

structure UniverseEnv where
  /-- `round(radius * math.cos(angle))` and the sine: the angle is a part of the full circle, less a
  quarter when the flag is set. -/
  point : ℕ → Int → ℕ → Bool → Int × Int
  point_le : ∀ radius part parts quarter,
    (point radius part parts quarter).1.natAbs ≤ radius ∧
      (point radius part parts quarter).2.natAbs ≤ radius
  edgeDigest : String × String × String × String → Sha256
  graphDigest : GraphSnapshot → Sha256

variable (env : UniverseEnv)

def ringRadius (ring : String) : ℕ :=
  (([("core", 0), ("instruction", 180), ("capability", 340), ("work", 520), ("code", 680),
    ("knowledge", 830), ("evidence", 990), ("application", 1140)] :
      List (String × ℕ)).lookup ring).getD 650

def position (ring : String) (index count : ℕ) : Int × Int :=
  if ringRadius ring = 0 then
    env.point (if index = 0 then 0 else 72) ((index : Int) - 1) (max (count - 1) 1) false
  else env.point (ringRadius ring) index (max count 1) true

def renderNode (n : NodeSpec) (place : Int × Int) :
    Except UniverseFault {v : GraphNodeView // v.valid} :=
  let view : GraphNodeView := {
    nodeId := trim n.nodeId, kind := trim n.kind, label := trim n.label
    subtitle := trim n.subtitle, status := trim n.status, ring := trim n.ring
    importance := n.importance, x := place.1, y := place.2, recordedAt := n.recordedAt
    sourceRef := n.sourceRef.map trim, metadata := n.metadata.map fun kv => (trim kv.1, trim kv.2) }
  if h : view.valid then .ok ⟨view, h⟩ else .error .validation

def ringOrder (a b : NodeSpec) : Bool :=
  ((compare (if a.kind = "workspace" then 0 else 1) (if b.kind = "workspace" then 0 else 1)).then
    ((compare a.kind b.kind).then (compare a.nodeId b.nodeId))).isLE

def placeRing (nodes : List NodeSpec) (ring : String) : List (NodeSpec × (Int × Int)) :=
  let ordered := (nodes.filter fun n => n.ring = ring).insertionSort fun a b => ringOrder a b = true
  ordered.zipIdx.map fun ni => (ni.1, position env ring ni.2 ordered.length)

def layout (nodes : List NodeSpec) : Except UniverseFault (List {v : GraphNodeView // v.valid}) := do
  let placed := (sortedSet (nodes.map fun n => n.ring)).flatMap (placeRing env nodes)
  let rendered ← placed.mapM fun p => renderNode p.1 p.2
  pure (rendered.insertionSort fun a b => a.val.nodeId ≤ b.val.nodeId)

def renderEdge (e : EdgeSpec) : Except UniverseFault {v : GraphEdgeView // v.valid} :=
  let view : GraphEdgeView := {
    edgeId := derivedId "gedge" (env.edgeDigest (edgeKey e)), source := trim e.source
    target := trim e.target, kind := trim e.kind, status := trim e.status, directed := e.directed
    metadata := e.metadata.map fun kv => (trim kv.1, trim kv.2) }
  if h : view.valid then .ok ⟨view, h⟩ else .error .validation

def edgeOrder (a b : EdgeSpec) : Bool :=
  ((compare a.source b.source).then ((compare a.target b.target).then
    ((compare a.kind b.kind).then (compare a.qualifier b.qualifier)))).isLE

def maxNodes : ℕ := 10000
def maxEdges : ℕ := 50000

def ensure (b : Prop) [Decidable b] (message : String) : Except UniverseFault Unit :=
  if b then .ok () else .error (.universe message)

def createdAt (w : Planes) : Int :=
  ((w.tasks.tasks.map fun t => t.updatedAt) ++ (w.runs.map fun r => r.updatedAt) ++
    w.code.elim [] fun c => [c.1.createdAt]).foldl max w.corpus.generation.createdAt

def assemble (w : Planes) (nodes : List {v : GraphNodeView // v.valid})
    (edges : List {v : GraphEdgeView // v.valid}) : GraphSnapshot :=
  let slice := w.code.map fun c => codeSlice w.viewNodes w.viewEdges c.1
  let viewNodeCount := slice.elim 0 fun s => s.1.length
  let viewEdgeCount := slice.elim 0 fun s => s.2.length
  { graphSnapshotId := "graph_pending"
    knowledgeGenerationId := w.corpus.generation.generationId
    knowledgeGenerationSha256 := w.corpus.generationSha256
    taskGenerationId := w.tasks.generationId
    taskGenerationSha256 := w.tasks.generationSha256
    catalogSha256 := w.catalog.catalogSha256
    codeSnapshotId := w.code.map fun c => c.1.snapshotId
    codeSnapshotSha256 := w.code.map Prod.snd
    codeSnapshotFingerprint := w.code.map fun c => c.1.logicalFingerprint
    codeGraphState := w.codeState
    codeFileCount := w.code.elim 0 fun c => c.1.fileCount
    codeNodeCount := w.code.elim 0 fun c => c.1.nodes.length
    codeEdgeCount := w.code.elim 0 fun c => c.1.edges.length
    codeAmbiguousEdges := w.code.elim 0 fun c => c.1.ambiguousEdges
    codeViewNodeCount := viewNodeCount
    codeViewEdgeCount := viewEdgeCount
    codeViewTruncated := w.code.elim false fun c =>
      viewNodeCount < c.1.nodes.length || viewEdgeCount < c.1.edges.length
    nodes
    edges
    createdAt := createdAt w }

def snapshot (w : Planes) : Except UniverseFault GraphSnapshot := do
  let d ← draw ⟨[], []⟩ (calls w)
  ensure (d.nodes.length ≤ maxNodes ∧ d.edges.length ≤ maxEdges)
    "Graph exceeds the safe first-release projection limit"
  let ids := d.nodes.map fun n => n.nodeId
  ensure (∀ e ∈ d.edges, e.source ∈ ids ∧ e.target ∈ ids)
    "Graph edge references an unavailable node"
  let nodes ← layout env d.nodes
  let edges ← (d.edges.insertionSort fun a b => edgeOrder a b = true).mapM (renderEdge env)
  let seed := assemble w nodes edges
  pure {seed with graphSnapshotId := derivedId "graph" (env.graphDigest seed)}
end

end RaytSystem.Universe
