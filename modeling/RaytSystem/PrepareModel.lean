import Mathlib
import RaytSystem.ImmutableStore
import RaytSystem.PyText
import RaytSystem.StepProgram

/-! The preparation of a task's workspace: what it binds, and the directory that it fills. -/
namespace RaytSystem.Preparation
open Interleaving ImmutableStore PyText

abbrev Bytes := List UInt8

section

/-- A task; `body` is the rest of it, which only the context shows. -/
structure AgentTask where
  taskId : String
  revision : ℕ
  updatedAt : Int
  body : String
  deriving DecidableEq

structure DigitalEmployee where
  employeeId : String
  agentDefinitionId : String
  configurationRevision : String
  mode : String
  body : String
  deriving DecidableEq

structure TaskBoard where
  generationId : Option String
  generationSha256 : Option String
  tasks : List AgentTask

structure Catalog where
  catalogSha256 : String
  employees : List DigitalEmployee
  definitions : List (String × String)

structure Features where
  taskWorkspacesEnabled : Bool
  codeGraphEnabled : Bool
  graphFirstQueryEnabled : Bool

structure GraphBinding where
  snapshotId : String
  snapshotFingerprint : String
  snapshotSha256 : Option String
  status : String
  result : Option String
  deriving DecidableEq

/-- What `prepare` reads of the project. Its bindings do not change. -/
structure Sources where
  features : Features
  maxContextBytes : ℕ
  board : TaskBoard
  catalog : Catalog
  gitMetadata : Bool
  gitHead : Option String
  graph : AgentTask → DigitalEmployee → Except String GraphBinding

structure PrepareCall where
  taskId : String
  agentId : String
  runId : Option String
  fixtureMode : Bool
  fixtureGitCommit : Option String

structure ContextPayload where
  generationId : String
  generationSha256 : String
  catalogSha256 : String
  task : AgentTask
  definition : String
  employee : DigitalEmployee
  gitCommit : String
  graph : GraphBinding

structure ContextDocuments where
  agent : Bytes
  graphContext : Bytes
  graphReport : Bytes
  policy : Bytes
  sources : Bytes
  task : Bytes
  bundle : Bytes

def ContextDocuments.items (d : ContextDocuments) : List (String × Bytes) :=
  [("AGENT.md", d.agent), ("GRAPH_CONTEXT.json", d.graphContext),
    ("GRAPH_REPORT.md", d.graphReport), ("POLICY.md", d.policy), ("SOURCES.md", d.sources),
    ("TASK.md", d.task), ("bundle.json", d.bundle)]

structure WorkspaceIdentity where
  payload : ContextPayload
  graphScopeId : String
  contextSha256 : String
  runId : Option String
  fixtureMode : Bool

structure PrepareRules where
  fitGraph : Sources → ContextPayload → Except String GraphBinding
  contextDocuments : ContextPayload → ContextDocuments
  contextSha256 : List (String × Bytes) → String
  graphScopeId : ContextPayload → String
  deriveWorkspace : WorkspaceIdentity → String
  manifestBytes : String → WorkspaceIdentity → Bytes
  sha256Hex : Bytes → String

variable (rules : PrepareRules) (sources : Sources) (call : PrepareCall)

def isLookupChar (c : Char) : Bool :=
  ('a' ≤ c && c ≤ 'z') || ('0' ≤ c && c ≤ '9') || "_:@.-".toList.contains c

def validateLookupId (value : String) : Except String Unit :=
  match value.toList with
  | first :: rest =>
    if 'a' ≤ first ∧ first ≤ 'z' ∧ 1 ≤ rest.length ∧ rest.length ≤ 255 ∧
        rest.all isLookupChar = true then .ok ()
    else .error "Task and agent IDs cannot contain path syntax"
  | [] => .error "Task and agent IDs cannot contain path syntax"

def isCommit (s : String) : Bool :=
  40 ≤ s.toList.length && s.toList.length ≤ 64 && s.toList.all isHexDigit

def boardTask (board : TaskBoard) (taskId : String) : Except String (String × String × AgentTask) :=
  match board.generationId, board.generationSha256 with
  | some generationId, some generationSha256 =>
    match board.tasks.filter fun task => task.taskId = taskId with
    | [task] => .ok (generationId, generationSha256, task)
    | _ => .error "Task is missing or ambiguous"
  | _, _ => .error "Task board has no current generation"

def catalogEmployee (catalog : Catalog) (agentId : String) :
    Except String (String × DigitalEmployee) :=
  match catalog.employees.filter fun e => e.employeeId = agentId ∨ e.agentDefinitionId = agentId with
  | [employee] =>
    match catalog.definitions.lookup employee.agentDefinitionId with
    | some definition => .ok (definition, employee)
    | none => .error "Agent definition is unavailable"
  | _ => .error "Agent is missing or ambiguous"

def gitBinding : Except String String :=
  if call.fixtureMode then
    match call.fixtureGitCommit with
    | some commit =>
      if isCommit commit then .ok commit
      else .error "Fixture mode requires an explicit lowercase Git commit"
    | none => .error "Fixture mode requires an explicit lowercase Git commit"
  else if call.fixtureGitCommit ≠ none then
    .error "Production mode cannot override the Git commit"
  else if sources.gitMetadata = false then .error "Git metadata is unavailable"
  else match sources.gitHead with
    | some commit => .ok commit
    | none => .error "Current Git commit is unavailable"

def checkCall : Except String Unit := do
  validateLookupId call.taskId
  validateLookupId call.agentId
  match call.runId with
  | some runId => validateLookupId runId
  | none => pure ()
  if sources.features.taskWorkspacesEnabled = false then
    .error "Task workspaces are disabled"
  else if sources.features.codeGraphEnabled ∧ sources.features.graphFirstQueryEnabled = false then
    .error "Graph-first context is disabled"
  else pure ()

def contextPayload : Except String ContextPayload := do
  checkCall sources call
  let (generationId, generationSha256, task) ← boardTask sources.board call.taskId
  let (definition, employee) ← catalogEmployee sources.catalog call.agentId
  let commit ← gitBinding sources call
  let graph ← sources.graph task employee
  let payload : ContextPayload := ⟨generationId, generationSha256, sources.catalog.catalogSha256,
    task, definition, employee, commit, graph⟩
  let fitted ← rules.fitGraph sources payload
  pure {payload with graph := fitted}

structure TaskWorkspace where
  workspaceId : String
  taskId : String
  mode : String
  relativeRoot : String
  gitCommit : String
  graphSnapshotId : String
  graphFingerprint : String
  manifestSha256 : String
  createdAt : Int
  deriving DecidableEq

structure WorkspacePreparation where
  workspace : TaskWorkspace
  graphScopeId : String
  contextSnapshotSha256 : String
  taskGenerationId : String
  taskRevision : ℕ
  employeeConfigurationRevision : String
  catalogSha256 : String
  gitCommit : String
  deriving DecidableEq

structure Plan where
  payload : ContextPayload
  prepared : WorkspacePreparation
  documents : ContextDocuments
  manifest : Bytes

def Plan.id (p : Plan) : String := p.prepared.workspace.workspaceId

def makePlan : Except String Plan := do
  let payload ← contextPayload rules sources call
  let documents := rules.contextDocuments payload
  if sources.maxContextBytes < (documents.items.map fun item => item.2.length).sum then
    .error "Required context exceeds its hard byte cap"
  else
    let contextSha256 := rules.contextSha256 documents.items
    let graphScopeId := rules.graphScopeId payload
    let identity : WorkspaceIdentity :=
      ⟨payload, graphScopeId, contextSha256, call.runId, call.fixtureMode⟩
    let workspaceId := rules.deriveWorkspace identity
    let manifest := rules.manifestBytes workspaceId identity
    pure {
      payload
      documents
      manifest
      prepared := {
        workspace := {
          workspaceId
          taskId := payload.task.taskId
          mode := payload.employee.mode
          relativeRoot := ".raytsystem/workspaces/" ++ workspaceId
          gitCommit := payload.gitCommit
          graphSnapshotId := payload.graph.snapshotId
          graphFingerprint := payload.graph.snapshotFingerprint
          manifestSha256 := rules.sha256Hex manifest
          createdAt := payload.task.updatedAt }
        graphScopeId
        contextSnapshotSha256 := contextSha256
        taskGenerationId := payload.generationId
        taskRevision := payload.task.revision
        employeeConfigurationRevision := payload.employee.configurationRevision
        catalogSha256 := payload.catalogSha256
        gitCommit := payload.gitCommit } }

def assertSourcesStable (payload : ContextPayload) : Except String Unit :=
  if sources.board.generationId ≠ some payload.generationId ∨
      sources.board.generationSha256 ≠ some payload.generationSha256 then
    .error "Task generation changed during preparation"
  else if sources.catalog.catalogSha256 ≠ payload.catalogSha256 then
    .error "Agent catalog changed during preparation"
  else if call.fixtureMode = false ∧ sources.gitHead ≠ some payload.gitCommit then
    .error "Git commit changed during preparation"
  else .ok ()
end

section

inductive Repo where
  | empty
  | unfinished
  | worktree (commit : String)
  deriving DecidableEq

structure Tree where
  repo : Option Repo
  context : Option (Store String Bytes)
  artifacts : Bool
  logs : Bool
  manifest : Option Bytes
  /-- The published files whose temporary is still linked beside them. -/
  spare : List String

def Tree.bare : Tree := ⟨none, none, false, false, none, []⟩

def contextPath (name : String) : String := "context/" ++ name

def manifestPath : String := "manifest.json"

/-- The managed root, and the directories of workspaces below it. `makers` is not of the source:
it notes which call made a directory. -/
structure PrepareWorld (κ : Type) where
  managed : Bool
  trees : Store String Tree
  makers : Store String κ

inductive PrepareAccess where
  | probe (id : String)
  | make (id : String)
  | other

variable {κ : Type}

abbrev PrepareProg (κ : Type) := Prog (PrepareWorld κ) PrepareAccess String

variable (rules : PrepareRules) (sources : Sources) (call : PrepareCall) (me : κ)

def edit (id : String) (f : Tree → Tree) (w : PrepareWorld κ) : PrepareWorld κ where
  managed := true
  trees := Function.update w.trees id (some (f ((w.trees id).getD .bare)))
  makers := w.makers

def makeDirectory (id : String) (w : PrepareWorld κ) : PrepareWorld κ where
  managed := true
  trees := Function.update w.trees id (some ((w.trees id).getD .bare))
  makers := match w.trees id with
    | none => Function.update w.makers id (some me)
    | some _ => w.makers

def treeOf (id : String) : PrepareProg κ (Option Tree) := .get .other fun w => w.trees id

/-- The directories that `_validate_existing` asks for, all of them real ones. -/
def hasDirectories : Option Tree → Bool
  | some t => t.repo.isSome && t.context.isSome && t.artifacts && t.logs
  | none => false

def documentAt (t : Option Tree) (name : String) : Option Bytes :=
  (t.bind Tree.context).bind fun files => files name

def linksOf (t : Option Tree) (path : String) : ℕ :=
  if path ∈ (t.map Tree.spare).getD [] then 2 else 1

/-- `read_regular_file` of a file that is expected to have so many bytes: it refuses a file with
another link. -/
def readBounded (size links : ℕ) : Option Bytes → Option Bytes
  | some data => if links = 1 ∧ data.length ≤ max 1 size then some data else none
  | none => none

def readDocuments (id : String) : List (String × Bytes) → PrepareProg κ (List Bytes)
  | [] => pure []
  | (name, expected) :: rest => do
    let t ← treeOf id
    let data ← .ofOption
      (readBounded expected.length (linksOf t (contextPath name)) (documentAt t name))
      "Existing workspace is missing or unsafe"
    let others ← readDocuments id rest
    pure (data :: others)

def repoReady (commit : String) : Option Repo → Bool
  | some .empty => call.fixtureMode
  | some (.worktree found) => !call.fixtureMode && found == commit
  | _ => false

def validateExisting (plan : Plan) : PrepareProg κ Unit := do
  let t ← treeOf plan.id
  .require (hasDirectories t = true) "Existing workspace is missing or unsafe"
  let documents ← readDocuments plan.id plan.documents.items
  let t ← treeOf plan.id
  let manifest ← .ofOption
    (readBounded plan.manifest.length (linksOf t manifestPath) (t.bind Tree.manifest))
    "Existing workspace is missing or unsafe"
  .require (documents = plan.documents.items.map Prod.snd ∧ manifest = plan.manifest)
    "Existing workspace manifest or context has drifted"
  let t ← treeOf plan.id
  .require (repoReady call plan.payload.gitCommit (t.bind Tree.repo) = true)
    "Existing task worktree commit has drifted"

def Tree.link (path : String) (t : Tree) : Tree := {t with spare := path :: t.spare}

def Tree.unlink (path : String) (t : Tree) : Tree := {t with spare := t.spare.filter (· ≠ path)}

/-- `publish_immutable` below a workspace: whether this call made the file. It links the file and
then unlinks the temporary; a rival unlinks the temporary that it finds, and compares. -/
def publishFile (id path : String) (found : Option Tree → Option Bytes) (data : Bytes)
    (f : Tree → Tree) : PrepareProg κ Bool := do
  let linked ← .attempt .other fun w =>
    match found (w.trees id) with
    | none => .ok (true, edit id (fun t => (f t).link path) w)
    | some _ => .ok (false, w)
  if linked then do
    .attempt .other fun w =>
      if linksOf (w.trees id) path = 2 then .ok ((), edit id (Tree.unlink path) w)
      else .error "No such file or directory"
    pure true
  else do
    .set .other (edit id (Tree.unlink path))
    let t ← treeOf id
    .require (found t = some data)
      ("Immutable path collision: .raytsystem/workspaces/" ++ id ++ "/" ++ path)
    pure false

def addDocument (name : String) (data : Bytes) (t : Tree) : Tree :=
  {t with context := some (Function.update (t.context.getD fun _ => none) name (some data))}

/-- `all(publish_immutable(..))`, which stops at the first document that was there. -/
def publishAll (id : String) : List (String × Bytes) → PrepareProg κ Bool
  | [] => pure true
  | (name, data) :: rest => do
    let created ← publishFile id (contextPath name) (documentAt · name) data
      (addDocument name data)
    if created then publishAll id rest else pure false

/-- `git worktree add`: it refuses a directory with files, and can be lost in its checkout. -/
def gitWorktreeAdd (id commit : String) : PrepareProg κ Unit := do
  let t ← treeOf id
  .require (t.bind Tree.repo = none) "Task worktree destination already exists"
  .attempt .other fun w =>
    match (w.trees id).bind Tree.repo with
    | none | some .empty => .ok ((), edit id (fun t => {t with repo := some .unfinished}) w)
    | some _ => .error "Git worktree materialization failed"
  .set .other (edit id fun t => {t with repo := some (.worktree commit)})

def makeRepo (id commit : String) : PrepareProg κ Unit :=
  if call.fixtureMode then
    .set .other (edit id fun t => {t with repo := some (t.repo.getD .empty)})
  else do
    gitWorktreeAdd id commit
    let t ← treeOf id
    .require (t.bind Tree.repo = some (.worktree commit))
      "Task worktree commit does not match its binding"

def materialize (plan : Plan) : PrepareProg κ Bool := do
  .set (.make plan.id) (makeDirectory me plan.id)
  makeRepo call plan.id plan.payload.gitCommit
  .set .other (edit plan.id fun t => {t with context := some (t.context.getD fun _ => none)})
  .set .other (edit plan.id fun t => {t with artifacts := true})
  .set .other (edit plan.id fun t => {t with logs := true})
  let contextCreated ← publishAll plan.id plan.documents.items
  let manifestCreated ← publishFile plan.id manifestPath (·.bind Tree.manifest) plan.manifest
    fun t => {t with manifest := some plan.manifest}
  .require (contextCreated = true ∧ manifestCreated = true)
    "Workspace publication raced with another writer"
  validateExisting call plan
  pure false

def probe (id : String) : PrepareProg κ Bool := .get (.probe id) fun w => (w.trees id).isSome

def persist (plan : Plan) : PrepareProg κ Bool := do
  if ← probe plan.id then
    validateExisting call plan
    pure true
  else
    .set .other fun w => {w with managed := true}
    if ← probe plan.id then
      validateExisting call plan
      pure true
    else materialize call me plan

def prepare : PrepareProg κ (WorkspacePreparation × Bool) := do
  let plan ← .ofExcept (makePlan rules sources call)
  .ofExcept (assertSourcesStable sources call plan.payload)
  let noOp ← persist call me plan
  .ofExcept (assertSourcesStable sources call plan.payload)
  pure (plan.prepared, noOp)
end
end RaytSystem.Preparation
