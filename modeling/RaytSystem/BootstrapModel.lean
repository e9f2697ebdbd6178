import Mathlib.Logic.Function.Basic
import RaytSystem.PyText
import RaytSystem.WorkspaceTree

/-! The installer of a workspace: what it checks, the files that it writes one after the other,
and the removal that goes by its record. -/
namespace RaytSystem.Bootstrap
open Backup

abbrev Bytes := List UInt8
abbrev Text := List Char

section
open WorkspaceNode

def fileAt (p : Path) (t : WorkspaceNode) : Option Bytes :=
  (locate p t).bind fun found => match found.2.follow with
    | file data _ => some data
    | _ => none

def existsAt (p : Path) (t : WorkspaceNode) : Bool := (locate p t).any fun found => found.2.pathExists

def linkAt (p : Path) (t : WorkspaceNode) : Bool := (locate p t).any fun found => found.2.isSymlink

def fresh (data : Bytes) : Path → WorkspaceNode
  | [] => file data 1
  | name :: rest => directory [name] fun _ => fresh data rest

def put (data : Bytes) : Path → WorkspaceNode → Option WorkspaceNode
  | [], file _ _ => some (file data 1)
  | name :: rest, directory names child =>
    if name ∈ names then
      (put data rest (child name)).map fun n => directory names (Function.update child name n)
    else some (directory (names ++ [name]) (Function.update child name (fresh data rest)))
  | _, _ => none

def writableAt : Path → WorkspaceNode → Bool
  | [], file _ _ => true
  | name :: rest, directory names child =>
    if name ∈ names then writableAt rest (child name) else true
  | _, _ => false

def removeIf (test : WorkspaceNode → Bool) : WorkspaceNode → Path → WorkspaceNode
  | symlink target, p => symlink (removeIf test target p)
  | directory names child, [name] =>
    if test (child name) = true then directory (names.filter (· ≠ name)) child
    else directory names child
  | directory names child, name :: rest =>
    directory names fun n => if n = name then removeIf test (child n) rest else child n
  | node, _ => node

def regular : WorkspaceNode → Bool
  | file _ _ => true
  | _ => false

def isFile (node : WorkspaceNode) : Bool := regular node.follow

def emptyDirectory : WorkspaceNode → Bool
  | directory [] _ => true
  | _ => false
end

def splitAtFirst (pattern : Text) : Text → Option (Text × Text)
  | [] => if pattern = [] then some ([],[]) else none
  | c :: rest =>
    if pattern.isPrefixOf (c :: rest) then some ([],(c :: rest).drop pattern.length)
    else (splitAtFirst pattern rest).map fun x => (c :: x.1,x.2)

def dropNewline : Text → Text
  | '\n' :: rest => rest
  | text => text

def subBlocks (markers : Text × Text) (block : Text) : Nat → Text → Text
  | 0, text => text
  | n + 1, text =>
    match splitAtFirst markers.1 text with
    | none => text
    | some (before,rest) =>
      match splitAtFirst markers.2 rest with
      | none => text
      | some (_,after) => before ++ block ++ subBlocks markers block n (dropNewline after)

def hasBlock (markers : Text × Text) (text : Text) : Bool :=
  (splitAtFirst markers.1 text).any fun x => (splitAtFirst markers.2 x.2).isSome

def strip (text : Text) : Text := PyText.stripList PyText.isSpace text

def rstrip (text : Text) : Text := (text.reverse.dropWhile PyText.isSpace).reverse

def collapse : Nat → Text → Text
  | _, [] => []
  | n, '\n' :: rest => if 2 ≤ n then collapse (n + 1) rest else '\n' :: collapse (n + 1) rest
  | _, c :: rest => c :: collapse 0 rest

def markersOf (p : Path) : Text × Text :=
  if p.getLast? = some ".gitignore" then
    ("# RAYTSYSTEM:BEGIN".toList,"# RAYTSYSTEM:END".toList)
  else ("<!-- RAYTSYSTEM:BEGIN -->".toList,"<!-- RAYTSYSTEM:END -->".toList)

def mergedText (p : Path) (existing body : Text) : Text :=
  let markers := markersOf p
  let block := markers.1 ++ '\n' :: strip body ++ '\n' :: markers.2 ++ ['\n']
  let merged :=
    if hasBlock markers existing = true then subBlocks markers block existing.length existing
    else if strip existing ≠ [] then rstrip existing ++ ['\n','\n'] ++ block
    else block
  if merged.getLast? = some '\n' then merged else merged ++ ['\n']

def strippedText (p : Path) (existing : Text) : Text :=
  let collapsed := strip (collapse 0 (subBlocks (markersOf p) [] existing.length existing))
  if collapsed = [] then [] else collapsed ++ ['\n']

inductive TemplateId where
  | software | content | research
  deriving DecidableEq, Repr

def TemplateId.value : TemplateId → String
  | software => "software"
  | content => "content"
  | research => "research"

def TemplateId.roles : TemplateId → List String
  | software => ["builder", "reviewer", "tester", "security_reviewer"]
  | content => ["researcher", "writer", "editor", "producer"]
  | research => ["researcher", "verifier", "synthesizer"]

def configPath : Path := ["config", "raytsystem.toml"]

def recordPath : Path := [".raytsystem", "installation.json"]

def templateFiles (id : TemplateId) : List Path :=
  [["AGENTS.md"], ["CLAUDE.md"], ["WORK.md"], ["README.md"], configPath,
    ["config", "policies.yaml"], ["config", "platform.yaml"], ["config", "runtime-adapters.yaml"],
    ["packs", id.value, "pack.yaml"], ["workflows", id.value ++ ".yaml"],
    ["tasks", id.value ++ "-sample.json"], ["docs", "TEMPLATE.md"], [".githooks", "pre-commit"],
    [".raytsystem", "template.json"], ["ops", "init-manifest.json"], ["docs", "INIT-DOCTOR.md"],
    ["knowledge", "manual", ".gitkeep"], [".claude", "skills", "start", "SKILL.md"],
    [".claude", "skills", "graph", "SKILL.md"], [".agents", "skills", "start", "SKILL.md"],
    [".agents", "skills", "graph", "SKILL.md"]] ++
  id.roles.map (fun role => ["packs", id.value, "agents", "agent_" ++ role ++ ".yaml"]) ++
  [["config", "policies", "policy_" ++ id.value ++ ".yaml"],
    ["evals", "eval_" ++ id.value ++ "_smoke", "suite.yaml"]] ++
  id.roles.map (fun role => ["skills", "skill_" ++ role, "SKILL.md"])

def sortedPaths (paths : List Path) : List Path :=
  paths.insertionSort fun p q => "/".intercalate p ≤ "/".intercalate q

inductive SourceType where
  | empty | obsidian | markdown | graphify | software | mixed
  deriving DecidableEq, Repr

def templateBySource : SourceType → TemplateId
  | .empty => .software
  | .software => .software
  | .mixed => .software
  | .obsidian => .research
  | .graphify => .research
  | .markdown => .content

inductive InstallationMode where
  | managed | vendored
  deriving DecidableEq, Repr

structure InstallationRecord where
  createdFiles : List Path
  mergedFiles : List Path

structure PlanIdentity where
  templateId : TemplateId
  filesToCreate : List Path
  conflicts : List Path
  existingRepository : Bool
  mode : InstallationMode
  contextLanguage : String

/-- The interpreter and the machine, the contents of generated files, and the classification of a
target; `rebuilt` are the files of the index, written after the record. -/
structure InstallEnv where
  pythonOk : Bool
  writable : WorkspaceNode → Bool
  primaryType : WorkspaceNode → SourceType
  content : TemplateId → Path → Bytes
  fingerprint : PlanIdentity → String
  genesis : Bytes
  recordBytes : InstallationRecord → Bytes
  parseRecord : Bytes → Option InstallationRecord
  sourceMap : WorkspaceNode → Bytes
  decode : Bytes → Option Text
  encode : Text → Bytes
  rebuilt : List (Path × Bytes)

structure InstallRequest where
  confirm : String
  template : String
  sourceType : String
  mode : String
  contextLanguage : String

variable (env : InstallEnv)

structure Write where
  path : Path
  data : WorkspaceNode → Option Bytes

def Write.run (w : Write) (t : WorkspaceNode) : Option WorkspaceNode :=
  (w.data t).bind fun data => put data w.path t

def parseMode (mode : String) : Except String InstallationMode :=
  if mode = "managed" then .ok .managed
  else if mode = "vendored" then .ok .vendored
  else .error "mode must be 'managed' or 'vendored'"

def templateOf (name : String) : Option TemplateId :=
  if name = "software" then some .software
  else if name = "content" then some .content
  else if name = "research" then some .research
  else none

def resolveTemplate (template sourceType : String) (primary : SourceType) :
    Except String TemplateId :=
  if template ≠ "auto" then
    match templateOf template with
    | some id => .ok id
    | none => .error "Unknown raytsystem template"
  else if sourceType ≠ "auto" then
    match templateOf sourceType with
    | some id => .ok id
    | none => .error "Unknown source template"
  else .ok (templateBySource primary)

variable (t : WorkspaceNode)

def blockers : List String :=
  (if env.pythonOk = true then [] else ["Python 3.12+ is required"]) ++
  (if t.isDirectory = true then
    if env.writable t = true then [] else ["Target directory is not writable"]
  else ["Target directory does not exist"]) ++
  (if (fileAt configPath t).isSome = true then
    ["raytsystem is already initialized here; use `migrate`/`upgrade` instead"]
  else [])

def managedZones : List String := ["_raw", "normalized", "ledger", "inbox", "knowledge"]

def skipIfExists (p : Path) : Bool := p == ["README.md"]

def mergeIfExists (p : Path) : Bool :=
  p == ["AGENTS.md"] || p == ["CLAUDE.md"] || p == ["WORK.md"] || p == [".gitignore"]

inductive FileClass where
  | create | merge | skip | conflict
  deriving DecidableEq, Repr

def classifyFile (id : TemplateId) (t : WorkspaceNode) (p : Path) : FileClass :=
  if linkAt p t = true then .conflict
  else if existsAt p t = false then .create
  else if fileAt p t = some (env.content id p) ∨ skipIfExists p = true then .skip
  else if mergeIfExists p = true then .merge
  else .conflict

def classified (id : TemplateId) (t : WorkspaceNode) (k : FileClass) : List Path :=
  (sortedPaths (templateFiles id)).filter fun p => classifyFile env id t p = k

def planIdentity (id : TemplateId) (mode : InstallationMode) (r : InstallRequest)
    (t : WorkspaceNode) : PlanIdentity where
  templateId := id
  filesToCreate := (sortedPaths (templateFiles id)).filter fun p => existsAt p t = false
  conflicts := (sortedPaths (templateFiles id)).filter fun p =>
    existsAt p t = true ∧ fileAt p t ≠ some (env.content id p)
  existingRepository := match t with
    | .directory names _ => !names.isEmpty
    | _ => false
  mode := mode
  contextLanguage := r.contextLanguage

def checked (r : InstallRequest) (t : WorkspaceNode) : Except String TemplateId := do
  let mode ← parseMode r.mode
  let id ← resolveTemplate r.template r.sourceType (env.primaryType t)
  if blockers env t ≠ [] then .error ("Preflight blocked: " ++ "; ".intercalate (blockers env t))
  else if r.confirm ≠ env.fingerprint (planIdentity env id mode r t) then
    .error ("Confirmation fingerprint does not match the current plan " ++
      "(the workspace changed, or the fingerprint is wrong). Re-run --dry-run.")
  else if managedZones.filter (fun zone => existsAt [zone] t) ≠ [] then
    .error ("Refusing: target already has raytsystem-managed directories: " ++
      ", ".intercalate (managedZones.filter fun zone => existsAt [zone] t))
  else if classified env id t .conflict ≠ [] then
    .error ("Refusing: these raytsystem-owned files already exist and differ: " ++
      ", ".intercalate ((classified env id t .conflict).map fun p => "/".intercalate p))
  else .ok id

def createWrite (id : TemplateId) (p : Path) : Write := ⟨p, fun _ => some (env.content id p)⟩

def mergeWrite (id : TemplateId) (p : Path) : Write where
  path := p
  data t := do
    let existing ← match fileAt p t with
      | some bytes => env.decode bytes
      | none => some []
    let body ← env.decode (env.content id p)
    some (env.encode (mergedText p existing body))

def genesisPaths : List Path := [["ledger", "generations", "genesis.json"], ["ledger", "CURRENT"]]

def sourceMapPath : Path := [".raytsystem", "source-map.json"]

def recordOf (id : TemplateId) (t : WorkspaceNode) : InstallationRecord :=
  ⟨sortedPaths (classified env id t .create ++ genesisPaths ++ [sourceMapPath]).dedup,
    classified env id t .merge⟩

def closingWrites (id : TemplateId) (t : WorkspaceNode) : List Write :=
  [⟨["ledger", "generations", "genesis.json"], fun _ => some env.genesis⟩,
    ⟨["ledger", "CURRENT"], fun _ => some (env.encode "genesis\n".toList)⟩,
    ⟨recordPath, fun _ => some (env.recordBytes (recordOf env id t))⟩,
    ⟨sourceMapPath, fun _ => some (env.sourceMap t)⟩]

def writes (id : TemplateId) (t : WorkspaceNode) : List Write :=
  (classified env id t .create).map (createWrite env id) ++
  (classified env id t .merge).map (mergeWrite env id) ++ closingWrites env id t

def runWrites : List Write → WorkspaceNode → WorkspaceNode × Bool
  | [], t => (t,true)
  | w :: rest, t =>
    match w.run t with
    | none => (t,false)
    | some t' => runWrites rest t'

def rebuildWrites : List Write := env.rebuilt.map fun x => ⟨x.1, fun _ => some x.2⟩

def apply (r : InstallRequest) (t : WorkspaceNode) : Except String TemplateId × WorkspaceNode :=
  match checked env r t with
  | .error e => (.error e,t)
  | .ok id =>
    let written := runWrites (writes env id t) t
    if written.2 = true then (.ok id,(runWrites (rebuildWrites env) written.1).1)
    else (.error "A file cannot be written",written.1)

def directoriesOf (files : List Path) : List Path :=
  ((files.flatMap fun p => p.inits.filter fun q => q ≠ [] ∧ q ≠ p).dedup).insertionSort
    fun p q => ("/".intercalate q).length ≤ ("/".intercalate p).length

def stripBlock (p : Path) : Option WorkspaceNode :=
  match (WorkspaceNode.locate p t).map Prod.snd with
  | some (.file data _) => do
    let existing ← env.decode data
    put (env.encode (strippedText p existing)) p t
  | _ => some t

def uninstall : Option WorkspaceNode := do
  let bytes ← fileAt recordPath t
  let record ← env.parseRecord bytes
  let removed := record.createdFiles.foldl (removeIf regular) t
  let unmerged ← record.mergedFiles.foldlM (stripBlock env) removed
  let cleared := removeIf isFile unmerged recordPath
  some ((directoriesOf record.createdFiles).foldl (removeIf emptyDirectory) cleared)

end RaytSystem.Bootstrap
