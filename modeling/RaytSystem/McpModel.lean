import RaytSystem.ExceptRules
import RaytSystem.JsonText
import RaytSystem.PyText

/-! The governed catalog of MCP servers: discovery, the life of a server revision, policies, and
the checks before a tool is run. In a sequence of calls the head that a call appends to is the
one it has read, so a table is known by its heads. Texts are in their canonical form; digests
and revision ids are of any types. -/
namespace RaytSystem.Mcp
open JsonText

inductive ServerState where
  | discovered | quarantined | validated | approved | enabled | disabled | degraded | blocked
  deriving DecidableEq, Repr

inductive ToolPolicy where
  | blocked | catalogOnly | readOnly | approvalRequired | enabled
  deriving DecidableEq, Repr

structure ToolDefinition where
  toolId : String
  serverId : String
  name : String
  description : String
  inputSchemaSha256 : String
  outputSchemaSha256 : Option String
  policy : ToolPolicy
  timeoutMs : Nat
  maxInputBytes : Nat
  maxOutputBytes : Nat
  deriving DecidableEq

structure ResourceDefinition where
  resourceId : String
  serverId : String
  catalogOnly : Bool
  deriving DecidableEq

structure PromptDefinition where
  promptId : String
  serverId : String
  catalogOnly : Bool
  deriving DecidableEq

structure ServerDefinition where
  serverId : String
  source : String
  version : String
  packageSha256 : String
  transport : String
  executable : Option String
  url : Option String
  publisher : String
  licenseExpression : String
  toolIds : List String
  resourceIds : List String
  promptIds : List String
  environmentRequirements : List String
  filesystemRequirements : List String
  networkDestinations : List String
  secretIds : List String
  sensitivity : String
  trustClass : String
  enabled : Bool
  deriving DecidableEq

structure ServerRevision (δ ρ : Type) where
  revisionId : ρ
  serverId : String
  definitionSha256 : δ
  state : ServerState
  approvedBy : Option String
  approvalId : Option String

structure Policy (ρ : Type) where
  policyId : String
  serverRevisionId : ρ
  toolPolicies : PyDict String ToolPolicy
  networkAllowlist : List String
  readRoots : List String
  writeRoots : List String
  secretIds : List String
  policySha256 : String

structure ToolRecord where
  tool : ToolDefinition
  inputSchema : Value

abbrev Bytes := List UInt8

structure McpEnv (δ ρ : Type) where
  governance : Bool
  externalExecution : Bool
  sha256Hex : Bytes → String
  schemaSha256 : Value → String
  definitionSha256 : ServerDefinition → δ
  revisionId : String → δ → ServerState → ρ
  policySha256 : Policy ρ → String
  identifier : String → Option String
  token : String → Bool
  blocks : Bytes → Bool

structure McpWorld (δ ρ : Type) where
  servers : String → Option ServerDefinition
  tools : String → Option ToolRecord
  revisions : ρ → Option (ServerRevision δ ρ)
  policies : String → Option (Policy ρ)
  admitted : List ServerDefinition
  approvedTools : ρ → Option (String → Option ToolRecord)

def McpWorld.empty {δ ρ : Type} : McpWorld δ ρ :=
  ⟨fun _ => none, fun _ => none, fun _ => none, fun _ => none, [], fun _ => none⟩

def schemaKeys : List String :=
  ["$schema", "$id", "type", "title", "description", "properties", "required", "items", "enum",
    "const", "minimum", "maximum", "minLength", "maxLength", "additionalProperties", "oneOf",
    "anyOf", "allOf"]

def unsafeKeys : List String := ["$ref", "$dynamicRef", "contentEncoding", "contentMediaType"]

inductive Reading where
  | value | schema | properties | composition

def validateSchema : Nat → Bool → Value → Nat → Option Nat
  | 0, _, _, _ => none
  | depth + 1, schema, value, nodes =>
    if nodes + 1 > 2000 then none
    else match value with
    | .map entries =>
      if entries.length > 256 then none
      else if schema = true ∧ entries.any (fun kv => !schemaKeys.contains kv.1) = true then none
      else entries.foldlM (fun n kv =>
        if unsafeKeys.contains kv.1 = true then none
        else if schema = true ∧ kv.1 = "properties" then
          match kv.2 with
          | .map properties => properties.foldlM (fun n p => validateSchema depth true p.2 n) n
          | _ => none
        else if schema = true ∧ (kv.1 = "items" ∨ kv.1 = "additionalProperties") then
          match kv.2 with
          | .map item => validateSchema depth true (.map item) n
          | item => validateSchema depth false item n
        else if schema = true ∧ (kv.1 = "oneOf" ∨ kv.1 = "anyOf" ∨ kv.1 = "allOf") then
          match kv.2 with
          | .list children => children.foldlM (fun n c => validateSchema depth true c n) n
          | _ => none
        else validateSchema depth false kv.2 n) (nodes + 1)
    | .list items =>
      if items.length > 1000 then none
      else items.foldlM (fun n item => validateSchema depth schema item n) (nodes + 1)
    | _ => some (nodes + 1)

def validSchema (value : Value) : Bool := (validateSchema 25 true value 0).isSome

section
variable {δ ρ : Type} (env : McpEnv δ ρ)

structure Discovery where
  definition : ServerDefinition
  tools : List (ToolDefinition × Value)
  observedPackageBytes : Bytes
  resources : List ResourceDefinition
  prompts : List PromptDefinition
  actorId : String

def executableChar (c : Char) : Bool :=
  ('a' ≤ c && c ≤ 'z') || ('A' ≤ c && c ≤ 'Z') || ('0' ≤ c && c ≤ '9') ||
    ['_', '.', '@', '/', '-'].contains c

def unsafeExecutable (executable : Option String) : Bool :=
  match executable with
  | none => true
  | some text =>
    let chars := text.toList
    !(chars.all executableChar && 1 ≤ chars.length && chars.length ≤ 255) ||
      chars.head? == some '/' || (chars.splitOn '/').contains ['.', '.']

def sameSet (xs ys : List String) : Bool := xs.all ys.contains && ys.all xs.contains

def reasonIf (b : Bool) (reason : String) : List String := if b = true then [reason] else []

def toolReasons (serverId : String) (x : ToolDefinition × Value) : List String :=
  reasonIf (x.1.serverId != serverId) "tool_server_mismatch" ++
    reasonIf (!validSchema x.2) "malicious_schema" ++
    reasonIf (env.schemaSha256 x.2 != x.1.inputSchemaSha256) "tool_schema_hash_mismatch" ++
    reasonIf (x.1.policy != .catalogOnly) "unsafe_initial_tool_policy"

variable (c : Discovery)

def quarantineReasons : List String :=
  let d := c.definition
  reasonIf (env.sha256Hex c.observedPackageBytes != d.packageSha256) "package_hash_mismatch" ++
    reasonIf (d.transport == "stdio" && unsafeExecutable d.executable) "unsafe_executable" ++
    reasonIf (!sameSet (c.tools.map fun x => x.1.toolId) d.toolIds) "tool_manifest_mismatch" ++
    c.tools.flatMap (toolReasons env d.serverId) ++
    reasonIf (!sameSet (c.resources.map (·.resourceId)) d.resourceIds)
      "resource_manifest_mismatch" ++
    c.resources.flatMap (fun r => reasonIf (r.serverId != d.serverId) "resource_server_mismatch" ++
      reasonIf (!r.catalogOnly) "unsafe_initial_resource_policy") ++
    reasonIf (!sameSet (c.prompts.map (·.promptId)) d.promptIds) "prompt_manifest_mismatch" ++
    c.prompts.flatMap (fun p => reasonIf (p.serverId != d.serverId) "prompt_server_mismatch" ++
      reasonIf (!p.catalogOnly) "unsafe_initial_prompt_policy")

def Discovery.quarantined : Bool := !(quarantineReasons env c).isEmpty

def Discovery.state : ServerState :=
  if c.quarantined env = true then .quarantined else .discovered

def Discovery.revision : ServerRevision δ ρ where
  revisionId := env.revisionId c.definition.serverId (env.definitionSha256 c.definition)
    (c.state env)
  serverId := c.definition.serverId
  definitionSha256 := env.definitionSha256 c.definition
  state := c.state env
  approvedBy := none
  approvalId := none

def appendTools (tools : String → Option ToolRecord) :
    List (ToolDefinition × Value) → String → Option ToolRecord
  | [] => tools
  | x :: rest => appendTools (Function.update tools x.1.toolId (some ⟨x.1, x.2⟩)) rest

variable [DecidableEq ρ]

def recordDiscovery (w : McpWorld δ ρ) : McpWorld δ ρ :=
  let revision := c.revision env
  {w with
    servers := Function.update w.servers c.definition.serverId (some c.definition)
    tools := appendTools w.tools c.tools
    revisions := Function.update w.revisions revision.revisionId (some revision)
    admitted := if c.quarantined env = true then w.admitted else c.definition :: w.admitted}

def withEvent {α : Type} (actorId : String) (checked : Except String (α × McpWorld δ ρ))
    (w : McpWorld δ ρ) : Except String α × McpWorld δ ρ :=
  match checked with
  | .error e => (.error e,w)
  | .ok (a,w') => if env.token actorId = true then (.ok a,w') else (.error "Invalid actor ID",w')

def discover (w : McpWorld δ ρ) : Except String (ServerRevision δ ρ) × McpWorld δ ρ :=
  if env.governance = false then (.error "MCP governance is disabled",w)
  else
    let revision := c.revision env
    match w.revisions revision.revisionId with
    | some _ => (.ok revision,w)
    | none => withEvent env c.actorId (.ok (revision,recordDiscovery env c w)) w
end

section
variable {δ ρ : Type} (env : McpEnv δ ρ)

def requires (b : Prop) [Decidable b] (message : String) : Except String Unit :=
  if b then .ok () else .error message

def fitOptional (text : Option String) : Except String (Option String) :=
  match text with
  | none => .ok none
  | some t => match env.identifier t with
    | some t' => .ok (some t')
    | none => .error "String should match pattern"

def readRevision (id : ρ) (w : McpWorld δ ρ) : Except String (ServerRevision δ ρ) :=
  match w.revisions id with
  | none => .error "MCP revision does not exist"
  | some r => do
    let approvedBy ← fitOptional env r.approvedBy
    let approvalId ← fitOptional env r.approvalId
    .ok {r with approvedBy := approvedBy, approvalId := approvalId}

variable [DecidableEq δ] (revision : ServerRevision δ ρ)

def pinnedDefinition (w : McpWorld δ ρ) : Except String ServerDefinition :=
  match w.servers revision.serverId with
  | none => .error "MCP server record is unavailable"
  | some definition =>
    if env.definitionSha256 definition = revision.definitionSha256 then .ok definition
    else .error "MCP server definition does not match the pinned revision"

def catalogedTool (toolId : String) (w : McpWorld δ ρ) : Except String ToolDefinition :=
  match w.tools toolId with
  | none => .error "MCP tool is not cataloged"
  | some record =>
    if env.schemaSha256 record.inputSchema = record.tool.inputSchemaSha256 then .ok record.tool
    else .error "MCP tool schema hash pinning failed"

variable [DecidableEq ρ]

def putRevision (id : ρ) (r : ServerRevision δ ρ) (w : McpWorld δ ρ) : McpWorld δ ρ :=
  {w with revisions := Function.update w.revisions id (some r)}

def requireEnabled : Except String Unit :=
  requires (env.governance = true) "MCP governance is disabled"

def validateChecked (id : ρ) (w : McpWorld δ ρ) :
    Except String (ServerRevision δ ρ × McpWorld δ ρ) := do
  requireEnabled env
  let revision ← readRevision env id w
  requires (revision.state ≠ .quarantined) "Quarantined MCP revisions cannot validate"
  requires (revision.state ≠ .blocked) "Blocked MCP revisions cannot validate"
  if revision.state = .discovered then
    let validated := {revision with state := .validated}
    .ok (validated,putRevision id validated w)
  else .ok (revision,w)

def validateRevision (id : ρ) (w : McpWorld δ ρ) :
    Except String (ServerRevision δ ρ) × McpWorld δ ρ :=
  match validateChecked env id w with
  | .error e => (.error e,w)
  | .ok (r,w') => (.ok r,w')

def approveChecked (id : ρ) (approvedBy approvalId : String) (authorised : Bool)
    (w : McpWorld δ ρ) : Except String (ServerRevision δ ρ × McpWorld δ ρ) := do
  requireEnabled env
  let revision ← readRevision env id w
  requires (revision.state = .validated) "Only validated MCP revisions may be approved"
  requires (authorised = true) "MCP approval authority is invalid"
  let approved := {revision with
    state := .approved, approvedBy := some approvedBy, approvalId := some approvalId}
  let w := {w with approvedTools := Function.update w.approvedTools id (some w.tools)}
  .ok (approved,putRevision id approved w)

def approveCatalog (id : ρ) (approvedBy approvalId : String) (authorised : Bool)
    (w : McpWorld δ ρ) : Except String (ServerRevision δ ρ) × McpWorld δ ρ :=
  withEvent env approvedBy (approveChecked env id approvedBy approvalId authorised w) w

def transition (state : ServerState) (reason : String) (w : McpWorld δ ρ) :
    Except String (ServerRevision δ ρ × McpWorld δ ρ) := do
  requires (reason.toList.any fun c => !PyText.isSpace c) "MCP state transitions require a reason"
  let updated := {revision with state := state}
  .ok (updated,putRevision revision.revisionId updated w)

structure Move where
  target : ServerState
  sources : List ServerState
  message : String

def disabling : Move :=
  ⟨.disabled, [.enabled, .degraded], "Only enabled MCP revisions may be disabled"⟩

def degrading : Move := ⟨.degraded, [.enabled], "Only enabled MCP revisions may degrade"⟩

def blocking : Move :=
  ⟨.blocked, [.discovered, .quarantined, .validated, .approved, .enabled, .disabled, .degraded,
    .blocked], ""⟩

def moveChecked (m : Move) (id : ρ) (reason : String) (w : McpWorld δ ρ) :
    Except String (ServerRevision δ ρ × McpWorld δ ρ) := do
  requireEnabled env
  let revision ← readRevision env id w
  requires (revision.state ∈ m.sources) m.message
  transition revision m.target reason w

def disableServer (id : ρ) (actorId reason : String) (w : McpWorld δ ρ) :
    Except String (ServerRevision δ ρ) × McpWorld δ ρ :=
  withEvent env actorId (moveChecked env disabling id reason w) w

def markDegraded (id : ρ) (actorId reason : String) (w : McpWorld δ ρ) :
    Except String (ServerRevision δ ρ) × McpWorld δ ρ :=
  withEvent env actorId (moveChecked env degrading id reason w) w

def blockServer (id : ρ) (actorId reason : String) (w : McpWorld δ ρ) :
    Except String (ServerRevision δ ρ) × McpWorld δ ρ :=
  withEvent env actorId (moveChecked env blocking id reason w) w

def enableChecked (id : ρ) (reason : String) (w : McpWorld δ ρ) :
    Except String (ServerRevision δ ρ × McpWorld δ ρ) := do
  requireEnabled env
  let revision ← readRevision env id w
  requires (revision.state = .approved) "Only approved MCP revisions may be enabled"
  requires (revision.approvedBy.isSome ∧ revision.approvalId.isSome)
    "MCP enablement requires a recorded approval"
  let _ ← pinnedDefinition env revision w
  transition revision .enabled reason w

def enableServer (id : ρ) (actorId reason : String) (w : McpWorld δ ρ) :
    Except String (ServerRevision δ ρ) × McpWorld δ ρ :=
  withEvent env actorId (enableChecked env id reason w) w
end

section
variable {δ ρ : Type} [DecidableEq δ] [DecidableEq ρ] (env : McpEnv δ ρ)

def checkTools (serverId : String) (w : McpWorld δ ρ) : List String → Except String Unit
  | [] => .ok ()
  | toolId :: rest => do
    let tool ← catalogedTool env toolId w
    requires (tool.serverId = serverId) "MCP policy tool binding is invalid"
    checkTools serverId w rest

def policyChecked (p : Policy ρ) (w : McpWorld δ ρ) : Except String (Policy ρ × McpWorld δ ρ) := do
  requireEnabled env
  requires (p.policySha256 = env.policySha256 p) "MCP policy hash is invalid"
  requires (env.externalExecution = true ∨
      p.toolPolicies.entries.all (fun kv => kv.2 == .catalogOnly) = true)
    "External MCP execution is disabled; catalog_only is required"
  let revision ← readRevision env p.serverRevisionId w
  requires (revision.state = .approved ∨ revision.state = .enabled)
    "MCP policy references an unapproved revision"
  let definition ← pinnedDefinition env revision w
  requires (sameSet p.toolPolicies.keys definition.toolIds = true)
    "MCP policy tool set does not match the revision"
  checkTools env definition.serverId w definition.toolIds
  requires (env.externalExecution = true ∨ (p.networkAllowlist = [] ∧ p.readRoots = [] ∧
      p.writeRoots = [] ∧ p.secretIds = []))
    "Catalog-only MCP policy cannot request capabilities"
  .ok (p,{w with policies := Function.update w.policies p.policyId (some p)})

def setPolicy (p : Policy ρ) (actorId : String) (w : McpWorld δ ρ) :
    Except String (Policy ρ) × McpWorld δ ρ :=
  withEvent env actorId (policyChecked env p w) w

structure InvokeArgs where
  policyId : String
  toolId : String
  inputBytes : Bytes

def checkInvoke (a : InvokeArgs) (w : McpWorld δ ρ) :
    Except String (ServerRevision δ ρ × ToolDefinition) := do
  requireEnabled env
  requires (env.externalExecution = true)
    "External MCP execution is disabled; servers remain catalog_only"
  match w.policies a.policyId with
  | none => .error "MCP policy does not exist"
  | some p =>
    requires (p.policySha256 = env.policySha256 p) "MCP policy hash is invalid"
    let revision ← readRevision env p.serverRevisionId w
    requires (revision.state = .enabled) "Only enabled MCP servers may invoke tools"
    let _ ← pinnedDefinition env revision w
    requires (p.toolPolicies.get a.toolId = some .enabled)
      "MCP tool policy does not permit invocation"
    let tool ← catalogedTool env a.toolId w
    requires (tool.serverId = revision.serverId) "MCP tool does not belong to the policy server"
    requires (a.inputBytes.length ≤ tool.maxInputBytes) "MCP input exceeds the per-tool limit"
    .ok (revision,tool)

structure Invocation where
  toolId : String
  output : Bytes
  redacted : Bool
  truncated : Bool
  succeeded : Bool
  deriving DecidableEq

def redactOutput (output : Bytes) : Except String (Bytes × Bool) := do
  requires (output.length ≤ 4 * 1024 * 1024) "MCP output exceeds the global limit"
  if env.blocks output = true then .ok ("[REDACTED]".toUTF8.toList,true) else .ok (output,false)

def finishInvocation (tool : ToolDefinition) (toolId : String) (output : Bytes)
    (elapsedMs : Nat) : Except String Invocation := do
  let (bounded,redacted) ← redactOutput env (output.take tool.maxOutputBytes)
  let truncated := decide (output.length > tool.maxOutputBytes)
  .ok ⟨toolId, bounded, redacted || truncated, truncated, decide (elapsedMs ≤ tool.timeoutMs)⟩

def invoke (a : InvokeArgs) (runner : Bytes → Except String (Bytes × Nat)) (w : McpWorld δ ρ) :
    Except String Invocation := do
  let (_,tool) ← checkInvoke env a w
  let (output,elapsedMs) ← runner a.inputBytes
  finishInvocation env tool a.toolId output elapsedMs
end

end RaytSystem.Mcp
