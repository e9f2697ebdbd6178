import RaytSystem.CheckpointRules

/-! The command lines of the runtime adapters: what `build_command` builds of a request, and the
grammar that `validate_safe_command_argv` holds a vector to. -/
namespace RaytSystem.Runtime
open PyText Checkpoints

def isAlnum (c : Char) : Bool :=
  ('A' ≤ c && c ≤ 'Z') || ('a' ≤ c && c ≤ 'z') || ('0' ≤ c && c ≤ '9')

def isName (further : List Char) (value : String) : Bool :=
  match value.toList with
  | [] => false
  | first :: rest =>
    isAlnum first && decide (rest.length ≤ 127) &&
      rest.all fun c => isAlnum c || further.contains c

def isModel : String → Bool := isName ['.', '_', ':', '/', '-']

def isSession : String → Bool := isName ['.', '_', ':', '-']

def isWorkspaceComponent : String → Bool := isName ['.', '_', '-']

def pathName (value : String) : String := String.ofList ((pathParts value).getLast?.getD [])

def isAbsolute (value : String) : Bool := startsWith value "/"

inductive WorkspaceMode where
  | workspaceRootReadonly | taskWorktree | approvedExternalRoot
  deriving DecidableEq, Repr

structure FilesystemPolicy where
  mode : WorkspaceMode
  allowStagedWrite : Bool
  readonlyWritesNothing : mode = .workspaceRootReadonly → allowStagedWrite = false

attribute [local instance] chars_lawful in
def safeRelativePath (value : String) : Except String (List (List Char)) :=
  let parts := pathParts value
  if value = "" ∨ Char.ofNat 0 ∈ value.toList ∨ '\\' ∈ value.toList then
    .error "Runtime cwd token is malformed"
  else if isAbsolute value = true ∨ ['.', '.'] ∈ parts then
    .error "Runtime cwd token must be a normalized relative path"
  else if (if parts = [] then "." else joinParts parts) ≠ value then
    .error "Runtime cwd token must use canonical POSIX form"
  else .ok parts

/-- What `ManagedCwd` refuses of a token. The components of an accepted one stay below the managed
root, so the last check of the source holds. -/
def tokenFault (mode : WorkspaceMode) (token : String) : Option String :=
  if mode = .workspaceRootReadonly ∧ token = "." then none
  else if mode = .approvedExternalRoot then
    some "External runtime roots require a separate approved adapter"
  else match safeRelativePath token with
    | .error text => some text
    | .ok parts =>
      if parts.length < 3 ∨ parts.take 2 ≠ [".raytsystem".toList, "workspaces".toList] then
        some "Task cwd must stay below .raytsystem/workspaces"
      else if isWorkspaceComponent (String.ofList (parts.getD 2 [])) = false then
        some "Workspace ID in cwd token is invalid"
      else none

structure ManagedCwd where
  /-- What `os.path.abspath` made of the root. -/
  projectRoot : String
  token : String
  mode : WorkspaceMode
  rootAbsolute : isAbsolute projectRoot = true
  reviewed : tokenFault mode token = none

def ManagedCwd.path (cwd : ManagedCwd) : String :=
  if cwd.token = "." then cwd.projectRoot
  else if cwd.projectRoot.toList.getLast? = some '/' then cwd.projectRoot ++ cwd.token
  else cwd.projectRoot ++ "/" ++ cwd.token

structure RuntimeRequest where
  prompt : String
  cwd : ManagedCwd
  filesystemPolicy : FilesystemPolicy
  model : Option String
  providerSessionId : Option String

def maxPromptBytes : Nat := 1024 * 1024

variable (request : RuntimeRequest)

def RuntimeRequest.fault : Option String :=
  if request.prompt.toList.all isSpace = true ∨ Char.ofNat 0 ∈ request.prompt.toList then
    some "Runtime prompt must be non-empty and contain no NUL"
  else if maxPromptBytes < request.prompt.utf8ByteSize then
    some "Runtime prompt exceeds the bounded stdin limit"
  else if request.cwd.mode ≠ request.filesystemPolicy.mode then
    some "Runtime cwd and filesystem policy modes do not match"
  else if request.filesystemPolicy.mode = .approvedExternalRoot then
    some "External roots are unsupported by local CLI adapters"
  else if request.model.all isModel = false then some "Runtime model identifier is invalid"
  else if request.providerSessionId.all isSession = false then
    some "Provider session identifier is invalid"
  else none

def fakeAdapter : String := "adapter_fake"
def codexAdapter : String := "adapter_codex_local"
def claudeAdapter : String := "adapter_claude_code"

def forbiddenRuntimeFlags : List String :=
  ["--allow-dangerously-skip-permissions", "--dangerously-bypass-approvals-and-sandbox",
    "--dangerously-bypass-hook-trust", "--dangerously-skip-permissions"]

def expectedExecutable (adapterId : String) : Option String :=
  if adapterId = claudeAdapter then some "claude"
  else if adapterId = codexAdapter then some "codex"
  else if adapterId = fakeAdapter then some "raytsystem-fake-runtime"
  else none

def isArgument (item : String) : Bool :=
  item != "" && !item.toList.contains (Char.ofNat 0) && decide (item.length ≤ 4096)

def validateCodexTail (tail : List String) : Except String Unit :=
  if tail.take 1 = ["--model"] ∧ (tail.length < 3 ∨ isModel (tail.getD 1 "") = false) then
    .error "Codex model argument is invalid"
  else
    let tail := if tail.take 1 = ["--model"] then tail.drop 2 else tail
    if tail = ["-"] then .ok ()
    else if tail.length = 3 ∧ tail.getD 0 "" = "resume" ∧ isSession (tail.getD 1 "") = true ∧
        tail.getD 2 "" = "-" then .ok ()
    else .error "Codex invocation tail is not allowlisted"

def validateCodexArgv (argv : List String) : Except String Unit :=
  if (argv.drop 1).take 3 ≠ ["exec", "--json", "--sandbox"] ∨ argv.length < 11 then
    .error "Codex argv prefix is not allowlisted"
  else if argv.getD 4 "" ∉ ["read-only", "workspace-write"] then
    .error "Codex sandbox mode is not allowlisted"
  else if argv.getD 5 "" ≠ "-C" ∨ isAbsolute (argv.getD 6 "") = false then
    .error "Codex cwd binding is invalid"
  else if (argv.drop 7).take 3 ≠
      ["--ignore-user-config", "-c", "shell_environment_policy.inherit=none"] then
    .error "Codex safety configuration is incomplete"
  else validateCodexTail (argv.drop 10)

def claudeRequired : List String :=
  ["--print", "--bare", "--output-format", "stream-json", "--input-format", "text",
    "--permission-mode", "dontAsk", "--disable-slash-commands", "--strict-mcp-config",
    "--mcp-config", "\x7b\"mcpServers\":\x7b\x7d\x7d", "--tools"]

def validateClaudeTail (tail : List String) : Except String Unit :=
  if tail.take 1 = ["--model"] ∧ (tail.length < 2 ∨ isModel (tail.getD 1 "") = false) then
    .error "Claude model argument is invalid"
  else
    let tail := if tail.take 1 = ["--model"] then tail.drop 2 else tail
    if tail.take 1 = ["--resume"] ∧ (tail.length ≠ 2 ∨ isSession (tail.getD 1 "") = false) then
      .error "Claude session argument is invalid"
    else
      let tail := if tail.take 1 = ["--resume"] then [] else tail
      if tail ≠ [] then .error "Claude invocation tail is not allowlisted"
      else .ok ()

def validateClaudeArgv (argv : List String) : Except String Unit :=
  if (argv.drop 1).take 13 ≠ claudeRequired ∨ argv.length < 15 then
    .error "Claude argv prefix is not allowlisted"
  else if argv.getD 14 "" ∉ ["Read,Glob,Grep", "Read,Glob,Grep,Edit,Write"] then
    .error "Claude tool allowlist is invalid"
  else validateClaudeTail (argv.drop 15)

def validateSafeCommandArgv (adapterId : String) (argv : List String) : Except String Unit :=
  match expectedExecutable adapterId with
  | none => .error "Unknown runtime adapter command plan"
  | some expected =>
    match argv with
    | [] => .error "Runtime executable does not match the adapter"
    | executable :: rest =>
      if pathName executable ≠ expected then
        .error "Runtime executable does not match the adapter"
      else if (executable :: rest).all isArgument = false then
        .error "Runtime argv contains an invalid item"
      else if (executable :: rest).any (forbiddenRuntimeFlags.contains ·) = true then
        .error "Dangerous runtime flags are forbidden"
      else if adapterId = fakeAdapter then
        if executable :: rest ≠ [executable, "--json"] then
          .error "Fake runtime argv is not allowlisted"
        else .ok ()
      else if adapterId = codexAdapter then validateCodexArgv (executable :: rest)
      else if adapterId = claudeAdapter then validateClaudeArgv (executable :: rest)
      else .error "Runtime adapter has no command grammar"

def fakeCommand : List String := ["raytsystem-fake-runtime", "--json"]

def codexSandbox : String :=
  if request.cwd.mode = .taskWorktree ∧ request.filesystemPolicy.allowStagedWrite = true then
    "workspace-write"
  else "read-only"

def codexCommand (executable : String) (request : RuntimeRequest) : List String :=
  let argv := [executable, "exec", "--json", "--sandbox", codexSandbox request, "-C",
    request.cwd.path, "--ignore-user-config", "-c", "shell_environment_policy.inherit=none"]
  let argv := match request.model with
    | some model => argv ++ ["--model", model]
    | none => argv
  match request.providerSessionId with
  | none => argv ++ ["-"]
  | some sessionId => argv ++ ["resume", sessionId, "-"]

def claudeTools : String :=
  if request.filesystemPolicy.allowStagedWrite = true then "Read,Glob,Grep,Edit,Write"
  else "Read,Glob,Grep"

def claudeCommand (executable : String) (request : RuntimeRequest) : List String :=
  let argv := executable :: claudeRequired ++ [claudeTools request]
  let argv := match request.model with
    | some model => argv ++ ["--model", model]
    | none => argv
  match request.providerSessionId with
  | none => argv
  | some sessionId => argv ++ ["--resume", sessionId]

inductive Adapter where
  | fake | codex | claude
  deriving DecidableEq, Repr

def Adapter.id : Adapter → String
  | fake => fakeAdapter
  | codex => codexAdapter
  | claude => claudeAdapter

def buildCommand (adapter : Adapter) (resolved : Option String) (request : RuntimeRequest) :
    Except String (List String) :=
  match adapter, resolved with
  | .fake, _ => plan fakeAdapter fakeCommand
  | .codex, none => .error "Codex executable is unavailable"
  | .codex, some executable => plan codexAdapter (codexCommand executable request)
  | .claude, none => .error "Claude executable is unavailable"
  | .claude, some executable => plan claudeAdapter (claudeCommand executable request)
where
  plan (adapterId : String) (argv : List String) : Except String (List String) :=
    match validateSafeCommandArgv adapterId argv with
    | .ok _ => .ok argv
    | .error text => .error text

end RaytSystem.Runtime
