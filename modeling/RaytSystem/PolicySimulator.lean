import RaytSystem.BreakerRecovery
import RaytSystem.ExecutionPolicy

/-! The policy simulator beside the runtime gate: which emergency states the simulator
answers as the gate does. -/
namespace RaytSystem.Simulation
open PyText Emergency Execution

inductive WorkspaceMode where
  | none | readOnly | stagingOnly | isolated
  deriving DecidableEq, Repr

inductive NetworkAccess where
  | none | allowlist | unrestricted
  deriving DecidableEq, Repr

structure ExecutionPlan where
  planId : String
  employeeId : String
  taskId : String
  runtimeId : String
  provider : Option String
  workspaceMode : WorkspaceMode
  readRoots : List String
  writeRoots : List String
  networkAccess : NetworkAccess
  networkDestinations : List String
  requestedTools : List String
  requestedSecrets : List String
  potentialSideEffects : List String
  tokenBudget : Option Nat
  /-- The decimal budget in millionths, truncated. -/
  costBudgetMicros : Option Nat
  policySha256 : Sha256
  destinationsNeedNetwork : networkAccess = .none → networkDestinations = []
  writesAreReadable : ∀ root ∈ writeRoots, root ∈ readRoots
  readonlyWritesNothing : workspaceMode = .none ∨ workspaceMode = .readOnly → writeRoots = []
  noWorkspaceReadsNothing : workspaceMode = .none → readRoots = []
  unique : readRoots.Nodup ∧ writeRoots.Nodup ∧ networkDestinations.Nodup ∧
    requestedTools.Nodup ∧ requestedSecrets.Nodup ∧ potentialSideEffects.Nodup

structure SimulatorFeatures where
  policySimulatorEnabled : Bool
  restrictedEncryptionEnabled : Bool
  mcpGovernanceEnabled : Bool
  externalMcpExecutionEnabled : Bool

def knownSideEffects : List String :=
  ["send", "publish", "upload", "delete", "pay", "git_push", "pull_request"]

def readOnlyTools : List String :=
  ["read_catalog", "get_status", "list_tasks", "search_knowledge", "query_graph",
    "catalog_schemas"]

def protectedRoots : List String :=
  ["_raw", "ledger/objects", "ledger/generations", "knowledge/claims", "knowledge/entities",
    "knowledge/sources"]

def stagingWriteRoots : List String := ["ops/staging", ".raytsystem/worktrees"]

def underRoot (path : String) (roots : List String) : Bool :=
  roots.any fun root => path == root || startsWith path (root ++ "/")

def reasonIf (b : Bool) (reason : String) : List String := if b then [reason] else []

variable (plan : ExecutionPlan)

def rootReasons : List String :=
  reasonIf ((plan.readRoots ++ plan.writeRoots).any (underRoot · protectedRoots))
      "protected_workspace_root" ++
    reasonIf ((plan.workspaceMode == .none || plan.workspaceMode == .readOnly) &&
      !plan.writeRoots.isEmpty) "workspace_write_not_allowed" ++
    reasonIf (plan.workspaceMode == .stagingOnly &&
      plan.writeRoots.any (!underRoot · stagingWriteRoots)) "write_outside_staging"

variable (actions : List EmergencyAction)

def runtimeEmergency : List String :=
  reasonIf (actions.contains .disableRuntimeExecution || actions.contains .pauseAllEmployees)
    "emergency_runtime_disabled"

def networkReasons : List String :=
  if plan.networkAccess = .none then []
  else reasonIf (actions.contains .disableNetworkAdapters) "emergency_network_disabled" ++
    reasonIf plan.networkDestinations.isEmpty "network_destination_missing"

def providerReasons : List String :=
  reasonIf (plan.provider.isSome && actions.contains .disableExternalProviders)
    "emergency_provider_disabled"

variable (features : SimulatorFeatures)

def secretReasons : List String :=
  reasonIf (!plan.requestedSecrets.isEmpty && !features.restrictedEncryptionEnabled)
    "secret_provider_unavailable"

def sideEffectReasons : List String :=
  reasonIf (plan.potentialSideEffects.any (!knownSideEffects.contains ·)) "unknown_side_effect"

inductive ToolVerdict where
  | allowed | approval (kind : String) | blocked (reason : String)
  deriving DecidableEq

def toolVerdict (tool : String) : ToolVerdict :=
  if readOnlyTools.contains tool then .allowed
  else if startsWith tool "mcp_" then
    if features.mcpGovernanceEnabled = false then .blocked "mcp_governance_disabled"
    else if features.externalMcpExecutionEnabled = false then .blocked "mcp_catalog_only"
    else .approval "mcp_tool_execution"
  else .approval "tool_execution"

def toolReasons : List String :=
  plan.requestedTools.filterMap fun tool =>
    match toolVerdict features tool with
    | .blocked reason => some reason
    | _ => none

def blockedTools : List String :=
  plan.requestedTools.filter fun tool =>
    match toolVerdict features tool with
    | .blocked _ => true
    | _ => false

def planApprovals : List String :=
  reasonIf (plan.networkAccess != .none) "network_egress" ++
    reasonIf plan.provider.isSome "model_egress" ++
    reasonIf (!plan.requestedSecrets.isEmpty) "secret_decrypt" ++
    plan.potentialSideEffects.filter (knownSideEffects.contains ·) ++
    plan.requestedTools.filterMap fun tool =>
      match toolVerdict features tool with
      | .approval kind => some kind
      | _ => none

inductive SimulationOutcome where
  | allowed | approvalRequired | blocked
  deriving DecidableEq, Repr

structure PolicySimulation where
  outcome : SimulationOutcome
  reasonCodes : List String
  requiredApprovals : List String
  allowedTools : List String
  blockedTools : List String
  deriving DecidableEq

def planReasons (actions : List EmergencyAction) : List String :=
  rootReasons plan ++ networkReasons plan actions ++ providerReasons plan actions ++
    secretReasons plan features ++ sideEffectReasons plan ++ toolReasons plan features

def evaluateExecution (emergencyActions : List EmergencyAction) (grantedApprovalKinds : List String)
    (runtimeExecutionEnabled runtimeAdapterEnabled : Bool)
    (runtimeReasonCodes runtimeRequiredApprovals : List String) : PolicySimulation :=
  let reasons := runtimeReasonCodes ++
    runtimeFeatureReasons runtimeExecutionEnabled runtimeAdapterEnabled ++
    runtimeEmergency emergencyActions ++ planReasons plan features emergencyActions
  let approvals := runtimeRequiredApprovals ++ planApprovals plan features
  let missingApprovals := approvals.filter (!grantedApprovalKinds.contains ·)
  let outcome : SimulationOutcome :=
    if reasons ≠ [] then .blocked
    else if missingApprovals ≠ [] then .approvalRequired
    else .allowed
  { outcome
    reasonCodes := sortedSet reasons
    requiredApprovals := sortedSet missingApprovals
    allowedTools :=
      sortedSet (plan.requestedTools.filter (!(blockedTools plan features).contains ·))
    blockedTools := sortedSet (blockedTools plan features) }

structure SimulatorEnv where
  features : SimulatorFeatures
  policySha256 : Option Sha256
  flags : Option FeatureFlags
  codeGraphEnabled : Bool
  planSha256 : ExecutionPlan → Sha256
  budgetSha256 : ExecutionPlan → Sha256
  now : Execution.Time

inductive SimulatorFault where
  | disabled | configurationUnavailable | stalePolicy | executionConfigUnavailable
  deriving DecidableEq, Repr

def emergencyState : PlatformDatabase → List EmergencyAction × List String
  | .absent => ([], [])
  | .unreadable => ([], ["emergency_state_unavailable"])
  | .ready s => ((listHeads s.emergency (some "active") 100 0).flatMap (·.2.payload.activeActions),
      [])

variable (env : SimulatorEnv)

def simulatedBudget (plan : ExecutionPlan) : Option BudgetPolicy :=
  if plan.tokenBudget = none ∧ plan.costBudgetMicros = none then none
  else some
    { budgetPolicyId := derivedId "budget" (env.budgetSha256 plan)
      tokenLimit := { outputTokens := plan.tokenBudget.getD 0 }
      costLimitMicros := plan.costBudgetMicros }

def runtimePolicyRequest (plan : ExecutionPlan) : ExecutionPolicyRequest where
  payloadSha256 := (env.planSha256 plan).hex
  adapterId := plan.runtimeId
  allowWorkspaceRead := true
  sensitivityPublic := false
  graphCurrent := true
  graphRequired := env.codeGraphEnabled
  employeeId := some plan.employeeId
  taskId := some plan.taskId
  runId := none
  workspaceId := none
  budgetPolicy := simulatedBudget env plan
  budgetUsage := none
  approval := none

def runtimeVerdict (flags : FeatureFlags) (plan : ExecutionPlan) : List String × List String :=
  match evaluateExecutionPolicy (runtimePolicyRequest env plan) flags env.now with
  | (.deny, reasons) => (reasons, [])
  | (.requireApproval, _) => ([], ["private_corpus_egress", "provider_egress", "runtime_execution"])
  | (.allow, _) => ([], [])

variable (db : PlatformDatabase)

def simulate (plan : ExecutionPlan) (grantedApprovalKinds : List String) :
    Except SimulatorFault PolicySimulation :=
  if env.features.policySimulatorEnabled = false then .error .disabled
  else match env.policySha256 with
    | none => .error .configurationUnavailable
    | some sha256 =>
      if plan.policySha256 ≠ sha256 then .error .stalePolicy
      else match env.flags with
        | none => .error .executionConfigUnavailable
        | some flags =>
          let emergency := emergencyState db
          let verdict := runtimeVerdict env flags plan
          .ok (evaluateExecution plan env.features emergency.1 grantedApprovalKinds
            flags.runtimeExecutionEnabled (flags.adapterEnabled plan.runtimeId)
            (emergency.2 ++ verdict.1) verdict.2)

def Allowed (plan : ExecutionPlan) (granted : List String) : Prop :=
  ∃ simulation, simulate env db plan granted = .ok simulation ∧ simulation.outcome = .allowed

def ClearOtherwise (plan : ExecutionPlan) (granted : List String) : Prop :=
  env.features.policySimulatorEnabled = true ∧ env.policySha256 = some plan.policySha256 ∧
    ∃ flags, env.flags = some flags ∧ (runtimeVerdict env flags plan).1 = [] ∧
      runtimeFeatureReasons flags.runtimeExecutionEnabled (flags.adapterEnabled plan.runtimeId) =
        [] ∧
      planReasons plan env.features (emergencyState db).1 = [] ∧
      ∀ kind ∈ (runtimeVerdict env flags plan).2 ++ planApprovals plan env.features,
        kind ∈ granted

def StopSeen (s : PlatformStore) : Prop :=
  ∃ row ∈ listHeads s.emergency (some "active") 100 0,
    .disableRuntimeExecution ∈ row.2.payload.activeActions ∨
      .pauseAllEmployees ∈ row.2.payload.activeActions

def Agreed : PlatformDatabase → Prop
  | .absent => False
  | .unreadable => True
  | .ready s => s.runtimeStopped = true → StopSeen s

theorem reasonIf_eq_nil {b : Bool} {reason : String} : reasonIf b reason = [] ↔ b = false := by
  cases b <;> simp [reasonIf]

variable {granted : List String}

theorem evaluateExecution_allowed {plan : ExecutionPlan} {features : SimulatorFeatures}
    {actions : List EmergencyAction} {execution adapter : Bool} {reasons approvals : List String} :
    (evaluateExecution plan features actions granted execution adapter reasons approvals).outcome =
        .allowed ↔
      (reasons = [] ∧ runtimeFeatureReasons execution adapter = [] ∧
        runtimeEmergency actions = [] ∧ planReasons plan features actions = []) ∧
        ∀ kind ∈ approvals ++ planApprovals plan features, kind ∈ granted := by
  have hmissing : (approvals ++ planApprovals plan features).filter (!granted.contains ·) = [] ↔
      ∀ kind ∈ approvals ++ planApprovals plan features, kind ∈ granted := by
    rw [List.filter_eq_nil_iff]
    simp
  rw [← hmissing]
  simp only [evaluateExecution]
  split
  next h =>
    simp only [reduceCtorEq, false_iff]
    rintro ⟨⟨hreasons, hfeature, hemergency, hplan⟩, _⟩
    exact h (by simp [hreasons, hfeature, hemergency, hplan])
  next h =>
    simp only [ne_eq, not_not, List.append_eq_nil_iff] at h
    obtain ⟨⟨⟨hreasons, hfeature⟩, hemergency⟩, hplan⟩ := h
    split
    next hm => exact iff_of_false (by simp) fun hall => hm hall.2
    next hm => exact iff_of_true rfl ⟨⟨hreasons, hfeature, hemergency, hplan⟩, not_not.mp hm⟩

theorem allowed_iff {env : SimulatorEnv} {db : PlatformDatabase} {plan : ExecutionPlan} :
    Allowed env db plan granted ↔ ClearOtherwise env db plan granted ∧
      (emergencyState db).2 = [] ∧ runtimeEmergency (emergencyState db).1 = [] := by
  constructor
  · rintro ⟨simulation, hsimulate, hallowed⟩
    unfold simulate at hsimulate
    split at hsimulate
    · cases hsimulate
    next henabled =>
      split at hsimulate
      · cases hsimulate
      next sha256 hsha =>
        split at hsimulate
        · cases hsimulate
        next hpolicy =>
          split at hsimulate
          · cases hsimulate
          next flags hflags =>
            cases hsimulate
            obtain ⟨⟨hreasons, hfeature, hemergency, hplan⟩, happrovals⟩ :=
              evaluateExecution_allowed.mp hallowed
            obtain ⟨hunavailable, hverdict⟩ := List.append_eq_nil_iff.mp hreasons
            have hcurrent : env.policySha256 = some plan.policySha256 := by
              rw [hsha, not_not.mp hpolicy]
            exact ⟨⟨by simpa using henabled, hcurrent, flags, hflags, hverdict, hfeature, hplan,
              happrovals⟩, hunavailable, hemergency⟩
  · rintro ⟨⟨henabled, hpolicy, flags, hflags, hverdict, hfeature, hplan, happrovals⟩,
      hunavailable, hemergency⟩
    have hreasons : (emergencyState db).2 ++ (runtimeVerdict env flags plan).1 = [] := by
      rw [hunavailable, hverdict]
      rfl
    refine ⟨_, ?_, evaluateExecution_allowed.mpr
      ⟨⟨hreasons, hfeature, hemergency, hplan⟩, happrovals⟩⟩
    simp [simulate, henabled, hpolicy, hflags]

theorem runtimeEmergency_ready {s : PlatformStore} :
    runtimeEmergency (emergencyState (.ready s)).1 = [] ↔ ¬StopSeen s := by
  rw [runtimeEmergency, reasonIf_eq_nil]
  simp only [emergencyState, Bool.or_eq_false_iff, List.contains_eq_mem, decide_eq_false_iff_not,
    List.mem_flatMap, StopSeen, not_exists, not_and, not_or]
  constructor
  · exact fun h row hrow => ⟨h.1 row hrow, h.2 row hrow⟩
  · exact fun h => ⟨fun row hrow => (h row hrow).1, fun row hrow => (h row hrow).2⟩

/-- The gate lets every plan through that the simulator allows exactly when something else
speaks against the plan, or the simulator sees the stop that the gate sees. -/
theorem simulator_agrees_iff (env : SimulatorEnv) (db : PlatformDatabase) (plan : ExecutionPlan)
    (granted : List String) : (Allowed env db plan granted → assertRuntimeAllowed db = .ok ()) ↔
      (ClearOtherwise env db plan granted → Agreed db) := by
  rw [allowed_iff]
  cases db with
  | absent =>
    have hstopped : ¬assertRuntimeAllowed .absent = .ok () := by simp [assertRuntimeAllowed]
    have hnone : (emergencyState .absent).2 = [] ∧
        runtimeEmergency (emergencyState .absent).1 = [] := ⟨rfl, rfl⟩
    simp only [hnone, and_true, Agreed, hstopped]
  | unreadable => simp [emergencyState, Agreed]
  | ready s =>
    have hread : (emergencyState (.ready s)).2 = [] := rfl
    rw [runtimeEmergency_ready, assertRuntimeAllowed_ready]
    simp only [hread, true_and, Agreed]
    constructor
    · intro h hclear hstopped
      by_contra hseen
      rw [h ⟨hclear, hseen⟩] at hstopped
      cases hstopped
    · rintro h ⟨hclear, hseen⟩
      by_contra hstopped
      exact hseen (h hclear (by simpa using hstopped))

def budgetStopState : EmergencyState := {stoppedState with activeActions := [.emergencyBudgetStop]}

def budgetStopStore : PlatformStore where
  emergency := PyDict.empty.set emergencyGlobal ⟨1, budgetStopState, "active", 0⟩
  breakers := .empty
  receipts := .empty
  events := []

def simulatorEnv : SimulatorEnv where
  features := ⟨true, false, false, false⟩
  policySha256 := some sampleDigest
  flags := some ⟨true, true, false, fun adapterId => adapterId == "adapter_fake"⟩
  codeGraphEnabled := true
  planSha256 := fun _ => sampleDigest
  budgetSha256 := fun _ => sampleDigest
  now := 0

def stagingPlan : ExecutionPlan where
  planId := "plan_simulated"
  employeeId := "employee_dev"
  taskId := "task_demo"
  runtimeId := "adapter_fake"
  provider := none
  workspaceMode := .stagingOnly
  readRoots := ["ops/staging"]
  writeRoots := ["ops/staging"]
  networkAccess := .none
  networkDestinations := []
  requestedTools := []
  requestedSecrets := []
  potentialSideEffects := []
  tokenBudget := none
  costBudgetMicros := none
  policySha256 := sampleDigest
  destinationsNeedNetwork := fun _ => rfl
  writesAreReadable := fun _ h => h
  readonlyWritesNothing := by decide
  noWorkspaceReadsNothing := by decide
  unique := by decide

/-- Under a budget stop the simulator allows a plan and the gate stops the runtime. -/
theorem budget_stop_ignored :
    Allowed simulatorEnv (.ready budgetStopStore) stagingPlan [] ∧
      assertRuntimeAllowed (.ready budgetStopStore) ≠ .ok () := by
  have hstopped : budgetStopStore.runtimeStopped = true := by decide +kernel
  constructor
  · exact ⟨_, rfl, by decide +kernel⟩
  · rw [Ne, assertRuntimeAllowed_ready, hstopped]
    simp

section
open List
variable {plan : ExecutionPlan} {features : SimulatorFeatures}
variable {actions : List EmergencyAction} (more : List EmergencyAction)

theorem reasonIf_mono {b b' : Bool} {reason : String} (h : b = true → b' = true) :
    reasonIf b reason ⊆ reasonIf b' reason := by
  cases b with
  | false => exact nil_subset _
  | true => rw [h rfl]; exact Subset.refl _

theorem planReasons_mono :
    planReasons plan features actions ⊆ planReasons plan features (actions ++ more) := by
  have hnetwork : networkReasons plan actions ⊆ networkReasons plan (actions ++ more) := by
    unfold networkReasons
    split
    · exact Subset.refl _
    · intro reason hreason
      rw [mem_append] at hreason ⊢
      exact hreason.imp_left (@reasonIf_mono _ _ _ (by simp +contextual) reason)
  have hprovider : providerReasons plan actions ⊆ providerReasons plan (actions ++ more) :=
    reasonIf_mono (by simp +contextual)
  intro reason hreason
  simp only [planReasons, mem_append] at hreason ⊢
  grind

/-- Further emergencies and missing approvals never open what was closed. -/
theorem simulation_monotone (plan : ExecutionPlan) (features : SimulatorFeatures)
    (actions more : List EmergencyAction) (granted extra : List String)
    (execution adapter : Bool) (reasons approvals : List String) :
    let before := evaluateExecution plan features actions (granted ++ extra) execution adapter
      reasons approvals
    let after := evaluateExecution plan features (actions ++ more) granted execution adapter
      reasons approvals
    (after.outcome = .allowed → before.outcome = .allowed) ∧
      (before.outcome = .blocked → after.outcome = .blocked) ∧
      before.reasonCodes ⊆ after.reasonCodes ∧
      before.requiredApprovals ⊆ after.requiredApprovals := by
  have hplan := @planReasons_mono plan features actions more
  have hruntime : runtimeEmergency actions ⊆ runtimeEmergency (actions ++ more) :=
    reasonIf_mono (by simp only [contains_append, Bool.or_eq_true]; tauto)
  have hreasons : reasons ++ runtimeFeatureReasons execution adapter ++
      runtimeEmergency actions ++ planReasons plan features actions ⊆
        reasons ++ runtimeFeatureReasons execution adapter ++
          runtimeEmergency (actions ++ more) ++ planReasons plan features (actions ++ more) := by
    intro reason hreason
    simp only [mem_append] at hreason ⊢
    exact hreason.imp (Or.imp_right (@hruntime reason)) (@hplan reason)
  have hmissing : (approvals ++ planApprovals plan features).filter
      (!(granted ++ extra).contains ·) ⊆
        (approvals ++ planApprovals plan features).filter (!granted.contains ·) :=
    (monotone_filter_right _ fun kind => by simp +contextual).subset
  refine ⟨?_, ?_, fun reason hreason => mem_sortedSet.mpr (hreasons (mem_sortedSet.mp hreason)),
    fun kind hkind => mem_sortedSet.mpr (hmissing (mem_sortedSet.mp hkind))⟩
  all_goals
    simp only [evaluateExecution]
    grind [subset_nil]
end

end RaytSystem.Simulation
