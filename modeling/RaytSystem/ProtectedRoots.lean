import RaytSystem.PolicySimulator
import RaytSystem.CheckpointRules

/-! Which plans the policy simulator blocks among those that reach into a protected root. -/
namespace RaytSystem.Simulation
open PyText Emergency Execution Checkpoints List

def IsRelativePath (path : String) : Prop := ∃ value, relativePath value = .ok path

def Contains (outer inner : String) : Prop := pathParts outer <+: pathParts inner

theorem IsRelativePath.parts {path : String} (h : IsRelativePath path) :
    pathParts path ≠ [] ∧ path = joinParts (pathParts path) := by
  obtain ⟨value, hvalue⟩ := h
  obtain ⟨first, rest, rfl, -, hparts⟩ := relativePath_ok hvalue
  rw [pathParts_join (by simp) fun part hpart =>
    ⟨(hparts part hpart).1, (hparts part hpart).2.1, (hparts part hpart).2.2.1⟩]
  exact ⟨by simp, rfl⟩

theorem toList_joinParts_append {front back : List (List Char)} (hfront : front ≠ [])
    (hback : back ≠ []) : (joinParts (front ++ back)).toList =
      (joinParts front).toList ++ '/' :: (joinParts back).toList := by
  simp only [joinParts, String.toList_ofList]
  induction front with
  | nil => exact absurd rfl hfront
  | cons part rest ih =>
    cases rest with
    | nil =>
      obtain ⟨next, more, rfl⟩ := exists_cons_of_ne_nil hback
      simp [intercalate_cons_cons]
    | cons next more =>
      have hrest := ih (by simp)
      simp only [cons_append] at hrest ⊢
      rw [intercalate_cons_cons, intercalate_cons_cons, hrest]
      simp

theorem pathParts_append_slash {path : String} {front back : List Char}
    (h : path.toList = front ++ '/' :: back) :
    pathParts path = pathParts (String.ofList front) ++ pathParts (String.ofList back) := by
  rw [pathParts, pathParts, pathParts, h, String.toList_ofList, String.toList_ofList,
    splitOn_append_cons_self, filter_append]

theorem under_iff {path root : String} (hpath : IsRelativePath path) (hroot : IsRelativePath root) :
    (path == root || startsWith path (root ++ "/")) = true ↔ Contains root path := by
  obtain ⟨hne, hroot⟩ := hroot.parts
  have hpath := hpath.parts.2
  have hslash : (root ++ "/").toList = root.toList ++ ['/'] := by simp
  rw [Bool.or_eq_true, beq_iff_eq, startsWith, isPrefixOf_iff_prefix, hslash]
  constructor
  · rintro (rfl | ⟨rest, hrest⟩)
    · exact prefix_rfl
    · have htext : path.toList = root.toList ++ '/' :: rest := by rw [← hrest]; simp
      have hparts := pathParts_append_slash htext
      rw [String.ofList_toList] at hparts
      rw [Contains, hparts]
      exact prefix_append _ _
  · rintro ⟨rest, hrest⟩
    by_cases hempty : rest = []
    · left
      rw [hpath, hroot, ← hrest, hempty, append_nil]
    · right
      have hjoined := toList_joinParts_append hne hempty
      rw [hrest, ← hpath, ← hroot] at hjoined
      exact ⟨(joinParts rest).toList, by rw [hjoined]; simp⟩

section

theorem underRoot_iff {path : String} {roots : List String} (hpath : IsRelativePath path)
    (hroots : ∀ root ∈ roots, IsRelativePath root) :
    underRoot path roots = true ↔ ∃ root ∈ roots, Contains root path := by
  rw [underRoot, any_eq_true]
  constructor
  · rintro ⟨root, hmem, hunder⟩
    exact ⟨root, hmem, (under_iff hpath (hroots root hmem)).mp hunder⟩
  · rintro ⟨root, hmem, hcontains⟩
    exact ⟨root, hmem, (under_iff hpath (hroots root hmem)).mpr hcontains⟩

theorem protectedRoots_relative : ∀ root ∈ protectedRoots, IsRelativePath root := by
  have hself : ∀ root ∈ protectedRoots, relativePath root = .ok root := by decide
  exact fun root hroot => ⟨root, hself root hroot⟩

theorem stagingWriteRoots_relative : ∀ root ∈ stagingWriteRoots, IsRelativePath root := by
  have hself : ∀ root ∈ stagingWriteRoots, relativePath root = .ok root := by
    decide
  exact fun root hroot => ⟨root, hself root hroot⟩

def RootsRelative (plan : ExecutionPlan) : Prop :=
  ∀ root ∈ plan.readRoots ++ plan.writeRoots, IsRelativePath root

def Overlaps (plan : ExecutionPlan) : Prop :=
  ∃ root ∈ plan.readRoots ++ plan.writeRoots, ∃ guarded ∈ protectedRoots,
    Contains guarded root ∨ Contains root guarded

def ReachesInto (plan : ExecutionPlan) : Prop :=
  ∃ root ∈ plan.readRoots ++ plan.writeRoots, ∃ guarded ∈ protectedRoots, Contains guarded root

def BlockedOtherwise (plan : ExecutionPlan) (features : SimulatorFeatures)
    (actions : List EmergencyAction) (execution adapter : Bool) (reasonCodes : List String) : Prop :=
  reasonCodes ≠ [] ∨ execution = false ∨ adapter = false ∨
    (.disableRuntimeExecution ∈ actions ∨ .pauseAllEmployees ∈ actions) ∨
    (plan.workspaceMode = .stagingOnly ∧
      ∃ root ∈ plan.writeRoots, ∀ staging ∈ stagingWriteRoots, ¬Contains staging root) ∨
    (plan.networkAccess ≠ .none ∧
      (.disableNetworkAdapters ∈ actions ∨ plan.networkDestinations = [])) ∨
    (plan.provider ≠ none ∧ .disableExternalProviders ∈ actions) ∨
    (plan.requestedSecrets ≠ [] ∧ features.restrictedEncryptionEnabled = false) ∨
    (∃ effect ∈ plan.potentialSideEffects, effect ∉ knownSideEffects) ∨
    ∃ tool ∈ plan.requestedTools, startsWith tool "mcp_" = true ∧
      (features.mcpGovernanceEnabled = false ∨ features.externalMcpExecutionEnabled = false)

theorem reasonIf_ne_nil {b : Bool} {reason : String} : reasonIf b reason ≠ [] ↔ b = true := by
  cases b <;> simp [reasonIf]

variable {plan : ExecutionPlan}

theorem guarded_iff (hroots : RootsRelative plan) :
    (plan.readRoots ++ plan.writeRoots).any (underRoot · protectedRoots) = true ↔
      ReachesInto plan := by
  rw [any_eq_true]
  exact exists_congr fun root => and_congr_right fun hroot =>
    underRoot_iff (hroots root hroot) protectedRoots_relative

theorem outside_iff (hroots : RootsRelative plan) :
    plan.writeRoots.any (!underRoot · stagingWriteRoots) = true ↔
      ∃ root ∈ plan.writeRoots, ∀ staging ∈ stagingWriteRoots, ¬Contains staging root := by
  rw [any_eq_true]
  refine exists_congr fun root => and_congr_right fun hroot => ?_
  have hunder := underRoot_iff (hroots root (mem_append_right _ hroot))
    stagingWriteRoots_relative
  rw [Bool.not_eq_true', ← Bool.not_eq_true, hunder]
  simp only [not_exists, not_and]

theorem rootReasons_ne_nil (hroots : RootsRelative plan) :
    rootReasons plan ≠ [] ↔ ReachesInto plan ∨ plan.workspaceMode = .stagingOnly ∧
      ∃ root ∈ plan.writeRoots, ∀ staging ∈ stagingWriteRoots, ¬Contains staging root := by
  have hreadonly : ((plan.workspaceMode == .none || plan.workspaceMode == .readOnly) &&
      !plan.writeRoots.isEmpty) = false := by
    by_cases hmode : plan.workspaceMode = .none ∨ plan.workspaceMode = .readOnly
    · rw [plan.readonlyWritesNothing hmode]
      simp
    · push Not at hmode
      simp [hmode.1, hmode.2]
  rw [rootReasons, hreadonly]
  simp only [ne_eq, append_eq_nil_iff, not_and_or]
  rw [← ne_eq, ← ne_eq, ← ne_eq, reasonIf_ne_nil, reasonIf_ne_nil, reasonIf_ne_nil,
    guarded_iff hroots, Bool.and_eq_true, outside_iff hroots, beq_iff_eq]
  simp

variable {features : SimulatorFeatures}

theorem toolReasons_ne_nil :
    toolReasons plan features ≠ [] ↔ ∃ tool ∈ plan.requestedTools, startsWith tool "mcp_" = true ∧
      (features.mcpGovernanceEnabled = false ∨ features.externalMcpExecutionEnabled = false) := by
  have hreadonly : ∀ tool ∈ readOnlyTools, startsWith tool "mcp_" = false := by decide
  have hverdict : ∀ tool, (∃ reason, toolVerdict features tool = .blocked reason) ↔
      startsWith tool "mcp_" = true ∧
      (features.mcpGovernanceEnabled = false ∨ features.externalMcpExecutionEnabled = false) := by
    intro tool
    unfold toolVerdict
    split
    next hmem =>
      have hno := hreadonly tool (by simpa using hmem)
      simp [hno]
    next =>
      split
      next hmcp =>
        cases features.mcpGovernanceEnabled <;> cases features.externalMcpExecutionEnabled <;>
          simp [hmcp]
      next hmcp => simp [hmcp]
  have hnil : toolReasons plan features = [] ↔ ∀ tool ∈ plan.requestedTools,
      ¬∃ reason, toolVerdict features tool = .blocked reason := by
    rw [toolReasons, filterMap_eq_nil_iff]
    refine forall₂_congr fun tool _ => ?_
    cases toolVerdict features tool <;> simp
  rw [Ne, hnil]
  simp only [hverdict]
  push Not
  rfl

variable {actions : List EmergencyAction}

theorem planReasons_ne_nil (hroots : RootsRelative plan) :
    planReasons plan features actions ≠ [] ↔ ReachesInto plan ∨
      (plan.workspaceMode = .stagingOnly ∧
        ∃ root ∈ plan.writeRoots, ∀ staging ∈ stagingWriteRoots, ¬Contains staging root) ∨
      (plan.networkAccess ≠ .none ∧
        (.disableNetworkAdapters ∈ actions ∨ plan.networkDestinations = [])) ∨
      (plan.provider ≠ none ∧ .disableExternalProviders ∈ actions) ∨
      (plan.requestedSecrets ≠ [] ∧ features.restrictedEncryptionEnabled = false) ∨
      (∃ effect ∈ plan.potentialSideEffects, effect ∉ knownSideEffects) ∨
      ∃ tool ∈ plan.requestedTools, startsWith tool "mcp_" = true ∧
        (features.mcpGovernanceEnabled = false ∨ features.externalMcpExecutionEnabled = false) := by
  have hnetwork : networkReasons plan actions ≠ [] ↔ plan.networkAccess ≠ .none ∧
      (.disableNetworkAdapters ∈ actions ∨ plan.networkDestinations = []) := by
    unfold networkReasons
    split
    next h => simp [h]
    next h => simp [h, reasonIf_eq_nil, ← Bool.not_eq_true, imp_iff_not_or]
  have hprovider : providerReasons plan actions ≠ [] ↔
      plan.provider ≠ none ∧ .disableExternalProviders ∈ actions := by
    rw [providerReasons, reasonIf_ne_nil]
    simp [Option.isSome_iff_ne_none]
  have hsecret : secretReasons plan features ≠ [] ↔
      plan.requestedSecrets ≠ [] ∧ features.restrictedEncryptionEnabled = false := by
    rw [secretReasons, reasonIf_ne_nil]
    simp
  have heffect : sideEffectReasons plan ≠ [] ↔
      ∃ effect ∈ plan.potentialSideEffects, effect ∉ knownSideEffects := by
    rw [sideEffectReasons, reasonIf_ne_nil]
    simp
  rw [← hnetwork, ← hprovider, ← hsecret, ← heffect, ← toolReasons_ne_nil, ← or_assoc,
    ← rootReasons_ne_nil hroots]
  simp only [planReasons, ne_eq, append_eq_nil_iff, not_and_or, or_assoc]

theorem gather_grounds (a b c d r t : Prop) :
    ((a ∨ b ∨ c) ∨ d) ∨ r ∨ t ↔ r ∨ a ∨ b ∨ c ∨ d ∨ t := by
  tauto

theorem evaluateExecution_blocked {granted : List String} {execution adapter : Bool}
    {reasonCodes approvals : List String} (hroots : RootsRelative plan) :
    (evaluateExecution plan features actions granted execution adapter reasonCodes
        approvals).outcome = .blocked ↔
      ReachesInto plan ∨ BlockedOtherwise plan features actions execution adapter reasonCodes := by
  have hreasons : (evaluateExecution plan features actions granted execution adapter reasonCodes
      approvals).outcome = .blocked ↔
      reasonCodes ++ runtimeFeatureReasons execution adapter ++ runtimeEmergency actions ++
        planReasons plan features actions ≠ [] := by
    simp only [evaluateExecution]
    split
    next h => exact iff_of_true rfl h
    next h =>
      refine iff_of_false ?_ h
      split <;> simp
  have hfeature : runtimeFeatureReasons execution adapter ≠ [] ↔
      execution = false ∨ adapter = false := by
    cases execution <;> cases adapter <;> simp [runtimeFeatureReasons]
  have hemergency : runtimeEmergency actions ≠ [] ↔
      .disableRuntimeExecution ∈ actions ∨ .pauseAllEmployees ∈ actions := by
    rw [runtimeEmergency, reasonIf_ne_nil]
    simp
  rw [hreasons]
  simp only [ne_eq, append_eq_nil_iff, not_and_or]
  rw [← ne_eq, ← ne_eq, ← ne_eq, ← ne_eq, hfeature, hemergency, planReasons_ne_nil hroots,
    BlockedOtherwise]
  exact gather_grounds _ _ _ _ _ _

theorem contains_protected {root : String} (hroot : IsRelativePath root) :
    (∃ guarded ∈ protectedRoots, Contains root guarded) ↔
      root = "ledger" ∨ root = "knowledge" ∨ root ∈ protectedRoots := by
  have hinits : ∀ guarded ∈ protectedRoots, ∀ parts ∈ (pathParts guarded).inits, parts ≠ [] →
      joinParts parts = "ledger" ∨ joinParts parts = "knowledge" ∨
        joinParts parts ∈ protectedRoots := by decide
  have hcontained : ∀ outer ∈ "ledger" :: "knowledge" :: protectedRoots,
      ∃ guarded ∈ protectedRoots, (pathParts outer).isPrefixOf (pathParts guarded) = true := by
    decide
  obtain ⟨hne, hjoin⟩ := hroot.parts
  constructor
  · rintro ⟨guarded, hguarded, hcontains⟩
    have hparts := hinits guarded hguarded _ ((mem_inits _ _).mpr hcontains) hne
    rwa [← hjoin] at hparts
  · intro h
    obtain ⟨guarded, hguarded, hprefix⟩ := hcontained root (by simpa using h)
    exact ⟨guarded, hguarded, isPrefixOf_iff_prefix.mp hprefix⟩

theorem overlaps_iff (hroots : RootsRelative plan) :
    Overlaps plan ↔ ReachesInto plan ∨ "ledger" ∈ plan.readRoots ∨ "knowledge" ∈ plan.readRoots := by
  have hlisted : ∀ root, root ∈ plan.readRoots ++ plan.writeRoots ↔ root ∈ plan.readRoots := by
    intro root
    rw [mem_append]
    exact or_iff_left_of_imp (plan.writesAreReadable root)
  constructor
  · rintro ⟨root, hroot, guarded, hguarded, hin | hout⟩
    · exact Or.inl ⟨root, hroot, guarded, hguarded, hin⟩
    · rcases (contains_protected (hroots root hroot)).mp ⟨guarded, hguarded, hout⟩ with
        rfl | rfl | hself
      · exact Or.inr (Or.inl ((hlisted _).mp hroot))
      · exact Or.inr (Or.inr ((hlisted _).mp hroot))
      · exact Or.inl ⟨root, hroot, root, hself, prefix_rfl⟩
  · have hwhole : ∀ root ∈ plan.readRoots, root = "ledger" ∨ root = "knowledge" → Overlaps plan := by
      intro root hroot hname
      have hmem := (hlisted root).mpr hroot
      have hname : root = "ledger" ∨ root = "knowledge" ∨ root ∈ protectedRoots :=
        hname.elim Or.inl fun h => Or.inr (Or.inl h)
      obtain ⟨guarded, hguarded, hcontains⟩ := (contains_protected (hroots root hmem)).mpr hname
      exact ⟨root, hmem, guarded, hguarded, Or.inr hcontains⟩
    rintro (⟨root, hroot, guarded, hguarded, hin⟩ | hledger | hknowledge)
    · exact ⟨root, hroot, guarded, hguarded, Or.inl hin⟩
    · exact hwhole _ hledger (Or.inl rfl)
    · exact hwhole _ hknowledge (Or.inr rfl)

/-- A plan that overlaps a protected root is blocked unless it names `ledger` or `knowledge` as a
whole and nothing else speaks against it. -/
theorem protected_blocked_iff (plan : ExecutionPlan) (features : SimulatorFeatures)
    (actions : List EmergencyAction) (granted : List String) (execution adapter : Bool)
    (reasonCodes approvals : List String) (hroots : RootsRelative plan) :
    (Overlaps plan → (evaluateExecution plan features actions granted execution adapter reasonCodes
        approvals).outcome = .blocked) ↔
      ("ledger" ∈ plan.readRoots ∨ "knowledge" ∈ plan.readRoots →
        ReachesInto plan ∨
          BlockedOtherwise plan features actions execution adapter reasonCodes) := by
  rw [overlaps_iff hroots, evaluateExecution_blocked hroots]
  constructor
  · exact fun h hwhole => h (Or.inr hwhole)
  · rintro h (hinto | hwhole)
    · exact Or.inl hinto
    · exact h hwhole
end

theorem noDestinations (_ : NetworkAccess.none = .none) : ([] : List String) = [] := rfl

def ledgerPlan : ExecutionPlan where
  planId := "plan_ledger"
  employeeId := "employee_dev"
  taskId := "task_demo"
  runtimeId := "adapter_fake"
  provider := none
  workspaceMode := .isolated
  readRoots := ["ledger"]
  writeRoots := []
  networkAccess := .none
  networkDestinations := []
  requestedTools := []
  requestedSecrets := []
  potentialSideEffects := []
  tokenBudget := none
  costBudgetMicros := none
  policySha256 := sampleDigest
  destinationsNeedNetwork := noDestinations
  writesAreReadable := nofun
  readonlyWritesNothing := fun _ => rfl
  noWorkspaceReadsNothing := by decide
  unique := by decide

theorem ledgerPlan_relative : RootsRelative ledgerPlan := by
  intro root hroot
  obtain rfl : root = "ledger" := by simpa [ledgerPlan] using hroot
  exact ⟨"ledger", by decide⟩

def simulateLedger (actions : List EmergencyAction) : PolicySimulation :=
  evaluateExecution ledgerPlan ⟨true, false, false, false⟩ actions [] true true [] []

theorem ledgerPlan_overlaps : Overlaps ledgerPlan := by
  have hcontains : (pathParts "ledger").isPrefixOf (pathParts "ledger/objects") = true := by
    decide
  refine ⟨"ledger", ?_, "ledger/objects", ?_, Or.inr (List.isPrefixOf_iff_prefix.mp hcontains)⟩
  · exact mem_cons_self
  · exact mem_cons_of_mem _ mem_cons_self

/-- The plan contains the object store of the ledger and is allowed. -/
theorem ledger_plan_allowed : RootsRelative ledgerPlan ∧ Overlaps ledgerPlan ∧
    (simulateLedger []).outcome = .allowed :=
  ⟨ledgerPlan_relative, ledgerPlan_overlaps, by decide⟩

/-- An emergency stop blocks the plan all the same. -/
theorem ledger_plan_stopped :
    (simulateLedger [.disableRuntimeExecution]).outcome = .blocked := by
  have hstopped : BlockedOtherwise ledgerPlan ⟨true, false, false, false⟩
      [.disableRuntimeExecution] true true [] :=
    Or.inr (Or.inr (Or.inr (Or.inl (Or.inl List.mem_cons_self))))
  have hblocked := (protected_blocked_iff ledgerPlan ⟨true, false, false, false⟩
    [.disableRuntimeExecution] [] true true [] [] ledgerPlan_relative).mpr fun _ => Or.inr hstopped
  exact hblocked ledgerPlan_overlaps

end RaytSystem.Simulation
