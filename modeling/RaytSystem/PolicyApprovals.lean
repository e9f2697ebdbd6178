import RaytSystem.ExecutionPolicy

/-! `evaluate_execution_policy` for both kinds of approval: what an approval is bound to, and which
gates deny. -/
namespace RaytSystem.Execution

structure ApprovalRecord where
  approvalId : String
  /-- The decision is `APPROVE`. -/
  approves : Bool
  action : String
  targetId : String
  artifactSha256 : String
  destination : Option String
  scope : List String
  approvedAt : Time
  expiresAt : Time
  deriving DecidableEq

inductive PolicyApproval where
  | record (approval : ApprovalRecord)
  | execution (approval : ExecutionApproval)
  deriving DecidableEq

structure TargetedRequest where
  targetId : String
  payloadSha256 : String
  adapterId : String
  allowWorkspaceRead : Bool
  sensitivityPublic : Bool
  graphCurrent : Bool
  graphRequired : Bool
  employeeId : Option String
  taskId : Option String
  runId : Option String
  workspaceId : Option String
  budgetPolicy : Option BudgetPolicy
  budgetUsage : Option BudgetUsage
  approval : Option PolicyApproval
  scheduledWake : Bool := false

variable (request : TargetedRequest)

def ApprovalRecord.isValidFor (approval : ApprovalRecord) (action targetId artifactSha256 : String)
    (at_ : Time) (destination : Option String) : Bool :=
  approval.approves && approval.action == action && approval.targetId == targetId &&
    approval.artifactSha256 == artifactSha256 && approval.destination == destination &&
    decide (approval.approvedAt ≤ at_) && decide (at_ < approval.expiresAt)

def PolicyApproval.scope : PolicyApproval → List String
  | record approval => approval.scope
  | execution approval => approval.scope

def TargetedRequest.requiredScope : List String :=
  if request.sensitivityPublic then ["provider_egress", "runtime_execution"]
  else ["private_corpus_egress", "provider_egress", "runtime_execution"]

def approvalValidFor (approval : PolicyApproval) (request : TargetedRequest) (destination : String)
    (requiredScope : List String) (at_ : Time) : Bool :=
  if requiredScope.all (approval.scope.contains ·) = false then false
  else match approval with
    | .record approval =>
      approval.isValidFor "execute_runtime" request.targetId request.payloadSha256 at_
        (some destination)
    | .execution approval =>
      approval.action == "execute_runtime" && approval.payloadSha256 == request.payloadSha256 &&
        approval.destination == some destination && approval.employeeId == request.employeeId &&
        approval.taskId == request.taskId && approval.runId == request.runId &&
        approval.workspaceId == request.workspaceId && decide (approval.approvedAt ≤ at_) &&
        decide (at_ < approval.expiresAt)

def evaluatePolicy (flags : FeatureFlags) (at_ : Time) : PolicyOutcome × List String :=
  let runtimeReasons := runtimeFeatureReasons flags.runtimeExecutionEnabled
    (flags.adapterEnabled request.adapterId)
  if runtimeReasons ≠ [] then (.deny, runtimeReasons)
  else if flags.digitalEmployeesEnabled = false then (.deny, ["digital_employees_disabled"])
  else if flags.adapterEnabled request.adapterId = false then
    (.deny, ["runtime_adapter_disabled"])
  else if request.scheduledWake = true ∧ flags.scheduledHeartbeatsEnabled = false then
    (.deny, ["scheduled_heartbeats_disabled"])
  else if request.graphRequired = true ∧ request.graphCurrent = false then
    (.deny, ["code_graph_not_current"])
  else if request.allowWorkspaceRead = false then (.deny, ["workspace_read_not_granted"])
  else if (request.budgetPolicy.elim false fun p => budgetExhausted p request.budgetUsage) then
    (.deny, ["budget_exhausted"])
  else match providerDestination request.adapterId with
    | none => (.allow, ["local_deterministic_adapter"])
    | some destination =>
      match request.approval with
      | none => (.requireApproval, ["provider_egress_approval_required"])
      | some approval =>
        if approvalValidFor approval request destination request.requiredScope at_ = false then
          (.deny, ["provider_egress_approval_invalid"])
        else (.allow, ["scoped_provider_egress_approved"])

section

def GateCloses (request : TargetedRequest) (flags : FeatureFlags) : Prop :=
  flags.runtimeExecutionEnabled = false ∨ flags.adapterEnabled request.adapterId = false ∨
    flags.digitalEmployeesEnabled = false ∨
    (request.scheduledWake = true ∧ flags.scheduledHeartbeatsEnabled = false) ∨
    (request.graphRequired = true ∧ request.graphCurrent = false) ∨
    request.allowWorkspaceRead = false ∨
    ∃ policy, request.budgetPolicy = some policy ∧
      budgetExhausted policy request.budgetUsage = true

def BoundTo (request : TargetedRequest) (destination : String) (at_ : Time) : PolicyApproval → Prop
  | .record approval => approval.approves = true ∧ approval.action = "execute_runtime" ∧
      approval.targetId = request.targetId ∧ approval.artifactSha256 = request.payloadSha256 ∧
      approval.destination = some destination ∧
      approval.approvedAt ≤ at_ ∧ at_ < approval.expiresAt
  | .execution approval => approval.action = "execute_runtime" ∧
      approval.payloadSha256 = request.payloadSha256 ∧ approval.destination = some destination ∧
      approval.employeeId = request.employeeId ∧ approval.taskId = request.taskId ∧
      approval.runId = request.runId ∧ approval.workspaceId = request.workspaceId ∧
      approval.approvedAt ≤ at_ ∧ at_ < approval.expiresAt

def InForce (request : TargetedRequest) (destination : String) (at_ : Time)
    (approval : PolicyApproval) : Prop :=
  (∀ scope ∈ request.requiredScope, scope ∈ approval.scope) ∧
    BoundTo request destination at_ approval

variable {approval : PolicyApproval} {request : TargetedRequest} {at_ : Time}

theorem approvalValidFor_iff {destination : String} :
    approvalValidFor approval request destination request.requiredScope at_ = true ↔
      InForce request destination at_ approval := by
  have hscope : request.requiredScope.all (approval.scope.contains ·) = true ↔
      ∀ scope ∈ request.requiredScope, scope ∈ approval.scope := by
    simp [List.all_eq_true]
  unfold approvalValidFor
  split
  next h =>
    refine iff_of_false (by simp) fun hforce => ?_
    rw [hscope.mpr hforce.1] at h
    cases h
  next h =>
    have hall := hscope.mp (Bool.eq_true_of_not_eq_false h)
    rw [InForce, and_iff_right hall]
    cases approval with
    | record approval => simp [BoundTo, ApprovalRecord.isValidFor, and_assoc]
    | execution approval => simp [BoundTo, and_assoc]

theorem runtimeFeatureReasons_ne_nil {execution adapter : Bool} :
    runtimeFeatureReasons execution adapter ≠ [] ↔ execution = false ∨ adapter = false := by
  cases execution <;> cases adapter <;> simp [runtimeFeatureReasons]

theorem budget_gate :
    (request.budgetPolicy.elim false fun p => budgetExhausted p request.budgetUsage) = true ↔
      ∃ policy, request.budgetPolicy = some policy ∧
        budgetExhausted policy request.budgetUsage = true := by
  cases request.budgetPolicy <;> simp

variable {flags : FeatureFlags}

theorem evaluatePolicy_closed (h : GateCloses request flags) (at_ : Time) :
    (evaluatePolicy request flags at_).1 = .deny := by
  simp only [evaluatePolicy]
  split
  · rfl
  next hruntime =>
    split
    · rfl
    next hemployees =>
      split
      · rfl
      next hadapter =>
        split
        · rfl
        next hwake =>
          split
          · rfl
          next hgraph =>
            split
            · rfl
            next hread =>
              split
              · rfl
              next hbudget =>
                rw [runtimeFeatureReasons_ne_nil, not_or] at hruntime
                rw [budget_gate] at hbudget
                rcases h with h | h | h | h | h | h | h
                · exact absurd h hruntime.1
                · exact absurd h hadapter
                · exact absurd h hemployees
                · exact absurd h hwake
                · exact absurd h hgraph
                · exact absurd h hread
                · exact absurd h hbudget

theorem evaluatePolicy_open (h : ¬GateCloses request flags) (at_ : Time) :
    evaluatePolicy request flags at_ =
      match providerDestination request.adapterId with
      | none => (.allow, ["local_deterministic_adapter"])
      | some destination =>
        match request.approval with
        | none => (.requireApproval, ["provider_egress_approval_required"])
        | some approval =>
          if approvalValidFor approval request destination request.requiredScope at_ = false then
            (.deny, ["provider_egress_approval_invalid"])
          else (.allow, ["scoped_provider_egress_approved"]) := by
  simp only [GateCloses, not_or] at h
  obtain ⟨hexecution, hadapter, hemployees, hwake, hgraph, hread, hbudget⟩ := h
  have hruntime : ¬runtimeFeatureReasons flags.runtimeExecutionEnabled
      (flags.adapterEnabled request.adapterId) ≠ [] := by
    rw [runtimeFeatureReasons_ne_nil]
    exact not_or_intro hexecution hadapter
  rw [← budget_gate] at hbudget
  simp only [evaluatePolicy]
  rw [if_neg hruntime, if_neg hemployees, if_neg hadapter, if_neg hwake, if_neg hgraph,
    if_neg hread, if_neg hbudget]

theorem evaluatePolicy_allow {destination : String}
    (hdestination : providerDestination request.adapterId = some destination) :
    (evaluatePolicy request flags at_).1 = .allow ↔ ¬GateCloses request flags ∧
      ∃ approval, request.approval = some approval ∧ InForce request destination at_ approval := by
  by_cases hgate : GateCloses request flags
  · rw [evaluatePolicy_closed hgate]
    simp [hgate]
  · rw [evaluatePolicy_open hgate, hdestination, and_iff_right hgate]
    cases request.approval with
    | none => simp
    | some approval =>
      simp only [Option.some.injEq, exists_eq_left']
      rw [← approvalValidFor_iff]
      split
      next h => simp [h]
      next h => simpa using h

theorem evaluatePolicy_deny :
    (evaluatePolicy request flags at_).1 = .deny ↔ GateCloses request flags ∨
      ∃ destination approval, providerDestination request.adapterId = some destination ∧
        request.approval = some approval ∧ ¬InForce request destination at_ approval := by
  by_cases hgate : GateCloses request flags
  · exact iff_of_true (evaluatePolicy_closed hgate at_) (Or.inl hgate)
  · rw [evaluatePolicy_open hgate, or_iff_right hgate]
    cases providerDestination request.adapterId with
    | none => simp
    | some destination =>
      cases request.approval with
      | none => simp
      | some approval =>
        simp only [Option.some.injEq, exists_and_left, exists_eq_left']
        rw [← approvalValidFor_iff]
        split
        next h => simp [h]
        next h => simpa using h

theorem providerDestination_some {adapterId destination : String}
    (h : providerDestination adapterId = some destination) :
    (adapterId = "adapter_codex_local" ∧ destination = "provider:openai") ∨
      (adapterId = "adapter_claude_code" ∧ destination = "provider:anthropic") := by
  unfold providerDestination at h
  split at h
  next hcodex => exact Or.inl ⟨hcodex, (Option.some.inj h).symm⟩
  next =>
    split at h
    next hclaude => exact Or.inr ⟨hclaude, (Option.some.inj h).symm⟩
    next => cases h

theorem providerDestination_inj {a b destination : String}
    (ha : providerDestination a = some destination) (hb : providerDestination b = some destination) :
    a = b := by
  have hapart : ¬"provider:openai" = "provider:anthropic" := by decide
  rcases providerDestination_some ha with ⟨rfl, rfl⟩ | ⟨rfl, rfl⟩
  · rcases providerDestination_some hb with ⟨rfl, -⟩ | ⟨-, hd⟩
    · rfl
    · exact absurd hd hapart
  · rcases providerDestination_some hb with ⟨-, hd⟩ | ⟨rfl, -⟩
    · exact absurd hd.symm hapart
    · rfl

def SameBound (first second : TargetedRequest) : PolicyApproval → Prop
  | .record _ => first.targetId = second.targetId
  | .execution _ => first.employeeId = second.employeeId ∧ first.taskId = second.taskId ∧
      first.runId = second.runId ∧ first.workspaceId = second.workspaceId

theorem inForce_same {first second : TargetedRequest} {d d' : String} {t t' : Time}
    (h : InForce first d t approval) (h' : InForce second d' t' approval) :
    first.payloadSha256 = second.payloadSha256 ∧ d = d' ∧ SameBound first second approval := by
  obtain ⟨-, h⟩ := h
  obtain ⟨-, h'⟩ := h'
  cases approval with
  | record approval =>
    obtain ⟨-, -, htarget, hpayload, hdestination, -⟩ := h
    obtain ⟨-, -, htarget', hpayload', hdestination', -⟩ := h'
    refine ⟨hpayload.symm.trans hpayload', ?_, htarget.symm.trans htarget'⟩
    exact Option.some.inj (hdestination.symm.trans hdestination')
  | execution approval =>
    obtain ⟨-, hpayload, hdestination, hemployee, htask, hrun, hworkspace, -⟩ := h
    obtain ⟨-, hpayload', hdestination', hemployee', htask', hrun', hworkspace', -⟩ := h'
    refine ⟨hpayload.symm.trans hpayload', ?_, hemployee.symm.trans hemployee',
      htask.symm.trans htask', hrun.symm.trans hrun', hworkspace.symm.trans hworkspace'⟩
    exact Option.some.inj (hdestination.symm.trans hdestination')

/-- A provider is reached only under an approval in force, which binds what its kind records, and a
closed gate denies. -/
theorem provider_approval_bound :
    (∀ (request : TargetedRequest) (flags : FeatureFlags) (at_ : Time) (destination : String),
      providerDestination request.adapterId = some destination →
      (evaluatePolicy request flags at_).1 = .allow →
      ∃ approval, request.approval = some approval ∧
        InForce request destination at_ approval) ∧
    (∀ (first second : TargetedRequest) (flags flags' : FeatureFlags) (at_ at' : Time)
      (approval : PolicyApproval), first.approval = some approval →
      second.approval = some approval → (providerDestination first.adapterId).isSome →
      (providerDestination second.adapterId).isSome →
      (evaluatePolicy first flags at_).1 = .allow → (evaluatePolicy second flags' at').1 = .allow →
      first.payloadSha256 = second.payloadSha256 ∧ first.adapterId = second.adapterId ∧
        SameBound first second approval) ∧
    ∀ (request : TargetedRequest) (flags : FeatureFlags) (at_ : Time),
      (evaluatePolicy request flags at_).1 = .deny ↔ GateCloses request flags ∨
        ∃ destination approval, providerDestination request.adapterId = some destination ∧
          request.approval = some approval ∧ ¬InForce request destination at_ approval := by
  refine ⟨?_, ?_, fun request flags at_ => evaluatePolicy_deny⟩
  · intro request flags at_ destination hdestination hallow
    exact ((evaluatePolicy_allow hdestination).mp hallow).2
  · intro first second flags flags' at_ at' approval happroval happroval' hprovider hprovider'
      hallow hallow'
    obtain ⟨d, hd⟩ := Option.isSome_iff_exists.mp hprovider
    obtain ⟨d', hd'⟩ := Option.isSome_iff_exists.mp hprovider'
    obtain ⟨-, held, hheld, hforce⟩ := (evaluatePolicy_allow hd).mp hallow
    obtain ⟨-, held', hheld', hforce'⟩ := (evaluatePolicy_allow hd').mp hallow'
    obtain rfl := Option.some.inj (happroval.symm.trans hheld)
    obtain rfl := Option.some.inj (happroval'.symm.trans hheld')
    obtain ⟨hpayload, rfl, hsame⟩ := inForce_same hforce hforce'
    exact ⟨hpayload, providerDestination_inj hd hd', hsame⟩
end

def codexRecord : ApprovalRecord where
  approvalId := "apr_codex"
  approves := true
  action := "execute_runtime"
  targetId := "run_demo"
  artifactSha256 := "payload"
  destination := some "provider:openai"
  scope := ["private_corpus_egress", "provider_egress", "runtime_execution"]
  approvedAt := 0
  expiresAt := 10

def codexRequest (employeeId : String) (sensitivityPublic : Bool) : TargetedRequest where
  targetId := "run_demo"
  payloadSha256 := "payload"
  adapterId := "adapter_codex_local"
  allowWorkspaceRead := true
  sensitivityPublic
  graphCurrent := true
  graphRequired := true
  employeeId := some employeeId
  taskId := some "task_demo"
  runId := some "run_demo"
  workspaceId := some "workspace_demo"
  budgetPolicy := none
  budgetUsage := none
  approval := some (.record codexRecord)

def codexFlags : FeatureFlags := ⟨true, true, false, fun adapterId => adapterId == "adapter_codex_local"⟩

/-- One record lets two employees through, and a scope wider than the request needs. -/
theorem record_binds_no_employee :
    (evaluatePolicy (codexRequest "employee_dev" false) codexFlags 5).1 = .allow ∧
      (evaluatePolicy (codexRequest "employee_ops" true) codexFlags 5).1 = .allow ∧
      (codexRequest "employee_dev" false).employeeId ≠ (codexRequest "employee_ops" true).employeeId ∧
      codexRecord.scope ≠ (codexRequest "employee_ops" true).requiredScope := by
  decide +kernel

end RaytSystem.Execution
