import RaytSystem.HeartbeatModel

/-! `evaluate_execution_policy`: who may execute a runtime, and when a budget is exhausted. -/
namespace RaytSystem.Execution

structure TokenBudget where
  inputTokens : Nat := 0
  outputTokens : Nat := 0
  cachedTokens : Nat := 0
  deriving DecidableEq

structure BudgetPolicy where
  budgetPolicyId : String
  tokenLimit : TokenBudget := {}
  costLimitMicros : Option Nat := none
  runLimit : Nat := 0
  heartbeatLimit : Nat := 0
  deriving DecidableEq

structure ExecutionApproval where
  approvalId : String
  action : String
  payloadSha256 : String
  employeeId : Option String
  taskId : Option String
  runId : Option String
  workspaceId : Option String
  destination : Option String
  scope : List String
  approvedAt : Time
  expiresAt : Time
  deriving DecidableEq

structure FeatureFlags where
  runtimeExecutionEnabled : Bool
  digitalEmployeesEnabled : Bool
  scheduledHeartbeatsEnabled : Bool
  adapterEnabled : String → Bool

structure ExecutionPolicyRequest where
  payloadSha256 : String
  adapterId : String
  allowWorkspaceRead : Bool
  sensitivityPublic : Bool
  graphCurrent : Bool
  graphRequired : Bool
  employeeId : Option String
  taskId : Option String
  runId : Option String
  workspaceId : Option String
  budgetPolicy : Option BudgetPolicy
  budgetUsage : Option BudgetUsage
  approval : Option ExecutionApproval
  scheduledWake : Bool := false

def providerDestination (adapterId : String) : Option String :=
  if adapterId = "adapter_codex_local" then some "provider:openai"
  else if adapterId = "adapter_claude_code" then some "provider:anthropic"
  else none

def budgetExhausted (policy : BudgetPolicy) : Option BudgetUsage → Bool
  | none => false
  | some usage =>
    let cap := policy.tokenLimit
    let tokens := usage.usage
    if usage.budgetPolicyId ≠ policy.budgetPolicyId then true
    else if [(cap.inputTokens,tokens.inputTokens), (cap.outputTokens,tokens.outputTokens),
        (cap.cachedTokens,tokens.cachedTokens)].any fun (limit,consumed) =>
          decide (limit > 0) && decide (consumed ≥ limit) then true
    else if (policy.costLimitMicros.elim false fun limit =>
        (tokens.actualCostMicros.or tokens.estimatedCostMicros).elim false fun cost =>
          decide (cost ≥ limit)) then true
    else if policy.runLimit > 0 ∧ usage.runCount ≥ policy.runLimit then true
    else decide (policy.heartbeatLimit > 0) && decide (usage.heartbeatCount ≥ policy.heartbeatLimit)

def approvalValid (approval : ExecutionApproval) (request : ExecutionPolicyRequest)
    (destination : String) (requiredScope : List String) (at_ : Time) : Bool :=
  requiredScope.all (approval.scope.contains ·) &&
    (approval.action == "execute_runtime" && approval.payloadSha256 == request.payloadSha256 &&
      approval.destination == some destination && approval.employeeId == request.employeeId &&
      approval.taskId == request.taskId && approval.runId == request.runId &&
      approval.workspaceId == request.workspaceId && decide (approval.approvedAt ≤ at_) &&
      decide (at_ < approval.expiresAt))

def runtimeFeatureReasons (runtimeExecutionEnabled runtimeAdapterEnabled : Bool) : List String :=
  if runtimeExecutionEnabled = false then ["runtime_execution_disabled"]
  else if runtimeAdapterEnabled = false then ["runtime_adapter_disabled"]
  else []

def evaluateExecutionPolicy (request : ExecutionPolicyRequest) (flags : FeatureFlags)
    (at_ : Time) : PolicyOutcome × List String :=
  let runtimeReasons := runtimeFeatureReasons flags.runtimeExecutionEnabled
    (flags.adapterEnabled request.adapterId)
  if runtimeReasons ≠ [] then (.deny, runtimeReasons)
  else if flags.digitalEmployeesEnabled = false then (.deny, ["digital_employees_disabled"])
  else if flags.adapterEnabled request.adapterId = false then
    (.deny, ["runtime_adapter_disabled"])
  else if request.scheduledWake = true ∧ flags.scheduledHeartbeatsEnabled = false then
    (.deny, ["scheduled_heartbeats_disabled"])
  else if request.graphRequired = true ∧ request.graphCurrent = false then
    (.deny, ["code_graph_not_current"])
  else if request.allowWorkspaceRead = false then (.deny, ["workspace_read_not_granted"])
  else if (request.budgetPolicy.elim false fun p => budgetExhausted p request.budgetUsage) then
    (.deny, ["budget_exhausted"])
  else match providerDestination request.adapterId with
    | none => (.allow, ["local_deterministic_adapter"])
    | some destination =>
      let scope := if request.sensitivityPublic then ["provider_egress", "runtime_execution"]
        else ["private_corpus_egress", "provider_egress", "runtime_execution"]
      match request.approval with
      | none => (.requireApproval, ["provider_egress_approval_required"])
      | some approval =>
        if approvalValid approval request destination scope at_ = false then
          (.deny, ["provider_egress_approval_invalid"])
        else (.allow, ["scoped_provider_egress_approved"])

variable {policy : BudgetPolicy}

theorem evaluate_allowed {request : ExecutionPolicyRequest} {flags : FeatureFlags} {at_ : Time}
    (h : (evaluateExecutionPolicy request flags at_).1 = .allow)
    (hpolicy : request.budgetPolicy = some policy) :
    budgetExhausted policy request.budgetUsage = false := by
  by_contra hexhausted
  have hbudget : (request.budgetPolicy.elim false fun p => budgetExhausted p request.budgetUsage) =
      true := by
    rw [hpolicy]
    simpa using hexhausted
  simp only [evaluateExecutionPolicy, hbudget, if_true] at h
  repeat' split at h
  all_goals cases h

theorem budget_room {usage : BudgetUsage} (h : budgetExhausted policy (some usage) = false) :
    usage.budgetPolicyId = policy.budgetPolicyId ∧
      (0 < policy.runLimit → usage.runCount < policy.runLimit) := by
  simp only [budgetExhausted] at h
  split at h
  · cases h
  next hid =>
    split at h
    · cases h
    · split at h
      · cases h
      · split at h
        · cases h
        next hrun =>
          refine ⟨not_not.mp hid, ?_⟩
          intro hlimit
          by_contra hfull
          exact hrun ⟨hlimit, not_lt.mp hfull⟩

end RaytSystem.Execution
