import RaytSystem.ExecutionRules

/-! Every call of the execution service keeps a discipline that its labelled writes keep. -/
namespace RaytSystem.Execution
open Control Tasking Interleaving Obeys

def OnWorld (K : RecordHistory → RecordHistory → Prop) : AccessKind ExecutionWorld ExecutionAccess :=
  fun _ l f => l = .other ∧ ∀ w, K w.records (f w).2.records ∧
    (f w).2.reservations = w.reservations

theorem placeRun_onWorld {α : Type} {K : RecordHistory → RecordHistory → Prop} (place : Place)
    (p : HeartbeatProg α) [Within (OnRecords K) p] : Within (OnWorld K) (place.run p) := by
  refine within_focus (P := OnRecords K) ?_ p
  intro β l f hf
  exact ⟨rfl, fun w => ⟨hf (place.lens.view w), rfl⟩⟩

def Allowed (policies : BudgetPolicies) (budget : Option (String × Option BudgetUsage)) : Prop :=
  ∀ policyId usage, budget = some (policyId, some usage) → usage.budgetPolicyId = policyId ∧
    (0 < (policies.policy policyId).runLimit →
      usage.runCount < (policies.policy policyId).runLimit)

structure Rules (policies : BudgetPolicies) (S : Discipline ExecutionWorld ExecutionAccess)
    (kind : RecordKind) : Prop where
  labelled : Labelled kind
  sparing : ∀ β l f, OnWorld (Spared kind) β l f → ∀ w, S.inv w → S.assume l w →
    S.inv (f w).2 ∧ S.guar l w (f w).2
  storeRun : ∀ env place run, Obeys S (storeRun env place run)
  addUsage : ∀ (request : HeartbeatRequest) budget usage now,
    Obeys S (request.addBudgetUsage budget usage now)
  reserve : ∀ (request : HeartbeatRequest) budget now, Allowed policies budget →
    Obeys S (request.reserveBudget budget now)

theorem decide_allowed {policies : BudgetPolicies} {request : HeartbeatRequest} {p : Preflight}
    {budget : Option (String × Option BudgetUsage)} {at_ : Time}
    (h : (request.decide policies p budget at_).1 = .allow) : Allowed policies budget := by
  rintro policyId usage rfl
  have hroom := budget_room (evaluate_allowed h rfl)
  rwa [policies.named] at hroom

section
set_option synthInstance.maxSize 1000
variable {policies : BudgetPolicies} {S : Discipline ExecutionWorld ExecutionAccess}
  {kind : RecordKind} (hS : Rules policies S kind) (request : HeartbeatRequest)

include hS

variable {α : Type}

theorem placeRun_keeps (place : Place) (p : HeartbeatProg α) [Spares kind p] :
    Obeys S (place.run p) := by
  have hwithin := placeRun_onWorld (K := Spared kind) place p
  exact ofWithin hS.sparing (place.run p)

theorem terminalizeException_keeps (run : ExecutionRun) (errorCode : String) :
    Obeys S (request.terminalizeException run errorCode) := by
  have := hS.labelled
  have hplace := @placeRun_keeps policies S kind hS
  have hstore := hS.storeRun
  unfold HeartbeatRequest.terminalizeException
  infer_instance

variable (p : Preflight)

theorem handleError_keeps (decision : PolicyDecision) (startedAt : Time) (run : Option ExecutionRun)
    (e : HeartbeatError) : Obeys S (request.handleError p decision startedAt run e) := by
  have := hS.labelled
  have hplace := @placeRun_keeps policies S kind hS
  have hterminal := terminalizeException_keeps hS request
  unfold HeartbeatRequest.handleError
  cases run <;> infer_instance

theorem guarded_keeps {handler : HeartbeatError → ExecutionProg HeartbeatResult} {c : Checkout}
    {p : ExecutionProg α} {k : α → ExecutionProg HeartbeatResult}
    (hhandler : ∀ e, Obeys S (handler e)) (hp : Obeys S p) (hk : ∀ a, Obeys S (k a)) :
    Obeys S (request.guarded handler c p k) := by
  have := hS.labelled
  have hplace := @placeRun_keeps policies S kind hS
  unfold HeartbeatRequest.guarded
  refine .andThen fun r => ?_
  cases r with
  | ok a => exact hk a
  | error e => infer_instance

theorem finishRun_keeps (st : Started) (budget : Option (String × Option BudgetUsage))
    (c : Checkout) (outcome : ProcessOutcome) (intent : Option Intent) (endedAt : Time) :
    Obeys S (request.finishRun st budget c outcome intent endedAt) := by
  have := hS.labelled
  have hplace := @placeRun_keeps policies S kind hS
  have hstore := hS.storeRun
  have husage := hS.addUsage
  unfold HeartbeatRequest.finishRun
  infer_instance

variable {budget : Option (String × Option BudgetUsage)}

theorem runStarted_keeps (st : Started) (hbudget : Allowed policies budget) (c : Checkout)
    (startedAt : Time) : Obeys S (request.runStarted st budget c startedAt) := by
  have := hS.labelled
  have hplace := @placeRun_keeps policies S kind hS
  have hreserve := fun now => hS.reserve request budget now hbudget
  have hfinish := finishRun_keeps hS request st budget
  have hhandler := handleError_keeps hS request st.preflight st.decision startedAt (some st.run)
  unfold HeartbeatRequest.runStarted
  apply guarded_keeps hS request hhandler inferInstance
  intro _
  refine .andThen fun executed => ?_
  exact guarded_keeps hS request hhandler inferInstance fun _ => inferInstance

theorem runHeartbeat_keeps (decision : PolicyDecision) (hbudget : Allowed policies budget)
    (existing : Option ExecutionSession) (startedAt : Time) :
    Obeys S (request.runHeartbeat p decision budget existing startedAt) := by
  have := hS.labelled
  have hplace := @placeRun_keeps policies S kind hS
  have hhandler := handleError_keeps hS request p decision startedAt none
  unfold HeartbeatRequest.runHeartbeat
  refine .andThen fun acquired => ?_
  cases acquired with
  | error e => exact hhandler e
  | ok c =>
    apply guarded_keeps hS request hhandler inferInstance
    intro lease
    apply guarded_keeps hS request hhandler inferInstance
    intro session
    apply guarded_keeps hS request
      (fun e => handleError_keeps hS request p decision startedAt (some _) e) inferInstance
    exact fun _ => runStarted_keeps hS request _ hbudget _ startedAt

theorem decideHeartbeat_keeps (startedAt : Time) :
    Obeys S (request.decideHeartbeat policies p startedAt) := by
  have := hS.labelled
  have hplace := @placeRun_keeps policies S kind hS
  unfold HeartbeatRequest.decideHeartbeat
  dsimp only
  split
  · infer_instance
  · refine .andThen fun budget => ?_
    refine .andThen fun approval => ?_
    split
    · infer_instance
    · refine .andThen fun _ => ?_
      split
      · infer_instance
      next happroval =>
        split
        · infer_instance
        next hdeny =>
          have hallow : (request.decide policies p budget startedAt).1 = .allow := by
            cases hjudged : (request.decide policies p budget startedAt).1 with
            | allow => rfl
            | requireApproval => exact absurd hjudged happroval
            | deny => exact absurd hjudged hdeny
          have hrun := fun existing decision => runHeartbeat_keeps hS request p decision
            (decide_allowed hallow) existing startedAt
          infer_instance

theorem startHeartbeat_keeps : Obeys S (request.startHeartbeat policies) := by
  have := hS.labelled
  have hplace := @placeRun_keeps policies S kind hS
  have hdecide := decideHeartbeat_keeps hS request
  unfold HeartbeatRequest.startHeartbeat
  refine .andThen fun startedAt => ?_
  refine .andThen fun a => ?_
  dsimp only
  split
  · infer_instance
  · split
    · infer_instance
    · refine .andThen fun allowed => ?_
      split
      · infer_instance
      · refine .andThen fun preflight => ?_
        split <;> infer_instance

theorem manualHeartbeat_keeps : Obeys S (request.manualHeartbeat policies) := by
  have := hS.labelled
  have hplace := @placeRun_keeps policies S kind hS
  have hstart := startHeartbeat_keeps hS request
  unfold HeartbeatRequest.manualHeartbeat
  refine .andThen fun receipt => ?_
  cases receipt with
  | some receipt => infer_instance
  | none =>
    refine .andThen fun _ => ?_
    refine .andThen fun claimed => ?_
    refine .andThen fun _ => ?_
    refine .andThen fun existing => ?_
    split <;> infer_instance

variable (env : HeartbeatEnv)

theorem requestStop_keeps (runId : String) : Obeys S (requestStop env runId) := by
  have hplace := @placeRun_keeps policies S kind hS
  have hstore := hS.storeRun
  unfold requestStop
  infer_instance

theorem recoverRun_keeps (observedAt : Time) (run : ExecutionRun) :
    Obeys S (recoverRun env observedAt run) := by
  have := hS.labelled
  have hplace := @placeRun_keeps policies S kind hS
  have hstore := hS.storeRun
  unfold recoverRun
  refine .andThen fun found => ?_
  refine .andThen fun snapshot => ?_
  refine .andThen fun valid => ?_
  cases leaseOf found <;> infer_instance

theorem recoverEach_keeps (observedAt : Time) (runs : List ExecutionRun) :
    Obeys S (recoverEach env observedAt runs) := by
  have hone := recoverRun_keeps hS env observedAt
  induction runs with
  | nil => exact inferInstanceAs (Obeys S (pure _))
  | cons run rest ih =>
    unfold recoverEach
    infer_instance

variable (runIds : Nat → List String)

theorem listRuns_keeps (status : ExecutionRunStatus) : Obeys S (listRuns runIds status) := by
  unfold listRuns
  refine .andThen fun order => ?_
  have hwithin : Within (OnWorld (Spared kind)) (Prog.get .other fun w =>
      ((runIds order).filterMap fun runId =>
        (runOf ((RecordTable.head w.records (.run,runId)).map RecordTable.Stored.value)).filter
          (·.status = status)).take 500 : ExecutionProg (List ExecutionRun)) :=
    Within.step ⟨rfl, fun w => ⟨spared_refl kind w.records, rfl⟩⟩
  exact ofWithin hS.sparing _

theorem recoverStates_keeps (observedAt : Time) (states : List ExecutionRunStatus) :
    Obeys S (recoverStates env runIds observedAt states) := by
  have heach := recoverEach_keeps hS env observedAt
  have hlist := listRuns_keeps hS runIds
  induction states with
  | nil => exact inferInstanceAs (Obeys S (pure _))
  | cons status rest ih =>
    unfold recoverStates
    infer_instance

theorem recoverStaleRuns_keeps : Obeys S (recoverStaleRuns env runIds) := by
  have hplace := @placeRun_keeps policies S kind hS
  have hstates := recoverStates_keeps hS env runIds
  unfold recoverStaleRuns
  infer_instance

theorem aside_keeps {f : ExecutionWorld → Except HeartbeatError (α × ExecutionWorld)}
    (hf : ∀ w a w', f w = .ok (a,w') → w'.records = w.records ∧ w'.reservations = w.reservations) :
    Obeys S (.attempt .other f : ExecutionProg α) := by
  have hwithin : Within (OnWorld (Spared kind)) (.attempt .other f : ExecutionProg α) := by
    refine Within.attempt ⟨rfl, fun w => ?_⟩
    unfold Prog.attemptStep
    cases hfw : f w with
    | error e => exact ⟨spared_refl kind w.records, rfl⟩
    | ok r =>
      obtain ⟨hrecords, hreservations⟩ := hf w r.1 r.2 hfw
      simp only
      rw [hrecords]
      exact ⟨spared_refl kind w.records, hreservations⟩
  exact ofWithin hS.sparing _

theorem assignTask_keeps (r : AssignRequest) : Obeys S (assignTask env r) := by
  have := hS.labelled
  have hplace := @placeRun_keeps policies S kind hS
  have hfind : Obeys S (findAssignmentReceipt r) := by
    apply aside_keeps hS
    intro w a w' h
    split at h
    · cases h
      exact ⟨rfl, rfl⟩
    · split at h <;> cases h
      exact ⟨rfl, rfl⟩
  have hstore : Obeys S (storeAssignmentReceipt r) := by
    apply aside_keeps hS
    intro w a w' h
    split at h
    · cases h
      exact ⟨rfl, rfl⟩
    · split at h <;> cases h
      exact ⟨rfl, rfl⟩
  unfold assignTask
  refine .andThen fun receipt => ?_
  cases receipt with
  | some assignmentId => infer_instance
  | none =>
    refine .andThen fun snapshot => ?_
    refine .andThen fun _ => ?_
    refine .andThen fun _ => ?_
    refine .andThen fun e => ?_
    infer_instance

theorem call_keeps (call : ExecutionCall) : Obeys S (call.prog policies) := by
  cases call with
  | assignTask env r =>
    have h := assignTask_keeps hS env r
    unfold ExecutionCall.prog
    infer_instance
  | manualHeartbeat request =>
    have h := manualHeartbeat_keeps hS request
    unfold ExecutionCall.prog
    infer_instance
  | pauseRun env runId =>
    have h := requestStop_keeps hS env runId
    unfold ExecutionCall.prog
    infer_instance
  | cancelRun env runId =>
    have h := requestStop_keeps hS env runId
    unfold ExecutionCall.prog
    infer_instance
  | recoverStaleRuns env runIds =>
    have h := recoverStaleRuns_keeps hS env runIds
    unfold ExecutionCall.prog
    infer_instance
end

def executionCalls {ι : Type} (policies : BudgetPolicies) (calls : ι → ExecutionCall)
    (w : ExecutionWorld) : Pool ι ExecutionWorld ExecutionAccess HeartbeatError Unit :=
  ⟨fun i => some ((calls i).prog policies), w⟩

end RaytSystem.Execution
