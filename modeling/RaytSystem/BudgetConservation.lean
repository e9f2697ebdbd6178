import RaytSystem.ExecutionFinality

/-! Budgets are conserved in every run in which each usage record is still the one that was
read when the new one is stored over it: the run count is the number of runs that reserved,
and it keeps within the limit. -/
namespace RaytSystem.Execution
open Control Tasking Interleaving RecordTable ExecutionRecord

def storedRunCount (t : RecordHistory) (policyId : String) : Nat :=
  match (head t (.budgetUsage,policyId)).map RecordTable.Stored.value with
  | some (.budgetUsage usage) => usage.runCount
  | _ => 0

def reservedRuns (w : ExecutionWorld) (policyId : String) : List String :=
  (w.reservations.filter (·.1 == policyId)).map Prod.snd

structure Counted (policies : BudgetPolicies) (w : ExecutionWorld) : Prop where
  named : ∀ policyId usage, (head w.records (.budgetUsage,policyId)).map
    RecordTable.Stored.value = some (.budgetUsage usage) → usage.budgetPolicyId = policyId
  count : ∀ policyId, storedRunCount w.records policyId = (reservedRuns w policyId).length
  once : ∀ policyId, (reservedRuns w policyId).Nodup
  limit : ∀ policyId, 0 < (policies.policy policyId).runLimit →
    storedRunCount w.records policyId ≤ (policies.policy policyId).runLimit

def UsageUnmoved : ExecutionAccess → ExecutionWorld → Prop
  | .storeUsage policyId base reservedFor, w =>
    (head w.records (.budgetUsage,policyId)).map RecordTable.Stored.value =
      base.map budgetUsage ∧
    ∀ runId ∈ reservedFor, runId ∉ reservedRuns w policyId
  | _, _ => True

def budgetRule (policies : BudgetPolicies) : Discipline ExecutionWorld ExecutionAccess where
  inv := Counted policies
  rely _ _ := True
  assume := UsageUnmoved
  guar _ _ _ := True

variable {policies : BudgetPolicies} {w w' : ExecutionWorld}

theorem counted_same (hw : Counted policies w)
    (hrecords : ∀ policyId, w'.records (.budgetUsage,policyId) = w.records (.budgetUsage,policyId))
    (hreservations : w'.reservations = w.reservations) : Counted policies w' := by
  have hhead : ∀ policyId, head w'.records (.budgetUsage,policyId) =
      head w.records (.budgetUsage,policyId) := by
    intro policyId
    rw [head, head, hrecords]
  have hcount : ∀ policyId, storedRunCount w'.records policyId =
      storedRunCount w.records policyId := by
    intro policyId
    rw [storedRunCount, storedRunCount, hhead]
  have hruns : ∀ policyId, reservedRuns w' policyId = reservedRuns w policyId := by
    intro policyId
    rw [reservedRuns, reservedRuns, hreservations]
  constructor
  · intro policyId usage h
    rw [hhead] at h
    exact hw.named policyId usage h
  · intro policyId
    rw [hcount, hruns]
    exact hw.count policyId
  · intro policyId
    rw [hruns]
    exact hw.once policyId
  · intro policyId hlimit
    rw [hcount]
    exact hw.limit policyId hlimit

theorem spared_counted (hw : Counted policies w) (h : Spared .budgetUsage w.records w'.records)
    (hreservations : w'.reservations = w.reservations) : Counted policies w' := by
  refine counted_same hw (fun policyId => ?_) hreservations
  rcases h.2 policyId with hsame | ⟨hkind, _⟩
  · exact hsame
  · cases hkind

/-- A usage that counts one run more for a reservation, and none otherwise, keeps the counts
when it is stored over its base. -/
theorem counted_store {w : ExecutionWorld} {policyId : String} {base : Option BudgetUsage}
    {usage : BudgetUsage} {reservedFor : Option String} {expected : Option Nat} {revision : Nat}
    {records : RecordHistory} (hw : Counted policies w)
    (hbase : UsageUnmoved (.storeUsage policyId base reservedFor) w)
    (hid : usage.budgetPolicyId = policyId)
    (hcount : usage.runCount = base.elim 0 BudgetUsage.runCount + reservedFor.toList.length)
    (hlimit : 0 < (policies.policy policyId).runLimit →
      usage.runCount ≤ (policies.policy policyId).runLimit)
    (hput : putRecord w.records (.budgetUsage usage) expected = .ok (revision,records)) :
    Counted policies {w with
      records := records
      reservations := (reservedFor.toList.map fun runId => (policyId,runId)) ++
        w.reservations} := by
  obtain ⟨hhead, hfresh⟩ := hbase
  subst hid
  have hstored : storedRunCount w.records usage.budgetPolicyId = base.elim 0 BudgetUsage.runCount := by
    rw [storedRunCount, hhead]
    cases base <;> rfl
  rcases putRecord_cases hput with ⟨rfl, hsame⟩ | ⟨rfl, _⟩
  · -- an equal record counts as many runs, so nothing was reserved
    have hbase : base = some usage := by
      rw [key, hhead] at hsame
      cases base with
      | none => cases hsame
      | some u => simpa using hsame
    have hnone : reservedFor = none := by
      cases reservedFor with
      | none => rfl
      | some runId =>
        rw [hbase] at hcount
        simp at hcount
    subst hnone
    exact counted_same hw (fun _ => rfl) rfl
  · have hkey : (budgetUsage usage).key = (.budgetUsage,usage.budgetPolicyId) := rfl
    have hother : ∀ other, other ≠ usage.budgetPolicyId →
        head (push w.records (budgetUsage usage).key
          (.budgetUsage usage)) (.budgetUsage,other) =
        head w.records (.budgetUsage,other) := by
      intro other hne
      apply head_push_other
      intro h
      exact hne (congrArg Prod.snd h)
    have hruns : ∀ other, reservedRuns {w with
        records := push w.records (budgetUsage usage).key
          (.budgetUsage usage)
        reservations := (reservedFor.toList.map fun runId => (usage.budgetPolicyId,runId)) ++
          w.reservations} other =
        (if other = usage.budgetPolicyId then reservedFor.toList else []) ++ reservedRuns w other := by
      intro other
      cases reservedFor with
      | none => simp [reservedRuns]
      | some runId =>
        by_cases hother : other = usage.budgetPolicyId
        · simp [reservedRuns, hother]
        · have hne : ¬usage.budgetPolicyId = other := fun h => hother h.symm
          simp [reservedRuns, hother, hne]
    constructor
    · intro other u hu
      by_cases hne : other = usage.budgetPolicyId
      · subst hne
        rw [hkey, head_push] at hu
        cases hu
        rfl
      · rw [hother other hne] at hu
        exact hw.named other u hu
    · intro other
      rw [hruns]
      by_cases hne : other = usage.budgetPolicyId
      · subst hne
        rw [if_pos rfl, List.length_append, ← hw.count, hstored, storedRunCount, hkey,
          head_push]
        simp only [Option.map_some]
        omega
      · rw [if_neg hne, List.nil_append, ← hw.count, storedRunCount, hother other hne,
          storedRunCount]
    · intro other
      rw [hruns]
      by_cases hne : other = usage.budgetPolicyId
      · subst hne
        rw [if_pos rfl]
        cases reservedFor with
        | none => exact hw.once _
        | some runId => exact List.nodup_cons.mpr ⟨hfresh runId rfl, hw.once _⟩
      · rw [if_neg hne]
        exact hw.once other
    · intro other hpositive
      by_cases hne : other = usage.budgetPolicyId
      · subst hne
        rw [storedRunCount, hkey, head_push]
        exact hlimit hpositive
      · rw [storedRunCount, hother other hne]
        exact hw.limit other hpositive

section
variable {policies : BudgetPolicies}

theorem sparing_budgetRule {β : Type} {l : ExecutionAccess}
    {f : ExecutionWorld → β × ExecutionWorld} (h : OnWorld (Spared .budgetUsage) β l f)
    {w : ExecutionWorld} (hw : Counted policies w) :
    (budgetRule policies).inv (f w).2 ∧ (budgetRule policies).guar l w (f w).2 :=
  ⟨spared_counted hw (h.2 w).1 (h.2 w).2, trivial⟩

theorem placeRun_budgetRule {α : Type} (place : Place) (p : HeartbeatProg α)
    [Spares .budgetUsage p] : Obeys (budgetRule policies) (place.run p) := by
  have hplace := placeRun_onWorld (K := Spared .budgetUsage) place p
  exact Obeys.ofWithin (fun β l f hf w hw _ => sparing_budgetRule hf hw) _

theorem storeRun_budgetRule (env : HeartbeatEnv) (place : Place) (run : ExecutionRun) :
    Obeys (budgetRule policies) (storeRun env place run) := by
  have hplace := @placeRun_budgetRule policies
  have hfetch : Obeys (budgetRule policies) (fetchRun run.runId) := by
    apply Obeys.attempt
    · rintro w _ w' hw _ ⟨⟩
      exact ⟨hw, trivial⟩
    · exact fun _ _ => trivial
  unfold storeRun
  infer_instance

theorem storeUsage_budgetRule (env : HeartbeatEnv) (place : Place) {policyId : String}
    {base : Option BudgetUsage} {usage : BudgetUsage} {reservedFor : Option String}
    (hid : (∀ u ∈ base, u.budgetPolicyId = policyId) → usage.budgetPolicyId = policyId)
    (hcount : usage.runCount = base.elim 0 BudgetUsage.runCount + reservedFor.toList.length)
    (hlimit : 0 < (policies.policy policyId).runLimit →
      base.elim 0 BudgetUsage.runCount ≤ (policies.policy policyId).runLimit →
      usage.runCount ≤ (policies.policy policyId).runLimit) :
    Obeys (budgetRule policies) (storeUsage env place policyId base usage reservedFor) := by
  have hplace := @placeRun_budgetRule policies
  have hput : ∀ expected,
      Obeys (budgetRule policies) (putUsage policyId base usage expected reservedFor) := by
    intro expected
    apply Obeys.attempt
    · intro w _ w' hw hbase hok
      have hhead := hbase.1
      split at hok
      next hrecord =>
        cases hok
        refine ⟨counted_store hw hbase (hid ?_) hcount ?_ hrecord, trivial⟩
        · rintro u hu
          rw [Option.mem_def.mp hu] at hhead
          exact hw.named policyId u hhead
        · intro hpositive
          apply hlimit hpositive
          have hstored := hw.limit policyId hpositive
          rw [storedRunCount, hhead] at hstored
          cases base <;> exact hstored
      next => cases hok
    · exact fun _ _ => trivial
  unfold storeUsage
  infer_instance

theorem budgetRule_rules (policies : BudgetPolicies) :
    Rules policies (budgetRule policies) .budgetUsage where
  labelled := inferInstance
  sparing _ _ _ hf _ hw _ := sparing_budgetRule hf hw
  storeRun := storeRun_budgetRule
  addUsage request budget usage now := by
    have hplace := @placeRun_budgetRule policies
    have hstore : ∀ (policyId : String) (current : BudgetUsage), Obeys (budgetRule policies)
        (storeUsage request.heartbeat request.place policyId (some current)
          {current with
            usage := addUsage current.usage usage
            updatedAt := now} none) := by
      intro policyId current
      exact storeUsage_budgetRule _ _ (fun h => h current rfl) rfl fun _ h => h
    unfold HeartbeatRequest.addBudgetUsage
    cases budget <;> infer_instance
  reserve request budget now hallowed := by
    unfold HeartbeatRequest.reserveBudget
    cases budget with
    | none => infer_instance
    | some b =>
      obtain ⟨policyId, usage⟩ := b
      dsimp only
      cases usage with
      | none =>
        refine storeUsage_budgetRule _ _ (fun _ => rfl) rfl ?_
        intro hpositive _
        exact hpositive
      | some usage =>
        obtain ⟨hid, hroom⟩ := hallowed policyId usage rfl
        exact storeUsage_budgetRule _ _ (fun _ => hid) rfl fun hpositive _ => hroom hpositive
end

section
variable {ι : Type}

theorem budgetRule_compatible (policies : BudgetPolicies) :
    Pool.Compatible (fun _ : ι => budgetRule policies) (fun _ w => w) (Counted policies) where
  inv_eq _ := rfl
  preorder _ := ⟨fun _ => trivial, fun _ _ => trivial⟩
  guar _ _ _ _ _ _ _ _ := trivial
  lost_inv _ _ hw := hw
  lost_rely _ _ _ _ _ := trivial

structure FreshBudgets (w : ExecutionWorld) : Prop where
  usages : ∀ policyId, w.records (.budgetUsage,policyId) = []
  reservations : w.reservations = []

theorem fresh_counted (policies : BudgetPolicies) {w : ExecutionWorld} (h : FreshBudgets w) :
    Counted policies w := by
  have hhead : ∀ policyId, head w.records (.budgetUsage,policyId) = none :=
    fun policyId => head_eq_none.mpr (h.usages policyId)
  have hruns : ∀ policyId, reservedRuns w policyId = [] := by
    intro policyId
    rw [reservedRuns, h.reservations]
    rfl
  constructor
  · intro policyId usage husage
    rw [hhead] at husage
    cases husage
  · intro policyId
    rw [storedRunCount, hhead, hruns]
    rfl
  · intro policyId
    rw [hruns]
    exact List.nodup_nil
  · intro policyId _
    rw [storedRunCount, hhead]
    exact Nat.zero_le _

variable [DecidableEq ι]

/-- Budgets are conserved. In every order of any number of assignments, heartbeats, pauses,
cancellations and recoveries in which each usage is stored over the one it was computed from, and each run
reserves once, the stored run count is the number of runs that reserved, and it never exceeds
the run limit where the policy sets one. -/
theorem budget_conserved (policies : BudgetPolicies) (calls : ι → ExecutionCall)
    {w : ExecutionWorld} (hw : FreshBudgets w)
    {c : Pool ι ExecutionWorld ExecutionAccess HeartbeatError Unit}
    (h : Orders UsageUnmoved (executionCalls policies calls w) c) (policyId : String) :
    storedRunCount c.world.records policyId = (reservedRuns c.world policyId).toFinset.card ∧
    (0 < (policies.policy policyId).runLimit →
      storedRunCount c.world.records policyId ≤ (policies.policy policyId).runLimit) := by
  have hd : Pool.Disciplined (fun _ : ι => budgetRule policies) (Counted policies)
      (executionCalls policies calls w) := by
    refine ⟨fresh_counted policies hw, ?_⟩
    rintro i p ⟨⟩
    exact (call_keeps (budgetRule_rules policies) (calls i)).obeys w
  have hcounted := (Pool.reachable_disciplined (budgetRule_compatible policies) hd h).1
  constructor
  · rw [hcounted.count, List.toFinset_card_of_nodup (hcounted.once policyId)]
  · exact hcounted.limit policyId
end

def oneRun : BudgetPolicies :=
  ⟨fun policyId => {budgetPolicyId := policyId, runLimit := 1}, fun _ => rfl⟩

variable (taskId assignmentId runId : String)

def sharingEnv (generationId : Nat) (now : Time) : HeartbeatEnv := {demoEnv with
  assignmentId := assignmentId
  runId := runId
  key := runId
  now := some now
  maxConcurrentRuns := 2
  employee := some ⟨"employee", 2, "configuration", "worktree"⟩
  prepare := fun _ => .ok ⟨generationId, 1, "configuration", ⟨runId, taskId, "graph"⟩,
    ⟨runId, taskId, "worktree", "graph", "manifest"⟩⟩
  createSession := fun _ _ at_ => ⟨runId, none, "fingerprint", at_, none, .active, none, {}, none⟩
  leaseId := fun _ => runId
  invocationId := fun _ => runId}

def sharing (generationId : Nat) (now : Time) : HeartbeatRequest where
  heartbeat := sharingEnv taskId assignmentId runId generationId now
  taskId := taskId
  approvals approvalId := ⟨approvalId, "execute_runtime", "", none, none, none, none, none, [], 0, 1⟩
  policyRequest _ _ := ⟨"payload", "adapter_fake", true, true, true, true, none, some taskId,
    some runId, none, none, none, none, false⟩
  flags := ⟨true, true, false, fun _ => true⟩
  policyDecisionId _ _ := runId

def sharedCalls : Fin 3 → ExecutionCall
  | 0 => .manualHeartbeat (sharing "taskA" "assignmentA" "runA" 1 0)
  | 1 => .manualHeartbeat (sharing "taskB" "assignmentB" "runB" 2 1000)
  | 2 => .assignTask demoEnv ⟨"assign", "request", "taskB", "assignmentB", "employee",
      some ("adapter_fake", false), some "budget", 2, some 500⟩

def sharedWorld : ExecutionWorld := {staleWorld with
  records := push (push (fun _ => []) (.assignment,"assignmentA")
    (.assignment ⟨"assignmentA", "taskA", 1, 1, "employee", "adapter_fake", some "budget",
      none, true, 1, 0⟩)) (.budgetPolicy,"budget") (.budgetPolicy "budget")
  generationId := 1
  tasks := fun _ => ⟨.ready, 1, 0⟩}

abbrev sharedPool : Pool (Fin 3) ExecutionWorld ExecutionAccess HeartbeatError Unit :=
  executionCalls oneRun sharedCalls sharedWorld

def calmInputs : List Nat := List.replicate 19 0 ++ [1] ++ List.replicate 20 0

def whenever (_ : Fin 3) (_ : ExecutionAccess) (_ : ExecutionWorld) : Bool := true

def overtakenPool : Pool (Fin 3) ExecutionWorld ExecutionAccess HeartbeatError Unit :=
  ((sharedPool.advance whenever 0 64 calmInputs).advance whenever 2 14 calmInputs).advance
    whenever 1 71 calmInputs

def overspentPool : Pool (Fin 3) ExecutionWorld ExecutionAccess HeartbeatError Unit :=
  overtakenPool.advance whenever 0 3 [0]

theorem sharedWorld_fresh : FreshBudgets sharedWorld := ⟨fun _ => rfl, rfl⟩

/-- Two runs reserve, and one is counted. -/
theorem lost_reservation :
    ¬∀ (policies : BudgetPolicies) (calls : Fin 3 → ExecutionCall) (w : ExecutionWorld)
      (c : Pool (Fin 3) ExecutionWorld ExecutionAccess HeartbeatError Unit), FreshBudgets w →
      Orders (fun _ _ => True) (executionCalls policies calls w) c → ∀ policyId,
      storedRunCount c.world.records policyId = (reservedRuns c.world policyId).toFinset.card ∧
      (0 < (policies.policy policyId).runLimit →
        storedRunCount c.world.records policyId ≤ (policies.policy policyId).runLimit) := by
  intro hclaim
  have hadvance : ∀ c i n ins, Orders (fun _ _ => True) c (Pool.advance whenever c i n ins) :=
    fun c i n ins => Pool.advance_reachable (fun _ _ _ _ => trivial) c i n ins
  have hreach : Orders (fun _ _ => True) sharedPool overspentPool :=
    (((hadvance _ 0 64 _).trans (hadvance _ 2 14 _)).trans (hadvance _ 1 71 _)).trans
      (hadvance _ 0 3 _)
  have hcount := (hclaim oneRun sharedCalls sharedWorld overspentPool sharedWorld_fresh hreach
    "budget").1
  have hworld : storedRunCount overspentPool.world.records "budget" = 1 ∧
      reservedRuns overspentPool.world "budget" = ["runA", "runB"] := by decide +kernel
  rw [hworld.1, hworld.2] at hcount
  exact absurd hcount (by decide)

def usageUnmoved (_ : Fin 3) : ExecutionAccess → ExecutionWorld → Bool
  | .storeUsage policyId base reservedFor, w =>
    (head w.records (.budgetUsage,policyId)).map RecordTable.Stored.value ==
      base.map budgetUsage &&
    reservedFor.all fun runId => runId ∉ reservedRuns w policyId
  | _, _ => true

theorem usageUnmoved_sound (i : Fin 3) (l : ExecutionAccess) (w : ExecutionWorld)
    (h : usageUnmoved i l w = true) : UsageUnmoved l w := by
  cases l with
  | fetchRun runId => trivial
  | other => trivial
  | storeUsage policyId base reservedFor =>
    simp only [usageUnmoved, Bool.and_eq_true, beq_iff_eq] at h
    refine ⟨h.1, ?_⟩
    rintro runId hrun
    rw [Option.mem_def.mp hrun] at h
    simpa using h.2

def reservedPool : Pool (Fin 3) ExecutionWorld ExecutionAccess HeartbeatError Unit :=
  sharedPool.advance usageUnmoved 0 70 calmInputs

/-- The first of three calls runs to its end. -/
theorem single_reservation_counted :
    reservedRuns reservedPool.world "budget" = ["runA"] ∧
    storedRunCount reservedPool.world.records "budget" =
      (reservedRuns reservedPool.world "budget").toFinset.card ∧
    (0 < 1 → storedRunCount reservedPool.world.records "budget" ≤ 1) :=
  ⟨by decide +kernel, budget_conserved oneRun sharedCalls sharedWorld_fresh
    (Pool.advance_reachable usageUnmoved_sound sharedPool 0 70 calmInputs) "budget"⟩

end RaytSystem.Execution
