import RaytSystem.ExecutionCalls
import RaytSystem.HeartbeatRuns

/-! A closed run record is final, in every run in which nobody fetches the head revision of a
closed record for a write. What happens between the fetch and the write is caught by the
store. -/
namespace RaytSystem.Execution
open Control Tasking Interleaving RecordTable

def ExecutionRunStatus.closed (s : ExecutionRunStatus) : Bool :=
  s == .succeeded || s == .failed || s == .cancelled

def Closed (t : RecordHistory) (runId : String) : Prop :=
  ∃ run, (head t (.run,runId)).map RecordTable.Stored.value = some (.run run) ∧
    run.status.closed = true

def RunsKept (t t' : RecordHistory) : Prop :=
  RecordTable.Extends t t' ∧ ∀ runId, Closed t runId → t' (.run,runId) = t (.run,runId)

theorem runsKept_refl (t : RecordHistory) : RunsKept t t :=
  ⟨extends_refl t, fun _ _ => rfl⟩

variable {t t' : RecordHistory} {runId : String}

theorem closed_same (h : t' (.run,runId) = t (.run,runId)) (hclosed : Closed t runId) :
    Closed t' runId := by
  obtain ⟨run, hrun, hstatus⟩ := hclosed
  refine ⟨run, ?_, hstatus⟩
  rw [← hrun, head, head, h]

theorem runsKept_trans {a b c : RecordHistory} (hab : RunsKept a b) (hbc : RunsKept b c) :
    RunsKept a c := by
  refine ⟨extends_trans hab.1 hbc.1, ?_⟩
  intro runId hclosed
  have hsame := hab.2 runId hclosed
  rw [hbc.2 runId (closed_same hsame hclosed), hsame]

theorem spared_runsKept (h : Spared .run t t') : RunsKept t t' := by
  refine ⟨h.1, ?_⟩
  rintro runId ⟨run, hrun, _⟩
  rcases h.2 runId with hsame | ⟨_, hempty⟩
  · exact hsame
  · rw [head_eq_none.mpr hempty] at hrun
    cases hrun

def FetchesOpen : ExecutionAccess → ExecutionWorld → Prop
  | .fetchRun runId, w => ¬Closed w.records runId
  | _, _ => True

def runRule : Discipline ExecutionWorld ExecutionAccess where
  inv _ := True
  rely w w' := RecordTable.Extends w.records w'.records
  assume := FetchesOpen
  guar _ w w' := RunsKept w.records w'.records

def FetchedOpen (runId : String) (revision : Option Nat) (t : RecordHistory) : Prop :=
  ∀ n ∈ revision, ∃ s : RecordTable.Stored ExecutionRecord,
    RecordTable.Seen t (.run,runId) s ∧ s.revision = n ∧
      ∀ run, s.value = .run run → run.status.closed = false

variable {revision : Option Nat}

theorem fetchedOpen_extends (h : FetchedOpen runId revision t) (ht : RecordTable.Extends t t') :
    FetchedOpen runId revision t' := by
  intro n hn
  obtain ⟨s, hs, hrevision, hopen⟩ := h n hn
  exact ⟨s, seen_extends hs ht, hrevision, hopen⟩

theorem fetchedOpen_head {t : RecordHistory} (h : ¬Closed t runId) :
    FetchedOpen runId ((head t (.run,runId)).map RecordTable.Stored.revision) t := by
  intro n hn
  obtain ⟨s, hs, rfl⟩ := Option.map_eq_some_iff.mp hn
  refine ⟨s, seen_head hs, rfl, ?_⟩
  intro run hrun
  by_contra hclosed
  exact h ⟨run, by rw [hs, Option.map_some, hrun], by simpa using hclosed⟩

theorem push_runsKept {t : RecordHistory} {run : ExecutionRun}
    (hfetched : FetchedOpen run.runId revision t)
    (hhead : revision = (head t (.run,run.runId)).map RecordTable.Stored.revision) :
    RunsKept t (push t (.run,run.runId) (.run run)) := by
  refine ⟨push_extends _ _ _, ?_⟩
  rintro runId ⟨stored, hstored, hclosed⟩
  by_cases hkey : runId = run.runId
  · subst hkey
    obtain ⟨s, hs, hvalue⟩ := Option.map_eq_some_iff.mp hstored
    obtain ⟨seen, hseen, hrevision, hopen⟩ := hfetched s.revision (by rw [hhead, hs]; rfl)
    have happend : append t (.run,run.runId) (some seen.revision) (.run run) =
        some (push t (.run,run.runId) (.run run)) := by
      rw [append_eq_some, hs, hrevision]
      exact ⟨rfl, rfl⟩
    -- the revision that was fetched is still the head
    have hsame := (append_seen hseen happend).1
    rw [hs, Option.some.injEq] at hsame
    rw [hopen stored (hsame ▸ hvalue)] at hclosed
    cases hclosed
  · apply push_other
    intro h
    exact hkey (congrArg Prod.snd h)

def PutsRun (run : ExecutionRun) (revision : Option Nat) (t t' : RecordHistory) : Prop :=
  t' = t ∨ t' = push t (.run,run.runId) (.run run) ∧
    revision = (head t (.run,run.runId)).map RecordTable.Stored.revision

variable (env : HeartbeatEnv)

theorem put_putsRun (run : ExecutionRun) (revision : Option Nat) :
    Within (OnRecords (PutsRun run revision)) (put env (.run run) revision) := by
  have haccess : Within (OnRecords (PutsRun run revision))
      (access (putStores (.run run) revision)) := by
    apply noting_onRecords fun _ => Or.inl rfl
    intro s a s' hput
    rcases putRecord_cases (putStores_cases hput) with ⟨hsame, _⟩ | ⟨hpush, hhead⟩
    · exact Or.inl hsame
    · exact Or.inr ⟨hpush, hhead⟩
  unfold put
  infer_instance

variable (place : Place)

theorem putFetched_wp {env : HeartbeatEnv} {run : ExecutionRun} {w : ExecutionWorld}
    (h : FetchedOpen run.runId revision w.records) :
    wp runRule (place.run (put env (.run run) revision)) (fun _ _ => True) (fun _ _ => True) w := by
  have hput := put_putsRun env run revision
  have hplace := placeRun_onWorld (K := PutsRun run revision) place (put env (.run run) revision)
  refine wp_mono _ (wp_within (P := OnWorld (PutsRun run revision))
    (I := fun w => FetchedOpen run.runId revision w.records) ?_ ?_ _ h)
    (fun _ _ _ => trivial) fun _ _ _ => trivial
  · exact fun w w' hr hfetched => fetchedOpen_extends hfetched hr
  · intro β l f hf w _ hfetched _
    have hkept : RunsKept w.records (f w).2.records := by
      rcases (hf.2 w).1 with hsame | ⟨hpush, hhead⟩
      · rw [hsame]
        exact runsKept_refl _
      · rw [hpush]
        exact push_runsKept hfetched hhead
    exact ⟨trivial, hkept, fetchedOpen_extends hfetched hkept.1⟩

theorem sparing_runRule {β : Type} {l : ExecutionAccess} {f : ExecutionWorld → β × ExecutionWorld}
    (h : OnWorld (Spared .run) β l f) (w : ExecutionWorld) :
    runRule.inv (f w).2 ∧ runRule.guar l w (f w).2 := ⟨trivial, spared_runsKept (h.2 w).1⟩

theorem placeRun_runRule {α : Type} (p : HeartbeatProg α) [Spares .run p] :
    Obeys runRule (place.run p) := by
  have hplace := placeRun_onWorld (K := Spared .run) place p
  exact Obeys.ofWithin (fun β l f hf w _ _ => sparing_runRule hf w) _

theorem storeRun_runRule (run : ExecutionRun) : Obeys runRule (storeRun env place run) := by
  constructor
  intro w
  unfold storeRun
  rw [wp_seq]
  refine wp_mono _ ((placeRun_runRule place (mayFail .database)).obeys w) ?_ fun _ _ _ => trivial
  intro _ w₁ _
  rw [wp_seq]
  -- the fetch finds an open record, and changes nothing
  intro w₂ _ _ hopen
  refine ⟨trivial, runsKept_refl _, ?_⟩
  change wp runRule (place.run (put env (.run run) _) >>= fun _ => pure ()) _ _ w₂
  rw [wp_seq]
  exact wp_mono _ (putFetched_wp place (fetchedOpen_head hopen)) (fun _ _ _ => trivial)
    fun _ _ _ => trivial

theorem storeUsage_runRule (policyId : String) (base : Option BudgetUsage) (usage : BudgetUsage)
    (reservedFor : Option String) :
    Obeys runRule (storeUsage env place policyId base usage reservedFor) := by
  have hplace := @placeRun_runRule
  have hput : ∀ expected, Obeys runRule (putUsage policyId base usage expected reservedFor) := by
    intro expected
    apply Obeys.attempt
    · intro w _ w' _ _ hok
      split at hok
      next hrecord =>
        cases hok
        exact ⟨trivial, spared_runsKept
          (putRecord_spared (show (ExecutionRecord.budgetUsage usage).key.1 ≠ .run by rintro ⟨⟩)
            hrecord)⟩
      next => cases hok
    · exact fun w _ => runsKept_refl _
  unfold storeUsage
  infer_instance

theorem runRule_rules (policies : BudgetPolicies) : Rules policies runRule .run where
  labelled := inferInstance
  sparing _ _ _ hf w _ _ := sparing_runRule hf w
  storeRun := storeRun_runRule
  addUsage request budget usage now := by
    have hplace := @placeRun_runRule
    have hstore := @storeUsage_runRule
    unfold HeartbeatRequest.addBudgetUsage
    cases budget <;> infer_instance
  reserve request budget now _ := by
    have hstore := @storeUsage_runRule
    unfold HeartbeatRequest.reserveBudget
    cases budget <;> infer_instance

section
variable {ι : Type}

theorem runRule_compatible :
    Pool.Compatible (fun _ : ι => runRule) (fun _ w => w) (fun _ => True) where
  inv_eq _ := rfl
  preorder _ := ⟨fun w => extends_refl w.records, extends_trans⟩
  guar _ _ _ _ _ _ _ hg := hg.1
  lost_inv _ _ _ := trivial
  lost_rely _ _ w _ _ := extends_refl w.records

theorem calls_disciplined (policies : BudgetPolicies) (calls : ι → ExecutionCall)
    (w : ExecutionWorld) : Pool.Disciplined (fun _ : ι => runRule) (fun _ => True)
      (executionCalls policies calls w) := by
  refine ⟨trivial, ?_⟩
  rintro i p ⟨⟩
  exact (call_keeps (runRule_rules policies) (calls i)).obeys w

variable [DecidableEq ι]

abbrev Orders (assume : ExecutionAccess → ExecutionWorld → Prop) :
    Pool ι ExecutionWorld ExecutionAccess HeartbeatError Unit →
    Pool ι ExecutionWorld ExecutionAccess HeartbeatError Unit → Prop :=
  Pool.Reachable (fun _ => assume) (fun _ w => w)

/-- A closed run record is final. In every order of any number of assignments, heartbeats,
pauses, cancellations and recoveries in which nobody fetches the head revision of a closed record for a
write, a record that is closed gets no further revision. -/
theorem closed_run_final (policies : BudgetPolicies) (calls : ι → ExecutionCall)
    (w : ExecutionWorld) {c c' : Pool ι ExecutionWorld ExecutionAccess HeartbeatError Unit}
    (h : Orders FetchesOpen (executionCalls policies calls w) c) (h' : Orders FetchesOpen c c')
    (runId : String) (hclosed : Closed c.world.records runId) :
    c'.world.records (.run,runId) = c.world.records (.run,runId) := by
  have hd := Pool.reachable_disciplined runRule_compatible (calls_disciplined policies calls w) h
  have hguar : ∀ l (w w' : ExecutionWorld), runRule.guar l w w' → RunsKept w.records w'.records :=
    fun _ _ _ hg => hg
  have hkept : RunsKept c.world.records c'.world.records :=
    Pool.reachable_world (T := fun w w' => RunsKept w.records w'.records) runRule_compatible hd
      (fun w => runsKept_refl w.records) runsKept_trans (fun _ l w w' _ hg => hguar l w w' hg)
      (fun _ w _ => runsKept_refl w.records) h'
  exact hkept.2 runId hclosed
end

def isClosed (t : RecordHistory) (runId : String) : Bool :=
  match (head t (.run,runId)).map RecordTable.Stored.value with
  | some (.run run) => run.status.closed
  | _ => false

theorem closed_iff {t : RecordHistory} {runId : String} :
    Closed t runId ↔ isClosed t runId = true := by
  unfold Closed isClosed
  split
  next run hrun =>
    rw [hrun]
    exact ⟨fun ⟨_, hsame, hstatus⟩ => by cases hsame; exact hstatus, fun hstatus => ⟨run, rfl, hstatus⟩⟩
  next hother =>
    constructor
    · rintro ⟨run, hrun, _⟩
      exact absurd hrun (hother run)
    · exact nofun

def fetchesOpen (_ : Fin 2) : ExecutionAccess → ExecutionWorld → Bool
  | .fetchRun runId, w => !isClosed w.records runId
  | _, _ => true

theorem fetchesOpen_sound (i : Fin 2) (l : ExecutionAccess) (w : ExecutionWorld)
    (h : fetchesOpen i l w = true) : FetchesOpen l w := by
  cases l with
  | fetchRun runId =>
    intro hclosed
    rw [closed_iff] at hclosed
    simp [fetchesOpen, hclosed] at h
  | storeUsage policyId base reservedFor => trivial
  | other => trivial

def staleRun : ExecutionRun where
  runId := "xrun"
  invocationId := "invocation"
  invocationSource := "manual"
  employeeId := "employee"
  taskId := "task"
  workspaceId := "workspace"
  graphScopeId := "scope"
  sessionIdBefore := none
  sessionIdAfter := "session"
  policyDecisionId := "decision"
  approvalId := none
  taskLeaseId := "lease"
  fencingToken := 1
  status := .running
  startedAt := 0
  endedAt := none
  exitCode := none
  usage := {}
  changedFiles := []
  summary := ""
  errorCode := none
  resumedFromRunId := none

def staleLease : TaskLease :=
  ⟨"lease", "task", "employee", "xrun", 2, 2, "epoch", 1, 0, 60000000, .active⟩

def staleWorld : ExecutionWorld where
  leases := .empty "epoch"
  records := push (push (fun _ => []) (.run,"xrun") (.run staleRun))
    (.lease,"lease") (.lease staleLease)
  generationId := 2
  tasks _ := ⟨.running, 2, 0⟩
  dependenciesDone _ := true
  events _ := []
  operations _ := none
  receipts _ := none
  assignmentReceipts _ := none
  transcripts _ := []
  reservations := []

def noBudgets : BudgetPolicies := ⟨fun policyId => {budgetPolicyId := policyId}, fun _ => rfl⟩

def stopAndRecover : Fin 2 → ExecutionCall
  | 0 => .cancelRun demoEnv "xrun"
  | 1 => .recoverStaleRuns {demoEnv with now := some 120000000} fun _ => ["xrun"]

abbrev stalePool : Pool (Fin 2) ExecutionWorld ExecutionAccess HeartbeatError Unit :=
  executionCalls noBudgets stopAndRecover staleWorld

def inAnyOrder (_ : Fin 2) (_ : ExecutionAccess) (_ : ExecutionWorld) : Bool := true

theorem neZero_two : NeZero 2 := inferInstance

attribute [local instance] neZero_two in
def recoveredPool : Pool (Fin 2) ExecutionWorld ExecutionAccess HeartbeatError Unit :=
  (stalePool.advance inAnyOrder 0 4 [0,1,0]).advance inAnyOrder 1 17 (List.replicate 10 0)

/-- The cancellation goes on, and reopens the recovered run. -/
theorem cancel_reopens_recovered_run :
    ¬∀ (policies : BudgetPolicies) (calls : Fin 2 → ExecutionCall) (w : ExecutionWorld)
      (c c' : Pool (Fin 2) ExecutionWorld ExecutionAccess HeartbeatError Unit),
      Orders (fun _ _ => True) (executionCalls policies calls w) c →
      Orders (fun _ _ => True) c c' → ∀ runId, Closed c.world.records runId →
      c'.world.records (.run,runId) = c.world.records (.run,runId) := by
  intro hclaim
  have hadvance : ∀ c i n ins, Orders (fun _ _ => True) c
      (Pool.advance inAnyOrder c i n ins) :=
    fun c i n ins => Pool.advance_reachable (fun _ _ _ _ => trivial) c i n ins
  have hclosed : Closed recoveredPool.world.records "xrun" := closed_iff.mpr (by decide +kernel)
  have hsame := hclaim noBudgets stopAndRecover staleWorld recoveredPool
    (recoveredPool.advance inAnyOrder 0 3 [0]) ((hadvance _ 0 4 _).trans (hadvance _ 1 17 _))
    (hadvance _ 0 3 _) "xrun" hclosed
  exact absurd (congrArg List.length hsame) (by decide +kernel)

attribute [local instance] neZero_two in
def recoveredAlone : Pool (Fin 2) ExecutionWorld ExecutionAccess HeartbeatError Unit :=
  stalePool.advance fetchesOpen 1 17 (List.replicate 10 0)

/-- The recovery has closed the run, and goes on. -/
theorem recovered_run_stays :
    Closed recoveredAlone.world.records "xrun" ∧
    (recoveredAlone.advance fetchesOpen 1 11 (List.replicate 7 0)).world.records (.run,"xrun") =
      recoveredAlone.world.records (.run,"xrun") := by
  have hclosed : Closed recoveredAlone.world.records "xrun" := closed_iff.mpr (by decide +kernel)
  exact ⟨hclosed, closed_run_final noBudgets stopAndRecover staleWorld
    (Pool.advance_reachable fetchesOpen_sound _ 1 17 _)
    (Pool.advance_reachable fetchesOpen_sound _ 1 11 _) "xrun" hclosed⟩

end RaytSystem.Execution
