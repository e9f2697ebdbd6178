import RaytSystem.HeartbeatExclusion

/-! All runs of two heartbeats of one request. -/
namespace RaytSystem.Execution
open Control Tasking Interleaving Function

attribute [local irreducible] wp

section
variable {env : HeartbeatEnv} {call : Caller} {w : HeartbeatWorld} {α : Type}

theorem exclusive_recorded {w w' : HeartbeatWorld} (h : Exclusive env w)
    (hwindow : w.seen.stage call = .window)
    (hstage : w'.seen.stage = update w.seen.stage call .recorded)
    (hlog : w'.seen.log = w.seen.log) (hrun : RunExists env w') : Exclusive env w' := by
  have hactive : ∀ i, (w'.seen.stage i).active = (w.seen.stage i).active := by
    intro i
    by_cases hi : i = call
    · rw [hstage, hi, update_self, hwindow]
      rfl
    · rw [hstage, update_of_ne hi]
  constructor
  · intro i j hi hj
    rw [hactive] at hi hj
    exact h.alone i j hi hj
  · exact fun _ _ => hrun
  · intro i hi
    rw [hlog]
    by_cases hic : i = call
    · rw [hic, hstage, update_self] at hi
      cases hi
    · rw [hstage, update_of_ne hic] at hi
      exact h.fresh i hi
  · exact fun _ => hrun
  · rw [hlog]
    exact h.once
  · intro i hi
    rw [hactive]
    exact h.holder i (by rw [← hlog]; exact hi)
  · rw [hlog]
    exact h.quiet

theorem putRun_wp {run : ExecutionRun} (hrun : run.runId = env.runId)
    (hw : At call .window false w) :
    wp (heartbeatRule env call) (putRun env call run) (fun _ => At call .recorded true)
      (fun _ => At call .window false) w := by
  unfold putRun
  rw [wp_seq]
  refine wp_mono _ (loud_wp hw rfl _) ?_ fun _ _ h => h
  intro _ w hw
  unfold noting
  rw [wp_seq]
  refine wp_mono _ (loud_wp hw rfl _) ?_ fun _ _ h => h
  intro _ w hw
  unfold wp Prog.attempt
  intro w' hinv hrely _
  obtain ⟨hstage, _⟩ := at_rely hw hrely Bool.false_ne_true.elim
  unfold Prog.attemptStep
  cases hput : putStores (.run run) none w'.stores with
  | error e =>
    simp only [hput]
    refine ⟨hinv, fun c _ => ⟨rfl, fun _ h => h⟩, ?_⟩
    unfold wp
    exact ⟨hstage, Bool.false_ne_true.elim⟩
  | ok r =>
    obtain ⟨revision, stores⟩ := r
    simp only [hput]
    have hhead := (putStores_extends hput).2
    rw [ExecutionRecord.key, hrun] at hhead
    refine ⟨exclusive_recorded hinv hstage rfl rfl hhead, ?_, ?_⟩
    · intro c hc
      exact ⟨update_of_ne hc _ _, fun _ h => h⟩
    · unfold wp
      exact ⟨update_self _ _ _, fun _ => hinv.fresh call hstage⟩

variable {p : Preflight} {decision : PolicyDecision} {budget : Option (String × Option BudgetUsage)}
variable {existing : Option ExecutionSession} {startedAt : Time}

theorem runStarted_safe {st : Started} {c : Checkout} (hw : At call .recorded true w) :
    Safe env call (runStarted env call st c startedAt) w := by
  unfold runStarted
  dsimp only
  apply guarded_safe rfl (routine_wp hw true (fun _ => rfl) (fun _ => rfl) _) (fun _ => inferInstance)
  intro _ w hw
  apply safe_bind (executeWithRenewal_wp hw)
  intro executed w hw
  apply guarded_safe rfl (loud_wp hw rfl _) (fun _ => inferInstance)
  intro result w hw
  exact routine_safe rfl _ hw

theorem runHeartbeat_safe (hw : At call .window false w) :
    Safe env call (runHeartbeat env call p decision budget existing startedAt) w := by
  unfold runHeartbeat
  dsimp only
  apply safe_bind (loud_wp hw rfl _)
  intro acquired w hw
  cases acquired with
  | error e => exact routine_safe rfl _ hw
  | ok c =>
    apply guarded_safe rfl (loud_wp hw rfl _) (fun _ => inferInstance)
    intro lease w hw
    apply guarded_safe rfl (loud_wp hw rfl _) (fun _ => inferInstance)
    intro session w hw
    apply guarded_safe rfl (putRun_wp rfl hw) (fun _ => inferInstance)
    intro _ w hw
    exact runStarted_safe hw

theorem decideHeartbeat_safe (hw : At call .window false w) :
    Safe env call (decideHeartbeat env call p startedAt) w := by
  unfold decideHeartbeat
  dsimp only
  split
  · exact routine_safe rfl _ hw
  · apply safe_bind (loud_wp hw rfl _)
    intro budget w hw
    apply safe_bind (loud_wp hw rfl _)
    intro approval w hw
    split
    · exact routine_safe rfl _ hw
    · apply safe_bind (loud_wp hw rfl _)
      intro _ w hw
      split
      · exact routine_safe rfl _ hw
      · split
        · exact routine_safe rfl _ hw
        · apply safe_bind (loud_wp hw rfl _)
          intro available w hw
          split
          · exact routine_safe rfl _ hw
          · apply safe_bind (loud_wp hw rfl _)
            intro existing w hw
            apply safe_bind (loud_wp hw rfl _)
            intro _ w hw
            exact runHeartbeat_safe hw

theorem startHeartbeat_safe (hw : At call .window false w) :
    Safe env call (startHeartbeat env call) w := by
  unfold startHeartbeat
  apply safe_bind (loud_wp hw rfl _)
  intro startedAt w hw
  apply safe_bind (loud_wp hw rfl _)
  intro a w hw
  dsimp only
  split
  · exact routine_safe rfl _ hw
  · split
    · exact routine_safe rfl _ hw
    · apply safe_bind (loud_wp hw rfl _)
      intro allowed w hw
      cases allowed with
      | error e => exact routine_safe rfl _ hw
      | ok _ =>
        apply safe_bind (loud_wp hw rfl _)
        intro preflight w hw
        cases preflight with
        | ok p => exact decideHeartbeat_safe hw
        | error e =>
          dsimp only
          split
          · exact routine_safe rfl _ hw
          · exact routine_safe rfl _ hw

theorem exclusive_entered {w w' : HeartbeatWorld} (h : Exclusive env w)
    (hstage : w.seen.stage call = .outside) (hnone : ¬RunExists env w)
    (hassume : CheckedAlone call .checkRun w)
    (hstage' : w'.seen.stage = update w.seen.stage call .window)
    (hlog : w'.seen.log = w.seen.log) : Exclusive env w' := by
  have hidle : ∀ i, (w.seen.stage i).active = true → False := by
    intro i hi
    simp only [CallStage.active, Bool.or_eq_true, beq_iff_eq] at hi
    rcases hi with hi | hi
    · by_cases hic : i = call
      · rw [hic, hstage] at hi
        cases hi
      · exact hassume rfl i hic hi
    · exact hnone (h.recorded i hi)
  have honly : ∀ i, (w'.seen.stage i).active = true → i = call := by
    intro i hi
    by_contra hic
    rw [hstage', update_of_ne hic] at hi
    exact hidle i hi
  constructor
  · exact fun i j hi hj => (honly i hi).trans (honly j hj).symm
  · intro i hi
    have hic := honly i (by rw [hi]; rfl)
    rw [hic, hstage', update_self] at hi
    cases hi
  · intro i _
    rw [hlog]
    by_contra hne
    exact hnone (h.ran hne)
  · intro hne
    rw [hlog] at hne
    exact absurd (h.ran hne) hnone
  · rw [hlog]
    exact h.once
  · intro i hi
    rw [hlog] at hi
    exact absurd (h.holder i hi) fun hactive => hidle i hactive
  · rw [hlog]
    exact h.quiet

theorem exclusive_idle {w w' : HeartbeatWorld} {s : CallStage} (h : Exclusive env w)
    (hs : s.active = false) (hstage : w'.seen.stage = update w.seen.stage call s)
    (hexec : executions w'.seen.log = executions w.seen.log)
    (hout : checkedOut call w'.seen.log = false)
    (hother : ∀ i, i ≠ call → checkedOut i w'.seen.log = checkedOut i w.seen.log)
    (hquiet : ∀ i, undisturbed i w'.seen.log = undisturbed i w.seen.log)
    (hrecords : w'.stores.records = w.stores.records) : Exclusive env w' := by
  have hsame : ∀ i, i ≠ call → w'.seen.stage i = w.seen.stage i := by
    intro i hi
    rw [hstage, update_of_ne hi]
  have hnot : ∀ i, (w'.seen.stage i).active = true → i ≠ call := by
    rintro i hi rfl
    rw [hstage, update_self, hs] at hi
    cases hi
  have hrun : RunExists env w → RunExists env w' := by
    intro hr
    unfold RunExists at hr ⊢
    rw [hrecords]
    exact hr
  constructor
  · intro i j hi hj
    have hi' := hsame i (hnot i hi)
    have hj' := hsame j (hnot j hj)
    rw [hi'] at hi
    rw [hj'] at hj
    exact h.alone i j hi hj
  · intro i hi
    have hi' := hsame i (hnot i (by rw [hi]; rfl))
    rw [hi'] at hi
    exact hrun (h.recorded i hi)
  · intro i hi
    have hi' := hsame i (hnot i (by rw [hi]; rfl))
    rw [hi'] at hi
    rw [hexec]
    exact h.fresh i hi
  · intro hne
    rw [hexec] at hne
    exact hrun (h.ran hne)
  · rw [hexec]
    exact h.once
  · intro i hi
    by_cases hic : i = call
    · rw [hic, hout] at hi
      cases hi
    · rw [hother i hic] at hi
      rw [hsame i hic]
      exact h.holder i hi
  · intro i
    rw [hquiet i]
    exact h.quiet i

theorem checkRun_wp (hw : At call .outside false w) :
    wp (heartbeatRule env call) (checkRun env call)
      (fun found w' => found = none → At call .window false w')
      (fun _ _ => True) w := by
  unfold checkRun noting
  rw [wp_seq]
  refine wp_mono _ (quiet_wp hw _) ?_ fun _ _ _ => trivial
  intro _ w hw
  unfold wp Prog.attempt
  intro w' hinv hrely hassume
  obtain ⟨hstage, _⟩ := at_rely hw hrely Bool.false_ne_true.elim
  have hout : checkedOut call w'.seen.log = false := by
    rw [Bool.eq_false_iff]
    intro hc
    have hactive := hinv.holder call hc
    rw [hstage] at hactive
    cases hactive
  have hothers : ∀ s c, c ≠ call →
      StaysFor c w' ⟨w'.stores, w'.seen.enter call s⟩ :=
    fun s c hc => ⟨update_of_ne hc _ _, fun _ h => h⟩
  have hbystander : Exclusive env ⟨w'.stores, w'.seen.enter call .bystander⟩ :=
    exclusive_idle hinv rfl rfl rfl hout (fun _ _ => rfl) (fun _ => rfl) rfl
  unfold Prog.attemptStep
  cases hhead : RecordTable.head w'.stores.records (.run,env.runId) with
  | none =>
    simp only [hhead]
    have hnone : ¬RunExists env w' := fun hr => hr hhead
    refine ⟨exclusive_entered hinv hstage hnone hassume rfl rfl, hothers _, ?_⟩
    unfold wp
    exact fun _ => ⟨update_self _ _ _, Bool.false_ne_true.elim⟩
  | some found =>
    obtain ⟨revision, record⟩ := found
    cases record with
    | run r =>
      simp only [hhead]
      refine ⟨hbystander, hothers _, ?_⟩
      unfold wp
      exact (absurd · (Option.some_ne_none _))
    | _ =>
      simp only [hhead]
      refine ⟨hinv, fun _ _ => ⟨rfl, fun _ h => h⟩, ?_⟩
      unfold wp
      trivial

theorem manualHeartbeat_safe (hw : At call .outside false w) :
    Safe env call (manualHeartbeat env call) w := by
  unfold manualHeartbeat
  refine safe_bind (@quiet_wp _ _ _ _ _ hw _ (access_records _ _ ?_)) ?_
  · intro s a s' h
    split at h
    · cases h
      rfl
    · split at h <;> cases h
      rfl
  intro receipt w hw
  cases receipt with
  | some receipt =>
    exact wp_mono _ (quiet_wp hw _) (fun _ _ _ => trivial) fun _ _ _ => trivial
  | none =>
    apply safe_bind (quiet_wp hw _)
    intro _ w hw
    apply safe_bind (quiet_wp hw _)
    intro claimed w hw
    apply safe_bind (quiet_wp hw _)
    intro _ w hw
    apply safe_bind (checkRun_wp hw)
    intro existing w hexisting
    cases existing with
    | none => exact startHeartbeat_safe (hexisting rfl)
    | some run =>
      have hrest : IsRoutine call false (do
          let result ← resultForRun env run true
          if run.status.terminal = true then finalizeReceipt env result else pure ()
          pure result) := inferInstance
      have hat : At call (w.seen.stage call) false w := ⟨rfl, Bool.false_ne_true.elim⟩
      exact wp_mono _ (quiet_wp hat _) (fun _ _ _ => trivial)
        fun _ _ _ => trivial

theorem exclusive_left {w : HeartbeatWorld} (h : Exclusive env w) (call : Caller) :
    Exclusive env ⟨w.stores, (w.seen.enter call .ended).note (.left call)⟩ := by
  refine exclusive_idle h rfl rfl ?_ ?_ ?_ ?_ rfl
  · exact executions_cons (.left call) _
  · simp [checkedOut, since, Observer.note, HeartbeatEvent.acquiredBy]
  · intro i hi
    exact checkedOut_other (fun he => hi he.symm) _
  · intro i
    simp [Observer.note, Observer.enter, undisturbed, disturbs]

theorem heartbeatCall_safe (hw : At call .outside false w) :
    Safe env call (heartbeatCall env call) w := by
  have hleave : ∀ w, wp (heartbeatRule env call) (Prog.set .other fun w =>
      {w with seen := (w.seen.enter call .ended).note (.left call)})
      (fun _ _ => True) (fun _ : HeartbeatError => fun _ => True) w := by
    intro w
    unfold wp Prog.set Prog.step
    intro w' hinv _ _
    refine ⟨exclusive_left hinv call, ?_, ?_⟩
    · intro c hc
      refine ⟨update_of_ne hc _ _, ?_⟩
      intro _ hnone
      exact (executions_cons (.left call) _).trans hnone
    · unfold wp
      trivial
  unfold Safe heartbeatCall
  rw [wp_tryFinally]
  exact wp_mono _ (manualHeartbeat_safe hw) (fun _ w _ => hleave w) fun _ w _ => hleave w
end

variable (call : Caller)

def lostCall (w : HeartbeatWorld) : HeartbeatWorld :=
  ⟨w.stores, (w.seen.enter call .ended).note (.left call)⟩

variable (env : HeartbeatEnv)

theorem heartbeat_compatible : Pool.Compatible (heartbeatRule env) lostCall (Exclusive env) where
  inv_eq _ := rfl
  preorder := heartbeatRule_preorder env
  guar i j _ _ _ hij _ hg := hg j fun h => hij h.symm
  lost_inv i _ h := exclusive_left h i
  lost_rely i j w hij _ := by
    refine ⟨update_of_ne (fun h => hij h.symm) _ _, ?_⟩
    intro _ hnone
    exact (executions_cons (.left i) _).trans hnone

abbrev HeartbeatPool :=
  Pool Caller HeartbeatWorld HeartbeatAccess HeartbeatError HeartbeatResult

def bothCalls (stores : HeartbeatStores) : HeartbeatPool :=
  ⟨fun call => some (heartbeatCall env call), ⟨stores, .initial⟩⟩

theorem bothCalls_disciplined (stores : HeartbeatStores) :
    Pool.Disciplined (heartbeatRule env) (Exclusive env) (bothCalls env stores) := by
  constructor
  · constructor
    · intro i j hi
      cases hi
    · intro i hi
      cases hi
    · exact fun _ _ => rfl
    · exact fun h => absurd rfl h
    · exact Nat.zero_le 1
    · intro i hi
      cases hi
    · exact fun _ => rfl
  · rintro call p ⟨⟩
    exact heartbeatCall_safe ⟨rfl, Bool.false_ne_true.elim⟩

/-- In every interleaving in which no call checks for the run record while the other one is
in its window, the adapter is executed at most once, and the other call disturbs neither
the leases nor the task of the one that executes it. -/
theorem heartbeat_executes_once (env : HeartbeatEnv) (stores : HeartbeatStores)
    {c : HeartbeatPool} (h : Pool.Reachable CheckedAlone lostCall (bothCalls env stores) c) :
    OneExecution c.world.seen.log :=
  exclusive_safe (Pool.reachable_disciplined (heartbeat_compatible env)
    (bothCalls_disciplined env stores) h).1

def demoScope : TaskGraphScope := ⟨"scope", "task", "graph"⟩

def demoWorkspace : TaskWorkspace := ⟨"workspace", "task", "worktree", "graph", "manifest"⟩

def demoEnv : HeartbeatEnv where
  assignmentId := "assignment"
  runId := "xrun"
  key := "key"
  requestSha256 := "request"
  approvalId := none
  resumedFromRunId := none
  now := some 0
  heartbeatsEnabled := true
  runtimeExecutionEnabled := true
  maxConcurrentRuns := 1
  ttlMs := 60000
  maxTranscriptEvents := 10
  employee := some ⟨"employee", 1, "configuration", "worktree"⟩
  adapterKnown _ := true
  persistable _ := true
  prepare _ := .ok ⟨1, 1, "configuration", demoScope, demoWorkspace⟩
  policy _ _ _ _ at_ := ⟨"decision", .allow, at_⟩
  existingSession _ := none
  resolveSession _ _ _ := ⟨false, some "session_missing"⟩
  createSession _ _ at_ := ⟨"session", none, "fingerprint", at_, none, .active, none, {}, none⟩
  leaseId _ := "lease"
  invocationId _ := "invocation"
  commentId _ := "comment"
  outcome _ := ⟨true, "completed", some 0, {}, [], none⟩
  changedFiles _ := .ok []
  summary _ _ := "done"

def demoAssignment : TaskAssignment :=
  ⟨"assignment", "task", 1, 1, "employee", "adapter_fake", none, some "scope", true, 1, 0⟩

def demoStores : HeartbeatStores where
  leases := .empty "epoch"
  operation := none
  receipt := none
  records := RecordTable.push (fun _ => []) (.assignment,"assignment") (.assignment demoAssignment)
  transcript := []
  board := ⟨1, ⟨.ready, 1, 0⟩, true, []⟩

def demoInputs : List Nat := List.replicate 12 0 ++ [1] ++ List.replicate 16 0

def anyOrder (_ : Caller) (_ : HeartbeatAccess) (_ : HeartbeatWorld) : Bool := true

def bothChecked : HeartbeatPool :=
  let checked := ((bothCalls demoEnv demoStores).advance anyOrder .first 6 [0,0,0]).advance
    anyOrder .second 6 [0,0,0]
  (checked.advance anyOrder .first 80 demoInputs).advance anyOrder .second 20
    (List.replicate 8 0)

theorem anyOrder_reachable (c : HeartbeatPool) (i : Caller) (n : Nat) (ins : List Nat) :
    Pool.Reachable (fun _ _ _ => True) lostCall c (c.advance anyOrder i n ins) :=
  Pool.advance_reachable (fun _ _ _ _ => trivial) c i n ins

/-- The second call moves the task of the executing run out of the running state. -/
theorem second_call_blocks_running_task :
    ¬∀ (env : HeartbeatEnv) (stores : HeartbeatStores) (c : HeartbeatPool),
      Pool.Reachable (fun _ _ _ => True) lostCall (bothCalls env stores) c →
      OneExecution c.world.seen.log := by
  intro hclaim
  have hreach : Pool.Reachable (fun _ _ _ => True) lostCall (bothCalls demoEnv demoStores)
      bothChecked :=
    (((anyOrder_reachable _ .first 6 [0,0,0]).trans (anyOrder_reachable _ .second 6 [0,0,0])).trans
      (anyOrder_reachable _ .first 80 demoInputs)).trans
        (anyOrder_reachable _ .second 20 (List.replicate 8 0))
  have hbad : ¬OneExecution bothChecked.world.seen.log := by decide +kernel
  exact hbad (hclaim demoEnv demoStores bothChecked hreach)

def checkedAlone (l : HeartbeatAccess) (w : HeartbeatWorld) : Bool :=
  l != .checkRun || [Caller.first, .second].all fun c => c == call || w.seen.stage c != .window

theorem checkedAlone_sound (l : HeartbeatAccess) (w : HeartbeatWorld)
    (h : checkedAlone call l w = true) : CheckedAlone call l w := by
  rintro rfl c hc
  cases c <;> simp_all [checkedAlone, bne_iff_ne]

def oneAfterOther : HeartbeatPool :=
  ((bothCalls demoEnv demoStores).advance checkedAlone .first 90 ([0,0,0] ++ demoInputs)).advance
    checkedAlone .second 40 (List.replicate 10 0)

/-- The first call executes the adapter, and the second one ends without touching it. -/
theorem second_call_ends_quietly :
    .executed .first ∈ oneAfterOther.world.seen.log ∧
      .left .second ∈ oneAfterOther.world.seen.log ∧
      OneExecution oneAfterOther.world.seen.log :=
  ⟨by decide +kernel, by decide +kernel, heartbeat_executes_once demoEnv demoStores
    ((Pool.advance_reachable checkedAlone_sound _ _ _ _).trans
      (Pool.advance_reachable checkedAlone_sound _ _ _ _))⟩

end RaytSystem.Execution
