import RaytSystem.WorkflowPass

/-! Every workflow command keeps the discipline, whatever the others do between its
accesses; hence the safety of steps over all runs of any number of commands. -/
namespace RaytSystem.Workflow
open Interleaving RecordTable

variable {J : Type} {env : WorkflowEnv J} {w : WorkflowWorld J}

theorem ensures_waitingStep {rid nodeId : String} {expected : NodeType} {R : Stored (RunRecord J)}
    {Q : WorkflowNode × Stored (StepRecord J) → WorkflowWorld J → Prop} (hR : R.value ∈ w.runs rid)
    (h : ∀ node record w', Later w w' → ReadStep env w' rid record →
      record.value.step.state = .waiting → Q (node,record) w') :
    Ensures (discipline env) (waitingStep env R.value.run nodeId expected) Q w := by
  refine ensures_bind (ensures_ofOption fun rev _ => ?_)
  refine ensures_bind (ensures_ofOption fun node _ => ?_)
  refine ensures_guard fun _ => ?_
  refine ensures_bind (ensures_stepRecords hR (fun _ h => h) (readSteps_none _) fun records w' hl hrec => ?_)
  refine ensures_bind (ensures_ofOption fun record hrecord => ?_)
  exact ensures_bind (ensures_require fun hwaiting =>
    h node record w' hl (hrec nodeId record hrecord).2 hwaiting)

variable {rid : String}

theorem ensures_leaveWaiting {record : Stored (StepRecord J)} {step : WorkflowStepRun}
    {output : Option J} {failureReason : Option String} {Q : Nat → WorkflowWorld J → Prop}
    (hread : ReadStep env w rid record) (hwaiting : record.value.step.state = .waiting)
    (hskip : step.state ≠ .skipped) (hid : step.stepRunId = record.value.step.stepRunId)
    (hrun : step.workflowRunId = record.value.step.workflowRunId)
    (hnode : step.nodeId = record.value.step.nodeId) (h : ∀ n w', Later w w' → Q n w') :
    Ensures (discipline env) (persistStep step record.revision output failureReason) Q w := by
  have hw := readStep_writable hread (by simp [hwaiting])
  have hparents := hread.parents (by simp [hwaiting]) (by simp [hwaiting])
  rw [← hread.run, ← hnode, ← hrun] at hparents
  exact ensures_persistStep (writable_update hw hid hrun hnode) hskip (fun _ _ => hparents)
    fun w' hl _ => h _ w' hl

theorem ensures_grantApproval (workflowRunId nodeId approvalId actorId : String) (now : Int) :
    Ensures (discipline env) (grantApproval env workflowRunId nodeId approvalId actorId now)
      (fun _ _ => True) w := by
  refine ensures_bind (ensures_requireEnabled ?_)
  refine ensures_bind (ensures_assertRuntimeAllowed ?_)
  refine ensures_guard fun _ => ?_
  refine ensures_bind (ensures_loadRunningRun fun R w₁ hi hl₁ hhead _ => ?_)
  refine ensures_bind (ensures_waitingStep (head_mem hhead) fun node record w₂ hl₂ hread hst => ?_)
  refine ensures_bind (ensures_loadApprovalGate fun gate => ?_)
  dsimp only
  split
  · exact ensures_bind (ensures_leaveWaiting hread hst (by simp) rfl rfl rfl
      fun _ _ _ => ensures_fail)
  · refine ensures_bind (ensures_any fun authorized => ?_)
    refine ensures_guard fun _ => ?_
    refine ensures_bind (ensures_ofExcept fun outputSha256 _ => ?_)
    refine ensures_bind (ensures_leaveWaiting hread hst (by simp) rfl rfl rfl fun _ _ _ => ?_)
    exact ensures_bind (ensures_appendEvent fun _ _ => trivial)

variable (workflowRunId nodeId actorId : String)

theorem ensures_denyApproval (now : Int) :
    Ensures (discipline env) (denyApproval env workflowRunId nodeId actorId now)
      (fun _ _ => True) w := by
  refine ensures_bind (ensures_requireEnabled ?_)
  refine ensures_bind (ensures_assertRuntimeAllowed ?_)
  refine ensures_bind (ensures_loadRunningRun fun R w₁ hi hl₁ hhead hid => ?_)
  refine ensures_bind (ensures_waitingStep (head_mem hhead) fun node record w₂ hl₂ hread hst => ?_)
  refine ensures_bind (ensures_leaveWaiting hread hst (by simp) rfl rfl rfl fun _ w₃ hl₃ => ?_)
  have hseen := seen_extends (seen_head hhead) (later_trans hl₂ hl₃).runs
  refine ensures_bind ?_
  refine ensures_persistRun hseen hid rfl rfl fun _ _ => ?_
  exact ensures_bind (ensures_appendEvent fun _ _ => trivial)

theorem ensures_wake (now : Int) :
    Ensures (discipline env) (wake env workflowRunId nodeId actorId now) (fun _ _ => True) w := by
  refine ensures_bind (ensures_requireEnabled ?_)
  refine ensures_bind (ensures_assertRuntimeAllowed ?_)
  refine ensures_bind (ensures_loadRunningRun fun R w₁ hi hl₁ hhead _ => ?_)
  refine ensures_bind (ensures_waitingStep (head_mem hhead) fun node record w₂ hl₂ hread hst => ?_)
  dsimp only
  split
  · exact ensures_bind (ensures_leaveWaiting hread hst (by simp) rfl rfl rfl
      fun _ _ _ => ensures_fail)
  · refine ensures_bind (ensures_ofExcept fun outputSha256 _ => ?_)
    refine ensures_bind (ensures_leaveWaiting hread hst (by simp) rfl rfl rfl fun _ _ _ => ?_)
    exact ensures_bind (ensures_appendEvent fun _ _ => trivial)

theorem ensures_transitionRun (workflowRunId actorId : String) (expected next : RunState)
    (expectedName nextName eventType : String) : Ensures (discipline env)
      (transitionRun workflowRunId actorId expected next expectedName nextName eventType)
      (fun _ _ => True) w := by
  refine ensures_bind (ensures_loadRun fun R w₁ hi hl₁ hhead hid => ?_)
  refine ensures_guard fun _ => ?_
  have hseen := seen_head hhead
  refine ensures_bind ?_
  refine ensures_persistRun hseen hid rfl rfl fun _ _ => ?_
  exact ensures_bind (ensures_appendEvent fun _ _ => trivial)

variable {Q : Unit → WorkflowWorld J → Prop}

theorem ensures_cancelSteps {R : RunRecord J} {now : Int} {ids : List String} (hR : R ∈ w.runs rid)
    (hids : ∀ id ∈ ids, id ∈ R.run.stepRunIds) (h : ∀ w', Later w w' → Q () w') :
    Ensures (discipline env) (cancelSteps now ids) Q w := by
  induction ids generalizing w with
  | nil => exact h w (later_refl w)
  | cons id rest ih =>
    refine ensures_bind (ensures_headStep fun w' hi hl => ?_)
    refine ensures_bind (ensures_ofOption fun s hs => ?_)
    have hrest := fun id' (hid' : id' ∈ rest) => hids id' (List.mem_cons_of_mem id hid')
    have hR' := extends_mem hl.runs hR
    split
    next hcancel =>
      have hread := readStep_of_head hi hR' (hids id List.mem_cons_self) hs
      have hopen : s.value.step.state ≠ .succeeded := by
        intro hst
        simp [hst, StepState.cancellable] at hcancel
      -- a cancelled revision needs no parents
      refine ensures_bind (ensures_persistStep
        (writable_update (readStep_writable hread hopen) rfl rfl rfl) (by simp)
        (fun _ hc => absurd rfl hc) fun w'' hl' _ => ?_)
      exact ih (extends_mem hl'.runs hR') hrest
        fun w₃ hl₃ => h w₃ (later_trans hl (later_trans hl' hl₃))
    next => exact ih hR' hrest fun w₃ hl₃ => h w₃ (later_trans hl hl₃)

theorem ensures_cancel (workflowRunId actorId : String) (now : Int) :
    Ensures (discipline env) (cancel env workflowRunId actorId now) (fun _ _ => True) w := by
  refine ensures_bind (ensures_requireEnabled ?_)
  refine ensures_bind (ensures_loadRun fun R w₁ hi hl₁ hhead hid => ?_)
  refine ensures_guard fun _ => ?_
  refine ensures_bind (ensures_cancelSteps (head_mem hhead) (fun _ h => h) fun w₂ hl₂ => ?_)
  have hseen := seen_extends (seen_head hhead) hl₂.runs
  refine ensures_bind ?_
  refine ensures_persistRun hseen hid rfl rfl fun _ _ => ?_
  exact ensures_bind (ensures_appendEvent fun _ _ => trivial)

theorem ensures_appendFirstStep {step : WorkflowStepRun} {stepRunId : String}
    {Q : Nat → WorkflowWorld J → Prop} (hid : step.stepRunId = stepRunId)
    (hstate : step.state = .pending)
    (h : ∀ n w', Later w w' → Seen w'.steps stepRunId ⟨1, ⟨step, none, none⟩⟩ → Q n w') :
    Ensures (discipline env) (appendStep stepRunId none ⟨step, none, none⟩) Q w := by
  refine ensures_guard fun _ => ?_
  apply ensures_attempt fun w _ => legal_refl w
  intro w' b w'' hi hl _ hf
  split at hf
  next steps happ =>
    obtain ⟨hempty, rfl⟩ := append_first happ
    cases hf
    refine ⟨inv_push hi hid ?_ ?_ ?_ fun hp => absurd hstate hp,
      legal_push (Or.inl ⟨hempty, hstate⟩), h _ _ (later_trans hl later_push) ?_⟩
    · simp [hempty]
    · simp [head_eq_none.mpr hempty]
    · simp [hstate]
    · apply seen_head
      rw [head_push, hempty, List.length_nil]
  next => cases hf

def CreatedStep (env : WorkflowEnv J) (w : WorkflowWorld J) (workflowRunId nodeId : String) :
    Prop :=
  ∃ r ∈ w.steps (env.stepRunId workflowRunId nodeId),
    r.step.workflowRunId = workflowRunId ∧ r.step.nodeId = nodeId

theorem createdStep_later {w' : WorkflowWorld J} {rid nodeId : String}
    (h : CreatedStep env w rid nodeId) (hl : Later w w') : CreatedStep env w' rid nodeId := by
  obtain ⟨r, hr, hid⟩ := h
  exact ⟨r, extends_mem hl.steps hr, hid⟩

theorem ensures_createSteps {rid inputSha256 : String} {order : List String}
    (h : ∀ w', Later w w' → (∀ nodeId ∈ order, CreatedStep env w' rid nodeId) → Q () w') :
    Ensures (discipline env) (createSteps env rid inputSha256 order) Q w := by
  induction order generalizing w with
  | nil => exact h w (later_refl w) (List.forall_mem_nil _)
  | cons nodeId rest ih =>
    refine ensures_bind ?_
    refine ensures_appendFirstStep rfl rfl fun _ w' hl hseen => ?_
    apply ih
    intro w'' hl' hrest
    refine h w'' (later_trans hl hl') ?_
    intro n hn
    rcases List.mem_cons.mp hn with rfl | hn
    · exact createdStep_later ⟨_, seen_mem hseen, rfl, rfl⟩ hl'
    · exact hrest n hn

theorem ensures_appendFirstRun {run : WorkflowRun} {inputs : List (String × J)}
    {order : List String} (hid : run.workflowRunId = rid)
    (hsteps : run.stepRunIds = order.map (env.stepRunId rid))
    (hcreated : ∀ nodeId ∈ order, CreatedStep env w rid nodeId) (h : ∀ w', Q () w') :
    Ensures (discipline env) (appendRun rid none ⟨run, inputs⟩) Q w := by
  refine ensures_guard fun _ => ?_
  apply ensures_attempt fun w _ => legal_refl w
  intro w' b w'' hi hl _ hf
  split at hf
  next runs happ =>
    obtain ⟨hempty, rfl⟩ := append_first happ
    cases hf
    refine ⟨inv_pushRun hi hid (by simp [hempty]) ?_,
      legal_of_steps_eq rfl (push_extends _ _ _), h _⟩
    intro stepRunId hmem
    obtain ⟨nodeId, hnode, rfl⟩ := List.mem_map.mp (hsteps ▸ hmem)
    obtain ⟨r, hr, hrun, hn⟩ := createdStep_later (hcreated nodeId hnode) hl
    refine ⟨List.ne_nil_of_mem hr, ?_⟩
    intro s hs
    obtain ⟨hsr, hsn⟩ := hi.sameStep _ s hs r hr
    exact ⟨hsr.trans hrun, by rw [hsn, hn]⟩
  next => cases hf

theorem ensures_start (revisionId actorId idempotencyKey : String) (inputs : List (String × J))
    (replayOfRunId : Option String) (now : Int) : Ensures (discipline env)
      (start env revisionId actorId idempotencyKey inputs replayOfRunId now)
      (fun _ _ => True) w := by
  refine ensures_bind (ensures_requireEnabled ?_)
  refine ensures_bind (ensures_assertRuntimeAllowed ?_)
  refine ensures_bind (ensures_ofExcept fun inputSha256 _ => ?_)
  refine ensures_bind (ensures_headRun fun w₁ hi hl₁ => ?_)
  split
  · trivial
  · refine ensures_bind (ensures_ofOption fun rev _ => ?_)
    refine ensures_bind (ensures_any fun current => ?_)
    refine ensures_guard fun _ => ?_
    refine ensures_bind (ensures_ofExcept fun order _ => ?_)
    refine ensures_bind (ensures_createSteps fun w₂ hl₂ hcreated => ?_)
    refine ensures_bind (ensures_appendFirstRun rfl rfl hcreated fun _ => ?_)
    exact ensures_bind (ensures_appendEvent fun _ _ => trivial)

theorem ensures_command (cmd : WorkflowCommand J) :
    Ensures (discipline env) (cmd.prog env) (fun _ _ => True) w := by
  cases cmd with
  | start revisionId actorId key inputs replay now =>
    exact ensures_start revisionId actorId key inputs replay now
  | runReadySteps workflowRunId now => exact ensures_runReadySteps workflowRunId now
  | grantApproval workflowRunId nodeId approvalId actorId now =>
    exact ensures_grantApproval workflowRunId nodeId approvalId actorId now
  | denyApproval workflowRunId nodeId actorId now =>
    exact ensures_denyApproval workflowRunId nodeId actorId now
  | wake workflowRunId nodeId actorId now => exact ensures_wake workflowRunId nodeId actorId now
  | pause workflowRunId actorId =>
    refine ensures_bind (ensures_requireEnabled ?_)
    exact ensures_transitionRun _ _ _ _ _ _ _
  | resume workflowRunId actorId =>
    refine ensures_bind (ensures_requireEnabled ?_)
    exact ensures_transitionRun _ _ _ _ _ _ _
  | cancel workflowRunId actorId now => exact ensures_cancel workflowRunId actorId now

def workers {ι : Type} (env : WorkflowEnv J) (cmd : ι → WorkflowCommand J) :
    Pool ι (WorkflowWorld J) Unit WorkflowFault WorkflowRun :=
  ⟨fun i => some ((cmd i).prog env), .empty J⟩

section
variable {ι : Type}

theorem discipline_compatible :
    Pool.Compatible (fun _ : ι => discipline env) (fun _ w => w) (Inv env) where
  inv_eq _ := rfl
  preorder _ := discipline_preorder env
  guar _ _ _ _ _ _ _ hg := hg.later
  lost_inv _ _ hi := hi
  lost_rely _ _ w _ _ := later_refl w

theorem workers_disciplined (cmd : ι → WorkflowCommand J) :
    Pool.Disciplined (fun _ : ι => discipline env) (Inv env) (workers env cmd) := by
  refine ⟨inv_empty, ?_⟩
  rintro i p ⟨⟩
  exact ensures_command (cmd i)

variable [DecidableEq ι] (c c' : Pool ι (WorkflowWorld J) Unit WorkflowFault WorkflowRun)

abbrev Steps : Prop :=
  Pool.Step (fun _ _ _ => True) (fun _ w => w) c c'

abbrev Runs : Prop :=
  Pool.Reachable (fun _ _ _ => True) (fun _ w => w) c c'

theorem runs_disciplined {cmd : ι → WorkflowCommand J}
    {c : Pool ι (WorkflowWorld J) Unit WorkflowFault WorkflowRun} (hr : Runs (workers env cmd) c) :
    Pool.Disciplined (fun _ : ι => discipline env) (Inv env) c :=
  Pool.reachable_disciplined discipline_compatible (workers_disciplined cmd) hr

theorem steps_legal {c c' : Pool ι (WorkflowWorld J) Unit WorkflowFault WorkflowRun}
    (hd : Pool.Disciplined (fun _ : ι => discipline env) (Inv env) c) (hs : Steps c c') :
    Legal env c.world c'.world := by
  rcases Pool.step_world discipline_compatible hd hs with ⟨_, _, hg⟩ | he | ⟨_, he⟩
  · exact hg
  · rw [he]
    exact legal_refl _
  · rw [he]
    exact legal_refl _

theorem succeeded_once {w : WorkflowWorld J} (hi : Inv env w) (stepRunId : String) :
    ((w.steps stepRunId).countP fun r => r.step.state == .succeeded) ≤ 1 := by
  rcases List.eq_nil_or_concat (w.steps stepRunId) with h | ⟨older, r, h⟩
  · simp [h]
  · have hzero : (older.countP fun r => r.step.state == .succeeded) = 0 := by
      rw [List.countP_eq_zero]
      intro r' hr'
      simpa using hi.final stepRunId older r (by simpa using h) r' hr'
    rw [h, List.concat_eq_append, List.countP_append, hzero, List.countP_singleton]
    split <;> simp

/-- Step safety in every run of any number of workflow commands. A step succeeds at most
once; a succeeded step gets no further revision; and a revision that takes a step out of
pending, other than by cancelling it, or lets it succeed finds every parent succeeded. -/
theorem workflow_step_safety (env : WorkflowEnv J) (cmd : ι → WorkflowCommand J)
    {c c' : Pool ι (WorkflowWorld J) Unit WorkflowFault WorkflowRun}
    (hr : Runs (workers env cmd) c) (hs : Steps c c') (stepRunId : String) :
    ((c'.world.steps stepRunId).countP fun r => r.step.state == .succeeded) ≤ 1 ∧
    (stepState c.world stepRunId = some .succeeded →
      c'.world.steps stepRunId = c.world.steps stepRunId) ∧
    (∀ s, head c'.world.steps stepRunId = some s →
      c'.world.steps stepRunId ≠ c.world.steps stepRunId →
      s.value.step.state ≠ .pending → s.value.step.state ≠ .cancelled →
      ∃ R ∈ c.world.runs s.value.step.workflowRunId, ∃ rev,
        env.revision R.run.revisionId = some rev ∧
        ∀ parent ∈ rev.dependencies s.value.step.nodeId,
          stepState c.world (env.stepRunId s.value.step.workflowRunId parent) =
            some .succeeded) := by
  have hd := runs_disciplined hr
  have hl := steps_legal hd hs
  have hd' := Pool.step_disciplined discipline_compatible hd hs
  refine ⟨succeeded_once hd'.1 stepRunId, ?_, ?_⟩
  · intro hsucc
    rcases hl.change stepRunId with hsame | ⟨r, hpush, ⟨hempty, _⟩ | ⟨s, hs, hopen, _⟩⟩
    · exact hsame
    · rw [stepState, head_eq_none.mpr hempty] at hsucc
      cases hsucc
    · rw [stepState, hs] at hsucc
      exact absurd (Option.some.inj hsucc) hopen
  · intro s hhead hne hp hc
    rcases hl.change stepRunId with hsame | ⟨r, hpush, hchange⟩
    · exact absurd hsame hne
    · -- the head of the new history is the revision just appended
      obtain ⟨older, holder, _⟩ := head_eq_some.mp hhead
      obtain ⟨-, hr⟩ := List.append_inj' (holder.symm.trans hpush) rfl
      obtain rfl : s.value = r := List.head_eq_of_cons_eq hr
      rcases hchange with ⟨_, hpending⟩ | ⟨_, _, _, hparents⟩
      · exact absurd hpending hp
      · obtain ⟨R, hR, rev, hrev, hall⟩ := hparents hp hc
        refine ⟨R, hR, rev, hrev, ?_⟩
        intro parent hparent
        exact (succeeded_iff_stepState hd.1 _).mp (hall parent hparent)
end

def commandNode (nodeId : String) : WorkflowNode :=
  ⟨nodeId, .deterministicCommand, some "identity", none, none, 300⟩

def chainRevision : WorkflowRevision where
  revisionId := "rev"
  workflowId := "flow"
  nodes := [commandNode "first", commandNode "second"]
  edges := [⟨"first", "second", by decide⟩]
  nonempty := by decide
  unique := by decide
  known := by decide

def chainEnv : WorkflowEnv Unit where
  enabled := true
  operation op := if op = "identity" then some fun _ => .ok (some ()) else none
  revision _ := some chainRevision
  approvalGate _ := none
  retryPolicy _ := none
  safePayload _ _ := .ok "sha"
  object _ := ()
  inputsObject _ := ()
  workflowRunId _ := "run"
  stepRunId _ nodeId := nodeId
  idempotencyKey _ nodeId := nodeId

variable (cmd : WorkflowCommand Unit)

def chainCommands (b : Bool) : WorkflowCommand Unit :=
  if b then cmd else .start "rev" "actor" "key" [] none 0

abbrev ChainPool := Pool Bool (WorkflowWorld Unit) Unit WorkflowFault WorkflowRun

def chainStarted : ChainPool :=
  let start := ((chainCommands cmd false).prog chainEnv).play 7 [1,1] (.empty Unit)
  ⟨Function.update (workers chainEnv (chainCommands cmd)).thread false (some start.1), start.2⟩

def chainPool (n : Nat) : ChainPool :=
  let c := chainStarted cmd
  let later := (cmd.prog chainEnv).play n [1] c.world
  ⟨Function.update c.thread true (some later.1), later.2⟩

def chainNext (n : Nat) : ChainPool :=
  let c := chainPool cmd n
  let next := ((cmd.prog chainEnv).play n [1] (chainStarted cmd).world).1.play 1 [] c.world
  ⟨Function.update c.thread true (some next.1), next.2⟩

theorem chainPool_runs (n : Nat) :
    Runs (workers chainEnv (chainCommands cmd)) (chainPool cmd n) := by
  have hstart : Runs (workers chainEnv (chainCommands cmd)) (chainStarted cmd) :=
    Pool.reachable_play rfl 7 [1,1]
  have hthread : (chainStarted cmd).thread true = some (cmd.prog chainEnv) := rfl
  exact hstart.trans (Pool.reachable_play hthread n [1])

theorem chainNext_steps (n : Nat)
    (hact : ((cmd.prog chainEnv).play n [1] (chainStarted cmd).world).1.isAct = true) :
    Steps (chainPool cmd n) (chainNext cmd n) := by
  have hthread : (chainPool cmd n).thread true =
      some ((cmd.prog chainEnv).play n [1] (chainStarted cmd).world).1 := rfl
  exact Pool.step_play hthread hact

/-- The second step of the chain succeeds once the first one has. -/
theorem second_succeeds_after_first :
    let cmd : WorkflowCommand Unit := .runReadySteps "run" 1
    stepState (chainPool cmd 6).world "first" = some .succeeded ∧
    stepState (chainNext cmd 6).world "second" = some .succeeded ∧
    (((chainNext cmd 6).world.steps "second").countP fun r => r.step.state == .succeeded) ≤ 1 :=
  ⟨by decide +kernel, by decide +kernel,
    (workflow_step_safety chainEnv (chainCommands _) (chainPool_runs _ 6)
      (chainNext_steps _ 6 (by decide +kernel)) "second").1⟩

/-- Cancelling a run takes a pending step out of pending although its parent has not
succeeded. -/
theorem cancel_leaves_pending_early :
    ∃ c c' : ChainPool, Runs (workers chainEnv (chainCommands (.cancel "run" "actor" 1))) c ∧
      Steps c c' ∧ "first" ∈ chainRevision.dependencies "second" ∧
      stepState c.world "second" = some .pending ∧
      stepState c'.world "second" = some .cancelled ∧
      stepState c.world "first" ≠ some .succeeded :=
  ⟨chainPool _ 4, chainNext _ 4, chainPool_runs _ 4, chainNext_steps _ 4 (by decide +kernel),
    by decide, by decide +kernel, by decide +kernel, by decide +kernel⟩

end RaytSystem.Workflow
