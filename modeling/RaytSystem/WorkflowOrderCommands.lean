import RaytSystem.WorkflowOrderPass

/-! Every workflow command keeps the order discipline: it writes to open steps and open runs
only, it takes a step up after all the earlier ones, and it ends a run as its steps are. -/
namespace RaytSystem.Workflow
open Interleaving RecordTable

variable {J : Type} {env : WorkflowEnv J} {w : WorkflowWorld J}
variable {order : List String} {R : Stored (RunRecord J)}

theorem ordered_waitingStep {rid nodeId : String} {expected : NodeType}
    {Q : WorkflowNode × Stored (StepRecord J) → WorkflowWorld J → Prop}
    (hR : ReadRun env w rid R order)
    (h : ∀ node record w', Later w w' → nodeId ∈ order → ReadStep env w' rid record →
      record.value.step.nodeId = nodeId → record.value.step.state = .waiting →
      Q (node,record) w') :
    Ensures (orderDiscipline env) (waitingStep env R.value.run nodeId expected) Q w := by
  refine ensures_bind (ensures_ofOption fun rev hrev => ?_)
  refine ensures_bind (ensures_ofOption fun node hnode => ?_)
  refine ensures_guard fun _ => ?_
  refine ensures_bind (ordered_stepRecords (seen_mem hR.seen) (fun _ h => h) (readSteps_none _)
    fun records w' hl hrec => ?_)
  refine ensures_bind (ensures_ofOption fun record hrecord => ?_)
  refine ensures_guard fun hwaiting => ?_
  -- the node is one of the revision's, so the accepted order lists it
  have hmem : nodeId ∈ order := by
    obtain ⟨rev', hrev', horder⟩ := hR.accepted
    obtain rfl := Option.some.inj (hrev.symm.trans hrev')
    have hid : node.nodeId = nodeId := by simpa using List.find?_some hnode
    rw [(validateDag_perm horder).mem_iff, ← hid]
    exact List.mem_map_of_mem (List.mem_of_find?_eq_some hnode)
  obtain ⟨hid, hread⟩ := hrec nodeId record hrecord
  exact h node record w' hl hmem hread hid hwaiting

variable {rid : String}

theorem ordered_leaveWaiting {rid : String} {record : Stored (StepRecord J)}
    {step : WorkflowStepRun} {output : Option J} {failureReason : Option String}
    {Q : Nat → WorkflowWorld J → Prop} (hread : ReadStep env w rid record)
    (hwaiting : record.value.step.state = .waiting)
    (hid : step.stepRunId = record.value.step.stepRunId)
    (hrun : step.workflowRunId = record.value.step.workflowRunId)
    (hnode : step.nodeId = record.value.step.nodeId)
    (h : ∀ n w', Later w w' → (∃ r ∈ w'.steps record.value.step.stepRunId, r.step = step) → Q n w') :
    Ensures (orderDiscipline env) (persistStep step record.revision output failureReason) Q w := by
  have hw := readStep_open hread (by rw [hwaiting]; rfl)
  have hw' : OpenStep w step record.revision := by
    obtain ⟨s, hs, hrest⟩ := hw
    exact ⟨s, hid ▸ hs, hrest⟩
  refine ordered_persistStep hw' ?_ fun w' hl hseen => h _ w' hl ⟨_, hid ▸ seen_mem hseen, rfl⟩
  intro w' ho _ hl
  right
  have hmem := seen_mem (seen_extends hread.seen hl.steps)
  rcases ho.stepShape _ _ hmem with ⟨hp, -⟩ | ⟨hc, -⟩ | hearlier
  · rw [hwaiting] at hp
    cases hp
  · rw [hwaiting] at hc
    cases hc
  · rw [hrun, hnode]
    exact hearlier

theorem ordered_grantApproval (workflowRunId nodeId approvalId actorId : String) (now : Int) :
    Ensures (orderDiscipline env) (grantApproval env workflowRunId nodeId approvalId actorId now)
      (fun _ _ => True) w := by
  refine ensures_bind (ordered_requireEnabled ?_)
  refine ensures_bind (ordered_assertRuntimeAllowed ?_)
  refine ensures_guard fun _ => ?_
  refine ensures_bind (ordered_loadRunningRun fun R order w₁ hl₁ hR _ => ?_)
  refine ensures_bind (ordered_waitingStep hR fun node record w₂ hl₂ _ hread _ hst => ?_)
  refine ensures_bind (ordered_loadApprovalGate fun gate => ?_)
  dsimp only
  split
  · exact ensures_bind (ordered_leaveWaiting hread hst rfl rfl rfl fun _ _ _ _ => ensures_fail)
  · refine ensures_bind (ensures_any fun authorized => ?_)
    refine ensures_guard fun _ => ?_
    refine ensures_bind (ensures_ofExcept fun outputSha256 _ => ?_)
    refine ensures_bind (ordered_leaveWaiting hread hst rfl rfl rfl fun _ _ _ _ => ?_)
    exact ensures_bind (ordered_appendEvent fun _ _ => trivial)

variable (workflowRunId nodeId actorId : String)

theorem ordered_denyApproval (now : Int) :
    Ensures (orderDiscipline env) (denyApproval env workflowRunId nodeId actorId now)
      (fun _ _ => True) w := by
  refine ensures_bind (ordered_requireEnabled ?_)
  refine ensures_bind (ordered_assertRuntimeAllowed ?_)
  refine ensures_bind (ordered_loadRunningRun fun R order w₁ hl₁ hR hrunning => ?_)
  refine ensures_bind (ordered_waitingStep hR fun node record w₂ hl₂ hmem hread hnode hst => ?_)
  refine ensures_bind (ordered_leaveWaiting hread hst rfl rfl rfl fun _ w₃ hl₃ hdenied => ?_)
  obtain ⟨r, hr, hstep⟩ := hdenied
  rw [hread.id, hnode] at hr
  have hbroken : StepBroken w₃ (env.stepRunId workflowRunId nodeId) :=
    ⟨r, hr, Or.inl (by rw [hstep])⟩
  have hopen : R.value.run.state.terminal = false := by rw [hrunning]; rfl
  have hR₃ := readRun_later hR (later_trans hl₂ hl₃)
  refine ensures_bind ?_
  refine ordered_persistRun hR₃ hopen hR.id rfl rfl ⟨nodeId, hmem, hbroken⟩ fun _ _ => ?_
  exact ensures_bind (ordered_appendEvent fun _ _ => trivial)

theorem ordered_wake (now : Int) :
    Ensures (orderDiscipline env) (wake env workflowRunId nodeId actorId now)
      (fun _ _ => True) w := by
  refine ensures_bind (ordered_requireEnabled ?_)
  refine ensures_bind (ordered_assertRuntimeAllowed ?_)
  refine ensures_bind (ordered_loadRunningRun fun R order w₁ hl₁ hR _ => ?_)
  refine ensures_bind (ordered_waitingStep hR fun node record w₂ hl₂ _ hread _ hst => ?_)
  dsimp only
  split
  · exact ensures_bind (ordered_leaveWaiting hread hst rfl rfl rfl fun _ _ _ _ => ensures_fail)
  · refine ensures_bind (ensures_ofExcept fun outputSha256 _ => ?_)
    refine ensures_bind (ordered_leaveWaiting hread hst rfl rfl rfl fun _ _ _ _ => ?_)
    exact ensures_bind (ordered_appendEvent fun _ _ => trivial)

theorem ordered_transitionRun (workflowRunId actorId : String) {expected next : RunState}
    (expectedName nextName eventType : String) (hexpected : expected.terminal = false)
    (hnext : next.terminal = false) : Ensures (orderDiscipline env)
      (transitionRun workflowRunId actorId expected next expectedName nextName eventType)
      (fun _ _ => True) w := by
  refine ensures_bind (ordered_loadRun fun R order w₁ hl₁ hR => ?_)
  refine ensures_guard fun hstate => ?_
  have hended : EndedAs env w₁ workflowRunId order next := by
    cases next <;> trivial
  refine ensures_bind ?_
  refine ordered_persistRun hR (hstate ▸ hexpected) hR.id rfl rfl hended fun _ _ => ?_
  exact ensures_bind (ordered_appendEvent fun _ _ => trivial)

theorem closed_of_cancellable {state : StepState} (h : state.cancellable = true) :
    state.closed = false := by
  cases state <;> first | rfl | cases h

theorem closed_of_not_cancellable {state : StepState} (h : ¬state.cancellable = true)
    (hskip : state ≠ .skipped) : state.closed = true := by
  cases state <;> first | rfl | exact absurd rfl h | exact absurd rfl hskip

theorem terminal_of_cancellable {state : RunState} (h : state.cancellable = true) :
    state.terminal = false := by
  cases state <;> first | rfl | cases h

variable {Q : Unit → WorkflowWorld J → Prop}

theorem ordered_cancelSteps {now : Int} {order pre rest : List String}
    (hR : ReadRun env w rid R order) (hsplit : order = pre ++ rest)
    (hclosed : ∀ m ∈ pre, StepClosed w (env.stepRunId rid m))
    (h : ∀ w', Later w w' → (∀ m ∈ order, StepClosed w' (env.stepRunId rid m)) → Q () w') :
    Ensures (orderDiscipline env) (cancelSteps now (rest.map (env.stepRunId rid))) Q w := by
  induction rest generalizing w pre with
  | nil =>
    rw [List.append_nil] at hsplit
    subst hsplit
    exact h w (later_refl w) hclosed
  | cons nodeId rest ih =>
    have hmem : nodeId ∈ order := by simp [hsplit]
    have hnext : order = pre ++ [nodeId] ++ rest := by simp [hsplit]
    have hgrow : ∀ {w'}, Later w w' → StepClosed w' (env.stepRunId rid nodeId) →
        ∀ m ∈ pre ++ [nodeId], StepClosed w' (env.stepRunId rid m) := by
      intro w' hl hc m hm
      rcases List.mem_append.mp hm with hm | hm
      · exact stepClosed_later (hclosed m hm) hl
      · rw [List.mem_singleton.mp hm]
        exact hc
    refine ensures_bind (ordered_headStep fun w' _ hi hl => ?_)
    refine ensures_bind (ensures_ofOption fun s hs => ?_)
    have hR' := readRun_later hR hl
    have hstepMem : env.stepRunId rid nodeId ∈ R.value.run.stepRunIds := by
      rw [hR.steps]
      exact List.mem_map_of_mem hmem
    have hread := readStep_of_head hi (seen_mem hR'.seen) hstepMem hs
    have hid := hi.stepId _ _ (head_mem hs)
    split
    next hcancel =>
      have hopen : s.value.step.state.closed = false := by
        exact closed_of_cancellable hcancel
      have hnode : s.value.step.nodeId = nodeId := by
        obtain ⟨r, hr, -, hn⟩ := hR'.created nodeId hmem
        rw [← hn]
        exact (hi.sameStep _ _ (head_mem hs) r hr).2
      have hearlier : Earlier env w' StepClosed rid s.value.step.nodeId :=
        ⟨order, pre, rest, readRun_order hR', by rw [hnode, hsplit],
          fun m hm => stepClosed_later (hclosed m hm) hl⟩
      rw [← hread.run] at hearlier
      refine ensures_bind (ordered_persistStep (readStep_open hread hopen) ?_
        fun w'' hl' hseen => ?_)
      · exact fun w₃ _ _ hl₃ => Or.inl ⟨rfl, earlier_later
          (fun _ hm => stepClosed_later hm hl₃) hearlier hl₃⟩
      · have hc : StepClosed w'' (env.stepRunId rid nodeId) :=
          ⟨_, hid ▸ seen_mem hseen, rfl⟩
        have hl'' := later_trans hl hl'
        exact ih (readRun_later hR hl'') hnext (hgrow hl'' hc)
          fun w₃ hl₃ hall => h w₃ (later_trans hl'' hl₃) hall
    next hcancel =>
      have hc : StepClosed w' (env.stepRunId rid nodeId) := by
        have hskip := hi.notSkipped _ _ (head_mem hs)
        exact ⟨s.value, head_mem hs, closed_of_not_cancellable hcancel hskip⟩
      exact ih hR' hnext (hgrow hl hc) fun w₃ hl₃ hall => h w₃ (later_trans hl hl₃) hall

theorem ordered_cancel (workflowRunId actorId : String) (now : Int) :
    Ensures (orderDiscipline env) (cancel env workflowRunId actorId now) (fun _ _ => True) w := by
  refine ensures_bind (ordered_requireEnabled ?_)
  refine ensures_bind (ordered_loadRun fun R order w₁ hl₁ hR => ?_)
  refine ensures_guard fun hcancellable => ?_
  have hopen := terminal_of_cancellable hcancellable
  rw [hR.steps]
  refine ensures_bind (ordered_cancelSteps hR (List.nil_append order).symm
    (List.forall_mem_nil _) fun w₂ hl₂ hclosed => ?_)
  refine ensures_bind ?_
  refine ordered_persistRun (readRun_later hR hl₂) hopen hR.id rfl rfl hclosed
    fun _ _ => ?_
  exact ensures_bind (ordered_appendEvent fun _ _ => trivial)

theorem ordered_appendFirstStep {step : WorkflowStepRun} {stepRunId : String}
    {Q : Nat → WorkflowWorld J → Prop} (hstate : step.state = .pending)
    (hstarted : step.startedAt = none)
    (h : ∀ n w', Later w w' → Seen w'.steps stepRunId ⟨1, ⟨step, none, none⟩⟩ → Q n w') :
    Ensures (orderDiscipline env) (appendStep stepRunId none ⟨step, none, none⟩) Q w := by
  refine ensures_guard fun _ => ?_
  apply ensures_attempt fun w _ => orderLegal_refl w
  intro w' b w'' ho hl _ hf
  split at hf
  next steps happ =>
    obtain ⟨hempty, rfl⟩ := append_first happ
    cases hf
    have hnone : head w'.steps stepRunId = none := head_eq_none.mpr hempty
    refine ⟨ordered_pushStep ho (by simp [hnone]) (Or.inl ⟨hstate, hstarted⟩),
      orderLegal_pushStep (Or.inl ⟨hempty, hstate, hstarted⟩), h _ _ (later_trans hl later_push) ?_⟩
    apply seen_head
    rw [head_push, hempty, List.length_nil]
  next => cases hf

theorem ordered_createSteps {rid inputSha256 : String}
    (h : ∀ w', Later w w' → (∀ nodeId ∈ order, CreatedStep env w' rid nodeId) → Q () w') :
    Ensures (orderDiscipline env) (createSteps env rid inputSha256 order) Q w := by
  induction order generalizing w with
  | nil => exact h w (later_refl w) (List.forall_mem_nil _)
  | cons nodeId rest ih =>
    refine ensures_bind ?_
    refine ordered_appendFirstStep rfl rfl fun _ w' hl hseen => ?_
    apply ih
    intro w'' hl' hrest
    refine h w'' (later_trans hl hl') ?_
    intro n hn
    rcases List.mem_cons.mp hn with rfl | hn
    · exact createdStep_later ⟨_, seen_mem hseen, rfl, rfl⟩ hl'
    · exact hrest n hn

theorem ordered_appendFirstRun {run : WorkflowRun} {inputs : List (String × J)}
    (hshape : RunShape env w rid run order) (h : ∀ w', Q () w') :
    Ensures (orderDiscipline env) (appendRun rid none ⟨run, inputs⟩) Q w := by
  refine ensures_guard fun _ => ?_
  apply ensures_attempt fun w _ => orderLegal_refl w
  intro w' b w'' ho hl _ hf
  split at hf
  next runs happ =>
    obtain ⟨hempty, rfl⟩ := append_first happ
    cases hf
    have hopen : ∀ s, head w'.runs rid = some s → s.value.run.state.terminal = false := by
      intro s hs
      rw [head_eq_none.mpr hempty] at hs
      cases hs
    exact ⟨ordered_pushRun ho hopen (runShape_later hshape hl), orderLegal_pushRun hopen, h _⟩
  next => cases hf

theorem ordered_start (revisionId actorId idempotencyKey : String) (inputs : List (String × J))
    (replayOfRunId : Option String) (now : Int) : Ensures (orderDiscipline env)
      (start env revisionId actorId idempotencyKey inputs replayOfRunId now)
      (fun _ _ => True) w := by
  refine ensures_bind (ordered_requireEnabled ?_)
  refine ensures_bind (ordered_assertRuntimeAllowed ?_)
  refine ensures_bind (ensures_ofExcept fun inputSha256 _ => ?_)
  refine ensures_bind (ordered_headRun fun w₁ _ _ hl₁ => ?_)
  split
  · trivial
  · refine ensures_bind (ensures_ofOption fun rev hrev => ?_)
    refine ensures_bind (ensures_any fun current => ?_)
    refine ensures_guard fun _ => ?_
    refine ensures_bind (ensures_ofExcept fun order horder => ?_)
    refine ensures_bind (ordered_createSteps fun w₂ hl₂ hcreated => ?_)
    refine ensures_bind (ordered_appendFirstRun ⟨⟨rev, hrev, horder⟩, rfl, hcreated, trivial⟩
      fun _ => ?_)
    exact ensures_bind (ordered_appendEvent fun _ _ => trivial)

theorem ordered_command (cmd : WorkflowCommand J) :
    Ensures (orderDiscipline env) (cmd.prog env) (fun _ _ => True) w := by
  cases cmd with
  | start revisionId actorId key inputs replay now =>
    exact ordered_start revisionId actorId key inputs replay now
  | runReadySteps workflowRunId now => exact ordered_runReadySteps workflowRunId now
  | grantApproval workflowRunId nodeId approvalId actorId now =>
    exact ordered_grantApproval workflowRunId nodeId approvalId actorId now
  | denyApproval workflowRunId nodeId actorId now =>
    exact ordered_denyApproval workflowRunId nodeId actorId now
  | wake workflowRunId nodeId actorId now => exact ordered_wake workflowRunId nodeId actorId now
  | pause workflowRunId actorId =>
    refine ensures_bind (ordered_requireEnabled ?_)
    exact ordered_transitionRun _ _ _ _ _ rfl rfl
  | resume workflowRunId actorId =>
    refine ensures_bind (ordered_requireEnabled ?_)
    exact ordered_transitionRun _ _ _ _ _ rfl rfl
  | cancel workflowRunId actorId now => exact ordered_cancel workflowRunId actorId now

end RaytSystem.Workflow
