import RaytSystem.WorkflowDag
import RaytSystem.WorkflowSafety

/-! A start that was cut short and called again. The step records are written before the
run record, each for the first time, so only the run record makes the call repeatable. -/
namespace RaytSystem.Workflow
open Interleaving RecordTable Prog

variable {J : Type}

def StepsCreated (env : WorkflowEnv J) (w : WorkflowWorld J) (workflowRunId : String)
    (nodeIds : List String) : Prop :=
  ∀ nodeId ∈ nodeIds, ∃ r, w.steps (env.stepRunId workflowRunId nodeId) = [r] ∧
    r.step.state = .pending ∧ r.step.workflowRunId = workflowRunId ∧ r.step.nodeId = nodeId

structure StartedRun (env : WorkflowEnv J) (revisionId : String) (run : WorkflowRun)
    (w : WorkflowWorld J) : Prop where
  state : run.state = .running
  revision : run.revisionId = revisionId
  steps : ∃ rev order, env.revision revisionId = some rev ∧
    order.Perm (rev.nodes.map WorkflowNode.nodeId) ∧
    run.stepRunIds = order.map (env.stepRunId run.workflowRunId) ∧
    StepsCreated env w run.workflowRunId order

structure ReturnsStarted (env : WorkflowEnv J) (revisionId : String)
    (p : WorkflowProg J WorkflowRun) (w : WorkflowWorld J) : Prop where
  returns : ∃ run w', Exec p w (.returned run) w'
  started : ∀ run w', Exec p w (.returned run) w' → StartedRun env revisionId run w'
  raises : ∀ e w', Exec p w (.raised e) w' → e = .emergencyError ∧ w' = w

structure Accepted (env : WorkflowEnv J) (revisionId idempotencyKey : String)
    (inputs : List (String × J)) (replayOfRunId : Option String) (workflowRunId : String)
    (rev : WorkflowRevision) (order : List String) : Prop where
  enabled : env.enabled = true
  runId : ∃ sha, env.safePayload "Workflow inputs" (env.inputsObject inputs) = .ok sha ∧
    workflowRunId = env.workflowRunId ⟨revisionId, sha, replayOfRunId, idempotencyKey⟩
  token : validToken workflowRunId = true
  revision : env.revision revisionId = some rev
  order : validateDag (fun op => (env.operation op).isSome) rev = .ok order

inductive StartPoint (env : WorkflowEnv J) (revisionId idempotencyKey : String)
    (inputs : List (String × J)) (replayOfRunId : Option String) (w₀ w : WorkflowWorld J) : Prop
  where
  | untouched (h : w = w₀)
  | steps {workflowRunId : String} {rev : WorkflowRevision} {nodeId : String}
      {done rest : List String}
      (haccepted : Accepted env revisionId idempotencyKey inputs replayOfRunId workflowRunId rev
        (nodeId :: done ++ rest))
      (hcreated : StepsCreated env w workflowRunId (nodeId :: done))
      (hrun : w.runs workflowRunId = [])
  | run {workflowRunId : String} {rev : WorkflowRevision} {order : List String}
      {r : RunRecord J}
      (haccepted : Accepted env revisionId idempotencyKey inputs replayOfRunId workflowRunId rev
        order)
      (hrun : w.runs workflowRunId = [r]) (hstarted : StartedRun env revisionId r.run w)

section
variable {env : WorkflowEnv J} {revisionId idempotencyKey : String} {inputs : List (String × J)}
  {replayOfRunId : Option String} {w₀ w : WorkflowWorld J}

attribute [local irreducible] wp

abbrev startRule (env : WorkflowEnv J) (revisionId idempotencyKey : String)
    (inputs : List (String × J)) (replayOfRunId : Option String) (w₀ : WorkflowWorld J) :
    Discipline (WorkflowWorld J) Unit :=
  sequential Unit (StartPoint env revisionId idempotencyKey inputs replayOfRunId w₀)

theorem stepsCreated_push {workflowRunId nodeId : String} {done : List String}
    {step : WorkflowStepRun} (h : StepsCreated env w workflowRunId done)
    (hempty : w.steps (env.stepRunId workflowRunId nodeId) = []) (hstate : step.state = .pending)
    (hrun : step.workflowRunId = workflowRunId) (hnode : step.nodeId = nodeId) : StepsCreated env
      {w with steps := push w.steps (env.stepRunId workflowRunId nodeId) ⟨step, none, none⟩}
      workflowRunId (done ++ [nodeId]) := by
  intro n hn
  rcases List.mem_append.mp hn with hn | hn
  · obtain ⟨r, hr, hfields⟩ := h n hn
    have hne : env.stepRunId workflowRunId n ≠ env.stepRunId workflowRunId nodeId := by
      intro he
      rw [← he, hr] at hempty
      cases hempty
    exact ⟨r, (push_other _ _ hne).trans hr, hfields⟩
  · rw [List.mem_singleton.mp hn]
    refine ⟨⟨step, none, none⟩, ?_, hstate, hrun, hnode⟩
    dsimp only
    rw [push_same, hempty, List.nil_append]

variable {rev : WorkflowRevision}

theorem createSteps_spec {workflowRunId inputSha256 : String} {done rest : List String}
    {Q : Unit → WorkflowWorld J → Prop}
    (haccepted : Accepted env revisionId idempotencyKey inputs replayOfRunId workflowRunId rev
      (done ++ rest)) (hpoint : StartPoint env revisionId idempotencyKey inputs replayOfRunId w₀ w)
    (hcreated : StepsCreated env w workflowRunId done) (hrun : w.runs workflowRunId = [])
    (h : ∀ w', StartPoint env revisionId idempotencyKey inputs replayOfRunId w₀ w' →
      StepsCreated env w' workflowRunId (done ++ rest) → w'.runs workflowRunId = [] → Q () w') :
    wp (startRule env revisionId idempotencyKey inputs replayOfRunId w₀)
      (createSteps env workflowRunId inputSha256 rest) Q (fun _ _ => True) w := by
  induction rest generalizing done w with
  | nil =>
    rw [createSteps, pure_eq, wp_pure]
    exact h w hpoint (by rwa [List.append_nil]) hrun
  | cons nodeId rest ih =>
    rw [createSteps, wp_seq, appendStep, wp_seq]
    refine wp_require _ (fun _ => ?_) fun _ => trivial
    refine wp_sequential_attempt hpoint ?_ fun _ _ => trivial
    intro n w' hw'
    split at hw'
    next steps happend =>
      obtain ⟨_, rfl⟩ := Prod.mk.inj (Except.ok.inj hw')
      obtain ⟨hempty, rfl⟩ := append_first happend
      have hsplit : done ++ nodeId :: rest = done ++ [nodeId] ++ rest := by simp
      have hcreated' : StepsCreated env ⟨push w.steps (env.stepRunId workflowRunId nodeId)
          ⟨⟨env.stepRunId workflowRunId nodeId, workflowRunId, nodeId, .pending, 1,
            env.idempotencyKey workflowRunId nodeId, inputSha256, none, none, none, none⟩,
            none, none⟩, w.runs, w.events⟩ workflowRunId (done ++ [nodeId]) :=
        stepsCreated_push hcreated hempty rfl rfl rfl
      rw [hsplit] at haccepted
      refine ⟨?_, ih haccepted ?_ hcreated' hrun (hsplit ▸ h)⟩
      all_goals
        cases done with
        | nil => exact .steps haccepted hcreated' hrun
        | cons first done => exact .steps haccepted hcreated' hrun
    next => cases hw'

variable {order : List String}

theorem startPoint_run {workflowRunId : String} {run : WorkflowRun} (events : List AuditEvent)
    (haccepted : Accepted env revisionId idempotencyKey inputs replayOfRunId workflowRunId rev order)
    (hcreated : StepsCreated env w workflowRunId order) (hempty : w.runs workflowRunId = [])
    (hid : run.workflowRunId = workflowRunId) (hstate : run.state = .running)
    (hrevision : run.revisionId = revisionId)
    (hsteps : run.stepRunIds = order.map (env.stepRunId workflowRunId)) :
    StartPoint env revisionId idempotencyKey inputs replayOfRunId w₀
      ⟨w.steps, push w.runs workflowRunId ⟨run, inputs⟩, events⟩ := by
  have hrun : push w.runs workflowRunId ⟨run, inputs⟩ workflowRunId = [⟨run, inputs⟩] := by
    rw [push_same, hempty, List.nil_append]
  subst hid
  refine .run haccepted hrun ⟨hstate, hrevision, rev, order, haccepted.revision,
    validateDag_perm haccepted.order, hsteps, ?_⟩
  exact fun n hn => hcreated n hn

theorem start_spec (actorId : String) (now : Int) :
    wp (startRule env revisionId idempotencyKey inputs replayOfRunId w)
      (start env revisionId actorId idempotencyKey inputs replayOfRunId now)
      (fun _ _ => True) (fun _ _ => True) w := by
  have hstart : StartPoint env revisionId idempotencyKey inputs replayOfRunId w w :=
    .untouched rfl
  rw [start, wp_seq, requireEnabled]
  refine wp_require _ (fun henabled => ?_) fun _ => trivial
  rw [wp_seq, assertRuntimeAllowed, wp_seq, wp_any]
  intro allowed
  refine wp_require _ (fun _ => ?_) fun _ => trivial
  rw [wp_seq]
  refine wp_ofExcept _ (fun sha hsha => ?_) fun _ _ => trivial
  dsimp only
  rw [wp_seq, headRun, wp_seq]
  refine wp_require _ (fun htoken => ?_) fun _ => trivial
  refine wp_sequential_get hstart ?_
  split
  next =>
    rw [pure_eq, wp_pure]
    trivial
  next hnone =>
    rw [wp_seq, loadRevision]
    refine wp_ofOption _ (fun rev hrev => ?_) fun _ => trivial
    rw [wp_seq, wp_any]
    intro current
    rw [wp_seq]
    refine wp_require _ (fun _ => ?_) fun _ => trivial
    rw [wp_seq]
    refine wp_ofExcept _ (fun order horder => ?_) fun _ _ => trivial
    have haccepted : Accepted env revisionId idempotencyKey inputs replayOfRunId
        (env.workflowRunId ⟨revisionId, sha, replayOfRunId, idempotencyKey⟩) rev ([] ++ order) :=
      ⟨henabled, ⟨sha, hsha, rfl⟩, htoken, hrev, horder⟩
    rw [wp_seq]
    refine createSteps_spec haccepted hstart (fun _ hn => absurd hn List.not_mem_nil)
      (head_eq_none.mp hnone) ?_
    intro w' hpoint hcreated hrun
    rw [wp_seq, appendRun, wp_seq]
    refine wp_require _ (fun _ => ?_) fun _ => trivial
    refine wp_sequential_attempt hpoint ?_ fun _ _ => trivial
    intro _ w'' hw''
    split at hw''
    next runs happend =>
      obtain ⟨_, rfl⟩ := Prod.mk.inj (Except.ok.inj hw'')
      obtain ⟨hempty, rfl⟩ := append_first happend
      have hwritten : ∀ events, StartPoint env revisionId idempotencyKey inputs replayOfRunId w
          ⟨w'.steps, push w'.runs (env.workflowRunId ⟨revisionId, sha, replayOfRunId,
            idempotencyKey⟩) ⟨⟨env.workflowRunId ⟨revisionId, sha, replayOfRunId, idempotencyKey⟩,
              revisionId, .running, sha, order.map (env.stepRunId (env.workflowRunId ⟨revisionId,
                sha, replayOfRunId, idempotencyKey⟩)), replayOfRunId, now, none⟩, inputs⟩,
            events⟩ :=
        fun events => startPoint_run events haccepted hcreated hempty rfl rfl rfl rfl
      refine ⟨hwritten _, ?_⟩
      rw [wp_seq, appendEvent, wp_seq]
      refine wp_require _ (fun _ => ?_) fun _ => trivial
      rw [wp_seq]
      refine wp_require _ (fun _ => ?_) fun _ => trivial
      rw [wp_seq]
      refine wp_require _ (fun _ => ?_) fun _ => trivial
      refine wp_sequential_set (hwritten _) ?_
      rw [pure_eq, wp_pure]
      trivial
    next => cases hw''

theorem createSteps_refused {workflowRunId inputSha256 nodeId : String} {rest : List String}
    (h : w.steps (env.stepRunId workflowRunId nodeId) ≠ []) :
    wp (sequential Unit fun _ => True) (createSteps env workflowRunId inputSha256 (nodeId :: rest))
      (fun _ _ => False) (fun _ _ => True) w := by
  rw [createSteps, wp_seq, appendStep, wp_seq]
  refine wp_require _ (fun _ => ?_) fun _ => trivial
  refine wp_sequential_attempt trivial ?_ fun _ _ => trivial
  intro n w' hw'
  split at hw'
  next steps happend => exact absurd (append_first happend).1 h
  next => cases hw'

variable {now : Int}

theorem retry_never_returns {workflowRunId nodeId actorId : String} {rest : List String}
    (haccepted : Accepted env revisionId idempotencyKey inputs replayOfRunId workflowRunId rev
      (nodeId :: rest)) (hstep : w.steps (env.stepRunId workflowRunId nodeId) ≠ [])
    (hrun : w.runs workflowRunId = []) : wp (sequential Unit fun _ => True)
      (start env revisionId actorId idempotencyKey inputs replayOfRunId now)
      (fun _ _ => False) (fun _ _ => True) w := by
  obtain ⟨sha, hsha, rfl⟩ := haccepted.runId
  rw [start, wp_seq, requireEnabled]
  refine wp_require _ (fun _ => ?_) fun _ => trivial
  rw [wp_seq, assertRuntimeAllowed, wp_seq, wp_any]
  intro allowed
  refine wp_require _ (fun _ => ?_) fun _ => trivial
  rw [wp_seq, hsha]
  refine wp_ofExcept _ (fun sha' hsha' => ?_) fun _ _ => trivial
  obtain rfl := Except.ok.inj hsha'
  rw [wp_seq, headRun, wp_seq]
  refine wp_require _ (fun _ => ?_) fun _ => trivial
  refine wp_sequential_get trivial ?_
  rw [head_eq_none.mpr hrun, wp_seq, loadRevision, haccepted.revision]
  refine wp_ofOption _ (fun rev' hrev' => ?_) fun _ => trivial
  obtain rfl := Option.some.inj hrev'
  rw [wp_seq, wp_any]
  intro current
  rw [wp_seq]
  refine wp_require _ (fun _ => ?_) fun _ => trivial
  rw [wp_seq, haccepted.order]
  refine wp_ofExcept _ (fun order horder => ?_) fun _ _ => trivial
  obtain rfl := Except.ok.inj horder
  rw [wp_seq]
  apply wp_mono _ (createSteps_refused hstep)
  · intro _ _ hfalse
    exact hfalse.elim
  · exact fun _ _ h => h

variable {workflowRunId actorId : String} {record : Stored (RunRecord J)}

theorem retry_hands_back
    (haccepted : Accepted env revisionId idempotencyKey inputs replayOfRunId workflowRunId rev order)
    (hhead : head w.runs workflowRunId = some record) : wp (sequential Unit fun w' => w' = w)
      (start env revisionId actorId idempotencyKey inputs replayOfRunId now)
      (fun run w' => run = record.value.run ∧ w' = w)
      (fun e w' => e = .emergencyError ∧ w' = w) w := by
  obtain ⟨sha, hsha, rfl⟩ := haccepted.runId
  rw [start, wp_seq, requireEnabled]
  refine wp_require _ (fun _ => ?_) fun h => absurd haccepted.enabled h
  rw [wp_seq, assertRuntimeAllowed, wp_seq, wp_any]
  intro allowed
  refine wp_require _ (fun _ => ?_) fun _ => ⟨rfl, rfl⟩
  rw [wp_seq, hsha]
  refine wp_ofExcept _ (fun sha' hsha' => ?_) fun _ h => nomatch h
  obtain rfl := Except.ok.inj hsha'
  rw [wp_seq, headRun, wp_seq]
  refine wp_require _ (fun _ => ?_) fun h => absurd haccepted.token h
  refine wp_sequential_get rfl ?_
  rw [hhead]
  dsimp only
  rw [pure_eq, wp_pure]
  exact ⟨rfl, rfl⟩

theorem retry_can_return
    (haccepted : Accepted env revisionId idempotencyKey inputs replayOfRunId workflowRunId rev order)
    (hhead : head w.runs workflowRunId = some record) :
    Exec (start env revisionId actorId idempotencyKey inputs replayOfRunId now) w
      (.returned record.value.run) w := by
  obtain ⟨sha, hsha, rfl⟩ := haccepted.runId
  have hallowed : Exec (assertRuntimeAllowed (J := J)) w (.returned ()) w :=
    .choose true (.pure () w)
  have hread : Exec (headRun (J := J) (env.workflowRunId ⟨revisionId, sha, replayOfRunId,
      idempotencyKey⟩)) w (.returned (some record)) w := by
    rw [headRun, require, if_pos haccepted.token, ← hhead]
    exact .act (.pure _ w)
  rw [start, requireEnabled, require, if_pos haccepted.enabled, hsha]
  exact exec_bind (.pure () w) (exec_bind hallowed (exec_bind (.pure sha w)
    (exec_bind hread (.pure _ w))))
end

def RunRecorded (env : WorkflowEnv J) (revisionId idempotencyKey : String)
    (inputs : List (String × J)) (replayOfRunId : Option String) (w : WorkflowWorld J) : Prop :=
  ∃ sha, env.safePayload "Workflow inputs" (env.inputsObject inputs) = .ok sha ∧
    w.runs (env.workflowRunId ⟨revisionId, sha, replayOfRunId, idempotencyKey⟩) ≠ []

/-- A start that lost its process between two writes can be repeated exactly when it had
written the run record. Then the repeated call hands back a running run whose steps are the
definition's, each pending at its first revision; otherwise no repetition ever returns. -/
theorem start_retry_iff {env : WorkflowEnv J} {revisionId actorId idempotencyKey : String}
    {inputs : List (String × J)} {replayOfRunId : Option String} {now : Int}
    {w w' : WorkflowWorld J}
    (hcrash : Exec (start env revisionId actorId idempotencyKey inputs replayOfRunId now) w
      .crashed w') (hwritten : w' ≠ w) (now' : Int) : ReturnsStarted env revisionId
        (start env revisionId actorId idempotencyKey inputs replayOfRunId now') w' ↔
      RunRecorded env revisionId idempotencyKey inputs replayOfRunId w' := by
  have hpoint : StartPoint env revisionId idempotencyKey inputs replayOfRunId w w' :=
    exec_sound (start_spec actorId now) (.untouched rfl) hcrash
  cases hpoint with
  | untouched h => exact absurd h hwritten
  | @steps workflowRunId _ nodeId _ _ haccepted hcreated hrun =>
    obtain ⟨r, hr, _⟩ := hcreated nodeId List.mem_cons_self
    have hne : w'.steps (env.stepRunId workflowRunId nodeId) ≠ [] := by
      rw [hr]
      exact List.cons_ne_nil r []
    constructor
    · rintro ⟨⟨run, w'', hx⟩, _, _⟩
      exact (exec_sound (retry_never_returns haccepted hne hrun) trivial hx).elim
    · rintro ⟨sha, hsha, hrecorded⟩
      obtain ⟨sha', hsha', rfl⟩ := haccepted.runId
      obtain rfl := Except.ok.inj (hsha.symm.trans hsha')
      exact absurd hrun hrecorded
  | @run workflowRunId _ _ r haccepted hrun hstarted =>
    have hhead : head w'.runs workflowRunId = some ⟨1, r⟩ := head_eq_some.mpr ⟨[], hrun, rfl⟩
    have hback := fun o w'' (hx : Exec (start env revisionId actorId idempotencyKey inputs
      replayOfRunId now') w' o w'') => exec_sound (retry_hands_back haccepted hhead) rfl hx
    constructor
    · intro _
      obtain ⟨sha, hsha, rfl⟩ := haccepted.runId
      exact ⟨sha, hsha, by rw [hrun]; exact List.cons_ne_nil r []⟩
    · intro _
      refine ⟨⟨_, _, retry_can_return haccepted hhead⟩, ?_, fun e w'' hx => hback _ _ hx⟩
      intro run w'' hx
      obtain ⟨rfl, rfl⟩ := hback _ _ hx
      exact hstarted

def chainStart : WorkflowProg Unit WorkflowRun := start chainEnv "rev" "actor" "key" [] none 0

def chainCrash (n : Nat) : WorkflowWorld Unit := (chainStart.play n [1,1] (.empty Unit)).2

theorem chainCrash_exec (n : Nat) : Exec chainStart (.empty Unit) .crashed (chainCrash n) :=
  exec_play_crashed n [1,1] chainStart (.empty Unit)

theorem chainCrash_written {n : Nat} (h : (chainCrash n).steps "first" ≠ []) :
    chainCrash n ≠ .empty Unit := by
  intro he
  rw [he] at h
  exact h rfl

/-- A start that was lost after the run record can be repeated. -/
theorem chain_retry_after_run :
    RunRecorded chainEnv "rev" "key" [] none (chainCrash 6) ∧
      ReturnsStarted chainEnv "rev" chainStart (chainCrash 6) := by
  have hrecorded : RunRecorded chainEnv "rev" "key" [] none (chainCrash 6) :=
    ⟨"sha", rfl, by decide +kernel⟩
  exact ⟨hrecorded, (start_retry_iff (chainCrash_exec 6)
    (chainCrash_written (by decide +kernel)) 0).mpr hrecorded⟩

/-- A start that was lost after its first step record cannot be repeated. -/
theorem chain_retry_after_step :
    ¬∀ (env : WorkflowEnv Unit) (revisionId actorId idempotencyKey : String)
      (inputs : List (String × Unit)) (replayOfRunId : Option String) (now now' : Int)
      (w w' : WorkflowWorld Unit),
      Exec (start env revisionId actorId idempotencyKey inputs replayOfRunId now) w .crashed w' →
      w' ≠ w → ReturnsStarted env revisionId
        (start env revisionId actorId idempotencyKey inputs replayOfRunId now') w' := by
  intro hclaim
  have hreturns := hclaim chainEnv "rev" "actor" "key" [] none 0 0 _ _ (chainCrash_exec 4)
    (chainCrash_written (by decide +kernel))
  have haccepted : Accepted chainEnv "rev" "key" ([] : List (String × Unit)) none "run"
      chainRevision ["first", "second"] :=
    ⟨rfl, ⟨"sha", rfl, rfl⟩, by decide +kernel, rfl, by decide +kernel⟩
  obtain ⟨run, w'', hx⟩ := hreturns.returns
  have hstep : (chainCrash 4).steps (chainEnv.stepRunId "run" "first") ≠ [] := by decide +kernel
  have hrun : (chainCrash 4).runs "run" = [] := by decide +kernel
  exact exec_sound (retry_never_returns haccepted hstep hrun) trivial hx

end RaytSystem.Workflow
