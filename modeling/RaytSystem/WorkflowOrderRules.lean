import RaytSystem.WorkflowOrder

/-! The accesses of the workflow commands again, now with what they say about the order of
the steps and the end of the run. -/
namespace RaytSystem.Workflow
open Interleaving RecordTable

variable {J : Type} {env : WorkflowEnv J} {w : WorkflowWorld J} {workflowRunId : String}

theorem ordered_headRun {Q : Option (Stored (RunRecord J)) → WorkflowWorld J → Prop}
    (h : ∀ w', Ordered env w' → Inv env w' → Later w w' → Q (head w'.runs workflowRunId) w') :
    Ensures (orderDiscipline env) (headRun workflowRunId) Q w := by
  refine ensures_guard fun _ => ?_
  exact ensures_get (fun w _ => orderLegal_refl w) fun w' ho hl hi => h w' ho hi hl

theorem ordered_headStep {stepRunId : String}
    {Q : Option (Stored (StepRecord J)) → WorkflowWorld J → Prop}
    (h : ∀ w', Ordered env w' → Inv env w' → Later w w' → Q (head w'.steps stepRunId) w') :
    Ensures (orderDiscipline env) (headStep stepRunId) Q w := by
  refine ensures_guard fun _ => ?_
  exact ensures_get (fun w _ => orderLegal_refl w) fun w' ho hl hi => h w' ho hi hl

variable {Q : Unit → WorkflowWorld J → Prop}

theorem ordered_appendEvent {e : AuditEvent} (h : ∀ w', Later w w' → Q () w') :
    Ensures (orderDiscipline env) (appendEvent e) Q w := by
  refine ensures_guard fun _ => ?_
  refine ensures_guard fun _ => ?_
  refine ensures_guard fun _ => ?_
  apply ensures_set
  intro w' ho hl _
  have hevents : Later w' {w' with events := w'.events ++ [e]} :=
    ⟨extends_refl _, extends_refl _⟩
  refine ⟨⟨ho.stepFinal, ?_, ho.runFinal, ?_⟩, ⟨hevents, fun _ => Or.inl rfl, fun _ => Or.inl rfl⟩,
    h _ (later_trans hl hevents)⟩
  · exact fun k r hr => (ho.stepShape k r hr).imp_right fun hs => stepShape_later hs hevents
  · intro k R hR
    obtain ⟨order, hs⟩ := ho.runShape k R hR
    exact ⟨order, runShape_later hs hevents⟩

def OpenStep (w : WorkflowWorld J) (step : WorkflowStepRun) (revision : Nat) : Prop :=
  ∃ s, Seen w.steps step.stepRunId s ∧ s.revision = revision ∧ s.value.step.state.closed = false

theorem openStep_later {w' : WorkflowWorld J} {step : WorkflowStepRun} {revision : Nat}
    (h : OpenStep w step revision) (hl : Later w w') : OpenStep w' step revision := by
  obtain ⟨s, hs, hrest⟩ := h
  exact ⟨s, seen_extends hs hl.steps, hrest⟩

theorem readStep_open {rid : String} {s : Stored (StepRecord J)} (h : ReadStep env w rid s)
    (hopen : s.value.step.state.closed = false) : OpenStep w s.value.step s.revision :=
  ⟨s, h.seen, rfl, hopen⟩

theorem ordered_persistStep {step : WorkflowStepRun} {revision : Nat} {output : Option J}
    {failureReason : Option String} {Q : Nat → WorkflowWorld J → Prop}
    (hw : OpenStep w step revision)
    (hshape : ∀ w', Ordered env w' → Inv env w' → Later w w' → StepShape env w' step)
    (h : ∀ w', Later w w' → Seen w'.steps step.stepRunId
      ⟨revision + 1, ⟨step, output, failureReason⟩⟩ → Q (revision + 1) w') :
    Ensures (orderDiscipline env) (persistStep step revision output failureReason) Q w := by
  refine ensures_guard fun _ => ?_
  apply ensures_attempt fun w _ => orderLegal_refl w
  intro w' b w'' ho hl hi hf
  obtain ⟨s, hseen, hrev, hopen⟩ := openStep_later hw hl
  split at hf
  next steps happ =>
    obtain ⟨hhead, rfl⟩ := append_seen hseen (hrev ▸ happ)
    cases hf
    have hshape' := hshape w' ho hi hl
    have hopen' : ∀ s', head w'.steps step.stepRunId = some s' →
        s'.value.step.state.closed = false := by
      intro s' hs'
      rw [hhead] at hs'
      obtain rfl := Option.some.inj hs'
      exact hopen
    have hlen : (w'.steps step.stepRunId).length = revision := by
      obtain ⟨older, ho', hlen⟩ := head_eq_some.mp hhead
      rw [ho', List.length_append, List.length_singleton, hlen, hrev]
    refine ⟨ordered_pushStep ho hopen' (Or.inr hshape'), ?_, ?_⟩
    · exact orderLegal_pushStep (Or.inr ⟨s, hhead, hopen, hshape'.imp_left And.left⟩)
    · rw [hlen]
      refine h _ (later_trans hl later_push) (seen_head ?_)
      rw [head_push, hlen]
  next => cases hf

structure ReadRun (env : WorkflowEnv J) (w : WorkflowWorld J) (workflowRunId : String)
    (record : Stored (RunRecord J)) (order : List String) : Prop where
  seen : Seen w.runs workflowRunId record
  id : record.value.run.workflowRunId = workflowRunId
  accepted : AcceptedOrder env record.value.run.revisionId order
  steps : record.value.run.stepRunIds = order.map (env.stepRunId workflowRunId)
  created : ∀ n ∈ order, CreatedStep env w workflowRunId n

section
variable {rid : String} {record : Stored (RunRecord J)} {order : List String}

theorem readRun_later {w' : WorkflowWorld J} (h : ReadRun env w rid record order)
    (hl : Later w w') : ReadRun env w' rid record order :=
  ⟨seen_extends h.seen hl.runs, h.id, h.accepted, h.steps,
    fun n hn => createdStep_later (h.created n hn) hl⟩

theorem readRun_order (h : ReadRun env w rid record order) : OrderOf env w rid order :=
  ⟨record.value, seen_mem h.seen, h.accepted⟩

theorem readRun_head (ho : Ordered env w) (hi : Inv env w) (hhead : head w.runs rid = some record) :
    ∃ order, ReadRun env w rid record order := by
  obtain ⟨order, hs⟩ := ho.runShape rid record.value (head_mem hhead)
  exact ⟨order, seen_head hhead, hi.runId _ _ (head_mem hhead), hs.accepted, hs.steps, hs.created⟩

theorem ordered_persistRun {run : WorkflowRun} {inputs : List (String × J)}
    {Q : Unit → WorkflowWorld J → Prop} (hread : ReadRun env w rid record order)
    (hopen : record.value.run.state.terminal = false) (hid : run.workflowRunId = rid)
    (hrev : run.revisionId = record.value.run.revisionId)
    (hsteps : run.stepRunIds = record.value.run.stepRunIds)
    (hended : EndedAs env w rid order run.state) (h : ∀ w', Later w w' → Q () w') :
    Ensures (orderDiscipline env) (persistRun run record.revision inputs) Q w := by
  subst hid
  refine ensures_guard fun _ => ?_
  apply ensures_attempt fun w _ => orderLegal_refl w
  intro w' b w'' ho hl hi hf
  have hread' := readRun_later hread hl
  split at hf
  next runs happ =>
    obtain ⟨hhead, rfl⟩ := append_seen hread'.seen happ
    cases hf
    have hopen' : ∀ s, head w'.runs run.workflowRunId = some s →
        s.value.run.state.terminal = false := by
      intro s hs
      rw [hhead] at hs
      obtain rfl := Option.some.inj hs
      exact hopen
    have hshape : RunShape env w' run.workflowRunId run order :=
      ⟨hrev ▸ hread.accepted, hsteps.trans hread.steps, hread'.created, endedAs_later hended hl⟩
    exact ⟨ordered_pushRun ho hopen' hshape, orderLegal_pushRun hopen',
      h _ (later_trans hl later_pushRun)⟩
  next => cases hf
end

theorem ordered_requireEnabled (h : Q () w) :
    Ensures (orderDiscipline env) (requireEnabled env) Q w := ensures_require fun _ => h

theorem ordered_assertRuntimeAllowed (h : Q () w) :
    Ensures (orderDiscipline env) assertRuntimeAllowed Q w :=
  ensures_bind (ensures_any fun _ => ensures_require fun _ => h)

theorem ordered_loadRun {Q : Stored (RunRecord J) → WorkflowWorld J → Prop}
    (h : ∀ record order w', Later w w' → ReadRun env w' workflowRunId record order → Q record w') :
    Ensures (orderDiscipline env) (loadRun workflowRunId) Q w := by
  refine ensures_bind (ordered_headRun fun w' ho hi hl => ensures_ofOption ?_)
  intro record hrec
  obtain ⟨order, hread⟩ := readRun_head ho hi hrec
  exact h record order w' hl hread

theorem ordered_loadRunningRun {Q : Stored (RunRecord J) → WorkflowWorld J → Prop}
    (h : ∀ record order w', Later w w' → ReadRun env w' workflowRunId record order →
      record.value.run.state = .running → Q record w') :
    Ensures (orderDiscipline env) (loadRunningRun workflowRunId) Q w := by
  refine ensures_bind (ordered_loadRun fun record order w' hl hread => ?_)
  exact ensures_bind (ensures_require fun hrunning => h record order w' hl hread hrunning)

theorem ordered_stepRecords {rid : String} {R : RunRecord J} {ids : List String}
    {records : String → Option (Stored (StepRecord J))}
    {Q : (String → Option (Stored (StepRecord J))) → WorkflowWorld J → Prop} (hR : R ∈ w.runs rid)
    (hids : ∀ id ∈ ids, id ∈ R.run.stepRunIds) (hrec : ReadSteps env w rid records)
    (h : ∀ records w', Later w w' → ReadSteps env w' rid records → Q records w') :
    Ensures (orderDiscipline env) (stepRecords ids records) Q w := by
  induction ids generalizing w records with
  | nil => exact h records w (later_refl w) hrec
  | cons id rest ih =>
    refine ensures_bind (ordered_headStep fun w' _ hi hl => ?_)
    refine ensures_bind (ensures_ofOption fun s hs => ?_)
    have hR' := extends_mem hl.runs hR
    have hread := readStep_of_head hi hR' (hids id (by simp)) hs
    apply ih hR' (fun id' hid' => hids id' (by simp [hid'])) (readSteps_update hrec hl hread)
    intro records' w'' hl'
    exact h records' w'' (later_trans hl hl')

variable {node : WorkflowNode}

theorem ordered_loadRetryPolicy {Q : Option WorkflowRetryPolicy → WorkflowWorld J → Prop}
    (h : ∀ policy, Q policy w) : Ensures (orderDiscipline env) (loadRetryPolicy env node) Q w := by
  unfold loadRetryPolicy
  split
  · exact h none
  · exact ensures_bind (ensures_ofOption fun policy _ => h (some policy))

theorem ordered_loadApprovalGate {Q : WorkflowApprovalGate → WorkflowWorld J → Prop}
    (h : ∀ gate, Q gate w) : Ensures (orderDiscipline env) (loadApprovalGate env node) Q w :=
  ensures_bind (ensures_ofOption fun _ _ => ensures_ofOption fun gate _ => h gate)

theorem ordered_expiryLimit {Q : Nat × String → WorkflowWorld J → Prop} (h : ∀ limit, Q limit w) :
    Ensures (orderDiscipline env) (expiryLimit env node) Q w := by
  unfold expiryLimit
  split
  · exact ensures_bind (ordered_loadApprovalGate fun gate => h _)
  · exact h _

end RaytSystem.Workflow
