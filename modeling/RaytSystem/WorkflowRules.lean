import RaytSystem.WorkflowInvariant

/-! One rule for each access of the workflow commands to the platform store. -/
namespace RaytSystem.Workflow
open Interleaving RecordTable

variable {J : Type} {env : WorkflowEnv J} {w : WorkflowWorld J} {workflowRunId : String}

theorem ensures_headRun {Q : Option (Stored (RunRecord J)) → WorkflowWorld J → Prop}
    (h : ∀ w', Inv env w' → Later w w' → Q (head w'.runs workflowRunId) w') :
    Ensures (discipline env) (headRun workflowRunId) Q w := by
  refine ensures_guard fun _ => ?_
  exact ensures_get (fun w _ => legal_refl w) fun w' hi hl _ => h w' hi hl

theorem ensures_headStep {stepRunId : String}
    {Q : Option (Stored (StepRecord J)) → WorkflowWorld J → Prop}
    (h : ∀ w', Inv env w' → Later w w' → Q (head w'.steps stepRunId) w') :
    Ensures (discipline env) (headStep stepRunId) Q w := by
  refine ensures_guard fun _ => ?_
  exact ensures_get (fun w _ => legal_refl w) fun w' hi hl _ => h w' hi hl

variable {Q : Unit → WorkflowWorld J → Prop}

theorem ensures_appendEvent {e : AuditEvent} (h : ∀ w', Later w w' → Q () w') :
    Ensures (discipline env) (appendEvent e) Q w := by
  refine ensures_guard fun _ => ?_
  refine ensures_guard fun _ => ?_
  refine ensures_guard fun _ => ?_
  apply ensures_set
  intro w' hi hl _
  refine ⟨⟨hi.stepId, hi.sameStep, hi.runId, hi.sameRun, hi.runSteps, hi.notSkipped, hi.final,
    hi.parents⟩, legal_of_steps_eq rfl (extends_refl _), h _ ⟨hl.steps, hl.runs⟩⟩

theorem ensures_persistStep {step : WorkflowStepRun} {revision : Nat} {output : Option J}
    {failureReason : Option String} {Q : Nat → WorkflowWorld J → Prop}
    (hw : Writable w step revision) (hskip : step.state ≠ .skipped)
    (hparents : step.state ≠ .pending → step.state ≠ .cancelled →
      ParentsSucceeded env w step.workflowRunId step.nodeId)
    (h : ∀ w', Later w w' → Seen w'.steps step.stepRunId
      ⟨revision + 1, ⟨step, output, failureReason⟩⟩ → Q (revision + 1) w') :
    Ensures (discipline env) (persistStep step revision output failureReason) Q w := by
  refine ensures_guard fun _ => ?_
  apply ensures_attempt fun w _ => legal_refl w
  intro w' b w'' hi hl _ hf
  obtain ⟨s, hseen, hrev, hrun, hnode, hopen⟩ := (writable_later hw hl).read
  split at hf
  next steps happ =>
    obtain ⟨hhead, rfl⟩ := append_seen hseen (hrev ▸ happ)
    cases hf
    have hid : ∀ r' ∈ w'.steps step.stepRunId, r'.step.workflowRunId = step.workflowRunId ∧
        r'.step.nodeId = step.nodeId := by
      intro r' hr'
      obtain ⟨hr, hn⟩ := hi.sameStep _ r' hr' _ (head_mem hhead)
      exact ⟨hr.trans hrun, hn.trans hnode⟩
    have hopen' : ∀ s', head w'.steps step.stepRunId = some s' →
        s'.value.step.state ≠ .succeeded := by
      intro s' hs'
      rw [hhead] at hs'
      obtain rfl := Option.some.inj hs'
      exact hopen
    have hpar := fun hp hc => parents_later (hparents hp hc) hl
    have hlen : (w'.steps step.stepRunId).length = revision := by
      obtain ⟨older, ho, hlen⟩ := head_eq_some.mp hhead
      rw [ho, List.length_append, List.length_singleton, hlen, hrev]
    refine ⟨inv_push hi rfl hid hopen' hskip hpar, legal_push (Or.inr ⟨s, hhead, hopen, hpar⟩), ?_⟩
    rw [hlen]
    refine h _ (later_trans hl later_push) (seen_head ?_)
    rw [head_push, hlen]
  next => cases hf

variable {rid : String}

theorem ensures_persistRun {record : Stored (RunRecord J)} {run : WorkflowRun}
    {inputs : List (String × J)} (hseen : Seen w.runs rid record) (hid : run.workflowRunId = rid)
    (hrev : run.revisionId = record.value.run.revisionId)
    (hsteps : run.stepRunIds = record.value.run.stepRunIds) (h : ∀ w', Later w w' → Q () w') :
    Ensures (discipline env) (persistRun run record.revision inputs) Q w := by
  subst hid
  refine ensures_guard fun _ => ?_
  apply ensures_attempt fun w _ => legal_refl w
  intro w' b w'' hi hl _ hf
  have hmem := seen_mem (seen_extends hseen hl.runs)
  split at hf
  next runs happ =>
    obtain ⟨-, rfl⟩ := append_seen (seen_extends hseen hl.runs) happ
    cases hf
    have hsame : ∀ R' ∈ w'.runs run.workflowRunId, R'.run.revisionId = run.revisionId ∧
        R'.run.stepRunIds = run.stepRunIds := by
      intro R' hR'
      obtain ⟨hr, hs⟩ := hi.sameRun _ R' hR' _ hmem
      exact ⟨hr.trans hrev.symm, hs.trans hsteps.symm⟩
    refine ⟨inv_pushRun hi rfl hsame ?_, legal_of_steps_eq rfl (push_extends _ _ _),
      h _ ⟨hl.steps, extends_trans hl.runs (push_extends _ _ _)⟩⟩
    rw [hsteps]
    exact hi.runSteps _ _ hmem
  next => cases hf

theorem ensures_requireEnabled (h : Q () w) :
    Ensures (discipline env) (requireEnabled env) Q w := ensures_require fun _ => h

theorem ensures_assertRuntimeAllowed (h : Q () w) :
    Ensures (discipline env) assertRuntimeAllowed Q w :=
  ensures_bind (ensures_any fun _ => ensures_require fun _ => h)

theorem ensures_loadRun {Q : Stored (RunRecord J) → WorkflowWorld J → Prop}
    (h : ∀ record w', Inv env w' → Later w w' → head w'.runs workflowRunId = some record →
      record.value.run.workflowRunId = workflowRunId → Q record w') :
    Ensures (discipline env) (loadRun workflowRunId) Q w := by
  refine ensures_bind (ensures_headRun fun w' hi hl => ensures_ofOption ?_)
  intro record hrec
  exact h record w' hi hl hrec (hi.runId _ _ (head_mem hrec))

theorem ensures_loadRunningRun {Q : Stored (RunRecord J) → WorkflowWorld J → Prop}
    (h : ∀ record w', Inv env w' → Later w w' → head w'.runs workflowRunId = some record →
      record.value.run.workflowRunId = workflowRunId → Q record w') :
    Ensures (discipline env) (loadRunningRun workflowRunId) Q w := by
  refine ensures_bind (ensures_loadRun fun record w' hi hl hrec hid => ?_)
  exact ensures_bind (ensures_require fun _ => h record w' hi hl hrec hid)

structure ReadStep (env : WorkflowEnv J) (w : WorkflowWorld J) (workflowRunId : String)
    (s : Stored (StepRecord J)) : Prop where
  seen : Seen w.steps s.value.step.stepRunId s
  run : s.value.step.workflowRunId = workflowRunId
  id : s.value.step.stepRunId = env.stepRunId workflowRunId s.value.step.nodeId
  notSkipped : s.value.step.state ≠ .skipped
  parents : s.value.step.state ≠ .pending → s.value.step.state ≠ .cancelled →
    ParentsSucceeded env w workflowRunId s.value.step.nodeId

variable {w' : WorkflowWorld J} {s : Stored (StepRecord J)}

theorem readStep_later (h : ReadStep env w rid s) (hl : Later w w') : ReadStep env w' rid s :=
  ⟨seen_extends h.seen hl.steps, h.run, h.id, h.notSkipped,
    fun hp hc => parents_later (h.parents hp hc) hl⟩

theorem readStep_writable (h : ReadStep env w rid s) (hopen : s.value.step.state ≠ .succeeded) :
    Writable w s.value.step s.revision :=
  ⟨⟨s, h.seen, rfl, rfl, rfl, hopen⟩⟩

theorem readStep_of_head {rid stepRunId : String} {R : RunRecord J} (hi : Inv env w)
    (hR : R ∈ w.runs rid) (hmem : stepRunId ∈ R.run.stepRunIds)
    (hs : head w.steps stepRunId = some s) : ReadStep env w rid s := by
  have hm := head_mem hs
  have hid := hi.stepId _ _ hm
  obtain ⟨-, hall⟩ := hi.runSteps rid R hR stepRunId hmem
  obtain ⟨hrun, hkey⟩ := hall _ hm
  refine ⟨by rw [hid]; exact seen_head hs, hrun, hid.trans hkey, hi.notSkipped _ _ hm, ?_⟩
  intro hp hc
  rw [← hrun]
  exact hi.parents _ _ hm hp hc

def ReadSteps (env : WorkflowEnv J) (w : WorkflowWorld J) (workflowRunId : String)
    (records : String → Option (Stored (StepRecord J))) : Prop :=
  ∀ nodeId s, records nodeId = some s → s.value.step.nodeId = nodeId ∧
    ReadStep env w workflowRunId s

variable {records : String → Option (Stored (StepRecord J))}

theorem readSteps_later (h : ReadSteps env w rid records) (hl : Later w w') :
    ReadSteps env w' rid records :=
  fun nodeId s hs => ⟨(h nodeId s hs).1, readStep_later (h nodeId s hs).2 hl⟩

theorem readSteps_none (rid : String) : ReadSteps env w rid fun _ => none := by
  intro nodeId s hs
  cases hs

theorem readSteps_update (h : ReadSteps env w rid records) (hl : Later w w')
    (hread : ReadStep env w' rid s) :
    ReadSteps env w' rid (Function.update records s.value.step.nodeId (some s)) := by
  intro nodeId s' hs'
  by_cases hn : nodeId = s.value.step.nodeId
  · subst hn
    rw [Function.update_self] at hs'
    obtain rfl := Option.some.inj hs'
    exact ⟨rfl, hread⟩
  · rw [Function.update_of_ne hn] at hs'
    exact readSteps_later h hl nodeId s' hs'

theorem ensures_stepRecords {R : RunRecord J} {ids : List String}
    {Q : (String → Option (Stored (StepRecord J))) → WorkflowWorld J → Prop} (hR : R ∈ w.runs rid)
    (hids : ∀ id ∈ ids, id ∈ R.run.stepRunIds) (hrec : ReadSteps env w rid records)
    (h : ∀ records w', Later w w' → ReadSteps env w' rid records → Q records w') :
    Ensures (discipline env) (stepRecords ids records) Q w := by
  induction ids generalizing w records with
  | nil => exact h records w (later_refl w) hrec
  | cons id rest ih =>
    refine ensures_bind (ensures_headStep fun w' hi hl => ?_)
    refine ensures_bind (ensures_ofOption fun s hs => ?_)
    have hR' := extends_mem hl.runs hR
    have hread := readStep_of_head hi hR' (hids id (by simp)) hs
    apply ih hR' (fun id' hid' => hids id' (by simp [hid'])) (readSteps_update hrec hl hread)
    intro records' w'' hl'
    exact h records' w'' (later_trans hl hl')

end RaytSystem.Workflow
