import RaytSystem.WorkflowService

/-! What every access of a workflow command keeps. A step's history is append-only and
each append names the revision it has read, so the obligation on one append speaks
about the head that was read and about parents that had succeeded by then. -/
namespace RaytSystem.Workflow
open Interleaving RecordTable

variable {J : Type} (env : WorkflowEnv J)

def Succeeded (w : WorkflowWorld J) (stepRunId : String) : Prop :=
  ∃ r ∈ w.steps stepRunId, r.step.state = .succeeded

def ParentsSucceeded (w : WorkflowWorld J) (workflowRunId nodeId : String) : Prop :=
  ∃ r ∈ w.runs workflowRunId, ∃ rev, env.revision r.run.revisionId = some rev ∧
    ∀ parent ∈ rev.dependencies nodeId, Succeeded w (env.stepRunId workflowRunId parent)

structure Inv (w : WorkflowWorld J) : Prop where
  stepId : ∀ stepRunId, ∀ r ∈ w.steps stepRunId, r.step.stepRunId = stepRunId
  sameStep : ∀ stepRunId, ∀ r ∈ w.steps stepRunId, ∀ r' ∈ w.steps stepRunId,
    r.step.workflowRunId = r'.step.workflowRunId ∧ r.step.nodeId = r'.step.nodeId
  runId : ∀ workflowRunId, ∀ r ∈ w.runs workflowRunId, r.run.workflowRunId = workflowRunId
  sameRun : ∀ workflowRunId, ∀ r ∈ w.runs workflowRunId, ∀ r' ∈ w.runs workflowRunId,
    r.run.revisionId = r'.run.revisionId ∧ r.run.stepRunIds = r'.run.stepRunIds
  runSteps : ∀ workflowRunId, ∀ r ∈ w.runs workflowRunId, ∀ stepRunId ∈ r.run.stepRunIds,
    w.steps stepRunId ≠ [] ∧ ∀ s ∈ w.steps stepRunId, s.step.workflowRunId = workflowRunId ∧
      stepRunId = env.stepRunId workflowRunId s.step.nodeId
  notSkipped : ∀ stepRunId, ∀ r ∈ w.steps stepRunId, r.step.state ≠ .skipped
  final : ∀ stepRunId older r, w.steps stepRunId = older ++ [r] →
    ∀ r' ∈ older, r'.step.state ≠ .succeeded
  parents : ∀ stepRunId, ∀ r ∈ w.steps stepRunId, r.step.state ≠ .pending →
    r.step.state ≠ .cancelled → ParentsSucceeded env w r.step.workflowRunId r.step.nodeId

structure Later (w w' : WorkflowWorld J) : Prop where
  steps : Extends w.steps w'.steps
  runs : Extends w.runs w'.runs

def StepChange (w : WorkflowWorld J) (stepRunId : String) (r : StepRecord J) : Prop :=
  (w.steps stepRunId = [] ∧ r.step.state = .pending) ∨
    ∃ s, head w.steps stepRunId = some s ∧ s.value.step.state ≠ .succeeded ∧
      (r.step.state ≠ .pending → r.step.state ≠ .cancelled →
        ParentsSucceeded env w r.step.workflowRunId r.step.nodeId)

structure Legal (w w' : WorkflowWorld J) : Prop where
  later : Later w w'
  change : ∀ stepRunId, w'.steps stepRunId = w.steps stepRunId ∨
    ∃ r, w'.steps stepRunId = w.steps stepRunId ++ [r] ∧ StepChange env w stepRunId r

def discipline : Discipline (WorkflowWorld J) Unit where
  inv := Inv env
  rely := Later
  assume _ _ := True
  guar _ := Legal env

theorem later_refl (w : WorkflowWorld J) : Later w w := ⟨extends_refl _, extends_refl _⟩

theorem later_trans {a b c : WorkflowWorld J} (hab : Later a b) (hbc : Later b c) :
    Later a c := ⟨extends_trans hab.steps hbc.steps, extends_trans hab.runs hbc.runs⟩

theorem discipline_preorder : (discipline env).Preorder := ⟨later_refl, later_trans⟩

variable {env} {w w' : WorkflowWorld J}

theorem legal_of_steps_eq (hs : w'.steps = w.steps) (hr : Extends w.runs w'.runs) :
    Legal env w w' where
  later := ⟨hs ▸ extends_refl _, hr⟩
  change stepRunId := Or.inl (by rw [hs])

theorem legal_refl (w : WorkflowWorld J) : Legal env w w :=
  legal_of_steps_eq rfl (extends_refl _)

theorem succeeded_later {stepRunId : String} (h : Succeeded w stepRunId) (hl : Later w w') :
    Succeeded w' stepRunId := by
  obtain ⟨r, hr, hs⟩ := h
  exact ⟨r, extends_mem hl.steps hr, hs⟩

theorem parents_later {workflowRunId nodeId : String}
    (h : ParentsSucceeded env w workflowRunId nodeId) (hl : Later w w') :
    ParentsSucceeded env w' workflowRunId nodeId := by
  obtain ⟨r, hr, rev, hrev, hp⟩ := h
  refine ⟨r, extends_mem hl.runs hr, rev, hrev, ?_⟩
  intro parent hmem
  exact succeeded_later (hp parent hmem) hl

theorem succeeded_iff_stepState {w : WorkflowWorld J} (hi : Inv env w) (stepRunId : String) :
    Succeeded w stepRunId ↔ stepState w stepRunId = some .succeeded := by
  constructor
  · rintro ⟨r, hr, hs⟩
    obtain ⟨older, last, hl⟩ : ∃ older last, w.steps stepRunId = older ++ [last] :=
      ⟨_, _, (List.dropLast_append_getLast (List.ne_nil_of_mem hr)).symm⟩
    have hlast : r = last := by
      rcases List.mem_append.mp (hl ▸ hr) with hm | hm
      · exact absurd hs (hi.final stepRunId older last hl r hm)
      · exact List.mem_singleton.mp hm
    subst hlast
    have hh : head w.steps stepRunId = some ⟨older.length + 1, r⟩ :=
      head_eq_some.mpr ⟨older, hl, rfl⟩
    simp only [stepState, hh, Option.map_some, hs]
  · intro h
    obtain ⟨s, hs, hst⟩ := Option.map_eq_some_iff.mp h
    exact ⟨s.value, head_mem hs, hst⟩

structure Writable (w : WorkflowWorld J) (step : WorkflowStepRun) (revision : Nat) : Prop where
  read : ∃ s, Seen w.steps step.stepRunId s ∧ s.revision = revision ∧
    s.value.step.workflowRunId = step.workflowRunId ∧ s.value.step.nodeId = step.nodeId ∧
    s.value.step.state ≠ .succeeded

theorem writable_later {step : WorkflowStepRun} {revision : Nat} (h : Writable w step revision)
    (hl : Later w w') : Writable w' step revision := by
  obtain ⟨s, hs, hrest⟩ := h.read
  exact ⟨s, seen_extends hs hl.steps, hrest⟩

theorem writable_update {w : WorkflowWorld J} {step step' : WorkflowStepRun} {revision : Nat}
    (h : Writable w step revision) (hid : step'.stepRunId = step.stepRunId)
    (hrun : step'.workflowRunId = step.workflowRunId) (hnode : step'.nodeId = step.nodeId) :
    Writable w step' revision := by
  obtain ⟨s, hs, hrev, hr, hn, hst⟩ := h.read
  exact ⟨s, hid ▸ hs, hrev, hr.trans hrun.symm, hn.trans hnode.symm, hst⟩

section
variable {w : WorkflowWorld J} {stepRunId : String} {r : StepRecord J}

theorem later_push : Later w {w with steps := push w.steps stepRunId r} :=
  ⟨push_extends _ _ _, extends_refl _⟩

theorem inv_final_push (hi : Inv env w)
    (hopen : ∀ s, head w.steps stepRunId = some s → s.value.step.state ≠ .succeeded)
    {k : String} {older : List (StepRecord J)} {last : StepRecord J}
    (hk : push w.steps stepRunId r k = older ++ [last]) :
    ∀ r' ∈ older, r'.step.state ≠ .succeeded := by
  by_cases hks : k = stepRunId
  · subst hks
    rw [push_same] at hk
    obtain ⟨rfl, -⟩ := List.append_inj' hk rfl
    intro r' hr' hst
    -- a succeeded revision of the old history would be its head
    have hsucc := (succeeded_iff_stepState hi k).mp ⟨r', hr', hst⟩
    obtain ⟨s, hs, hstate⟩ := Option.map_eq_some_iff.mp hsucc
    exact hopen s hs hstate
  · rw [push_other _ _ hks] at hk
    exact hi.final k older last hk

theorem inv_push (hi : Inv env w) (hid : r.step.stepRunId = stepRunId)
    (hsame : ∀ r' ∈ w.steps stepRunId, r'.step.workflowRunId = r.step.workflowRunId ∧
      r'.step.nodeId = r.step.nodeId)
    (hopen : ∀ s, head w.steps stepRunId = some s → s.value.step.state ≠ .succeeded)
    (hskip : r.step.state ≠ .skipped)
    (hparents : r.step.state ≠ .pending → r.step.state ≠ .cancelled →
      ParentsSucceeded env w r.step.workflowRunId r.step.nodeId) :
    Inv env {w with steps := push w.steps stepRunId r} where
  stepId k r' hr' := by
    rcases mem_push hr' with h | ⟨rfl, rfl⟩
    · exact hi.stepId k r' h
    · exact hid
  sameStep k a ha b hb := by
    rcases mem_push ha with hold | ⟨rfl, rfl⟩
    · rcases mem_push hb with hold' | ⟨rfl, rfl⟩
      · exact hi.sameStep k a hold b hold'
      · exact hsame a hold
    · rcases mem_push hb with hold | ⟨-, rfl⟩
      · exact ⟨(hsame b hold).1.symm, (hsame b hold).2.symm⟩
      · exact ⟨rfl, rfl⟩
  runId := hi.runId
  sameRun := hi.sameRun
  runSteps rid R hR k hk := by
    obtain ⟨hne, hall⟩ := hi.runSteps rid R hR k hk
    refine ⟨fun h => hne (List.prefix_nil.mp (h ▸ push_extends w.steps stepRunId r k)), ?_⟩
    intro s hs
    rcases mem_push hs with hs | ⟨rfl, rfl⟩
    · exact hall s hs
    · obtain ⟨s₀, hs₀⟩ := List.exists_mem_of_ne_nil _ hne
      rw [← (hsame s₀ hs₀).1, ← (hsame s₀ hs₀).2]
      exact hall s₀ hs₀
  notSkipped k r' hr' := by
    rcases mem_push hr' with h | ⟨-, rfl⟩
    · exact hi.notSkipped k r' h
    · exact hskip
  final k older last hk := inv_final_push hi hopen hk
  parents k r' hr' hp hc := by
    rcases mem_push hr' with h | ⟨-, rfl⟩
    · exact parents_later (hi.parents k r' h hp hc) later_push
    · exact parents_later (hparents hp hc) later_push

theorem legal_push (hchange : StepChange env w stepRunId r) :
    Legal env w {w with steps := push w.steps stepRunId r} where
  later := later_push
  change k := by
    by_cases hk : k = stepRunId
    · subst hk
      exact Or.inr ⟨r, push_same _ _ _, hchange⟩
    · exact Or.inl (push_other _ _ hk)
end

theorem inv_pushRun {w : WorkflowWorld J} {rid : String} {R : RunRecord J} (hi : Inv env w)
    (hid : R.run.workflowRunId = rid)
    (hsame : ∀ R' ∈ w.runs rid, R'.run.revisionId = R.run.revisionId ∧
      R'.run.stepRunIds = R.run.stepRunIds)
    (hsteps : ∀ stepRunId ∈ R.run.stepRunIds, w.steps stepRunId ≠ [] ∧
      ∀ s ∈ w.steps stepRunId, s.step.workflowRunId = rid ∧
        stepRunId = env.stepRunId rid s.step.nodeId) :
    Inv env {w with runs := push w.runs rid R} where
  stepId := hi.stepId
  sameStep := hi.sameStep
  runId k R' hR' := by
    rcases mem_push hR' with h | ⟨rfl, rfl⟩
    · exact hi.runId k R' h
    · exact hid
  sameRun k a ha b hb := by
    rcases mem_push ha with hold | ⟨rfl, rfl⟩
    · rcases mem_push hb with hold' | ⟨rfl, rfl⟩
      · exact hi.sameRun k a hold b hold'
      · exact hsame a hold
    · rcases mem_push hb with hold | ⟨-, rfl⟩
      · exact ⟨(hsame b hold).1.symm, (hsame b hold).2.symm⟩
      · exact ⟨rfl, rfl⟩
  runSteps k R' hR' := by
    rcases mem_push hR' with h | ⟨rfl, rfl⟩
    · exact hi.runSteps k R' h
    · exact hsteps
  notSkipped := hi.notSkipped
  final := hi.final
  parents k r hr hp hc :=
    parents_later (hi.parents k r hr hp hc) ⟨extends_refl _, push_extends _ _ _⟩

theorem inv_empty : Inv env (WorkflowWorld.empty J) where
  stepId _ _ h := by cases h
  sameStep _ _ h := by cases h
  runId _ _ h := by cases h
  sameRun _ _ h := by cases h
  runSteps _ _ h := by cases h
  notSkipped _ _ h := by cases h
  final _ older r h := by simp [WorkflowWorld.empty] at h
  parents _ _ h := by cases h

end RaytSystem.Workflow
