import RaytSystem.WorkflowDag
import RaytSystem.WorkflowSafety

/-! The order in which a run's steps are taken. A pass takes them in the accepted order of the
graph, so a step is begun only after every earlier one has succeeded; and a closed step, like
an ended run, gets no further revision. -/
namespace RaytSystem.Workflow
open Interleaving RecordTable

variable {J : Type}

def RunState.terminal (s : RunState) : Bool := s == .succeeded || s == .failed || s == .cancelled

def StepState.closed (s : StepState) : Bool := s == .succeeded || s == .failed || s == .cancelled

def StepClosed (w : WorkflowWorld J) (stepRunId : String) : Prop :=
  ∃ r ∈ w.steps stepRunId, r.step.state.closed = true

def StepBroken (w : WorkflowWorld J) (stepRunId : String) : Prop :=
  ∃ r ∈ w.steps stepRunId, r.step.state = .failed ∨ r.step.state = .cancelled

def AcceptedOrder (env : WorkflowEnv J) (revisionId : String) (order : List String) : Prop :=
  ∃ rev, env.revision revisionId = some rev ∧
    validateDag (fun op => (env.operation op).isSome) rev = .ok order

def OrderOf (env : WorkflowEnv J) (w : WorkflowWorld J) (workflowRunId : String)
    (order : List String) : Prop :=
  ∃ R ∈ w.runs workflowRunId, AcceptedOrder env R.run.revisionId order

def Earlier (env : WorkflowEnv J) (w : WorkflowWorld J) (P : WorkflowWorld J → String → Prop)
    (workflowRunId nodeId : String) : Prop :=
  ∃ order pre post, OrderOf env w workflowRunId order ∧ order = pre ++ nodeId :: post ∧
    ∀ m ∈ pre, P w (env.stepRunId workflowRunId m)

def StepShape (env : WorkflowEnv J) (w : WorkflowWorld J) (step : WorkflowStepRun) : Prop :=
  (step.state = .cancelled ∧ Earlier env w StepClosed step.workflowRunId step.nodeId) ∨
    Earlier env w Succeeded step.workflowRunId step.nodeId

def EndedAs (env : WorkflowEnv J) (w : WorkflowWorld J) (workflowRunId : String)
    (order : List String) : RunState → Prop
  | .succeeded => ∀ n ∈ order, Succeeded w (env.stepRunId workflowRunId n)
  | .failed => ∃ n ∈ order, StepBroken w (env.stepRunId workflowRunId n)
  | .cancelled => ∀ n ∈ order, StepClosed w (env.stepRunId workflowRunId n)
  | _ => True

structure RunShape (env : WorkflowEnv J) (w : WorkflowWorld J) (workflowRunId : String)
    (run : WorkflowRun) (order : List String) : Prop where
  accepted : AcceptedOrder env run.revisionId order
  steps : run.stepRunIds = order.map (env.stepRunId workflowRunId)
  created : ∀ n ∈ order, CreatedStep env w workflowRunId n
  ended : EndedAs env w workflowRunId order run.state

variable (env : WorkflowEnv J)

structure Ordered (w : WorkflowWorld J) : Prop where
  stepFinal : ∀ stepRunId older r, w.steps stepRunId = older ++ [r] →
    ∀ r' ∈ older, r'.step.state.closed = false
  stepShape : ∀ stepRunId, ∀ r ∈ w.steps stepRunId,
    (r.step.state = .pending ∧ r.step.startedAt = none) ∨ StepShape env w r.step
  runFinal : ∀ workflowRunId older R, w.runs workflowRunId = older ++ [R] →
    ∀ R' ∈ older, R'.run.state.terminal = false
  runShape : ∀ workflowRunId, ∀ R ∈ w.runs workflowRunId,
    ∃ order, RunShape env w workflowRunId R.run order

def OrderedStep (w : WorkflowWorld J) (stepRunId : String) (r : StepRecord J) : Prop :=
  (w.steps stepRunId = [] ∧ r.step.state = .pending ∧ r.step.startedAt = none) ∨
    ∃ s, head w.steps stepRunId = some s ∧ s.value.step.state.closed = false ∧
      (r.step.state = .cancelled ∨ Earlier env w Succeeded r.step.workflowRunId r.step.nodeId)

structure OrderLegal (w w' : WorkflowWorld J) : Prop where
  later : Later w w'
  step : ∀ stepRunId, w'.steps stepRunId = w.steps stepRunId ∨
    ∃ r, w'.steps stepRunId = w.steps stepRunId ++ [r] ∧ OrderedStep env w stepRunId r
  run : ∀ workflowRunId, w'.runs workflowRunId = w.runs workflowRunId ∨
    ∃ R, w'.runs workflowRunId = w.runs workflowRunId ++ [R] ∧
      ∀ S, head w.runs workflowRunId = some S → S.value.run.state.terminal = false

def orderDiscipline : Discipline (WorkflowWorld J) Unit where
  inv := Ordered env
  rely := Later
  assume _ := Inv env
  guar _ := OrderLegal env

theorem orderDiscipline_preorder : (orderDiscipline env).Preorder := ⟨later_refl, later_trans⟩

variable {env} {w w' : WorkflowWorld J}

theorem orderLegal_refl (w : WorkflowWorld J) : OrderLegal env w w :=
  ⟨later_refl w, fun _ => Or.inl rfl, fun _ => Or.inl rfl⟩

variable {stepRunId : String}

theorem stepClosed_later (h : StepClosed w stepRunId) (hl : Later w w') :
    StepClosed w' stepRunId := by
  obtain ⟨r, hr, hc⟩ := h
  exact ⟨r, extends_mem hl.steps hr, hc⟩

theorem stepBroken_later (h : StepBroken w stepRunId) (hl : Later w w') :
    StepBroken w' stepRunId := by
  obtain ⟨r, hr, hb⟩ := h
  exact ⟨r, extends_mem hl.steps hr, hb⟩

theorem stepClosed_of_succeeded (h : Succeeded w stepRunId) : StepClosed w stepRunId := by
  obtain ⟨r, hr, hs⟩ := h
  exact ⟨r, hr, by rw [hs]; rfl⟩

theorem stepClosed_of_broken (h : StepBroken w stepRunId) : StepClosed w stepRunId := by
  obtain ⟨r, hr, hs | hs⟩ := h
  · exact ⟨r, hr, by rw [hs]; rfl⟩
  · exact ⟨r, hr, by rw [hs]; rfl⟩

theorem acceptedOrder_unique {revisionId : String} {order order' : List String}
    (h : AcceptedOrder env revisionId order) (h' : AcceptedOrder env revisionId order') :
    order = order' := by
  obtain ⟨rev, hrev, ho⟩ := h
  obtain ⟨rev', hrev', ho'⟩ := h'
  obtain rfl := Option.some.inj (hrev.symm.trans hrev')
  exact Except.ok.inj (ho.symm.trans ho')

variable {rid : String} {order : List String}

theorem orderOf_later (h : OrderOf env w rid order) (hl : Later w w') :
    OrderOf env w' rid order := by
  obtain ⟨R, hR, ho⟩ := h
  exact ⟨R, extends_mem hl.runs hR, ho⟩

theorem orderOf_unique (hi : Inv env w) {order order' : List String} (h : OrderOf env w rid order)
    (h' : OrderOf env w rid order') : order = order' := by
  obtain ⟨R, hR, ho⟩ := h
  obtain ⟨R', hR', ho'⟩ := h'
  rw [(hi.sameRun rid R hR R' hR').1] at ho
  exact acceptedOrder_unique ho ho'

theorem earlier_later {P P' : WorkflowWorld J → String → Prop} {rid nodeId : String}
    (hP : ∀ m, P w m → P' w' m) (h : Earlier env w P rid nodeId) (hl : Later w w') :
    Earlier env w' P' rid nodeId := by
  obtain ⟨order, pre, post, ho, hsplit, hpre⟩ := h
  exact ⟨order, pre, post, orderOf_later ho hl, hsplit, fun m hm => hP _ (hpre m hm)⟩

theorem stepShape_later {step : WorkflowStepRun} (h : StepShape env w step) (hl : Later w w') :
    StepShape env w' step := by
  rcases h with ⟨hc, h⟩ | h
  · exact Or.inl ⟨hc, earlier_later (fun _ hm => stepClosed_later hm hl) h hl⟩
  · exact Or.inr (earlier_later (fun _ hm => succeeded_later hm hl) h hl)

theorem endedAs_later {state : RunState} (h : EndedAs env w rid order state) (hl : Later w w') :
    EndedAs env w' rid order state := by
  cases state with
  | succeeded => exact fun n hn => succeeded_later (h n hn) hl
  | failed =>
    obtain ⟨n, hn, hb⟩ := h
    exact ⟨n, hn, stepBroken_later hb hl⟩
  | cancelled => exact fun n hn => stepClosed_later (h n hn) hl
  | planned => trivial
  | running => trivial
  | paused => trivial

theorem runShape_later {run : WorkflowRun} (h : RunShape env w rid run order) (hl : Later w w') :
    RunShape env w' rid run order :=
  ⟨h.accepted, h.steps, fun n hn => createdStep_later (h.created n hn) hl,
    endedAs_later h.ended hl⟩

theorem final_push {ρ : Type} {t : Table String ρ} (closed : ρ → Bool) {k : String} {r : ρ}
    (hfinal : ∀ key older last, t key = older ++ [last] → ∀ r' ∈ older, closed r' = false)
    (hopen : ∀ s, head t k = some s → closed s.value = false) :
    ∀ key older last, push t k r key = older ++ [last] → ∀ r' ∈ older, closed r' = false := by
  intro key older last hkey r' hr'
  by_cases hk : key = k
  · subst hk
    rw [push_same] at hkey
    obtain ⟨rfl, -⟩ := List.append_inj' hkey rfl
    rcases List.eq_nil_or_concat (t key) with hnil | ⟨init, top, htop⟩
    · rw [hnil] at hr'
      cases hr'
    · rw [List.concat_eq_append] at htop
      rw [htop] at hr'
      rcases List.mem_append.mp hr' with hold | hlast
      · exact hfinal key init top htop r' hold
      · rw [List.mem_singleton.mp hlast]
        exact hopen ⟨init.length + 1, top⟩ (head_eq_some.mpr ⟨init, htop, rfl⟩)
  · rw [push_other _ _ hk] at hkey
    exact hfinal key older last hkey r' hr'

theorem ordered_pushStep {r : StepRecord J} (h : Ordered env w)
    (hopen : ∀ s, head w.steps stepRunId = some s → s.value.step.state.closed = false)
    (hshape : (r.step.state = .pending ∧ r.step.startedAt = none) ∨ StepShape env w r.step) :
    Ordered env {w with steps := push w.steps stepRunId r} where
  stepFinal := final_push (fun r : StepRecord J => r.step.state.closed) h.stepFinal hopen
  stepShape k r' hr' := by
    rcases mem_push hr' with hold | ⟨-, rfl⟩
    · exact (h.stepShape k r' hold).imp_right fun hs => stepShape_later hs later_push
    · exact hshape.imp_right fun hs => stepShape_later hs later_push
  runFinal := h.runFinal
  runShape k R hR := by
    obtain ⟨order, hs⟩ := h.runShape k R hR
    exact ⟨order, runShape_later hs later_push⟩

variable {R : RunRecord J}

theorem later_pushRun :
    Later w {w with runs := push w.runs rid R} := ⟨extends_refl _, push_extends _ _ _⟩

theorem ordered_pushRun (h : Ordered env w)
    (hopen : ∀ s, head w.runs rid = some s → s.value.run.state.terminal = false)
    (hshape : RunShape env w rid R.run order) : Ordered env {w with runs := push w.runs rid R} where
  stepFinal := h.stepFinal
  stepShape k r hr := (h.stepShape k r hr).imp_right fun hs => stepShape_later hs later_pushRun
  runFinal := final_push (fun R : RunRecord J => R.run.state.terminal) h.runFinal hopen
  runShape k R' hR' := by
    rcases mem_push hR' with hold | ⟨rfl, rfl⟩
    · obtain ⟨order', hs⟩ := h.runShape k R' hold
      exact ⟨order', runShape_later hs later_pushRun⟩
    · exact ⟨order, runShape_later hshape later_pushRun⟩

theorem orderLegal_pushStep {r : StepRecord J} (h : OrderedStep env w stepRunId r) :
    OrderLegal env w {w with steps := push w.steps stepRunId r} where
  later := later_push
  step k := by
    by_cases hk : k = stepRunId
    · subst hk
      exact Or.inr ⟨r, push_same _ _ _, h⟩
    · exact Or.inl (push_other _ _ hk)
  run _ := Or.inl rfl

theorem orderLegal_pushRun {rid : String} {R : RunRecord J}
    (h : ∀ s, head w.runs rid = some s → s.value.run.state.terminal = false) :
    OrderLegal env w {w with runs := push w.runs rid R} where
  later := later_pushRun
  step _ := Or.inl rfl
  run k := by
    by_cases hk : k = rid
    · subst hk
      exact Or.inr ⟨R, push_same _ _ _, h⟩
    · exact Or.inl (push_other _ _ hk)

theorem ordered_empty : Ordered env (WorkflowWorld.empty J) where
  stepFinal _ older r h := by simp [WorkflowWorld.empty] at h
  stepShape _ _ h := by cases h
  runFinal _ older R h := by simp [WorkflowWorld.empty] at h
  runShape _ _ h := by cases h

end RaytSystem.Workflow
