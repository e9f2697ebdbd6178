import RaytSystem.WorkflowOrderCommands

/-! The end of a run. An ended run is never written again, it has succeeded only when all its
steps have, and none of its steps begins afterwards, whatever other workers have read before. -/
namespace RaytSystem.Workflow
open Interleaving RecordTable

variable {J : Type} {env : WorkflowEnv J} {w : WorkflowWorld J}

section
variable {rid : String} {order : List String}

theorem closed_last (ho : Ordered env w) {stepRunId : String} {r : StepRecord J}
    (hr : r ∈ w.steps stepRunId) (hc : r.step.state.closed = true) :
    ∃ older, w.steps stepRunId = older ++ [r] := by
  rcases List.eq_nil_or_concat (w.steps stepRunId) with hnil | ⟨older, last, hlast⟩
  · rw [hnil] at hr
    cases hr
  · rw [List.concat_eq_append] at hlast
    rw [hlast] at hr
    rcases List.mem_append.mp hr with hold | htop
    · rw [ho.stepFinal stepRunId older last hlast r hold] at hc
      cases hc
    · exact ⟨older, by rw [hlast, List.mem_singleton.mp htop]⟩

theorem not_broken_of_succeeded (ho : Ordered env w) {stepRunId : String}
    (hs : Succeeded w stepRunId) : ¬StepBroken w stepRunId := by
  rintro ⟨r, hr, hbroken⟩
  obtain ⟨r', hr', hsucc⟩ := hs
  have hc : r.step.state.closed = true := by rcases hbroken with h | h <;> (rw [h]; rfl)
  obtain ⟨older, hlast⟩ := closed_last ho hr hc
  obtain ⟨older', hlast'⟩ := closed_last ho hr' (by rw [hsucc]; rfl)
  obtain ⟨-, he⟩ := List.append_inj' (hlast.symm.trans hlast') rfl
  obtain rfl : r = r' := List.head_eq_of_cons_eq he
  rw [hsucc] at hbroken
  rcases hbroken with h | h <;> cases h

theorem broken_earlier (ho : Ordered env w) (hi : Inv env w) (horder : OrderOf env w rid order)
    {nodeId : String} (hcreated : CreatedStep env w rid nodeId)
    (hb : StepBroken w (env.stepRunId rid nodeId)) : ∃ pre post, order = pre ++ nodeId :: post ∧
      ∀ m ∈ pre, StepClosed w (env.stepRunId rid m) := by
  obtain ⟨r, hr, hbroken⟩ := hb
  obtain ⟨r₀, hr₀, hrun₀, hnode₀⟩ := hcreated
  obtain ⟨hrun, hnode⟩ := hi.sameStep _ r hr r₀ hr₀
  rw [hrun₀] at hrun
  rw [hnode₀] at hnode
  have hearlier : Earlier env w StepClosed rid nodeId := by
    rcases ho.stepShape _ r hr with ⟨hp, -⟩ | ⟨-, h⟩ | h
    · rw [hp] at hbroken
      rcases hbroken with h | h <;> cases h
    · rwa [hrun, hnode] at h
    · rw [hrun, hnode] at h
      exact earlier_later (fun _ hm => stepClosed_of_succeeded hm) h (later_refl w)
  obtain ⟨order', pre, post, horder', hsplit, hpre⟩ := hearlier
  obtain rfl := orderOf_unique hi horder horder'
  exact ⟨pre, post, hsplit, hpre⟩

theorem ended_closed (ho : Ordered env w) (hi : Inv env w) {R : RunRecord J} (hR : R ∈ w.runs rid)
    (hshape : RunShape env w rid R.run order) (hterminal : R.run.state.terminal = true)
    {nodeId : String} {pre post : List String} (hsplit : order = pre ++ nodeId :: post)
    (hpre : ∀ m ∈ pre, Succeeded w (env.stepRunId rid m)) :
    StepClosed w (env.stepRunId rid nodeId) := by
  have hmem : nodeId ∈ order := by simp [hsplit]
  have hended := hshape.ended
  cases hstate : R.run.state with
  | succeeded =>
    rw [hstate] at hended
    exact stepClosed_of_succeeded (hended nodeId hmem)
  | cancelled =>
    rw [hstate] at hended
    exact hended nodeId hmem
  | failed =>
    rw [hstate] at hended
    obtain ⟨x, hx, hbroken⟩ := hended
    obtain ⟨preX, postX, hsplitX, hclosed⟩ :=
      broken_earlier ho hi ⟨R, hR, hshape.accepted⟩ (hshape.created x hx) hbroken
    -- the node stands before the failed one, or it is the failed one, or it stands after it
    rcases List.append_eq_append_iff.mp (hsplit.symm.trans hsplitX) with
      ⟨between, hpreX, hrest⟩ | ⟨between, hpreN, hrest⟩
    · cases between with
      | nil =>
        obtain rfl : nodeId = x := List.head_eq_of_cons_eq hrest
        exact stepClosed_of_broken hbroken
      | cons first between =>
        obtain rfl : nodeId = first := List.head_eq_of_cons_eq hrest
        exact hclosed nodeId (by simp [hpreX])
    · cases between with
      | nil =>
        obtain rfl : x = nodeId := List.head_eq_of_cons_eq hrest
        exact stepClosed_of_broken hbroken
      | cons first between =>
        obtain rfl : x = first := List.head_eq_of_cons_eq hrest
        exact absurd hbroken (not_broken_of_succeeded ho (hpre x (by simp [hpreN])))
  | planned =>
    rw [hstate] at hterminal
    cases hterminal
  | running =>
    rw [hstate] at hterminal
    cases hterminal
  | paused =>
    rw [hstate] at hterminal
    cases hterminal
end

section
variable {ι : Type}

attribute [local irreducible] wp

theorem orderDiscipline_compatible :
    Pool.Compatible (fun _ : ι => orderDiscipline env) (fun _ w => w) (Ordered env) where
  inv_eq _ := rfl
  preorder _ := orderDiscipline_preorder env
  guar _ _ _ _ _ _ _ hg := hg.later
  lost_inv _ _ hi := hi
  lost_rely _ _ w _ _ := later_refl w

theorem workers_ordered (cmd : ι → WorkflowCommand J) :
    Pool.Disciplined (fun _ : ι => orderDiscipline env) (Ordered env) (workers env cmd) := by
  refine ⟨ordered_empty, ?_⟩
  rintro i p ⟨⟩
  exact ordered_command (cmd i)

variable [DecidableEq ι] {cmd : ι → WorkflowCommand J}
  {c c' : Pool ι (WorkflowWorld J) Unit WorkflowFault WorkflowRun}

theorem steps_assuming (hi : Inv env c.world) (hs : Steps c c') :
    Pool.Step (fun _ _ w => Inv env w) (fun _ w => w) c c' := by
  cases hs with
  | act h _ => exact .act h hi
  | choose h b => exact .choose h b
  | crash i => exact .crash i

theorem runs_ordered (hr : Runs (workers env cmd) c) :
    Pool.Disciplined (fun _ : ι => orderDiscipline env) (Ordered env) c := by
  induction hr with
  | refl => exact workers_ordered cmd
  | tail hr hs ih =>
    exact Pool.step_disciplined orderDiscipline_compatible ih
      (steps_assuming (runs_disciplined hr).1 hs)

theorem steps_ordered (hr : Runs (workers env cmd) c) (hs : Steps c c') :
    OrderLegal env c.world c'.world := by
  rcases Pool.step_world orderDiscipline_compatible (runs_ordered hr)
    (steps_assuming (runs_disciplined hr).1 hs) with ⟨_, _, hg⟩ | he | ⟨_, he⟩
  · exact hg
  · rw [he]
    exact orderLegal_refl _
  · rw [he]
    exact orderLegal_refl _

def OnlyCancelled (w w' : WorkflowWorld J) (stepRunId : String) : Prop :=
  ∃ new, w'.steps stepRunId = w.steps stepRunId ++ new ∧ ∀ r ∈ new, r.step.state = .cancelled

theorem onlyCancelled_of_eq {w w' : WorkflowWorld J} {stepRunId : String}
    (h : w'.steps stepRunId = w.steps stepRunId) : OnlyCancelled w w' stepRunId :=
  ⟨[], by rw [h, List.append_nil], fun _ hr => absurd hr List.not_mem_nil⟩

theorem onlyCancelled_trans {a b d : WorkflowWorld J} {stepRunId : String}
    (hab : OnlyCancelled a b stepRunId) (hbd : OnlyCancelled b d stepRunId) :
    OnlyCancelled a d stepRunId := by
  obtain ⟨new, hnew, hcancelled⟩ := hab
  obtain ⟨last, hlast, hcancelled'⟩ := hbd
  refine ⟨new ++ last, by rw [hlast, hnew, List.append_assoc], ?_⟩
  intro r hr
  rcases List.mem_append.mp hr with h | h
  · exact hcancelled r h
  · exact hcancelled' r h

theorem step_after_end (hr : Runs (workers env cmd) c) (hs : Steps c c') {rid : String}
    {R : Stored (RunRecord J)} (hR : head c.world.runs rid = some R)
    (hterminal : R.value.run.state.terminal = true) : c'.world.runs rid = c.world.runs rid ∧
      ∀ stepRunId ∈ R.value.run.stepRunIds, OnlyCancelled c.world c'.world stepRunId := by
  have hl := steps_ordered hr hs
  have ho := (runs_ordered hr).1
  have hi := (runs_disciplined hr).1
  have hi' := (runs_disciplined (hr.tail hs)).1
  refine ⟨?_, ?_⟩
  · rcases hl.run rid with hsame | ⟨S, -, hopen⟩
    · exact hsame
    · rw [hopen R hR] at hterminal
      cases hterminal
  · intro stepRunId hmem
    obtain ⟨order, hshape⟩ := ho.runShape rid R.value (head_mem hR)
    rw [hshape.steps] at hmem
    obtain ⟨nodeId, hnode, rfl⟩ := List.mem_map.mp hmem
    rcases hl.step (env.stepRunId rid nodeId) with hsame | ⟨r, hpush, hstep⟩
    · exact onlyCancelled_of_eq hsame
    · refine ⟨[r], hpush, ?_⟩
      intro r' hr'
      rw [List.mem_singleton.mp hr']
      obtain ⟨r₀, hr₀, hrun₀, hnode₀⟩ := hshape.created nodeId hnode
      rcases hstep with ⟨hempty, -⟩ | ⟨s, hhead, hopen, hcancelled | hearlier⟩
      · rw [hempty] at hr₀
        cases hr₀
      · exact hcancelled
      · have hnew : r ∈ c'.world.steps (env.stepRunId rid nodeId) := by simp [hpush]
        have hold : r₀ ∈ c'.world.steps (env.stepRunId rid nodeId) := by simp [hpush, hr₀]
        obtain ⟨hrun, hid⟩ := hi'.sameStep _ r hnew r₀ hold
        rw [hrun, hid, hrun₀, hnode₀] at hearlier
        obtain ⟨order', pre, post, horder', hsplit, hpre⟩ := hearlier
        obtain rfl := orderOf_unique hi ⟨R.value, head_mem hR, hshape.accepted⟩ horder'
        -- the step would be closed, yet its head was open
        obtain ⟨r₁, hr₁, hc⟩ := ended_closed ho hi (head_mem hR) hshape hterminal hsplit hpre
        obtain ⟨older, hlast⟩ := closed_last ho hr₁ hc
        have hhead₁ : head c.world.steps (env.stepRunId rid nodeId) = some ⟨older.length + 1, r₁⟩ :=
          head_eq_some.mpr ⟨older, hlast, rfl⟩
        obtain rfl := Option.some.inj (hhead.symm.trans hhead₁)
        rw [hopen] at hc
        cases hc

/-- Finality of a workflow run, for any number of workers and every order of their accesses
and crashes. From the moment a run has ended its record stays as it is, and its steps get no
revision but a cancelled one. A run has succeeded only when it has a step for each node of its
graph and every one of them is done. -/
theorem workflow_run_final (env : WorkflowEnv J) (cmd : ι → WorkflowCommand J)
    {c c' : Pool ι (WorkflowWorld J) Unit WorkflowFault WorkflowRun} (hr : Runs (workers env cmd) c)
    (hlater : Runs c c') (workflowRunId : String) (R : Stored (RunRecord J))
    (hR : head c.world.runs workflowRunId = some R) : (R.value.run.state.terminal = true →
      head c'.world.runs workflowRunId = some R ∧
      ∀ stepRunId ∈ R.value.run.stepRunIds, OnlyCancelled c.world c'.world stepRunId) ∧
    (R.value.run.state = .succeeded →
      ∃ rev, env.revision R.value.run.revisionId = some rev ∧
        R.value.run.stepRunIds.Perm
          (rev.nodes.map fun node => env.stepRunId workflowRunId node.nodeId) ∧
        ∀ stepRunId ∈ R.value.run.stepRunIds,
          (stepState c.world stepRunId).any StepState.done = true) := by
  refine ⟨?_, ?_⟩
  · intro hterminal
    induction hlater with
    | refl => exact ⟨hR, fun _ _ => onlyCancelled_of_eq rfl⟩
    | @tail b d hb hs ih =>
      obtain ⟨hsame, hsteps⟩ := ih
      obtain ⟨hkept, hstep⟩ := step_after_end (hr.trans hb) hs hsame hterminal
      have hhead : head d.world.runs workflowRunId = some R := by
        rw [head, hkept]
        exact hsame
      exact ⟨hhead, fun stepRunId hmem =>
        onlyCancelled_trans (hsteps stepRunId hmem) (hstep stepRunId hmem)⟩
  · intro hsucceeded
    obtain ⟨order, hshape⟩ := (runs_ordered hr).1.runShape workflowRunId R.value (head_mem hR)
    obtain ⟨rev, hrev, horder⟩ := hshape.accepted
    refine ⟨rev, hrev, ?_, ?_⟩
    · have hperm := (validateDag_perm horder).map (env.stepRunId workflowRunId)
      rw [List.map_map] at hperm
      rw [hshape.steps]
      exact hperm
    · intro stepRunId hmem
      rw [hshape.steps] at hmem
      obtain ⟨nodeId, hnode, rfl⟩ := List.mem_map.mp hmem
      have hended := hshape.ended
      rw [hsucceeded] at hended
      rw [(succeeded_iff_stepState (runs_disciplined hr).1 _).mp (hended nodeId hnode)]
      rfl

/-- The run of the chain stays as it is once both of its steps have succeeded. -/
theorem chain_run_stays :
    let cmd : WorkflowCommand Unit := .runReadySteps "run" 1
    ∃ R, head (chainPool cmd 9).world.runs "run" = some R ∧ R.value.run.state = .succeeded ∧
      head (chainNext cmd 9).world.runs "run" = some R ∧
      ∃ rev, chainEnv.revision R.value.run.revisionId = some rev ∧
        R.value.run.stepRunIds.Perm
          (rev.nodes.map fun node => chainEnv.stepRunId "run" node.nodeId) := by
  intro cmd
  have hstate : (head (chainPool cmd 9).world.runs "run").map (fun R => R.value.run.state) =
      some .succeeded := by decide +kernel
  obtain ⟨R, hR, hsucceeded⟩ := Option.map_eq_some_iff.mp hstate
  have hfinal := workflow_run_final chainEnv (chainCommands cmd) (chainPool_runs cmd 9)
    (.single (chainNext_steps cmd 9 (by decide +kernel))) "run" R hR
  obtain ⟨rev, hrev, hperm, -⟩ := hfinal.2 hsucceeded
  have hterminal : R.value.run.state.terminal = true := by
    rw [hsucceeded]
    rfl
  exact ⟨R, hR, hsucceeded, (hfinal.1 hterminal).1, rev, hrev, hperm⟩
end

end RaytSystem.Workflow
