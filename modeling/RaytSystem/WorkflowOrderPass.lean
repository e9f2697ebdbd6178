import RaytSystem.WorkflowOrderRules

/-! The pass of `run_ready_steps` in the accepted order. When a node's turn comes, every
earlier node is done, so the branch that skips a node with an open dependency is never taken;
the state the pass leaves the run in is what its steps have come to. -/
namespace RaytSystem.Workflow
open Interleaving RecordTable

variable {J : Type} {env : WorkflowEnv J} {w : WorkflowWorld J}

def StepSettled (w : WorkflowWorld J) (stepRunId : String) (output : Option J) : Prop :=
  (output = none → StepBroken w stepRunId) ∧ (output ≠ none → Succeeded w stepRunId)

variable {revision : Nat} {now : Int}

theorem ordered_failStep {step : WorkflowStepRun} {reason : String}
    {Q : Unit → WorkflowWorld J → Prop} (hw : OpenStep w step revision)
    (hearlier : Earlier env w Succeeded step.workflowRunId step.nodeId)
    (h : ∀ w', Later w w' → StepBroken w' step.stepRunId → Q () w') :
    Ensures (orderDiscipline env) (failStep step revision now reason) Q w := by
  refine ensures_bind (ordered_persistStep hw ?_ fun w' hl hseen => ?_)
  · exact fun w' _ _ hl => Or.inr (earlier_later (fun _ hm => succeeded_later hm hl) hearlier hl)
  · refine ordered_appendEvent fun w'' hl' => h w'' (later_trans hl hl') ?_
    exact stepBroken_later ⟨_, seen_mem hseen, Or.inl rfl⟩ hl'

variable {Q : Option J → WorkflowWorld J → Prop}

theorem ordered_giveUp {step : WorkflowStepRun} {reason : String} (hw : OpenStep w step revision)
    (hearlier : Earlier env w Succeeded step.workflowRunId step.nodeId)
    (h : ∀ o w', Later w w' → StepSettled w' step.stepRunId o → Q o w') :
    Ensures (orderDiscipline env) (do failStep step revision now reason; pure none) Q w :=
  ensures_bind (ordered_failStep hw hearlier fun w' hl hb =>
    h none w' hl ⟨fun _ => hb, fun hne => absurd rfl hne⟩)

theorem ordered_completeStep {step : WorkflowStepRun} {output : J} (hw : OpenStep w step revision)
    (hearlier : Earlier env w Succeeded step.workflowRunId step.nodeId)
    (h : ∀ o w', Later w w' → StepSettled w' step.stepRunId o → Q o w') :
    Ensures (orderDiscipline env) (completeStep env step revision now output) Q w := by
  unfold completeStep
  split
  · exact ordered_giveUp hw hearlier h
  · refine ensures_bind (ordered_persistStep hw ?_ fun w' hl hseen => ?_)
    · exact fun w' _ _ hl =>
        Or.inr (earlier_later (fun _ hm => succeeded_later hm hl) hearlier hl)
    · refine ensures_bind (ordered_appendEvent fun w'' hl' => ?_)
      apply h _ w'' (later_trans hl hl')
      exact ⟨nofun, fun _ => succeeded_later ⟨_, seen_mem hseen, rfl⟩ hl'⟩

variable {inputs : List (String × J)}

theorem ordered_driveAttempts {policy : Option WorkflowRetryPolicy}
    {operation : List (String × J) → Except Unit (Option J)} {retries : Nat}
    {step : WorkflowStepRun} (hw : OpenStep w step revision) (hstate : step.state = .pending)
    (hearlier : Earlier env w Succeeded step.workflowRunId step.nodeId)
    (h : ∀ o w', Later w w' → StepSettled w' step.stepRunId o → Q o w') :
    Ensures (orderDiscipline env)
      (driveAttempts env policy operation inputs now retries step revision) Q w := by
  induction retries generalizing w step revision policy with
  | zero =>
    unfold driveAttempts
    split
    · exact ordered_giveUp hw hearlier h
    · exact ordered_giveUp hw hearlier h
    · exact ordered_completeStep hw hearlier h
  | succ retries ih =>
    unfold driveAttempts
    split
    · cases policy with
      | none => exact ordered_giveUp hw hearlier h
      | some policy =>
        refine ensures_bind (ordered_persistStep hw ?_ fun w' hl hseen => ?_)
        · exact fun w' _ _ hl =>
            Or.inr (earlier_later (fun _ hm => succeeded_later hm hl) hearlier hl)
        · refine ensures_bind (ordered_appendEvent fun w'' hl' => ?_)
          have hl'' := later_trans hl hl'
          have hw' : OpenStep w'' {step with attempt := step.attempt + 1, startedAt := some now}
              (revision + 1) :=
            ⟨_, seen_extends hseen hl'.steps, rfl, by simp [hstate, StepState.closed]⟩
          have hearlier' := earlier_later (fun _ hm => succeeded_later hm hl'') hearlier hl''
          exact ih hw' hstate hearlier' fun o w₃ hl₃ ho => h o w₃ (later_trans hl'' hl₃) ho
    · exact ordered_giveUp hw hearlier h
    · exact ordered_completeStep hw hearlier h

section
variable {rid : String} {record : Stored (StepRecord J)} {now : Int}

theorem ordered_driveDeterministic {node : WorkflowNode} {inputs : List (String × J)}
    {Q : Option J → WorkflowWorld J → Prop} (hread : ReadStep env w rid record)
    (hstate : record.value.step.state = .pending)
    (hearlier : Earlier env w Succeeded rid record.value.step.nodeId)
    (h : ∀ o w', Later w w' → StepSettled w' record.value.step.stepRunId o → Q o w') :
    Ensures (orderDiscipline env) (driveDeterministic env node record inputs now) Q w := by
  have hw := readStep_open hread (by rw [hstate]; rfl)
  rw [← hread.run] at hearlier
  refine ensures_bind (ensures_ofOption fun operation _ => ?_)
  dsimp only
  split
  · exact ordered_giveUp hw hearlier h
  · refine ensures_bind (ordered_loadRetryPolicy fun policy => ?_)
    exact ordered_driveAttempts hw hstate hearlier h

theorem ordered_expireStep {node : WorkflowNode} {Q : Bool → WorkflowWorld J → Prop}
    (hread : ReadStep env w rid record) (hopen : record.value.step.state.closed = false)
    (hearlier : Earlier env w Succeeded rid record.value.step.nodeId)
    (h : ∀ b w', Later w w' → (b = true → StepBroken w' record.value.step.stepRunId) → Q b w') :
    Ensures (orderDiscipline env) (expireStep env node record now) Q w := by
  have hw := readStep_open hread hopen
  rw [← hread.run] at hearlier
  refine ensures_bind (ordered_expiryLimit fun limit => ?_)
  split
  · exact ensures_bind (ordered_failStep hw hearlier fun w' hl hb => h true w' hl fun _ => hb)
  · exact h false w (later_refl w) nofun

theorem ordered_parkStep {state : StepState} {Q : Nat → WorkflowWorld J → Prop}
    (hread : ReadStep env w rid record) (hopen : record.value.step.state.closed = false)
    (hearlier : Earlier env w Succeeded rid record.value.step.nodeId)
    (h : ∀ n w', Later w w' → Q n w') :
    Ensures (orderDiscipline env) (parkStep record state now) Q w := by
  have hw := readStep_open hread hopen
  rw [← hread.run] at hearlier
  refine ordered_persistStep hw ?_ fun w' hl _ => h _ w' hl
  exact fun w' _ _ hl => Or.inr (earlier_later (fun _ hm => succeeded_later hm hl) hearlier hl)
end

def PassFound (env : WorkflowEnv J) (w : WorkflowWorld J) (workflowRunId : String)
    (order : List String) (result : PassResult) : Prop :=
  (result.failed = true → ∃ n ∈ order, StepBroken w (env.stepRunId workflowRunId n)) ∧
    (result.failed = false → result.blocked = false →
      ∀ n ∈ order, Succeeded w (env.stepRunId workflowRunId n))

variable {rid : String} {order : List String} {states : String → Option StepState}

theorem passFound_blocked : PassFound env w rid order ⟨states, false, true⟩ := ⟨nofun, nofun⟩

theorem passFound_failed {rid nodeId : String} (hmem : nodeId ∈ order)
    (hbroken : StepBroken w (env.stepRunId rid nodeId)) :
    PassFound env w rid order ⟨states, true, false⟩ := ⟨fun _ => ⟨nodeId, hmem, hbroken⟩, nofun⟩

theorem closed_of_unfinished {state : StepState} (hdone : ¬state.done = true)
    (hbad : ¬(state = .failed ∨ state = .cancelled)) : state.closed = false := by
  cases state <;> simp_all [StepState.closed, StepState.done]

theorem pending_of_idle {state : StepState} (hdone : ¬state.done = true)
    (hbad : ¬(state = .failed ∨ state = .cancelled))
    (hidle : ¬(state = .waiting ∨ state = .running)) (hpaused : ¬state = .paused) :
    state = .pending := by
  cases state <;> simp_all [StepState.done]

theorem ordered_passSteps {rev : WorkflowRevision}
    {records : String → Option (Stored (StepRecord J))} {order pre rest : List String}
    (hafter : AfterDependencies rev order) (horder : OrderOf env w rid order)
    (hsplit : order = pre ++ rest) (hdone : ∀ m ∈ pre, (states m).any StepState.done = true)
    (hrec : ReadSteps env w rid records) (hst : PassStates env w rid records states) :
    Ensures (orderDiscipline env) (passSteps env rev records now rest states inputs)
      (fun result w' => Later w w' ∧ PassFound env w' rid order result) w := by
  induction rest generalizing w pre states inputs with
  | nil =>
    rw [List.append_nil] at hsplit
    subst hsplit
    refine ⟨later_refl w, nofun, fun _ _ n hn => ?_⟩
    obtain ⟨state, hstate, hd⟩ := (Option.any_eq_true _ _).mp (hdone n hn)
    exact (hst n state hstate).1 hd
  | cons nodeId rest ih =>
    have hmem : nodeId ∈ order := by simp [hsplit]
    have hnext : order = pre ++ [nodeId] ++ rest := by simp [hsplit]
    refine ensures_bind (ensures_ofOption fun state hstate => ?_)
    obtain ⟨hsucc, hread⟩ := hst nodeId state hstate
    split
    next hd =>
      refine ih horder hnext ?_ hrec hst
      intro m hm
      rcases List.mem_append.mp hm with hm | hm
      · exact hdone m hm
      · rw [List.mem_singleton.mp hm, hstate]
        exact hd
    next hnotDone =>
      obtain ⟨s, hs, hsst⟩ := hread (by simpa using hnotDone)
      obtain ⟨hnode, hread⟩ := hrec nodeId s hs
      have hid : s.value.step.stepRunId = env.stepRunId rid nodeId := by rw [hread.id, hnode]
      split
      next hbad =>
        refine ⟨later_refl w, passFound_failed hmem ⟨s.value, hid ▸ seen_mem hread.seen, ?_⟩⟩
        rw [hsst]
        exact hbad
      next hbad =>
        split
        next hall =>
          -- the dependencies stand before the node, and those are done
          have hready : (rev.dependencies nodeId).all
              (fun parent => (states parent).any StepState.done) = true :=
            List.all_eq_true.mpr fun parent hp =>
              hdone parent (hafter pre nodeId rest hsplit parent hp)
          rw [hready] at hall
          cases hall
        next =>
          have hopen : s.value.step.state.closed = false := by
            rw [hsst]
            exact closed_of_unfinished hnotDone hbad
          have hearlier : Earlier env w Succeeded rid s.value.step.nodeId := by
            refine ⟨order, pre, rest, horder, by rw [hnode, hsplit], ?_⟩
            intro m hm
            obtain ⟨st, hst', hd⟩ := (Option.any_eq_true _ _).mp (hdone m hm)
            exact (hst m st hst').1 hd
          refine ensures_bind (ensures_ofOption fun node _ => ?_)
          refine ensures_bind (ensures_ofOption fun record hrecord => ?_)
          obtain rfl : s = record := Option.some.inj (hs.symm.trans hrecord)
          split
          next =>
            refine ensures_bind (ordered_expireStep hread hopen hearlier fun b w' hl hb => ?_)
            cases b with
            | false => exact ⟨hl, passFound_blocked⟩
            | true => exact ⟨hl, passFound_failed hmem (hid ▸ hb rfl)⟩
          next hidle =>
            split
            next => exact ⟨later_refl w, passFound_blocked⟩
            next hpaused =>
              split
              · exact ensures_bind (ordered_parkStep hread hopen hearlier
                  fun n w' hl => ⟨hl, passFound_blocked⟩)
              · split
                · exact ensures_bind (ordered_parkStep hread hopen hearlier
                    fun n w' hl => ⟨hl, passFound_blocked⟩)
                · have hpending : s.value.step.state = .pending := by
                    rw [hsst]
                    exact pending_of_idle hnotDone hbad hidle hpaused
                  refine ensures_bind (ordered_driveDeterministic hread hpending hearlier
                    fun o w' hl ho => ?_)
                  rw [hid] at ho
                  cases o with
                  | none => exact ⟨hl, passFound_failed hmem (ho.1 rfl)⟩
                  | some output =>
                    have hdone' : ∀ m ∈ pre ++ [nodeId],
                        (Function.update states nodeId (some .succeeded) m).any
                          StepState.done = true := by
                      intro m hm
                      by_cases hmn : m = nodeId
                      · rw [hmn, Function.update_self]
                        rfl
                      · rw [Function.update_of_ne hmn]
                        rcases List.mem_append.mp hm with hm | hm
                        · exact hdone m hm
                        · exact absurd (List.mem_singleton.mp hm) hmn
                    exact ensures_mono (ih (orderOf_later horder hl) hnext hdone'
                      (readSteps_later hrec hl)
                      (passStates_succeeded (passStates_later hst hl) (ho.2 (by simp))))
                      fun _ _ hpass => ⟨later_trans hl hpass.1, hpass.2⟩

theorem endedAs_of_pass {result : PassResult} (h : PassFound env w rid order result) :
    EndedAs env w rid order (if result.failed then .failed
      else if !result.blocked && order.all (fun n => (result.states n).any StepState.done) then
        .succeeded
      else .running) := by
  split
  next hfailed => exact h.1 hfailed
  next hfailed =>
    split
    next hall =>
      rw [Bool.and_eq_true, Bool.not_eq_true'] at hall
      exact h.2 (by simpa using hfailed) hall.1
    next => trivial

theorem ordered_runReadySteps (workflowRunId : String) (now : Int) :
    Ensures (orderDiscipline env) (runReadySteps env workflowRunId now) (fun _ _ => True) w := by
  refine ensures_bind (ordered_requireEnabled ?_)
  refine ensures_bind (ordered_assertRuntimeAllowed ?_)
  refine ensures_bind (ordered_loadRun fun record order w₁ hl₁ hread => ?_)
  dsimp only
  split
  · trivial
  next hstate =>
    have hrunning : record.value.run.state = .running := by simpa using hstate
    refine ensures_bind (ensures_ofOption fun rev hrev => ?_)
    refine ensures_bind (ensures_ofExcept fun order' horder' => ?_)
    obtain rfl : order = order' := acceptedOrder_unique hread.accepted ⟨rev, hrev, horder'⟩
    refine ensures_bind (ordered_stepRecords (seen_mem hread.seen) (fun _ h => h)
      (readSteps_none _) fun records w₂ hl₂ hrec => ?_)
    have hread₂ := readRun_later hread hl₂
    have hst : PassStates env w₂ workflowRunId records
        (fun nodeId => (records nodeId).map fun r => r.value.step.state) :=
      passStates_of_records hrec
    refine ensures_bind (ensures_mono (ordered_passSteps (validateDag_after horder')
      (readRun_order hread₂) (List.nil_append order).symm (List.forall_mem_nil _)
      hrec hst)
      fun result w₃ hpass => ?_)
    have hopen : record.value.run.state.terminal = false := by rw [hrunning]; rfl
    refine ensures_bind ?_
    refine ordered_persistRun (readRun_later hread₂ hpass.1) hopen hread.id rfl rfl
      (endedAs_of_pass hpass.2) fun w₄ _ => ?_
    exact ensures_bind (ordered_appendEvent fun _ _ => trivial)

end RaytSystem.Workflow
