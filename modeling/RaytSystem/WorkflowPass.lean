import RaytSystem.WorkflowRules

/-! The pass of `run_ready_steps` over a snapshot of the steps. The snapshot may be
stale when a step is written; what it says about succeeded parents stays true. -/
namespace RaytSystem.Workflow
open Interleaving RecordTable

variable {J : Type} {env : WorkflowEnv J} {w : WorkflowWorld J} {revision : Nat} {now : Int}

theorem ensures_failStep {step : WorkflowStepRun} {reason : String}
    {Q : Unit → WorkflowWorld J → Prop} (hw : Writable w step revision)
    (hparents : ParentsSucceeded env w step.workflowRunId step.nodeId)
    (h : ∀ w', Later w w' → Q () w') :
    Ensures (discipline env) (failStep step revision now reason) Q w := by
  refine ensures_bind (ensures_persistStep (writable_update hw rfl rfl rfl) (by simp)
    (fun _ _ => hparents) fun w' hl _ => ?_)
  exact ensures_appendEvent fun w'' hl' => h w'' (later_trans hl hl')

variable {Q : Option J → WorkflowWorld J → Prop}

theorem ensures_giveUp {step : WorkflowStepRun} {reason : String} (hw : Writable w step revision)
    (hparents : ParentsSucceeded env w step.workflowRunId step.nodeId)
    (h : ∀ w', Later w w' → Q none w') :
    Ensures (discipline env) (do failStep step revision now reason; pure none) Q w :=
  ensures_bind (ensures_failStep hw hparents fun w' hl => h w' hl)

theorem ensures_completeStep {step : WorkflowStepRun} {output : J} (hw : Writable w step revision)
    (hparents : ParentsSucceeded env w step.workflowRunId step.nodeId)
    (h : ∀ o w', Later w w' → (o.isSome → Succeeded w' step.stepRunId) → Q o w') :
    Ensures (discipline env) (completeStep env step revision now output) Q w := by
  unfold completeStep
  split
  · exact ensures_giveUp hw hparents fun w' hl => h none w' hl nofun
  · refine ensures_bind (ensures_persistStep (writable_update hw rfl rfl rfl) (by simp)
      (fun _ _ => hparents) fun w' hl hseen => ?_)
    refine ensures_bind (ensures_appendEvent fun w'' hl' => ?_)
    exact h _ w'' (later_trans hl hl') fun _ => succeeded_later ⟨_, seen_mem hseen, rfl⟩ hl'

variable {inputs : List (String × J)}

theorem ensures_driveAttempts {policy : Option WorkflowRetryPolicy}
    {operation : List (String × J) → Except Unit (Option J)} {retries : Nat}
    {step : WorkflowStepRun} (hw : Writable w step revision) (hstate : step.state = .pending)
    (hparents : ParentsSucceeded env w step.workflowRunId step.nodeId)
    (h : ∀ o w', Later w w' → (o.isSome → Succeeded w' step.stepRunId) → Q o w') :
    Ensures (discipline env) (driveAttempts env policy operation inputs now retries step revision)
      Q w := by
  have hnone : ∀ w', Later w w' → Q none w' := fun w' hl => h none w' hl nofun
  induction retries generalizing w step revision policy with
  | zero =>
    unfold driveAttempts
    split
    · exact ensures_giveUp hw hparents hnone
    · exact ensures_giveUp hw hparents hnone
    · exact ensures_completeStep hw hparents h
  | succ retries ih =>
    unfold driveAttempts
    split
    · cases policy with
      | none => exact ensures_giveUp hw hparents hnone
      | some policy =>
        refine ensures_bind (ensures_persistStep (writable_update hw rfl rfl rfl)
          (by simp [hstate]) (fun hp => absurd hstate hp) fun w' hl hseen => ?_)
        refine ensures_bind (ensures_appendEvent fun w'' hl' => ?_)
        have hl'' := later_trans hl hl'
        -- the revision just appended is the one the next attempt names
        have hw' : Writable w'' {step with attempt := step.attempt + 1, startedAt := some now}
            (revision + 1) :=
          ⟨⟨_, seen_extends hseen hl'.steps, rfl, rfl, rfl, by simp [hstate]⟩⟩
        exact ih hw' hstate (parents_later hparents hl'')
          (fun o w₃ hl₃ ho => h o w₃ (later_trans hl'' hl₃) ho)
          (fun w₃ hl₃ => hnone w₃ (later_trans hl'' hl₃))
    · exact ensures_giveUp hw hparents hnone
    · exact ensures_completeStep hw hparents h

variable {node : WorkflowNode}

theorem ensures_loadRetryPolicy {Q : Option WorkflowRetryPolicy → WorkflowWorld J → Prop}
    (h : ∀ policy, Q policy w) : Ensures (discipline env) (loadRetryPolicy env node) Q w := by
  unfold loadRetryPolicy
  split
  · exact h none
  · exact ensures_bind (ensures_ofOption fun policy _ => h (some policy))

theorem ensures_loadApprovalGate {Q : WorkflowApprovalGate → WorkflowWorld J → Prop}
    (h : ∀ gate, Q gate w) : Ensures (discipline env) (loadApprovalGate env node) Q w :=
  ensures_bind (ensures_ofOption fun _ _ => ensures_ofOption fun gate _ => h gate)

variable {rid : String} {record : Stored (StepRecord J)}

theorem ensures_driveDeterministic (hread : ReadStep env w rid record)
    (hstate : record.value.step.state = .pending)
    (hparents : ParentsSucceeded env w rid record.value.step.nodeId)
    (h : ∀ o w', Later w w' → (o.isSome → Succeeded w' record.value.step.stepRunId) → Q o w') :
    Ensures (discipline env) (driveDeterministic env node record inputs now) Q w := by
  have hw := readStep_writable hread (by simp [hstate])
  rw [← hread.run] at hparents
  refine ensures_bind (ensures_ofOption fun operation _ => ?_)
  dsimp only
  split
  · exact ensures_giveUp hw hparents fun w' hl => h none w' hl nofun
  · refine ensures_bind (ensures_loadRetryPolicy fun policy => ?_)
    exact ensures_driveAttempts hw hstate hparents h

theorem ensures_expiryLimit {Q : Nat × String → WorkflowWorld J → Prop} (h : ∀ limit, Q limit w) :
    Ensures (discipline env) (expiryLimit env node) Q w := by
  unfold expiryLimit
  split
  · exact ensures_bind (ensures_loadApprovalGate fun gate => h _)
  · exact h _

theorem ensures_expireStep {Q : Bool → WorkflowWorld J → Prop} (hread : ReadStep env w rid record)
    (hopen : record.value.step.state ≠ .succeeded)
    (hparents : ParentsSucceeded env w rid record.value.step.nodeId)
    (h : ∀ b w', Later w w' → Q b w') :
    Ensures (discipline env) (expireStep env node record now) Q w := by
  have hw := readStep_writable hread hopen
  rw [← hread.run] at hparents
  refine ensures_bind (ensures_expiryLimit fun limit => ?_)
  split
  · exact ensures_bind (ensures_failStep hw hparents fun w' hl => h true w' hl)
  · exact h false w (later_refl w)

theorem ensures_parkStep {state : StepState} {Q : Nat → WorkflowWorld J → Prop}
    (hread : ReadStep env w rid record) (hopen : record.value.step.state ≠ .succeeded)
    (hskip : state ≠ .skipped) (hparents : ParentsSucceeded env w rid record.value.step.nodeId)
    (h : ∀ n w', Later w w' → Q n w') :
    Ensures (discipline env) (parkStep record state now) Q w := by
  rw [← hread.run] at hparents
  exact ensures_persistStep (writable_update (readStep_writable hread hopen) rfl rfl rfl) hskip
    (fun _ _ => hparents) fun w' hl _ => h _ w' hl

def PassStates (env : WorkflowEnv J) (w : WorkflowWorld J) (workflowRunId : String)
    (records : String → Option (Stored (StepRecord J)))
    (states : String → Option StepState) : Prop :=
  ∀ nodeId state, states nodeId = some state →
    (state.done = true → Succeeded w (env.stepRunId workflowRunId nodeId)) ∧
    (state.done = false → ∃ s, records nodeId = some s ∧ s.value.step.state = state)

variable {records : String → Option (Stored (StepRecord J))} {states : String → Option StepState}

theorem passStates_later {w' : WorkflowWorld J} (h : PassStates env w rid records states)
    (hl : Later w w') : PassStates env w' rid records states :=
  fun nodeId state hs => ⟨fun hd => succeeded_later ((h nodeId state hs).1 hd) hl,
    (h nodeId state hs).2⟩

theorem passStates_succeeded {rid nodeId : String} (h : PassStates env w rid records states)
    (hs : Succeeded w (env.stepRunId rid nodeId)) :
    PassStates env w rid records (Function.update states nodeId (some .succeeded)) := by
  intro n state hn
  by_cases hnode : n = nodeId
  · subst hnode
    rw [Function.update_self] at hn
    obtain rfl := Option.some.inj hn
    exact ⟨fun _ => hs, nofun⟩
  · rw [Function.update_of_ne hnode] at hn
    exact h n state hn

theorem passStates_of_records (hrec : ReadSteps env w rid records) :
    PassStates env w rid records fun nodeId => (records nodeId).map fun r => r.value.step.state := by
  intro nodeId state hstate
  obtain ⟨s, hs, rfl⟩ := Option.map_eq_some_iff.mp hstate
  obtain ⟨hnode, hread⟩ := hrec nodeId s hs
  refine ⟨?_, fun _ => ⟨s, hs, rfl⟩⟩
  intro hd
  have hsucc : s.value.step.state = .succeeded := by
    have hns := hread.notSkipped
    cases h : s.value.step.state <;> simp_all [StepState.done]
  refine ⟨s.value, ?_, hsucc⟩
  rw [← hnode, ← hread.id]
  exact seen_mem hread.seen

theorem ensures_passSteps {rev : WorkflowRevision} {order : List String} {R : RunRecord J}
    (hR : R ∈ w.runs rid) (hrev : env.revision R.run.revisionId = some rev)
    (hrec : ReadSteps env w rid records) (hst : PassStates env w rid records states) :
    Ensures (discipline env) (passSteps env rev records now order states inputs)
      (fun _ w' => Later w w') w := by
  induction order generalizing w states inputs with
  | nil => exact later_refl w
  | cons nodeId rest ih =>
    refine ensures_bind (ensures_ofOption fun state hstate => ?_)
    obtain ⟨hdone, hopen⟩ := hst nodeId state hstate
    split
    · exact ih hR hrec hst
    next hnotDone =>
      obtain ⟨s, hs, hsst⟩ := hopen (by simpa using hnotDone)
      obtain ⟨hnode, hread⟩ := hrec nodeId s hs
      split
      · exact later_refl w
      next hfailed =>
        split
        · exact ih hR hrec hst
        next hall =>
          have hparents : ParentsSucceeded env w rid s.value.step.nodeId := by
            refine ⟨R, hR, rev, hrev, ?_⟩
            intro parent hparent
            rw [hnode] at hparent
            simp only [Bool.not_eq_true', Bool.not_eq_false, List.all_eq_true] at hall
            obtain ⟨st, hst', hd⟩ := (Option.any_eq_true _ _).mp (hall parent hparent)
            exact (hst parent st hst').1 hd
          have hnotSucceeded : s.value.step.state ≠ .succeeded := by
            rw [hsst]
            rintro rfl
            exact hnotDone rfl
          refine ensures_bind (ensures_ofOption fun node _ => ?_)
          refine ensures_bind (ensures_ofOption fun record hrecord => ?_)
          obtain rfl : s = record := Option.some.inj (hs.symm.trans hrecord)
          split
          · exact ensures_bind (ensures_expireStep hread hnotSucceeded hparents
              fun b w' hl => hl)
          next hidle =>
            split
            · exact later_refl w
            next hpaused =>
              split
              · exact ensures_bind (ensures_parkStep hread hnotSucceeded (by simp) hparents
                  fun n w' hl => hl)
              · split
                · exact ensures_bind (ensures_parkStep hread hnotSucceeded (by simp) hparents
                    fun n w' hl => hl)
                · have hpending : s.value.step.state = .pending := by
                    have hns := hread.notSkipped
                    rw [hsst] at hns hnotSucceeded ⊢
                    cases state <;> simp_all
                  refine ensures_bind (ensures_driveDeterministic hread hpending hparents
                    fun o w' hl ho => ?_)
                  cases o with
                  | none => exact hl
                  | some output =>
                    have hsucc := ho rfl
                    rw [hread.id, hnode] at hsucc
                    exact ensures_mono (ih (extends_mem hl.runs hR) (readSteps_later hrec hl)
                      (passStates_succeeded (passStates_later hst hl) hsucc))
                      fun _ _ hl' => later_trans hl hl'

theorem ensures_runReadySteps (workflowRunId : String) (now : Int) :
    Ensures (discipline env) (runReadySteps env workflowRunId now) (fun _ _ => True) w := by
  refine ensures_bind (ensures_requireEnabled ?_)
  refine ensures_bind (ensures_assertRuntimeAllowed ?_)
  refine ensures_bind (ensures_loadRun fun record w₁ hi hl₁ hhead hid => ?_)
  dsimp only
  split
  · trivial
  · refine ensures_bind (ensures_ofOption fun rev hrev => ?_)
    refine ensures_bind (ensures_ofExcept fun order _ => ?_)
    have hR := head_mem hhead
    refine ensures_bind (ensures_stepRecords hR (fun _ h => h) (readSteps_none _)
      fun records w₂ hl₂ hrec => ?_)
    have hst : PassStates env w₂ workflowRunId records
        (fun nodeId => (records nodeId).map fun r => r.value.step.state) :=
      passStates_of_records hrec
    refine ensures_bind (ensures_mono
      (ensures_passSteps (extends_mem hl₂.runs hR) hrev hrec hst) fun result w₃ hl₃ => ?_)
    have hseen := seen_extends (seen_head hhead) (later_trans hl₂ hl₃).runs
    refine ensures_bind ?_
    refine ensures_persistRun hseen hid rfl rfl fun w₄ _ => ?_
    exact ensures_bind (ensures_appendEvent fun _ _ => trivial)

end RaytSystem.Workflow
