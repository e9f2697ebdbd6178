import RaytSystem.ReplayAuthority

/-! Runs of the replay service: any number of calls on one store, interleaved access by access. -/
namespace RaytSystem.Replay
open Canonical Interleaving RecordTable
variable {rules : ReplayRules} {w : ReplayWorld}

structure Held (rules : ReplayRules) (w : ReplayWorld) : Prop where
  once : ∀ runId, (w.executions runId).length ≤ 1
  named : ∀ runId, ∀ row ∈ w.executions runId, row.payload.runId = rules.canonical.nfc runId

def Grows (w w' : ReplayWorld) : Prop :=
  Extends w.executions w'.executions ∧ Extends w.results w'.results

theorem grows_refl (w : ReplayWorld) : Grows w w := ⟨extends_refl _, extends_refl _⟩

theorem grows_trans {a b c : ReplayWorld} (h : Grows a b) (h' : Grows b c) : Grows a c :=
  ⟨extends_trans h.1 h'.1, extends_trans h.2 h'.2⟩

def replayRule (rules : ReplayRules) : Discipline ReplayWorld Unit where
  inv := Held rules
  rely := Grows
  assume _ _ := True
  guar _ := Grows

theorem original_grows {runId : String} {o : ExecutionRecord} {w w' : ReplayWorld}
    (hw : Grows w w') (h : Original rules w runId o) : Original rules w' runId o := by
  obtain ⟨row, hrow, ho⟩ := h.stored
  exact ⟨⟨row, extends_mem hw.1 hrow, ho⟩, h.runId⟩

theorem evidence_grows {runId sideEffectId : String} {w w' : ReplayWorld} (hw : Grows w w')
    (h : Evidence w runId sideEffectId) : Evidence w' runId sideEffectId := by
  obtain ⟨row, hrow, rest⟩ := h
  exact ⟨row, extends_mem hw.2 hrow, rest⟩

theorem guar_refl (w : ReplayWorld) (_ : (replayRule rules).inv w) :
    (replayRule rules).guar () w w := grows_refl w

theorem ensures_kept {α : Type} {p : ReplayProg α} {Q : α → ReplayWorld → Prop}
    {P : ReplayWorld → Prop} (h : Ensures (replayRule rules) p Q w)
    (hP : ∀ w w', Grows w w' → P w → P w') (hw : P w) :
    Ensures (replayRule rules) p (fun a w' => Q a w' ∧ P w') w :=
  ensures_frame h hP (fun _ => hP) hw

theorem ensures_readHead {ρ : Type} {table : ReplayWorld → Table String (Row ρ)} {id : String} :
    Ensures (replayRule rules) (readHead table id)
      (fun x w' => Held rules w' ∧ ∀ row, x = some row → row ∈ table w' id) w := by
  refine ensures_guard fun _ => ?_
  refine ensures_get guar_refl ?_
  intro w' hw' _ _
  refine ⟨hw', ?_⟩
  intro row hrow
  obtain ⟨s, hs, rfl⟩ := Option.map_eq_some_iff.mp hrow
  exact head_mem hs

theorem ensures_openReadOnly {unavailable : String} :
    Ensures (replayRule rules) (openReadOnly unavailable) (fun _ _ => True) w := by
  refine ensures_bind (ensures_get guar_refl ?_)
  intro w' _ _ _
  exact ensures_require fun _ => trivial

theorem ensures_openStore : Ensures (replayRule rules) openStore (fun _ _ => True) w := by
  refine ensures_set ?_
  intro w' hw' _ _
  exact ⟨⟨hw'.once, hw'.named⟩, grows_refl w', trivial⟩

theorem ensures_appendEvent (e : AuditEvent) :
    Ensures (replayRule rules) (appendEvent e) (fun _ _ => True) w := by
  refine ensures_set ?_
  intro w' hw' _ _
  exact ⟨⟨hw'.once, hw'.named⟩, grows_refl w', trivial⟩

theorem ensures_storeExecution (record : ExecutionRecord) (state hash : String) :
    Ensures (replayRule rules)
      (.attempt () (storeExecution record.runId ⟨state, record.stored rules, hash⟩))
      (fun _ _ => True) w := by
  refine ensures_attempt guar_refl ?_
  intro w' u w'' hw' _ _ h
  unfold storeExecution at h
  split at h
  next executions happend =>
    obtain ⟨hnone, rfl⟩ := append_first happend
    obtain ⟨-, rfl⟩ := Prod.mk.inj (Except.ok.inj h)
    refine ⟨⟨?_, ?_⟩, ⟨push_extends _ _ _, extends_refl _⟩, trivial⟩
    · intro runId
      by_cases hrun : runId = record.runId
      · subst hrun
        simp [hnone]
      · simpa [push_other _ _ hrun] using hw'.once runId
    · intro runId row hrow
      rcases mem_push hrow with hrow | ⟨rfl, rfl⟩
      · exact hw'.named runId row hrow
      · rfl
  next => cases h

theorem ensures_storeResult (id : String) (row : Row RecordedSideEffectResult) :
    Ensures (replayRule rules) (.attempt () (storeResult id row)) (fun _ _ => True) w := by
  refine ensures_attempt guar_refl ?_
  intro w' u w'' hw' _ _ h
  unfold storeResult at h
  split at h
  next results happend =>
    obtain ⟨-, rfl⟩ := append_first happend
    obtain ⟨-, rfl⟩ := Prod.mk.inj (Except.ok.inj h)
    exact ⟨⟨hw'.once, hw'.named⟩, ⟨extends_refl _, push_extends _ _ _⟩, trivial⟩
  next => cases h

theorem ensures_storePlan (id : String) (row : Row ReplayPlan) :
    Ensures (replayRule rules) (.attempt () (storePlan id row)) (fun _ _ => True) w := by
  refine ensures_attempt guar_refl ?_
  intro w' u w'' hw' _ _ h
  unfold storePlan at h
  split at h
  next plans happend =>
    obtain ⟨-, rfl⟩ := Prod.mk.inj (Except.ok.inj h)
    exact ⟨⟨hw'.once, hw'.named⟩, grows_refl w', trivial⟩
  next => cases h

section

variable {runId : String}

theorem ensures_loadExecution (hrules : rules.Lawful) :
    Ensures (replayRule rules) (loadExecution rules runId)
      (fun x w' => PyText.isIdentifier runId = true → Original rules w' runId x.1) w := by
  refine ensures_bind (ensures_mono ensures_openReadOnly ?_)
  intro _ w₁ _
  refine ensures_bind (ensures_mono ensures_readHead ?_)
  rintro stored w₂ ⟨hw₂, hread⟩
  refine ensures_bind (ensures_ofOption ?_)
  intro row hrow
  refine ensures_bind (ensures_ofOption ?_)
  intro execution hvalid
  refine ensures_bind (ensures_ofExcept fun bound _ => ?_)
  refine ensures_guard fun _ => ?_
  refine ensures_pure ?_
  intro hid
  have hmem := hread row hrow
  have hrun := (readFrom_of_validateRecord hvalid).runId
  rw [hw₂.named runId row hmem, hrules.nfc runId hid] at hrun
  obtain ⟨-, htrim⟩ := text_eq_some.mp hrun
  rw [PyText.trim_identifier hid] at htrim
  exact ⟨⟨row, hmem, hvalid⟩, htrim.symm⟩

theorem ensures_recordExecution (record : ExecutionRecord) :
    Ensures (replayRule rules) (recordExecution rules record) (fun _ _ => True) w := by
  refine ensures_guard fun _ => ?_
  refine ensures_bind (ensures_ofExcept fun bound _ => ?_)
  refine ensures_guard fun _ => ?_
  refine ensures_bind (ensures_mono ensures_openStore fun _ w₁ _ => ?_)
  refine ensures_bind (ensures_mono ensures_readHead fun existing w₂ _ => ?_)
  refine ensures_bind (ensures_ofExcept fun hash _ => ?_)
  split
  next row => exact ensures_bind (ensures_require fun _ => ensures_pure trivial)
  next =>
    refine ensures_bind (ensures_mono (ensures_storeExecution record _ hash) fun _ w₃ _ => ?_)
    exact ensures_bind (ensures_mono (ensures_appendEvent _) fun _ _ _ => ensures_pure trivial)

theorem ensures_recordSideEffectResult (hrules : rules.Lawful) (result : RecordedSideEffectResult) :
    Ensures (replayRule rules) (recordSideEffectResult rules result) (fun _ _ => True) w := by
  refine ensures_guard fun _ => ?_
  refine ensures_bind (ensures_ofExcept fun bound _ => ?_)
  refine ensures_guard fun _ => ?_
  refine ensures_bind (ensures_mono (ensures_loadExecution hrules) fun original w₁ _ => ?_)
  refine ensures_guard fun _ => ?_
  refine ensures_bind (ensures_ofExcept fun hash _ => ?_)
  refine ensures_bind (ensures_mono ensures_openStore fun _ w₂ _ => ?_)
  refine ensures_bind (ensures_mono ensures_readHead fun existing w₃ _ => ?_)
  split
  next row => exact ensures_bind (ensures_require fun _ => ensures_pure trivial)
  next =>
    refine ensures_bind (ensures_mono (ensures_storeResult _ _) fun _ w₄ _ => ?_)
    exact ensures_bind (ensures_mono (ensures_appendEvent _) fun _ _ _ => ensures_pure trivial)

theorem ensures_loadResult {runId sideEffectId : String} :
    Ensures (replayRule rules) (loadResult rules runId sideEffectId)
      (fun _ w' => Evidence w' runId sideEffectId) w := by
  refine ensures_bind (ensures_mono ensures_readHead ?_)
  rintro stored w₁ ⟨-, hread⟩
  refine ensures_bind (ensures_ofOption ?_)
  intro row hrow
  refine ensures_bind (ensures_ofOption ?_)
  intro result hvalid
  refine ensures_bind (ensures_ofExcept fun bound _ => ?_)
  refine ensures_bind (ensures_require ?_)
  rintro ⟨-, hrun, heffect⟩
  exact ensures_pure ⟨row, hread row hrow, result, hvalid, hrun, heffect⟩

theorem ensures_verifyEach (ids : List String) (hashes : PyDict String String) :
    Ensures (replayRule rules) (verifyEach rules runId ids hashes)
      (fun _ w' => ∀ s ∈ ids, Evidence w' runId s) w := by
  induction ids generalizing hashes w with
  | nil => exact ensures_pure fun s hs => by cases hs
  | cons id rest ih =>
    refine ensures_bind (ensures_mono ensures_loadResult ?_)
    intro result w₁ hfirst
    -- what the first read found is still there after the others
    refine ensures_mono (ensures_kept (ih _) (fun _ _ => evidence_grows) hfirst) ?_
    rintro _ w₂ ⟨hrest, hid⟩ s hs
    rcases List.mem_cons.mp hs with rfl | hs
    · exact hid
    · exact hrest s hs

theorem ensures_verifyRecordedResults (ids : List String) :
    Ensures (replayRule rules) (verifyRecordedResults rules runId ids)
      (fun _ w' => ∀ s ∈ ids, Evidence w' runId s) w := by
  unfold verifyRecordedResults
  split
  next hnil => exact ensures_pure (by simp [hnil])
  next =>
    exact ensures_bind (ensures_mono ensures_openReadOnly fun _ _ _ => ensures_verifyEach ids _)

def Authorised (plan : ReplayPlan) (o : ExecutionRecord) (w : ReplayWorld) : Prop :=
  (plan.requiredApprovalIds = [] → o.approvalIds = []) ∧
    (plan.blockedSideEffectToolIds = [] → ∀ s ∈ o.sideEffectIds, Evidence w o.runId s)

variable {plan : ReplayPlan}

theorem ensures_assertPlanAuthority {o : ExecutionRecord} :
    Ensures (replayRule rules) (assertPlanAuthority rules plan o)
      (fun _ w' => Authorised plan o w') w := by
  refine ensures_bind (ensures_mono (ensures_verifyRecordedResults _) ?_)
  intro hashes w₁ hevidence
  refine ensures_bind (ensures_ofExcept ?_)
  intro approvals happrovals
  refine ensures_require ?_
  rintro ⟨hblocked, hrequired, -⟩
  refine ⟨fun hnil => ?_, fun hnil s hs => ?_⟩
  · rw [hnil] at hrequired
    exact freshApprovals_nil (hrequired ▸ happrovals)
  · rw [hnil] at hblocked
    exact hevidence s (blockedEffects_nil hblocked.symm s hs)

theorem authorised_grows {o : ExecutionRecord} {w w' : ReplayWorld} (hw : Grows w w')
    (h : Authorised plan o w) : Authorised plan o w' :=
  ⟨h.1, fun hnil s hs => evidence_grows hw (h.2 hnil s hs)⟩

theorem ensures_stage (hrules : rules.Lawful) (plan : ReplayPlan) (actorId : String) :
    Ensures (replayRule rules) (stage rules plan actorId) (fun _ _ => True) w := by
  refine ensures_guard fun _ => ?_
  refine ensures_bind (ensures_ofExcept fun plan _ => ?_)
  refine ensures_bind (ensures_mono (ensures_loadExecution hrules) fun original w₁ _ => ?_)
  refine ensures_guard fun _ => ?_
  refine ensures_bind (ensures_mono ensures_assertPlanAuthority fun _ w₂ _ => ?_)
  refine ensures_bind (ensures_mono ensures_openStore fun _ w₃ _ => ?_)
  refine ensures_bind (ensures_mono ensures_readHead fun taken w₄ _ => ?_)
  refine ensures_guard fun _ => ?_
  refine ensures_bind (ensures_mono ensures_readHead fun existing w₅ _ => ?_)
  refine ensures_bind (ensures_mono (Q := fun _ _ => True) ?_ fun _ _ _ => ensures_pure trivial)
  unfold storeOnce
  split
  next row => exact ensures_pure trivial
  next =>
    refine ensures_bind (ensures_ofExcept fun hash _ => ?_)
    exact ensures_bind (ensures_mono (ensures_storePlan _ _) fun _ _ _ => ensures_appendEvent _)

def Granted (rules : ReplayRules) (plan : ReplayPlan) (record : ExecutionRecord)
    (w : ReplayWorld) : Prop :=
  ∃ read o, validatedPlan rules plan = .ok read ∧ Original rules w read.originalRunId o ∧
    o.approvalIds = [] ∧ (∀ s ∈ o.sideEffectIds, Evidence w o.runId s) ∧ Replayed read o record

theorem granted_grows {record : ExecutionRecord} {w w' : ReplayWorld} (hw : Grows w w')
    (h : Granted rules plan record w) : Granted rules plan record w' := by
  obtain ⟨read, o, hread, ho, happrovals, hevidence, hrecord⟩ := h
  exact ⟨read, o, hread, original_grows hw ho, happrovals,
    fun s hs => evidence_grows hw (hevidence s hs), hrecord⟩

theorem ensures_materialize (hrules : rules.Lawful) (plan : ReplayPlan) :
    Ensures (replayRule rules) (materializeExecutionRecord rules plan)
      (fun record w' => Granted rules plan record w') w := by
  refine ensures_guard fun _ => ?_
  refine ensures_bind (ensures_ofExcept ?_)
  intro read hread
  have hsealed := sealed_of_validatedPlan hread
  refine ensures_bind (ensures_require ?_)
  rintro ⟨hblocked, hrequired⟩
  refine ensures_bind (ensures_mono (ensures_loadExecution hrules) ?_)
  intro original w₁ horiginal
  refine ensures_guard fun _ => ?_
  refine ensures_bind (ensures_mono (ensures_kept ensures_assertPlanAuthority
    (fun _ _ => original_grows) (horiginal hsealed.original)) ?_)
  rintro _ w₂ ⟨hauthorised, horiginal⟩
  -- the rest of the call reads the staged plan and the clock
  have hkept : ∀ w w', Grows w w' →
      Original rules w read.originalRunId original.1 ∧ Authorised read original.1 w →
      Original rules w' read.originalRunId original.1 ∧ Authorised read original.1 w' :=
    fun w w' hw h => ⟨original_grows hw h.1, authorised_grows hw h.2⟩
  refine ensures_bind (ensures_mono (ensures_kept ensures_openReadOnly hkept
    ⟨horiginal, hauthorised⟩) ?_)
  rintro _ w₃ ⟨-, hw₃⟩
  refine ensures_bind (ensures_mono (ensures_kept ensures_readHead hkept hw₃) ?_)
  rintro staged w₄ ⟨-, horiginal, hauthorised⟩
  refine ensures_bind (ensures_ofExcept fun _ _ => ?_)
  refine ensures_bind (ensures_any fun now => ?_)
  refine ensures_ofExcept ?_
  intro record hrecord
  obtain ⟨row, -, hvalid⟩ := horiginal.stored
  exact ⟨read, original.1, hread, horiginal, hauthorised.1 hrequired, hauthorised.2 hblocked,
    replayed_of_materialized hrules hsealed hvalid horiginal.runId hrecord⟩
end

def Promise (rules : ReplayRules) (call : ReplayCall) (reply : ReplayReply) (w : ReplayWorld) :
    Prop :=
  match call, reply with
  | .materialize plan, .materialized record => Granted rules plan record w
  | _, _ => True

theorem promise_grows {call : ReplayCall} {reply : ReplayReply} {w w' : ReplayWorld}
    (hw : Grows w w') (h : Promise rules call reply w) : Promise rules call reply w' := by
  cases call <;> cases reply <;> first | trivial | exact granted_grows hw h

theorem ensures_call (hrules : rules.Lawful) (call : ReplayCall) :
    Ensures (replayRule rules) (call.program rules)
      (fun reply w' => Promise rules call reply w') w := by
  cases call with
  | recordExecution record =>
    exact ensures_bind (ensures_mono (ensures_recordExecution record) fun _ _ _ => trivial)
  | recordSideEffectResult result =>
    exact ensures_bind (ensures_mono (ensures_recordSideEffectResult hrules result)
      fun _ _ _ => trivial)
  | stage plan actorId =>
    exact ensures_bind (ensures_mono (ensures_stage hrules plan actorId) fun _ _ _ => trivial)
  | materialize plan =>
    exact ensures_bind (ensures_mono (ensures_materialize hrules plan) fun _ _ h => h)

def emptyWorld : ReplayWorld := ⟨false, fun _ => [], fun _ => [], fun _ => [], []⟩

def replayPool {ι : Type} (rules : ReplayRules) (calls : ι → ReplayCall) :
    Pool ι ReplayWorld Unit String ReplayReply :=
  ⟨fun i => some ((calls i).program rules), emptyWorld⟩

theorem replayRule_compatible {ι : Type} :
    Pool.Compatible (fun _ : ι => replayRule rules) (fun _ w => w) (Held rules) where
  inv_eq _ := rfl
  preorder _ := ⟨grows_refl, grows_trans⟩
  guar _ _ _ _ _ _ _ hg := hg
  lost_inv _ _ h := h
  lost_rely _ _ w _ _ := grows_refl w

/-- In every interleaving of calls on an empty store, with crashes between their accesses, no run
has two records, and a materialized record replays a stored original that has no approval and whose
side effects are all recorded, without its authority. -/
theorem replay_without_authority {ι : Type} [DecidableEq ι] (hrules : rules.Lawful)
    (calls : ι → ReplayCall) {c : Pool ι ReplayWorld Unit String ReplayReply}
    (h : Pool.Reachable (fun _ _ _ => True) (fun _ w => w) (replayPool rules calls) c) :
    (∀ runId, (c.world.executions runId).length ≤ 1) ∧
      ∀ i plan record, calls i = .materialize plan →
        c.thread i = some (.pure (.materialized record)) → Granted rules plan record c.world := by
  have hsteady : Pool.Steady (fun _ : ι => replayRule rules)
      (fun i reply w => Promise rules (calls i) reply w) (fun _ (_ : String) _ => True) :=
    ⟨fun _ _ _ _ hw hp => promise_grows hw hp, fun _ _ _ _ _ _ => trivial⟩
  have hstart : Pool.Promised (fun _ : ι => replayRule rules) (Held rules)
      (fun i reply w => Promise rules (calls i) reply w) (fun _ (_ : String) _ => True)
      (replayPool rules calls) := by
    refine ⟨⟨fun _ => Nat.zero_le 1, fun _ row hrow => by cases hrow⟩, ?_⟩
    rintro i p ⟨⟩
    exact ensures_call hrules (calls i)
  obtain ⟨hheld, hpromised⟩ := Pool.reachable_promised replayRule_compatible hsteady hstart h
  refine ⟨hheld.once, ?_⟩
  intro i plan record hcall hended
  have hpromise := hpromised i _ hended
  simpa only [wp_pure, hcall, Promise] using hpromise

def zeros : String := "0000000000000000000000000000000000000000000000000000000000000000"

def sampleRules : ReplayRules where
  enabled := true
  canonical := ⟨id, toString, fun _ _ => "", fun _ => zeros⟩
  validateField := fun _ v => some v
  dumpRecord := ExecutionRecord.identityPayload
  dumpResult := RecordedSideEffectResult.identityPayload
  dumpPlan := ReplayPlan.material
  reread := id

theorem sampleRules_lawful : sampleRules.Lawful where
  nfc _ _ := rfl
  settled _ _ _ _ := rfl

def sampleOriginal : ExecutionRecord :=
  ⟨⟨"ExecutionRecordV1", "1.4.0", "1", []⟩, "xrec_" ++ zeros, "run_1", none, none, zeros, none, zeros,
    zeros, fun _ => .none, [], [], none, none, none, 0⟩

def samplePlan : ReplayPlan :=
  ⟨⟨"ReplayPlanV1", "1.4.0", "1", []⟩, "rplan_" ++ zeros, .fork, "run_1", zeros, "run_2", [], [], [],
    [("model", .mapping [("field", .str "model"), ("modified", .str "m")])], zeros, 0⟩

def sampleCalls (i : ℕ) : ReplayCall :=
  match i with
  | 0 => .recordExecution sampleOriginal
  | 1 => .stage samplePlan "operator"
  | _ => .materialize samplePlan

def samplePool : Pool ℕ ReplayWorld Unit String ReplayReply := replayPool sampleRules sampleCalls

def sampleRun : Pool ℕ ReplayWorld Unit String ReplayReply :=
  ((samplePool.advance (fun _ _ _ => true) 0 20 []).advance (fun _ _ _ => true) 1 20 []).advance
    (fun _ _ _ => true) 2 20 [0]

theorem sampleRun_reachable :
    Pool.Reachable (fun _ _ _ => True) (fun _ w => w) samplePool sampleRun :=
  ((Pool.advance_reachable (fun _ _ _ _ => trivial) samplePool 0 20 []).trans
    (Pool.advance_reachable (fun _ _ _ _ => trivial) _ 1 20 [])).trans
    (Pool.advance_reachable (fun _ _ _ _ => trivial) _ 2 20 [0])

def materializedReply : Option (ReplayProg ReplayReply) → Option ExecutionRecord
  | some (.pure (.materialized record)) => some record
  | _ => none

theorem materializedReply_eq_some {t : Option (ReplayProg ReplayReply)} {record : ExecutionRecord}
    (h : materializedReply t = some record) : t = some (.pure (.materialized record)) := by
  unfold materializedReply at h
  split at h
  · rw [Option.some.inj h]
  · cases h

/-- Three calls, up to a materialized replay. -/
theorem sample_without_authority :
    ∃ record, Granted sampleRules samplePlan record sampleRun.world := by
  have hsome : (materializedReply (sampleRun.thread 2)).isSome = true := by decide +kernel
  obtain ⟨record, hrecord⟩ := Option.isSome_iff_exists.mp hsome
  exact ⟨record, (replay_without_authority sampleRules_lawful sampleCalls sampleRun_reachable).2 2
    samplePlan record rfl (materializedReply_eq_some hrecord)⟩

end RaytSystem.Replay
