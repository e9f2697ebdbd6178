import RaytSystem.ExceptRules
import RaytSystem.RelyGuarantee
import RaytSystem.ReplayService

/-! A materialized record carries no authority of its original: the other calls, forged plans
among them, cannot make a side effect repeat or an approval pass on. -/
namespace RaytSystem.Replay
open Canonical Interleaving RecordTable PyText Option
variable {rules : ReplayRules}

structure ReplayRules.Lawful (rules : ReplayRules) : Prop where
  nfc : ∀ s, isIdentifier s = true → rules.canonical.nfc s = s
  settled : ∀ f v v', rules.validateField f v = some v' → rules.validateField f v' = some v'

section

variable {ok : String → Bool}

theorem text_eq_some {s t : String} :
    text ok s = some t ↔ ok (trim s) = true ∧ trim s = t := by
  unfold text
  split <;> simp_all

theorem text_again {s t u : String} (h : text ok s = some t) (hu : text ok t = some u) : u = t := by
  obtain ⟨-, rfl⟩ := text_eq_some.mp h
  obtain ⟨-, rfl⟩ := text_eq_some.mp hu
  exact trim_trim s

theorem optional_again {α : Type} {f : α → Option α} {x y z : Option α}
    (hf : ∀ a b c, f a = some b → f b = some c → c = b) (h : optional f x = some y)
    (hz : optional f y = some z) : z = y := by
  cases x with
  | none =>
    obtain rfl := some.inj h
    exact (some.inj hz).symm
  | some a =>
    obtain ⟨b, hb, rfl⟩ := map_eq_some_iff.mp h
    obtain ⟨c, hc, rfl⟩ := map_eq_some_iff.mp hz
    rw [hf a b c hb hc]

theorem optional_text_again {x y z : Option String} (h : optional (text ok) x = some y)
    (hz : optional (text ok) y = some z) : z = y :=
  optional_again (fun _ _ _ => text_again) h hz

theorem positive_again {x y z : Option Int} (h : optional positive x = some y)
    (hz : optional positive y = some z) : z = y := by
  refine optional_again ?_ h hz
  intro a b c hb hc
  unfold positive at hb hc
  split at hb <;> split at hc <;> simp_all

theorem identifier_eq_some {s t : String} (h : identifier s = some t) :
    isIdentifier t = true ∧ identifier t = some t := by
  obtain ⟨hok, rfl⟩ := text_eq_some.mp h
  refine ⟨hok, text_eq_some.mpr ?_⟩
  rw [trim_trim]
  exact ⟨hok, rfl⟩

theorem validateVersioned_eq_some {name : String} {v v' : VersionedModel}
    (h : validateVersioned name v = some v') :
    v' = ⟨v.schemaName, trim v.schemaVersion, trim v.idSchemeVersion,
      textKeys v.extensions⟩ := by
  unfold validateVersioned at h
  split at h
  · exact (some.inj h).symm
  · cases h

theorem validateVersioned_again {name : String} {p v v' : VersionedModel}
    {extensions : List (String × PyValue)} (h : validateVersioned name p = some v)
    (h' : validateVersioned name {v with extensions := extensions} = some v') :
    v' = {v with extensions := textKeys extensions} := by
  have hv := validateVersioned_eq_some h
  rw [validateVersioned_eq_some h', hv]
  simp only [trim_trim]

theorem validateFork_eq_some {fork fork' : ForkField → PyValue}
    (h : validateFork rules fork = some fork') (f : ForkField) :
    rules.validateField f (fork f) = some (fork' f) := by
  unfold validateFork at h
  split at h
  next hall =>
    have hf : f ∈ ForkField.all := by cases f <;> decide
    obtain ⟨v, hv⟩ := isSome_iff_exists.mp (List.all_eq_true.mp hall f hf)
    rw [← some.inj h]
    simp only [hv, getD_some]
  · cases h

structure ReadFrom (rules : ReplayRules) (p r : ExecutionRecord) : Prop where
  versioned : validateVersioned "ExecutionRecordV1" p.toVersionedModel = some r.toVersionedModel
  executionRecordId : identifier p.executionRecordId = some r.executionRecordId
  runId : identifier p.runId = some r.runId
  taskId : optional identifier p.taskId = some r.taskId
  taskRevision : optional positive p.taskRevision = some r.taskRevision
  repositorySnapshotSha256 :
    sha256Text p.repositorySnapshotSha256 = some r.repositorySnapshotSha256
  knowledgeGenerationId : optional identifier p.knowledgeGenerationId = some r.knowledgeGenerationId
  policySha256 : sha256Text p.policySha256 = some r.policySha256
  runtimeConfigurationSha256 :
    sha256Text p.runtimeConfigurationSha256 = some r.runtimeConfigurationSha256
  fork : validateFork rules p.fork = some r.fork
  sideEffectIds : identifiers p.sideEffectIds = some r.sideEffectIds
  approvalIds : identifiers p.approvalIds = some r.approvalIds
  traceId : optional identifier p.traceId = some r.traceId
  resultSha256 : optional sha256Text p.resultSha256 = some r.resultSha256
  manifestPath : optional manifest p.manifestPath = some r.manifestPath
  createdAt : p.createdAt = r.createdAt

theorem readFrom_of_validateRecord {p r : ExecutionRecord} (h : validateRecord rules p = some r) :
    ReadFrom rules p r := by
  obtain ⟨versioned, hversioned, h⟩ := bind_eq_some_iff.mp h
  obtain ⟨executionRecordId, hexecutionRecordId, h⟩ := bind_eq_some_iff.mp h
  obtain ⟨runId, hrunId, h⟩ := bind_eq_some_iff.mp h
  obtain ⟨taskId, htaskId, h⟩ := bind_eq_some_iff.mp h
  obtain ⟨taskRevision, htaskRevision, h⟩ := bind_eq_some_iff.mp h
  obtain ⟨repository, hrepository, h⟩ := bind_eq_some_iff.mp h
  obtain ⟨generation, hgeneration, h⟩ := bind_eq_some_iff.mp h
  obtain ⟨policy, hpolicy, h⟩ := bind_eq_some_iff.mp h
  obtain ⟨runtime, hruntime, h⟩ := bind_eq_some_iff.mp h
  obtain ⟨fork, hfork, h⟩ := bind_eq_some_iff.mp h
  obtain ⟨sideEffectIds, hsideEffectIds, h⟩ := bind_eq_some_iff.mp h
  obtain ⟨approvalIds, happrovalIds, h⟩ := bind_eq_some_iff.mp h
  obtain ⟨traceId, htraceId, h⟩ := bind_eq_some_iff.mp h
  obtain ⟨resultSha256, hresultSha256, h⟩ := bind_eq_some_iff.mp h
  obtain ⟨manifestPath, hmanifestPath, h⟩ := bind_eq_some_iff.mp h
  obtain rfl := some.inj h
  exact ⟨hversioned, hexecutionRecordId, hrunId, htaskId, htaskRevision, hrepository, hgeneration,
    hpolicy, hruntime, hfork, hsideEffectIds, happrovalIds, htraceId, hresultSha256,
    hmanifestPath, rfl⟩
end

structure Sealed (plan : ReplayPlan) : Prop where
  newRun : identifier plan.newRunId = some plan.newRunId
  original : isIdentifier plan.originalRunId = true
  apart : plan.originalRunId ≠ plan.newRunId
  unchanged : plan.mode = .replay → plan.differences = []

theorem validatePlanFields_eq_some {p plan : ReplayPlan} (h : validatePlanFields p = some plan) :
    identifier p.originalRunId = some plan.originalRunId ∧
      identifier p.newRunId = some plan.newRunId := by
  obtain ⟨versioned, -, h⟩ := bind_eq_some_iff.mp h
  obtain ⟨replayPlanId, -, h⟩ := bind_eq_some_iff.mp h
  obtain ⟨originalRunId, horiginal, h⟩ := bind_eq_some_iff.mp h
  obtain ⟨originalSha256, -, h⟩ := bind_eq_some_iff.mp h
  obtain ⟨newRunId, hnew, h⟩ := bind_eq_some_iff.mp h
  obtain ⟨recorded, -, h⟩ := bind_eq_some_iff.mp h
  obtain ⟨blocked, -, h⟩ := bind_eq_some_iff.mp h
  obtain ⟨required, -, h⟩ := bind_eq_some_iff.mp h
  obtain ⟨differences, -, h⟩ := bind_eq_some_iff.mp h
  obtain ⟨planSha256, -, h⟩ := bind_eq_some_iff.mp h
  obtain rfl := some.inj h
  exact ⟨horiginal, hnew⟩

theorem sealed_of_validatedPlan {p plan : ReplayPlan} (h : validatedPlan rules p = .ok plan) :
    Sealed plan := by
  unfold validatedPlan at h
  split at h
  · cases h
  next read hread =>
    obtain ⟨⟨⟩, hinv, h⟩ := bind_eq_ok.mp h
    obtain ⟨expected, -, h⟩ := bind_eq_ok.mp h
    split at h
    next =>
      obtain rfl := Except.ok.inj h
      obtain ⟨horiginal, hnew⟩ := validatePlanFields_eq_some hread
      unfold replayInvariants at hinv
      split at hinv
      · cases hinv
      next hapart =>
        split at hinv
        · cases hinv
        next hmode =>
          refine ⟨(identifier_eq_some hnew).2, (identifier_eq_some horiginal).1, hapart, ?_⟩
          intro hreplay
          simpa [hreplay] using hmode
    · cases h

theorem freshApprovals_nil {runId newRunId : String} {index : ℕ} {approvals : List String}
    (h : freshApprovals rules runId newRunId index approvals = .ok []) : approvals = [] := by
  cases approvals with
  | nil => rfl
  | cons id rest =>
    obtain ⟨fresh, -, h⟩ := bind_eq_ok.mp h
    obtain ⟨ids, -, h⟩ := bind_eq_ok.mp h
    cases return_eq_ok.mp h

theorem blockedEffects_nil {o : ExecutionRecord} {recorded : List String}
    (h : blockedEffects o recorded = []) : ∀ s ∈ o.sideEffectIds, s ∈ recorded := by
  intro s hs
  by_contra hnot
  have hmem : s ∈ blockedEffects o recorded := by
    rw [blockedEffects, mem_sortedSet, List.mem_filter]
    exact ⟨hs, by simpa using hnot⟩
  rw [h] at hmem
  cases hmem

theorem ofKey_key {key : String} {f : ForkField} (h : ForkField.ofKey key = some f) :
    f.key = key := by
  simpa using List.find?_some h

theorem applyDifferences_other {differences : List (String × PyValue)}
    {fork fork' : ForkField → PyValue} (h : applyDifferences differences fork = .ok fork')
    (f : ForkField) (hf : f.key ∉ differences.map Prod.fst) : fork' f = fork f := by
  induction differences generalizing fork with
  | nil => rw [Except.ok.inj h]
  | cons kv rest ih =>
    obtain ⟨key, difference⟩ := kv
    rw [List.map_cons, List.mem_cons, not_or] at hf
    unfold applyDifferences at h
    split at h
    · cases h
    next field hfield =>
      split at h
      · cases h
      next value _ =>
        rw [ih h hf.2, Function.update_of_ne]
        rintro rfl
        exact hf.1 (ofKey_key hfield)

section

structure Original (rules : ReplayRules) (w : ReplayWorld) (runId : String)
    (o : ExecutionRecord) : Prop where
  stored : ∃ row ∈ w.executions runId, validateRecord rules row.payload = some o
  runId : o.runId = runId

def Evidence (w : ReplayWorld) (runId sideEffectId : String) : Prop :=
  ∃ row ∈ w.results (resultKey runId sideEffectId), ∃ r, validateResult row.payload = some r ∧
    r.originalRunId = runId ∧ r.sideEffectId = sideEffectId

structure Replayed (plan : ReplayPlan) (o r : ExecutionRecord) : Prop where
  apart : r.runId ≠ o.runId
  noApprovals : r.approvalIds = []
  noSideEffects : r.sideEffectIds = []
  kept : r = {o with
    executionRecordId := r.executionRecordId, runId := plan.newRunId, approvalIds := [],
    sideEffectIds := [], traceId := none, resultSha256 := none, manifestPath := none,
    createdAt := r.createdAt, extensions := originStamp plan, fork := r.fork}
  forked : ∀ f : ForkField, f.key ∉ plan.differences.map Prod.fst → r.fork f = o.fork f
  replayed : plan.mode = .replay → r.fork = o.fork

theorem textKeys_originStamp (plan : ReplayPlan) :
    textKeys (originStamp plan) = originStamp plan := by
  have htrim : trim "replay_origin" = "replay_origin" :=
    trim_identifier (by decide +kernel)
  simp only [textKeys, originStamp, List.foldl_cons, List.foldl_nil, PyDict.setEntries, htrim]

variable {plan : ReplayPlan} {p o draft : ExecutionRecord} {now : Int} {fork : ForkField → PyValue}

theorem draft_kept (hplan : Sealed plan) (ho : ReadFrom rules p o)
    (hd : ReadFrom rules (replayPayload plan o now fork) draft) : draft = {o with
      executionRecordId := draft.executionRecordId, runId := plan.newRunId, approvalIds := [],
      sideEffectIds := [], traceId := none, resultSha256 := none, manifestPath := none,
      createdAt := draft.createdAt, extensions := originStamp plan, fork := draft.fork} := by
  have hversioned := validateVersioned_again ho.versioned hd.versioned
  rw [textKeys_originStamp] at hversioned
  have hrun : plan.newRunId = draft.runId := some.inj (hplan.newRun.symm.trans hd.runId)
  have htask := optional_text_again ho.taskId hd.taskId
  have hrevision := positive_again ho.taskRevision hd.taskRevision
  have hrepository := text_again ho.repositorySnapshotSha256 hd.repositorySnapshotSha256
  have hgeneration := optional_text_again ho.knowledgeGenerationId hd.knowledgeGenerationId
  have hpolicy := text_again ho.policySha256 hd.policySha256
  have hruntime := text_again ho.runtimeConfigurationSha256 hd.runtimeConfigurationSha256
  have heffects : [] = draft.sideEffectIds := some.inj hd.sideEffectIds
  have happrovals : [] = draft.approvalIds := some.inj hd.approvalIds
  have htrace : none = draft.traceId := some.inj hd.traceId
  have hresult : none = draft.resultSha256 := some.inj hd.resultSha256
  have hmanifest : none = draft.manifestPath := some.inj hd.manifestPath
  obtain ⟨versioned, _, _, _, _, _, _, _, _, _, _, _, _, _, _, _⟩ := draft
  obtain ⟨versioned', _, _, _, _, _, _, _, _, _, _, _, _, _, _, _⟩ := o
  subst hversioned
  simp_all

theorem draft_fork (hrules : rules.Lawful) (ho : ReadFrom rules p o)
    (hd : ReadFrom rules (replayPayload plan o now fork) draft) {f : ForkField}
    (hf : fork f = o.fork f) : draft.fork f = o.fork f := by
  have hold := hrules.settled f _ _ (validateFork_eq_some ho.fork f)
  have hnew := validateFork_eq_some hd.fork f
  change rules.validateField f (fork f) = some (draft.fork f) at hnew
  rw [hf] at hnew
  exact some.inj (hnew.symm.trans hold)

theorem replayed_of_materialized (hrules : rules.Lawful) {p o record : ExecutionRecord}
    (hplan : Sealed plan) (hp : validateRecord rules p = some o)
    (hrun : o.runId = plan.originalRunId) (h : materialized rules plan o now = .ok record) :
    Replayed plan o record := by
  obtain ⟨fork, hfork, h⟩ := bind_eq_ok.mp h
  split at h
  · cases h
  next draft hdraft =>
    obtain ⟨id, -, h⟩ := bind_eq_ok.mp h
    obtain ⟨bound, -, h⟩ := bind_eq_ok.mp h
    split at h
    next =>
      obtain rfl := Except.ok.inj h
      have ho := readFrom_of_validateRecord hp
      have hd := readFrom_of_validateRecord hdraft
      have hkept := draft_kept hplan ho hd
      have hforked : ∀ f : ForkField, f.key ∉ plan.differences.map Prod.fst →
          draft.fork f = o.fork f := fun f hf =>
        draft_fork hrules ho hd (applyDifferences_other hfork f hf)
      have hapart : draft.runId ≠ o.runId := by
        rw [hkept, hrun]
        exact hplan.apart.symm
      refine ⟨hapart, ?_, ?_, ?_, hforked, ?_⟩
      · exact congrArg ExecutionRecord.approvalIds hkept
      · exact congrArg ExecutionRecord.sideEffectIds hkept
      · exact congrArg (fun r => {r with executionRecordId := id}) hkept
      · intro hreplay
        funext f
        exact hforked f (by simp [hplan.unchanged hreplay])
    · cases h
end
end RaytSystem.Replay
