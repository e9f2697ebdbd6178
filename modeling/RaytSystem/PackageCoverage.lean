import RaytSystem.PackageRuns

/-! The evaluation suites that stand behind an activation: those that an approval covered, over
whole runs of the package service. -/
namespace RaytSystem.Packages
open Extraction Interleaving RecordTable Option

variable {env : PackageEnv} {w w₁ w₂ : PackageWorld}

def suitesOf (w : PackageWorld) (id : Text) : List Text :=
  match head w.manifests id with
  | none => []
  | some record => record.value.manifest.evalSuiteIds

def requiredSuites (w : PackageWorld) (id : Text) (r : PackageRevision) : List Text :=
  suitesOf w id ++ r.previousRevisionId.toList.flatMap (suitesOf w)

abbrev Allowed := PackageWorld → PackageCall → Prop

def ApprovedWith (env : PackageEnv) (allowed : Allowed) (start w : PackageWorld) (id : Text)
    (runs suites : List Text) : Prop :=
  ∃ w₁ w₂ o actorId approvalId given a covered,
    Calls (PackageCall.program env) allowed start w₁ ∧
    approval env id approvalId given w₁ = .ok a ∧
    Exec (PackageCall.program env (.approve id actorId approvalId given)) w₁ o w₂ ∧
    Calls (PackageCall.program env) allowed w₂ w ∧
    given.map (fun run => trim (env.nfc run)) = runs ∧
    verifiedEvalSuites w₁ given = .ok covered ∧ ∀ suite ∈ suites, suite ∈ covered

def KeepsCoverage (env : PackageEnv) (allowed : Allowed) (start w : PackageWorld)
    (id actorId approvalId : Text) : Prop :=
  ∀ o w' packageId p q s r,
    Exec (PackageCall.program env (.activate id actorId approvalId)) w o w' →
    head w.active packageId = some p → head w'.active packageId = some q →
    q.value.revisionId ≠ p.value.revisionId → head w.revisions q.value.revisionId = some s →
    cleanRevision s.value = .ok r →
    ApprovedWith env allowed start w q.value.revisionId r.evalRunIds
      (suitesOf w q.value.revisionId ++ suitesOf w p.value.revisionId)

def PackageCall.Foreseen (env : PackageEnv) (w : PackageWorld) : PackageCall → Prop
  | activate id _ approvalId => ∀ a p, activation env id approvalId w = .ok a →
      a.priorActive = some p → p.value.revisionId ≠ id →
      ∀ suite ∈ suitesOf w p.value.revisionId, suite ∈ requiredSuites w id a.revision
  | _ => True

section

structure Frame (P : Text → RevisionRecord → Prop) (w w' : PackageWorld) : Prop where
  manifests : ∀ id m, head w.manifests id = some m → head w'.manifests id = some m
  revisions : ∀ id s, head w'.revisions id = some s → head w.revisions id = some s ∨ P id s.value

variable {P : Text → RevisionRecord → Prop} {id : Text} {expected : Option ℕ}

theorem Frame.refl (P : Text → RevisionRecord → Prop) (w : PackageWorld) : Frame P w w :=
  ⟨fun _ _ h => h, fun _ _ h => Or.inl h⟩

theorem Frame.same (h : Frame P w w₁) (hmanifests : w₂.manifests = w₁.manifests)
    (hrevisions : w₂.revisions = w₁.revisions) : Frame P w w₂ where
  manifests id m hm := by
    rw [hmanifests]
    exact h.manifests id m hm
  revisions id s hs := by
    rw [hrevisions] at hs
    exact h.revisions id s hs

theorem Frame.putRevision (h : Frame P w w₁) {r : RevisionRecord} (hr : P id r) :
    Frame P w (w₁.putRevision id r) where
  manifests := h.manifests
  revisions id' s hs := by
    rcases head_putRevision_cases hs with ⟨rfl, rfl⟩ | ⟨-, hs⟩
    · exact Or.inr hr
    · exact h.revisions id' s hs

theorem Frame.putManifest (h : Frame P w w₁) {r : ManifestRecord}
    (hnone : head w₁.manifests id = none) : Frame P w (w₁.putManifest id r) where
  manifests id' m hm := by
    have hkept := h.manifests id' m hm
    have hne : id' ≠ id := by
      rintro rfl
      rw [hnone] at hkept
      cases hkept
    rw [PackageWorld.putManifest, head_push_other _ _ hne]
    exact hkept
  revisions := h.revisions

abbrev Frames {α : Type} (P : Text → RevisionRecord → Prop) (w : PackageWorld) (p : PackageProg α)
    (w₁ : PackageWorld) : Prop :=
  Runs (fun _ => True) p (fun _ => Frame P w) (fun _ => Frame P w) w₁

variable (hw : Frame P w w₁)
include hw

theorem frames_pure {α : Type} (a : α) : Frames P w (pure a : PackageProg α) w₁ := runs_pure hw

omit hw in
theorem frames_bind {α β : Type} {p : PackageProg α} {g : α → PackageProg β} (hp : Frames P w p w₁)
    (hg : ∀ a w₂, Frame P w w₂ → Frames P w (g a) w₂) : Frames P w (p >>= g) w₁ :=
  runs_bind (wp_mono _ hp (fun a w₂ h => hg a w₂ h) fun _ _ h => h)

theorem frames_consult {α β : Type} {f : PackageWorld → Except PackageFault α}
    {g : α → PackageProg β} (hg : ∀ a, f w₁ = .ok a → Frames P w (g a) w₁) :
    Frames P w (consult f >>= g) w₁ :=
  runs_bind (runs_consult trivial hg fun _ _ => hw)

theorem frames_revision {r : RevisionRecord} (hr : P id (r.stored env)) :
    Frames P w (appendRevision env id expected r) w₁ :=
  runs_appendRevision env trivial (fun _ _ => ⟨trivial, hw.putRevision hr⟩) fun _ _ => hw

theorem frames_manifest {r : ManifestRecord} : Frames P w (appendManifest env id none r) w₁ := by
  refine runs_appendManifest env trivial (fun _ hhead => ⟨trivial, hw.putManifest ?_⟩) fun _ _ => hw
  simpa using hhead

theorem frames_active {r : ActiveRecord} : Frames P w (appendActive env id expected r) w₁ :=
  runs_appendActive env trivial (fun _ _ _ => ⟨trivial, hw.same rfl rfl⟩) fun _ _ => hw

theorem frames_discovery {r : DiscoveryRecord} : Frames P w (appendDiscovery id expected r) w₁ :=
  runs_appendDiscovery trivial (fun _ _ => ⟨trivial, hw.same rfl rfl⟩) fun _ _ => hw

theorem frames_event (event : PackageEvent) : Frames P w (appendEvent event) w₁ :=
  runs_appendEvent trivial (fun _ _ => ⟨trivial, hw.same rfl rfl⟩) fun _ _ => hw

theorem frames_stage (i : Installation) : Frames P w (stage env id i) w₁ := by
  unfold stage
  split
  · exact runs_pure hw
  · refine runs_bind (wp_sequential_attempt trivial ?_ fun _ _ => hw)
    intro _ w₂ hf
    refine ⟨trivial, ?_⟩
    have hstaged : Frame P w w₂ := by
      split at hf
      · cases hf
        exact hw.same rfl rfl
      · cases hf
    refine frames_bind (keeps_each (P := Frame P w) (X := fun _ => Frame P w) i.source ?_ hstaged)
      fun _ w₃ h => ?_
    · intro entry w₃ h
      unfold copyEntry
      split
      · exact runs_pure h
      · exact wp_sequential_set trivial (h.same rfl rfl)
    · refine runs_bind (runs_consult trivial (fun content _ => ?_) fun _ _ => h)
      refine runs_bind (wp_require _ (fun _ => ?_) fun _ => h)
      exact wp_sequential_set trivial (h.same rfl rfl)
end

section

/-- What a call that begins in `w` may write: a record that is neither approved nor installed, the
record of an approval, or the installation of an approved one. -/
def Wrote (env : PackageEnv) (call : PackageCall) (w : PackageWorld) (id : Text)
    (r : RevisionRecord) : Prop :=
  (r.state ≠ .approved ∧ r.state ≠ .installed) ∨
  (∃ actorId approvalId given a, call = .approve id actorId approvalId given ∧
    approval env id approvalId given w = .ok a ∧ ∀ v, cleanRevision r = .ok v →
      v.evalRunIds = given.map (fun run => trim (env.nfc run)) ∧
        v.previousRevisionId = a.revision.previousRevisionId) ∨
  ∃ prior u, head w.revisions id = some prior ∧ prior.value.state = .approved ∧
    cleanRevision prior.value = .ok u ∧ ∀ v, cleanRevision r = .ok v →
      v.evalRunIds = u.evalRunIds ∧ v.previousRevisionId = u.previousRevisionId

variable {call : PackageCall} {id : Text}

theorem clean_previous {v : PackageRevision} (h : v.fieldsValid = true) :
    (v.previousRevisionId.map env.nfc).map trim = v.previousRevisionId := by
  simp only [PackageRevision.fieldsValid, Bool.and_eq_true] at h
  have hprevious := h.1.1.1.1.2
  rw [map_option_eq (fun t ht => (plain_identifier ht).nfc_eq env) hprevious,
    map_option_eq (fun t ht => (plain_identifier ht).trim_eq) hprevious]

theorem clean_runs {v : PackageRevision} (h : v.fieldsValid = true) :
    (v.evalRunIds.map env.nfc).map trim = v.evalRunIds := by
  simp only [PackageRevision.fieldsValid, Bool.and_eq_true] at h
  have hruns := h.1.1.2
  rw [map_list_eq (fun t ht => (plain_identifier ht).nfc_eq env) hruns,
    map_list_eq (fun t ht => (plain_identifier ht).trim_eq) hruns]

theorem frames_recordInspection {asUpdate : Bool} {source : Text} {i : Inspection}
    (hw : Frame (Wrote env call w) w w₁) (hi : inspection env asUpdate source w₁ = .ok i) :
    Frames (Wrote env call w) w (recordInspection env i) w₁ := by
  obtain ⟨-, -, hstate⟩ := inspection_ok hi
  refine runs_bind (wp_sequential_get trivial ?_)
  split
  · exact frames_pure hw _
  · refine frames_bind (frames_manifest hw) fun _ w₂ h => ?_
    refine frames_bind (frames_revision h (Or.inl ?_)) fun _ w₃ h => frames_event h _
    change i.revision.state ≠ .approved ∧ i.revision.state ≠ .installed
    rw [hstate]
    decide

theorem frames_ingest (asUpdate : Bool) (source : Text) (hw : Frame (Wrote env call w) w w₁) :
    Frames (Wrote env call w) w (ingest env asUpdate source) w₁ := by
  refine frames_consult hw fun i hi => ?_
  refine frames_bind (frames_recordInspection hw hi) fun _ w₂ h => ?_
  refine frames_bind (runs_markInspected (fun _ _ _ h => h.same rfl rfl) h fun _ _ => trivial)
    fun _ w₃ h => frames_pure h _

theorem frames_validate (hw : Frame (Wrote env call w) w w₁) :
    Frames (Wrote env call w) w (validate env id) w₁ := by
  refine frames_consult hw fun v hv => ?_
  have hstate : v.validated.state ≠ .approved ∧ v.validated.state ≠ .installed := by
    simp only [Validation.validated]
    split <;> decide
  refine frames_bind (frames_revision hw (Or.inl hstate)) fun _ w₂ h => ?_
  refine frames_bind (frames_event h _) fun _ w₃ h => ?_
  refine frames_bind (wp_require _ (fun _ => h) fun _ => h) fun _ w₄ h => frames_pure h _

theorem frames_approve {actorId approvalId : Text} {given : List Text} :
    Frames (Wrote env (.approve id actorId approvalId given) w) w
      (approve env id actorId approvalId given) w := by
  refine frames_consult (Frame.refl _ w) fun a ha => ?_
  refine frames_bind (frames_revision (Frame.refl _ w) (Or.inr (Or.inl ?_))) fun _ w₂ h =>
    frames_bind (frames_event h _) fun _ w₃ h => frames_pure h _
  refine ⟨actorId, approvalId, given, a, rfl, ha, fun v hv => ?_⟩
  obtain ⟨rfl, -⟩ := cleanRevision_eq_ok.mp hv
  have hfields := (clean_fields (approval_ok ha).2.1).1
  constructor
  · change (given.map env.nfc).map trim = given.map fun run => trim (env.nfc run)
    rw [List.map_map]
    rfl
  · have hkept : (a.revision.previousRevisionId.map env.nfc).map trim =
        a.revision.previousRevisionId := clean_previous hfields
    exact hkept

theorem frames_install : Frames (Wrote env call w) w (install env id) w := by
  refine frames_consult (Frame.refl _ w) fun i hi => ?_
  obtain ⟨hprior, hclean, hstate⟩ := installation_ok hi
  obtain ⟨hfields, hkept, -⟩ := clean_fields hclean
  refine frames_bind (frames_stage (Frame.refl _ w) i) fun _ w₂ h => ?_
  refine frames_bind (frames_revision h (Or.inr (Or.inr ?_))) fun _ w₃ h =>
    frames_bind (frames_event h _) fun _ w₄ h => frames_pure h _
  refine ⟨i.prior, i.revision, hprior, hkept.symm.trans hstate, hclean, fun v hv => ?_⟩
  obtain ⟨rfl, -⟩ := cleanRevision_eq_ok.mp hv
  exact ⟨clean_runs hfields, clean_previous hfields⟩

theorem frames_switch {α : Type} {s : Replaced} {actorId packageId : Text} {expected : Option ℕ}
    {a : ActiveRecord} {event : PackageEvent} {result : α} (hw : Frame (Wrote env call w) w w₁) :
    Frames (Wrote env call w) w (do
      appendRevision env id (some s.prior.revision) (s.activated actorId)
      appendActive env packageId expected a
      appendEvent event
      return result) w₁ := by
  have hstate : ((s.activated actorId).stored env).state ≠ .approved ∧
      ((s.activated actorId).stored env).state ≠ .installed :=
    ⟨fun h => PackageLifecycleState.noConfusion h, fun h => PackageLifecycleState.noConfusion h⟩
  refine frames_bind (frames_revision hw (Or.inl hstate)) fun _ w₂ h => ?_
  refine frames_bind (frames_active h) fun _ w₃ h => ?_
  exact frames_bind (frames_event h _) fun _ w₄ h => frames_pure h _

theorem frames_supersede {incoming : PackageRevision} (x : Option (Text × Replaced))
    (hw : Frame (Wrote env call w) w w₁) :
    Frames (Wrote env call w) w (supersede env incoming x) w₁ := by
  cases x with
  | none => exact frames_pure hw _
  | some previous =>
    refine frames_bind (frames_revision hw (Or.inl ?_)) fun _ w₂ h => frames_event h _
    exact ⟨fun h => PackageLifecycleState.noConfusion h, fun h => PackageLifecycleState.noConfusion h⟩

theorem frames_rolledBack {currentId : Text} (x : Option Replaced)
    (hw : Frame (Wrote env call w) w w₁) :
    Frames (Wrote env call w) w (markRolledBack env currentId x) w₁ := by
  cases x with
  | none => exact frames_pure hw _
  | some current =>
    refine frames_revision hw (Or.inl ?_)
    exact ⟨fun h => PackageLifecycleState.noConfusion h, fun h => PackageLifecycleState.noConfusion h⟩

theorem frames_unit {α : Type} {P : Text → RevisionRecord → Prop} {p : PackageProg α}
    (h : Frames P w p w₁) : Frames P w (do let _ ← p) w₁ :=
  frames_bind h fun _ _ h => frames_pure h _

theorem frames_call (call : PackageCall) (w : PackageWorld) :
    Frames (Wrote env call w) w (call.program env) w := by
  have hrefl := Frame.refl (Wrote env call w) w
  cases call with
  | discover source =>
    refine frames_consult hrefl fun existing _ => ?_
    cases existing with
    | none => exact frames_bind (frames_discovery hrefl) fun _ w₂ h => frames_event h _
    | some record => exact frames_pure hrefl _
  | inspect source =>
    exact frames_unit (frames_bind (frames_ingest false source hrefl) fun _ w₂ h => frames_pure h _)
  | update source =>
    exact frames_unit (frames_bind (frames_ingest true source hrefl) fun i w₂ h => frames_validate h)
  | validate revisionId => exact frames_unit (frames_validate hrefl)
  | approve revisionId actorId approvalId given => exact frames_unit frames_approve
  | install revisionId => exact frames_unit frames_install
  | activate revisionId actorId approvalId =>
    refine frames_unit (frames_consult hrefl fun a _ => ?_)
    exact frames_bind (frames_supersede _ hrefl) fun _ w₂ h => frames_switch h
  | rollback packageId toRevisionId actorId reason =>
    refine frames_unit (frames_consult hrefl fun r _ => ?_)
    exact frames_bind (frames_rolledBack _ hrefl) fun _ w₂ h => frames_switch h
  | outside evalRuns authorised sources =>
    exact wp_sequential_set trivial (hrefl.same rfl rfl)
end

section
variable {allowed : Allowed} {start : PackageWorld} {id : Text}

structure Backed (env : PackageEnv) (allowed : Allowed) (start w : PackageWorld) (id : Text)
    (v : PackageRevision) : Prop where
  own : (head w.manifests id).isSome = true
  previous : ∀ previous ∈ v.previousRevisionId, (head w.manifests previous).isSome = true
  approved : ApprovedWith env allowed start w id v.evalRunIds (requiredSuites w id v)

variable {P : Text → RevisionRecord → Prop}

theorem suitesOf_kept (hframe : Frame P w w₁) (h : (head w.manifests id).isSome = true) :
    suitesOf w₁ id = suitesOf w id := by
  obtain ⟨m, hm⟩ := isSome_iff_exists.mp h
  rw [suitesOf, suitesOf, hframe.manifests id m hm, hm]

theorem requiredSuites_kept {v : PackageRevision} (hframe : Frame P w w₁)
    (hown : (head w.manifests id).isSome = true)
    (hprevious : ∀ previous ∈ v.previousRevisionId, (head w.manifests previous).isSome = true) :
    requiredSuites w₁ id v = requiredSuites w id v := by
  rw [requiredSuites, requiredSuites, suitesOf_kept hframe hown]
  cases hrecorded : v.previousRevisionId with
  | none => rfl
  | some previous =>
    have hsome := hprevious previous hrecorded
    simp only [toList_some, List.flatMap_cons, List.flatMap_nil, suitesOf_kept hframe hsome]

theorem Backed.after {v v' : PackageRevision} {call : PackageCall} {o : Outcome PackageFault Unit}
    (h : Backed env allowed start w id v) (hframe : Frame P w w₁) (hallowed : allowed w call)
    (hx : Exec (PackageCall.program env call) w o w₁) (ho : o ≠ .crashed)
    (hruns : v'.evalRunIds = v.evalRunIds)
    (hrecorded : v'.previousRevisionId = v.previousRevisionId) :
    Backed env allowed start w₁ id v' where
  own := by
    obtain ⟨m, hm⟩ := isSome_iff_exists.mp h.own
    rw [hframe.manifests id m hm]
    rfl
  previous previous hprevious := by
    rw [hrecorded] at hprevious
    obtain ⟨m, hm⟩ := isSome_iff_exists.mp (h.previous previous hprevious)
    rw [hframe.manifests previous m hm]
    rfl
  approved := by
    have hsame : requiredSuites w₁ id v' = requiredSuites w id v := by
      rw [← requiredSuites_kept hframe h.own h.previous, requiredSuites, requiredSuites, hrecorded]
    rw [hsame, hruns]
    obtain ⟨w₂, w₃, o', actorId, approvalId, given, a, covered, hbefore, ha, hexec, hafter, hrest⟩ :=
      h.approved
    exact ⟨w₂, w₃, o', actorId, approvalId, given, a, covered, hbefore, ha, hexec,
      .call call hafter hallowed hx ho, hrest⟩

theorem approval_suites {approvalId : Text} {given : List Text} {a : Replaced}
    (h : approval env id approvalId given w = .ok a) : (head w.manifests id).isSome = true ∧
      (∀ previous ∈ a.revision.previousRevisionId, (head w.manifests previous).isSome = true) ∧
      ∃ covered, verifiedEvalSuites w given = .ok covered ∧
        ∀ suite ∈ requiredSuites w id a.revision, suite ∈ covered := by
  simp only [approval, bind_eq_ok, return_eq_ok, found_eq_ok, requires_eq_ok] at h
  obtain ⟨-, -, -, -, -, -, prior, hprior, record, hrecord, revision, hclean, -, -, manifest, hmanifest,
    covered, hcovered, previous, hprevious, -, hall, -, -, rfl⟩ := h
  have hown : manifest = record.value.manifest := by
    rw [manifestFromRecord] at hmanifest
    split at hmanifest
    · cases hmanifest
      rfl
    · cases hmanifest
  have hsuites : suitesOf w id = manifest.evalSuiteIds := by
    rw [suitesOf, hrecord, hown]
  have hall' : ∀ suite ∈ manifest.evalSuiteIds ++ previous, suite ∈ covered := by
    intro suite hsuite
    simpa using List.all_eq_true.mp hall suite hsuite
  refine ⟨by rw [hrecord]; rfl, ?_, covered, hcovered, ?_⟩
  · intro other hother
    rw [previousSuites, show revision.previousRevisionId = some other from hother] at hprevious
    simp only [bind_eq_ok, found_eq_ok] at hprevious
    obtain ⟨r, hr, -⟩ := hprevious
    rw [hr]
    rfl
  · intro suite hsuite
    apply hall'
    rw [requiredSuites, hsuites] at hsuite
    cases hrecorded : revision.previousRevisionId with
    | none =>
      rw [hrecorded] at hsuite
      simp only [toList_none, List.flatMap_nil, List.append_nil] at hsuite
      exact List.mem_append_left _ hsuite
    | some other =>
      rw [previousSuites, hrecorded] at hprevious
      simp only [bind_eq_ok, return_eq_ok, found_eq_ok] at hprevious
      obtain ⟨r, hr, m, hm, rfl⟩ := hprevious
      have hm' : m = r.value.manifest := by
        rw [manifestFromRecord] at hm
        split at hm
        · cases hm
          rfl
        · cases hm
      rw [hrecorded] at hsuite
      simp only [toList_some, List.flatMap_cons, List.flatMap_nil, List.append_nil, suitesOf,
        hr, ← hm'] at hsuite
      exact hsuite

theorem calls_backed {evalRuns : Text → Option EvalRun} {authorised : ApprovalRequest → Bool}
    {sources : List Text → SourcePath} (hstart : start = .untouched evalRuns authorised sources)
    (h : Calls (PackageCall.program env) allowed start w) {s : Stored RevisionRecord}
    {v : PackageRevision} (hs : head w.revisions id = some s)
    (hstate : s.value.state = .approved ∨ s.value.state = .installed)
    (hv : cleanRevision s.value = .ok v) : Backed env allowed start w id v := by
  induction h generalizing id s v with
  | start =>
    rw [hstart] at hs
    cases hs
  | @call w₁ w₂ o call hbefore hallowed hx ho ih =>
    have hframe : Frame (Wrote env call w₁) w₁ w₂ := by
      have hmeets := exec_sound (frames_call call w₁) trivial hx
      cases o with
      | returned a => exact hmeets
      | raised e => exact hmeets
      | crashed => exact absurd rfl ho
    rcases hframe.revisions id s hs with hs | hwrote
    · exact (ih hs hstate hv).after hframe hallowed hx ho rfl rfl
    rcases hwrote with hother | happroved | hinstalled
    · rcases hstate with hstate | hstate
      · exact absurd hstate hother.1
      · exact absurd hstate hother.2
    · -- the approval itself
      obtain ⟨actorId, approvalId, given, a, rfl, ha, hfields⟩ := happroved
      obtain ⟨hruns, hrecorded⟩ := hfields v hv
      obtain ⟨hown, hprevious, covered, hcovered, hsuites⟩ := approval_suites ha
      have hsame : requiredSuites w₂ id v = requiredSuites w₁ id a.revision := by
        rw [← requiredSuites_kept hframe hown hprevious, requiredSuites, requiredSuites, hrecorded]
      refine ⟨?_, ?_, ?_⟩
      · obtain ⟨m, hm⟩ := isSome_iff_exists.mp hown
        rw [hframe.manifests id m hm]
        rfl
      · intro previous hmem
        rw [hrecorded] at hmem
        obtain ⟨m, hm⟩ := isSome_iff_exists.mp (hprevious previous hmem)
        rw [hframe.manifests previous m hm]
        rfl
      · rw [hsame, hruns]
        exact ⟨w₁, w₂, o, actorId, approvalId, given, a, covered, hbefore, ha, hx, .start, rfl,
          hcovered, hsuites⟩
    · obtain ⟨prior, u, hprior, happroved, hu, hfields⟩ := hinstalled
      obtain ⟨hruns, hrecorded⟩ := hfields v hv
      exact (ih hprior (Or.inl happroved) hu).after hframe hallowed hx ho hruns hrecorded

def Moved (env : PackageEnv) (w : PackageWorld) (id approvalId : Text) (w' : PackageWorld) : Prop :=
  w'.active = w.active ∨ ∃ a r, activation env id approvalId w = .ok a ∧
    w'.active = push w.active a.revision.packageId r ∧ r.revisionId = id

theorem activate_moves {actorId approvalId : Text} :
    Runs (Moved env w id approvalId) (PackageCall.program env (.activate id actorId approvalId))
      (fun _ => Moved env w id approvalId) (fun _ => Moved env w id approvalId) w := by
  refine runs_bind (wp_mono _ ?_ (fun _ _ h => runs_pure h) fun _ _ h => h)
  refine runs_bind (runs_consult (Or.inl rfl) (fun a ha => ?_) fun _ _ => Or.inl rfl)
  -- nothing before the pointer's record touches a pointer
  have hsupersede : Runs (Moved env w id approvalId) (supersede env a.revision a.superseded)
      (fun _ w' => w'.active = w.active) (fun _ => Moved env w id approvalId) w := by
    cases a.superseded with
    | none => exact runs_pure rfl
    | some previous =>
      refine runs_bind (runs_appendRevision env (Or.inl rfl) (fun _ _ => ⟨Or.inl rfl, ?_⟩)
        fun _ _ => Or.inl rfl)
      exact runs_appendEvent (Or.inl rfl) (fun _ _ => ⟨Or.inl rfl, rfl⟩) fun _ _ => Or.inl rfl
  refine runs_bind (wp_mono _ hsupersede (fun _ w₁ h => ?_) fun _ _ h => h)
  refine runs_bind (runs_appendRevision env (Or.inl h) (fun _ _ => ⟨Or.inl h, ?_⟩)
    fun _ _ => Or.inl h)
  refine runs_bind (runs_appendActive env (Or.inl h) (fun _ _ _ => ?_) fun _ _ => Or.inl h)
  have hmoved : Moved env w id approvalId ((w₁.putRevision id
      ((a.activated actorId).stored env)).putActive a.revision.packageId
        (ActiveRecord.stored env ⟨a.revision.packageId, id, a.revision.contentSha256, actorId,
          some approvalId, none, none⟩)) :=
    Or.inr ⟨a, _, ha, congrArg (push · _ _) h, rfl⟩
  refine ⟨hmoved, runs_bind (runs_appendEvent hmoved (fun _ _ => ⟨hmoved, runs_pure hmoved⟩)
    fun _ _ => hmoved)⟩

/-- In every run whose activations were foreseen, a revision that takes the place of another was
approved with passed runs that cover the suites of both. -/
theorem coverage_kept {evalRuns : Text → Option EvalRun} {authorised : ApprovalRequest → Bool}
    {sources : List Text → SourcePath}
    (h : Calls (PackageCall.program env) (fun w call => call.Foreseen env w)
      (.untouched evalRuns authorised sources) w) {actorId approvalId : Text}
    (hforeseen : (PackageCall.activate id actorId approvalId).Foreseen env w) :
    KeepsCoverage env (fun w call => call.Foreseen env w) (.untouched evalRuns authorised sources) w
      id actorId approvalId := by
  intro o w' packageId p q s r hx hp hq hne hs hr
  have hmoved : Moved env w id approvalId w' := exec_keeps activate_moves (Or.inl rfl) hx
  rcases hmoved with hsame | ⟨a, record, ha, hpush, hid⟩
  · rw [hsame, hp] at hq
    cases hq
    exact absurd rfl hne
  by_cases hpackage : packageId = a.revision.packageId
  · subst hpackage
    rw [hpush, head_push] at hq
    cases hq
    rw [hid] at hs hne ⊢
    have hchecked := activation_ok ha
    rw [hchecked.prior] at hs
    cases hs
    rw [hchecked.clean] at hr
    cases hr
    have hinstalled : a.prior.value.state = .installed := by
      rw [← hchecked.state, (clean_fields hchecked.clean).2.1]
      rfl
    have hbacked := calls_backed rfl h hchecked.prior (Or.inr hinstalled) hchecked.clean
    obtain ⟨w₁, w₂, o', actor, approvalId', given, b, covered, hbefore, hb, hexec, hafter, hruns,
      hcovered, hsuites⟩ := hbacked.approved
    refine ⟨w₁, w₂, o', actor, approvalId', given, b, covered, hbefore, hb, hexec, hafter, hruns,
      hcovered, ?_⟩
    intro suite hsuite
    apply hsuites
    rcases List.mem_append.mp hsuite with hsuite | hsuite
    · exact List.mem_append_left _ hsuite
    · exact hforeseen a p ha (hchecked.pointer.trans hp) (Ne.symm hne) suite hsuite
  · rw [hpush, head_push_other _ _ hpackage, hp] at hq
    cases hq
    exact absurd rfl hne
end

def played? (env : PackageEnv) (check : PackageWorld → PackageCall → Bool) :
    List PackageCall → PackageWorld → Option PackageWorld
  | [], w => some w
  | call :: calls, w =>
    if check w call && ((call.program env).play 40 [] w).1.value? == some () then
      played? env check calls ((call.program env).play 40 [] w).2
    else none

theorem calls_played? {allowed : Allowed} {check : PackageWorld → PackageCall → Bool}
    (hcheck : ∀ w call, check w call = true → allowed w call) {start w w' : PackageWorld}
    {calls : List PackageCall} (h : Calls (PackageCall.program env) allowed start w)
    (hplayed : played? env check calls w = some w') :
    Calls (PackageCall.program env) allowed start w' := by
  induction calls generalizing w with
  | nil =>
    cases hplayed
    exact h
  | cons call calls ih =>
    simp only [played?, ite_none_right_eq_some, Bool.and_eq_true, beq_iff_eq] at hplayed
    obtain ⟨⟨hallowed, hdone⟩, hrest⟩ := hplayed
    exact ih (.call call h (hcheck w call hallowed) (exec_play_returned hdone) (by simp)) hrest

def foreseen (env : PackageEnv) (w : PackageWorld) : PackageCall → Bool
  | .activate id _ approvalId =>
    match activation env id approvalId w with
    | .error _ => true
    | .ok a => a.priorActive.all fun p =>
      (suitesOf w p.value.revisionId).all fun suite =>
        (requiredSuites w id a.revision).contains suite
  | _ => true

theorem foreseen_sound {call : PackageCall} (h : foreseen env w call = true) :
    call.Foreseen env w := by
  cases call with
  | activate id actorId approvalId =>
    intro a p ha hp _ suite hsuite
    simp only [foreseen, ha, hp, all_some, List.all_eq_true] at h
    simpa using h suite hsuite
  | _ => trivial

def laterId : Text := chars "pkgrev_2"
def laterDigest : Text := List.replicate 64 0x62

/-- A file that holds a 1 is the manifest of a revision that requires a suite, any other one that of
a revision that requires none. -/
theorem digest_valid (_ : Text) (_ : List String) (_ : ManifestRecord) :
    isSha256 digest = true := by decide

def suiteEnv : PackageEnv where
  enabled := true
  blocksProcessing _ _ := false
  safeLoad data := .mapping (some (if data = [1] then {demoManifest with evalSuiteIds := [chars "suite_1"]}
    else {demoManifest with contentSha256 := laterDigest, version := chars "2.0.0"}))
  manifestMaterial := .ok
  sha256Hex data := if data = [1] then digest else laterDigest
  treeSha256 hashes := (hashes.map Prod.snd).headD digest
  manifestSha256 _ := digest
  reportSha256 _ _ _ := digest
  revisionId _ _ content _ := if content = digest then demoId else laterId
  discoveryId _ := chars "pkgdisc_1"
  nfc t := t
  revisionId_valid _ _ content _ := by
    split <;> decide
  reportSha256_valid := digest_valid
  nfc_ascii _ _ := rfl

def suiteSources (byte : UInt8) : List Text → SourcePath := fun path =>
  if path = [chars "demo"] then .directory [⟨packageYaml, .file [byte] 1⟩] else .missing

def suiteRuns : Text → Option EvalRun := fun _ => some ⟨"passed", "passed", some (chars "suite_1")⟩

def suiteWorld : PackageWorld := .untouched suiteRuns (fun _ => true) (suiteSources 1)

def firstCalls : List PackageCall :=
  [.inspect (chars "demo"), .validate demoId,
    .approve demoId (chars "owner") (chars "approval_1") [chars "run_1"], .install demoId,
    .activate demoId (chars "owner") (chars "approval_1"),
    .outside suiteRuns (fun _ => true) (suiteSources 2)]

def unforeseenCalls : List PackageCall := firstCalls ++
  [.inspect (chars "demo"), .validate laterId,
    .approve laterId (chars "owner") (chars "approval_2") [], .install laterId]

def updateCalls : List PackageCall := firstCalls ++
  [.update (chars "demo"), .approve laterId (chars "owner") (chars "approval_2") [chars "run_1"],
    .install laterId]

def laterActivation : PackageCall := .activate laterId (chars "owner") (chars "approval_2")

def replaces (runs : List Text) (w : PackageWorld) : Bool :=
  let end_ := (laterActivation.program suiteEnv).play 40 [] w
  end_.1.value? == some () &&
    (head w.active (chars "demo")).map (·.value.revisionId) == some demoId &&
    (head end_.2.active (chars "demo")).map (·.value.revisionId) == some laterId &&
    ((head w.revisions laterId).bind fun s => (cleanRevision s.value).toOption).map (·.evalRunIds) ==
      some runs &&
    suitesOf w demoId == [chars "suite_1"]

theorem suites_evaluated :
    (played? suiteEnv (fun _ _ => true) unforeseenCalls suiteWorld).any (replaces []) = true ∧
    (played? suiteEnv (foreseen suiteEnv) updateCalls suiteWorld).any
      (fun w => replaces [chars "run_1"] w && foreseen suiteEnv w laterActivation) = true := by
  decide +kernel

theorem replaces_iff {runs : List Text} (h : replaces runs w = true) :
    ∃ w' p q s r, Exec (laterActivation.program suiteEnv) w (.returned ()) w' ∧
      head w.active (chars "demo") = some p ∧ head w'.active (chars "demo") = some q ∧
      p.value.revisionId = demoId ∧ q.value.revisionId = laterId ∧
      head w.revisions laterId = some s ∧ cleanRevision s.value = .ok r ∧ r.evalRunIds = runs ∧
      suitesOf w demoId = [chars "suite_1"] := by
  simp only [replaces, Bool.and_eq_true, beq_iff_eq, map_eq_some_iff,
    bind_eq_some_iff] at h
  obtain ⟨⟨⟨⟨hdone, p, hp, hpid⟩, q, hq, hqid⟩, r, ⟨s, hs, hr⟩, hruns⟩, hsuites⟩ := h
  refine ⟨_, p, q, s, r, exec_play_returned hdone, hp, hq, hpid, hqid, hs, ?_, hruns, hsuites⟩
  cases hclean : cleanRevision s.value with
  | error e =>
    rw [hclean] at hr
    cases hr
  | ok r' =>
    rw [hclean] at hr
    exact congrArg Except.ok (some.inj hr)

/-- A package that was replaced by an update, with a run that covers the suite of both. -/
theorem update_covered : ∃ w w' p, KeepsCoverage suiteEnv (fun w call => call.Foreseen suiteEnv w)
    suiteWorld w laterId (chars "owner") (chars "approval_2") ∧
    Exec (laterActivation.program suiteEnv) w (.returned ()) w' ∧
    head w.active (chars "demo") = some p ∧ p.value.revisionId = demoId := by
  have hevaluated := suites_evaluated.2
  cases hplayed : played? suiteEnv (foreseen suiteEnv) updateCalls suiteWorld with
  | none => simp only [hplayed, Option.any_none, Bool.false_eq_true] at hevaluated
  | some w =>
    simp only [hplayed, Option.any_some, Bool.and_eq_true] at hevaluated
    obtain ⟨w', p, q, s, r, hexec, hp, -, hid, -⟩ := replaces_iff hevaluated.1
    have hcalls := calls_played? (fun _ _ h => foreseen_sound h) .start hplayed
    exact ⟨w, w', p, coverage_kept hcalls (foreseen_sound hevaluated.2), hexec, hp, hid⟩

/-- A new revision that requires no suite comes in by `inspect`: it is approved without a run, and
takes the place of one that requires a suite. -/
theorem inspected_revision_uncovered :
    ∃ w, Calls (PackageCall.program suiteEnv) (fun _ _ => True) suiteWorld w ∧
      ¬KeepsCoverage suiteEnv (fun _ _ => True) suiteWorld w laterId (chars "owner")
        (chars "approval_2") := by
  have hevaluated := suites_evaluated.1
  cases hplayed : played? suiteEnv (fun _ _ => true) unforeseenCalls suiteWorld with
  | none => simp only [hplayed, Option.any_none, Bool.false_eq_true] at hevaluated
  | some w =>
    simp only [hplayed, Option.any_some] at hevaluated
    refine ⟨w, calls_played? (fun _ _ _ => trivial) .start hplayed, fun hkeeps => ?_⟩
    obtain ⟨w', p, q, s, r, hexec, hp, hq, hpid, hqid, hs, hr, hruns, hsuites⟩ :=
      replaces_iff hevaluated
    have hne : q.value.revisionId ≠ p.value.revisionId := by
      rw [hpid, hqid]
      decide
    have happroved := hkeeps _ w' _ p q s r hexec hp hq hne (by rw [hqid]; exact hs) hr
    rw [hruns, hpid, hsuites] at happroved
    obtain ⟨w₁, w₂, o, actorId, approvalId, given, a, covered, -, -, -, -, hgiven, hcovered,
      hall⟩ := happroved
    obtain rfl := List.map_eq_nil_iff.mp hgiven
    cases hcovered
    exact absurd (hall _ (List.mem_append_right _ (List.mem_singleton.mpr rfl))) List.not_mem_nil

end RaytSystem.Packages
