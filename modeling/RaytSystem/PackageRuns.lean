import RaytSystem.PackageInvariant

/-! Runs of the package service: every call keeps the agreement that does not overwrite an active
revision. -/
namespace RaytSystem.Packages
open Extraction Interleaving RecordTable PackageRevision PackageCall

variable {env : PackageEnv}

section
variable {w : PackageWorld} {id : Text}

def Kept (env : PackageEnv) (w w' : PackageWorld) : Prop := Sound env w' ∧ w'.active = w.active

theorem Kept.same {w₁ w₂ : PackageWorld} (h : Kept env w w₁) (hsame : SameActivation w₁ w₂) :
    Kept env w w₂ := ⟨h.1.same hsame, hsame.active.trans h.2⟩

abbrev Keeps (env : PackageEnv) (w : PackageWorld) {α : Type} (p : PackageProg α)
    (w₁ : PackageWorld) : Prop :=
  Runs (fun _ => True) p (fun _ => Kept env w) (fun _ => Kept env w) w₁

variable {w₁ : PackageWorld} (hw : Kept env w w₁)
include hw

theorem keeps_event (event : PackageEvent) : Keeps env w (appendEvent event) w₁ :=
  runs_appendEvent trivial (fun _ _ => ⟨trivial, hw.same ⟨rfl, rfl, rfl⟩⟩) fun _ _ => hw

variable {expected : Option ℕ}

theorem keeps_discovery {id' : Text} (r : DiscoveryRecord) :
    Keeps env w (appendDiscovery id' expected r) w₁ :=
  runs_appendDiscovery trivial (fun _ _ => ⟨trivial, hw.same ⟨rfl, rfl, rfl⟩⟩) fun _ _ => hw

theorem keeps_revision {r : RevisionRecord} (hkeyed : Keyed id (r.stored env))
    (hr : r.state ≠ .active) (hold : ∀ s, head w₁.revisions id = some s → s.value.state ≠ .active) :
    Keeps env w (appendRevision env id expected r) w₁ :=
  runs_appendRevision env trivial (fun _ _ => ⟨trivial, hw.1.putRevision hkeyed hr hold, hw.2⟩)
    fun _ _ => hw

omit hw in
theorem keeps_bind {α β : Type} {p : PackageProg α} {g : α → PackageProg β} (hp : Keeps env w p w₁)
    (hg : ∀ a w₂, Kept env w w₂ → Keeps env w (g a) w₂) : Keeps env w (p >>= g) w₁ :=
  runs_bind (wp_mono _ hp (fun a w₂ h => hg a w₂ h) fun _ _ h => h)

theorem keeps_consult {α β : Type} {f : PackageWorld → Except PackageFault α}
    {g : α → PackageProg β} (hg : ∀ a, f w₁ = .ok a → Keeps env w (g a) w₁) :
    Keeps env w (consult f >>= g) w₁ :=
  runs_bind (runs_consult trivial hg fun _ _ => hw)

theorem keeps_discover (source : Text) : Keeps env w (discover env source) w₁ := by
  refine keeps_consult hw fun existing _ => ?_
  split
  · exact runs_pure hw
  · exact keeps_bind (keeps_discovery hw _) fun _ w₂ h => keeps_event h _
end

section
variable {w w₁ : PackageWorld} {id : Text}

def Examined (id : Text) (w w' : PackageWorld) : Prop :=
  (w'.revisions = w.revisions ∧ w'.manifests = w.manifests ∧ w'.active = w.active) ∨
    ∀ s, head w'.revisions id = some s → s.value.state ≠ .active

theorem runs_markInspected {C : PackageWorld → Prop} {i : Inspection}
    {P : PackageWorld → Prop} (hP : ∀ w id r, P w → P (w.putDiscovery id r)) (h : P w₁)
    (hC : ∀ w, P w → C w) : Runs C (markInspected i) (fun _ => P) (fun _ => P) w₁ := by
  unfold markInspected
  split
  · exact runs_pure h
  · refine runs_bind (wp_sequential_get (hC _ h) ?_)
    split
    · exact runs_pure h
    · split
      · exact runs_pure h
      · exact runs_appendDiscovery (hC _ h) (fun _ _ => ⟨hC _ (hP _ _ _ h), hP _ _ _ h⟩)
          fun _ _ => h

theorem keeps_recordInspection {asUpdate : Bool} {source : Text} {i : Inspection}
    (hw : Kept env w w₁) (hi : inspection env asUpdate source w₁ = .ok i) :
    Runs (fun _ => True) (recordInspection env i)
      (fun _ w₂ => Kept env w w₂ ∧ Examined i.revision.revisionId w₁ w₂) (fun _ => Kept env w)
      w₁ := by
  obtain ⟨hid, hpackage, hstate⟩ := inspection_ok hi
  refine runs_bind (wp_sequential_get trivial ?_)
  split
  · exact runs_pure ⟨hw, Or.inl ⟨rfl, rfl, rfl⟩⟩
  next hnone =>
    have hkeyed : Keyed i.revision.revisionId
        (RevisionRecord.stored env {revision := i.revision}) := by
      refine ⟨hid, ?_, (plain_identifier hid).nfc_eq env⟩
      change isIdentifier (env.nfc i.revision.packageId) = true
      rw [(plain_identifier hpackage).nfc_eq]
      exact hpackage
    have hquarantined : i.revision.state ≠ .active := by
      rw [hstate]
      decide
    have hmanifest : Kept env w (w₁.putManifest i.revision.revisionId
        (ManifestRecord.stored env ⟨i.manifest, i.sourceRelative, i.fileCount⟩)) :=
      hw.same ⟨rfl, rfl, rfl⟩
    refine runs_bind (runs_appendManifest env trivial (fun _ _ => ⟨trivial, ?_⟩) fun _ _ => hw)
    refine runs_bind (runs_appendRevision env trivial (fun _ _ => ⟨trivial, ?_⟩) fun _ _ => hmanifest)
    have hrevision := hmanifest.1.putRevision hkeyed hquarantined fun s hs => by
      rw [putManifest_revisions, hnone] at hs
      cases hs
    have hkept : Kept env w _ := ⟨hrevision, hmanifest.2⟩
    refine runs_appendEvent trivial (fun _ _ => ⟨trivial, hkept.same ⟨rfl, rfl, rfl⟩, Or.inr ?_⟩)
      fun _ _ => hkept
    intro s hs
    change head (push _ _ _) _ = some s at hs
    rw [head_push] at hs
    cases hs
    exact hquarantined

theorem keeps_ingest (asUpdate : Bool) (source : Text) (hw : Kept env w w₁) :
    Runs (fun _ => True) (ingest env asUpdate source)
      (fun i w₂ => inspection env asUpdate source w₁ = .ok i ∧ Kept env w w₂ ∧
        Examined i.revision.revisionId w₁ w₂) (fun _ => Kept env w) w₁ := by
  refine runs_bind (runs_consult trivial (fun i hi => ?_) fun _ _ => hw)
  refine runs_bind (wp_mono _ (keeps_recordInspection hw hi) (fun _ w₂ h => ?_) fun _ _ h => h)
  refine runs_bind (wp_mono _ (runs_markInspected
    (P := fun w₃ => Kept env w w₃ ∧ Examined i.revision.revisionId w₁ w₃) ?_ h fun _ _ => trivial)
    (fun _ w₃ h => runs_pure ⟨hi, h⟩) fun _ _ h => h.1)
  exact fun w₃ id r h => ⟨h.1.same ⟨rfl, rfl, rfl⟩, h.2⟩
end

section
variable {w w₁ : PackageWorld} {id : Text}

def ValidatesInactive (env : PackageEnv) (w : PackageWorld) (id : Text) : Prop :=
  ∀ v, validation env id w = .ok v → v.prior.value.state ≠ .active

theorem validation_congr (hrevisions : w₁.revisions = w.revisions)
    (hmanifests : w₁.manifests = w.manifests) (hactive : w₁.active = w.active) :
    validation env id w₁ = validation env id w := by
  simp only [validation, validationFailures, hrevisions, hmanifests, hactive]

theorem keeps_validate (hw : Kept env w w₁) (hinactive : ValidatesInactive env w₁ id) :
    Keeps env w (validate env id) w₁ := by
  refine keeps_consult hw fun v hv => ?_
  obtain ⟨hprior, hclean⟩ := validation_ok hv
  have hkeyed : Keyed id (RevisionRecord.stored env {
      revision := v.validated
      validationFailures := some v.failures
      signatureVerified := some false}) :=
    (hw.1.keyed id v.prior hprior).stored hclean rfl rfl
  have hstate : v.validated.state ≠ .active := by
    simp only [Validation.validated]
    split <;> decide
  refine keeps_bind (keeps_revision hw hkeyed hstate ?_) fun _ w₂ h => ?_
  · intro s hs
    rw [hprior] at hs
    cases hs
    exact hinactive v hv
  · refine keeps_bind (keeps_event h _) fun _ w₃ h => ?_
    refine keeps_bind (wp_require _ (fun _ => h) fun _ => h) fun _ w₄ h => ?_
    exact runs_pure h

theorem keeps_update {source : Text} (hw : Kept env w w₁)
    (hinactive : ∀ i, inspection env true source w₁ = .ok i →
      ValidatesInactive env w₁ i.revision.revisionId) : Keeps env w (update env source) w₁ := by
  refine runs_bind (wp_mono _ (keeps_ingest true source hw) (fun i w₂ h => ?_) fun _ _ h => h)
  obtain ⟨hi, hkept, hexamined⟩ := h
  apply keeps_validate hkept
  intro v hv
  rcases hexamined with ⟨hrevisions, hmanifests, hactive⟩ | hnew
  · rw [validation_congr hrevisions hmanifests hactive] at hv
    exact hinactive i hi v hv
  · exact hnew v.prior (validation_ok hv).1

theorem keeps_inspect (source : Text) (hw : Kept env w w₁) : Keeps env w (inspect env source) w₁ :=
  runs_bind (wp_mono _ (keeps_ingest false source hw) (fun _ _ h => runs_pure h.2.1) fun _ _ h => h)

theorem keeps_approve {actorId approvalId : Text} {evalRunIds : List Text} (hw : Kept env w w₁) :
    Keeps env w (approve env id actorId approvalId evalRunIds) w₁ := by
  refine keeps_consult hw fun a ha => ?_
  obtain ⟨hprior, hclean, hstate⟩ := approval_ok ha
  have hkeyed := hw.1.keyed id a.prior hprior
  refine keeps_bind (keeps_revision hw (hkeyed.stored hclean rfl rfl) ?_ ?_)
    fun _ w₂ h => keeps_bind (keeps_event h _) fun _ w₃ h => runs_pure h
  · exact fun h => by cases h
  · intro s hs
    rw [hprior] at hs
    cases hs
    rw [← (hkeyed.clean hclean).2.2, hstate]
    decide
end

section
variable {w w₁ : PackageWorld} {id : Text}

theorem keeps_each {α : Type} {f : α → PackageProg Unit} {P : PackageWorld → Prop}
    {C : PackageWorld → Prop} {X : PackageFault → PackageWorld → Prop} (xs : List α)
    (hf : ∀ x w, P w → Runs C (f x) (fun _ => P) X w) (h : P w₁) :
    Runs C (.each f xs) (fun _ => P) X w₁ := by
  induction xs generalizing w₁ with
  | nil => exact h
  | cons x rest ih => exact (wp_bind _ _ _ _ _ _).mpr (wp_mono _ (hf x _ h) (fun _ _ h => ih h)
      fun _ _ h => h)

structure Staged (id : Text) (w w' : PackageWorld) : Prop where
  revisions : w'.revisions = w.revisions
  active : w'.active = w.active
  installed : ∀ id' ≠ id, w'.installed id' = w.installed id'

theorem runs_stage (i : Installation) :
    Runs (fun _ => True) (stage env id i) (fun _ => Staged id w) (fun _ => Staged id w) w := by
  have hrefl : Staged id w w := ⟨rfl, rfl, fun _ _ => rfl⟩
  unfold stage
  split
  · exact runs_pure hrefl
  · refine runs_bind (wp_sequential_attempt trivial ?_ fun _ _ => hrefl)
    intro _ w₁ hf
    refine ⟨trivial, ?_⟩
    have hstaged : Staged id w w₁ := by
      split at hf
      · cases hf
        exact ⟨rfl, rfl, fun _ _ => rfl⟩
      · cases hf
    refine runs_bind (wp_mono _ (keeps_each (P := Staged id w)
      (X := fun _ => Staged id w) i.source ?_ hstaged) (fun _ w₂ h => ?_) fun _ _ h => h)
    · intro entry w₂ h
      unfold copyEntry
      split
      · exact runs_pure h
      · exact wp_sequential_set trivial ⟨h.revisions, h.active, h.installed⟩
    · refine runs_bind (runs_consult trivial (fun content _ => ?_) fun _ _ => h)
      refine runs_bind (wp_require _ (fun _ => ?_) fun _ => h)
      refine wp_sequential_set trivial ⟨h.revisions, h.active, ?_⟩
      intro id' hne
      exact (Function.update_of_ne hne _ _).trans (h.installed id' hne)

theorem keeps_install (hw : Kept env w w₁) : Keeps env w (install env id) w₁ := by
  refine keeps_consult hw fun i hi => ?_
  obtain ⟨hprior, hclean, hstate⟩ := installation_ok hi
  have hkeyed := hw.1.keyed id i.prior hprior
  have hold : ∀ s, head w₁.revisions id = some s → s.value.state ≠ .active := by
    intro s hs
    rw [hprior] at hs
    cases hs
    rw [← (hkeyed.clean hclean).2.2, hstate]
    decide
  have hstaged : ∀ w₂, Staged id w₁ w₂ → Kept env w w₂ := fun w₂ h =>
    ⟨hw.1.install h.revisions h.active h.installed hold, h.active.trans hw.2⟩
  refine runs_bind (wp_mono _ (runs_stage i) (fun _ w₂ h => ?_) fun _ w₂ h => hstaged w₂ h)
  refine keeps_bind (keeps_revision (hstaged w₂ h)
    (hkeyed.stored hclean rfl rfl) ?_ ?_)
    fun _ w₂ h => keeps_bind (keeps_event h _) fun _ w₃ h => runs_pure h
  · exact fun h => by cases h
  · rw [h.revisions]
    exact hold
end

section
variable {w w₁ : PackageWorld} {id packageId : Text} {s : Stored RevisionRecord}

theorem not_active_of_clean {v : PackageRevision} (hw : Sound env w)
    (hs : head w.revisions id = some s) (hv : cleanRevision s.value = .ok v)
    (hstate : v.state ≠ .active) :
    ∀ s', head w.revisions id = some s' → s'.value.state ≠ .active := by
  intro s' hs'
  rw [hs] at hs'
  cases hs'
  rw [← ((hw.keyed id s hs).clean hv).2.2]
  exact hstate

structure Vacant (env : PackageEnv) (packageId id : Text) (w w' : PackageWorld) : Prop where
  sound : SoundBut env (· = packageId) w'
  target : head w'.revisions id = head w.revisions id
  active : w'.active = w.active
  installed : w'.installed = w.installed

theorem runs_switch {α : Type} {v : PackageRevision} {actorId : Text} {expected : Option ℕ}
    {a : ActiveRecord} {event : PackageEvent} {result : α} (hw : Sound env w)
    (h : Vacant env packageId id w w₁) (hs : head w.revisions id = some s)
    (hv : cleanRevision s.value = .ok v) (hstate : v.state ≠ .active)
    (hpackage : v.packageId = packageId) (happroved : v.approvalId ≠ none)
    (hcontent : contentOf env (w.installed id) = .ok (some v.contentSha256))
    (hexpected : (head w.active packageId).map Stored.revision = expected)
    (ha : a.revisionId = id ∧ a.activatedBy = actorId) (hevent : event.actorId = actorId)
    (hactor : encodable actorId = true) (htoken : isToken actorId = true)
    (hreason : a.rollbackReason.all encodable = true) : Runs (fun _ => True) (do
      appendRevision env id (some s.revision) ((Replaced.mk s v).activated actorId)
      appendActive env packageId expected a
      appendEvent event
      return result) (fun _ => Sound env) (fun _ => Kept env w) w₁ := by
  have hfields := (clean_fields hv).1
  have hkeyed := hw.keyed id s hs
  have hold := not_active_of_clean hw hs hv hstate
  have htexts : (((Replaced.mk s v).activated actorId).revision.texts.all encodable) = true := by
    have hall := encodable_texts hfields
    simp only [texts, List.all_append, Bool.and_eq_true] at hall
    simp only [Replaced.activated, texts, List.all_append, Bool.and_eq_true]
    exact ⟨hall.1, by simp [hactor]⟩
  have hplain : isSha256 v.contentSha256 = true := by
    simp only [fieldsValid, Bool.and_eq_true] at hfields
    exact hfields.1.1.1.1.1.2
  refine runs_bind (runs_appendRevision env trivial (fun _ _ => ⟨trivial, ?_⟩) fun hnot => ?_)
  · refine runs_bind (runs_appendActive env trivial (fun _ _ _ => ⟨trivial, ?_⟩) fun hnot => ?_)
    · have hactivated : Keyed id (((Replaced.mk s v).activated actorId).stored env) :=
        hkeyed.stored hv rfl rfl
      have hsound := h.sound.activate (a := a.stored env) hactivated rfl ?_ ?_ ?_ ?_ ha.1
      · refine runs_bind (runs_appendEvent trivial (fun _ _ => ⟨trivial, runs_pure ?_⟩) fun hnot => ?_)
        · exact hsound.putEvent event
        · rw [hevent] at hnot
          exact absurd ⟨htoken, hactor⟩ hnot
      · change env.nfc v.packageId = packageId
        rw [(hkeyed.clean hv).2.1, (plain_identifier hkeyed.package).nfc_eq,
          ← (hkeyed.clean hv).2.1, hpackage]
      · intro hnone
        exact happroved (Option.map_eq_none_iff.mp hnone)
      · rw [h.installed, hcontent]
        change _ = Except.ok (some (env.nfc v.contentSha256))
        rw [(plain_sha256 hplain).nfc_eq]
      · rw [h.target]
        exact hold
    · rw [putRevision_active, h.active, ha.2] at hnot
      exact absurd ⟨hactor, hreason, hexpected⟩ hnot
  · rw [h.target, hs] at hnot
    exact absurd ⟨htexts, rfl⟩ hnot

variable {p : Stored ActiveRecord}

theorem supersession_pointed {incoming : PackageRevision} {x : Option (Text × Replaced)}
    (hw : Sound env w) (hp : head w.active packageId = some p) (hid : incoming.revisionId = id)
    (hold : ∀ s, head w.revisions id = some s → s.value.state ≠ .active)
    (h : supersession p.value.revisionId incoming w = .ok x) :
    ∃ previous, x = some (p.value.revisionId, previous) ∧ p.value.revisionId ≠ id ∧
      head w.revisions p.value.revisionId = some previous.prior ∧
      cleanRevision previous.prior.value = .ok previous.revision := by
  obtain ⟨s, hs, hactive, -⟩ := hw.pointed packageId p not_false hp
  have hne : p.value.revisionId ≠ id := by
    intro he
    rw [he] at hs
    exact hold s hs hactive
  have hnonempty := (plain_identifier (hw.keyed _ s hs).identifier).1
  rw [supersession, if_neg (by simp [hnonempty, hid, hne]), hs] at h
  simp only [if_pos hactive, bind_eq_ok, return_eq_ok] at h
  obtain ⟨v, hv, rfl⟩ := h
  exact ⟨⟨s, v⟩, rfl, hne, hs, hv⟩

theorem runs_supersede {previous : Replaced} (incoming : PackageRevision) (hw : Sound env w)
    (hp : head w.active packageId = some p) (hne : p.value.revisionId ≠ id)
    (hs : head w.revisions p.value.revisionId = some previous.prior)
    (hv : cleanRevision previous.prior.value = .ok previous.revision) :
    Runs (fun _ => True) (supersede env incoming (some (p.value.revisionId, previous)))
      (fun _ => Vacant env packageId id w) (fun _ => Kept env w) w := by
  have hkept : Kept env w w := ⟨hw, rfl⟩
  refine runs_bind (runs_appendRevision env trivial (fun _ _ => ⟨trivial, ?_⟩) fun _ _ => hkept)
  have hretired : Keyed p.value.revisionId (RevisionRecord.stored env {
      revision := {previous.revision with state := .superseded}
      signatureVerified := some (signatureMarker previous.prior.value)}) :=
    (hw.keyed _ _ hs).stored hv rfl rfl
  have hsound := hw.retire hp hretired fun h => by cases h
  refine runs_appendEvent trivial (fun _ _ => ⟨trivial, hsound.putEvent _, ?_, rfl, rfl⟩) fun hnot => ?_
  · exact head_putRevision_other _ hne.symm
  · exact absurd installer_token hnot

def NamesActor (actorId : Text) (a : Activation) : Prop :=
  (encodable actorId = true → isToken actorId = true) ∧
    (encodable actorId = true ∨ a.priorActive = none)

theorem runs_activate {actorId approvalId : Text} (hw : Sound env w)
    (hactor : ∀ a, activation env id approvalId w = .ok a → NamesActor actorId a) :
    Runs (fun _ => True) (activate env id actorId approvalId) (fun _ => Sound env)
      (fun _ => Kept env w) w := by
  have hkept : Kept env w w := ⟨hw, rfl⟩
  refine runs_bind (runs_consult trivial (fun a ha => ?_) fun _ _ => hkept)
  have hnames := hactor a ha
  have hchecked := activation_ok ha
  have hinstalled : a.revision.state ≠ .active := by
    rw [hchecked.state]
    decide
  have hold := not_active_of_clean hw hchecked.prior hchecked.clean hinstalled
  have happroved : a.revision.approvalId ≠ none := by simp [hchecked.approved]
  have hexpected : (head w.active a.revision.packageId).map Stored.revision =
      a.priorActive.map Stored.revision := by rw [hchecked.pointer]
  have hprevious := hchecked.previous
  cases hprior : a.priorActive with
  | none =>
    rw [hprior] at hprevious
    rw [hprevious]
    refine runs_bind (runs_pure ?_)
    cases hencodable : encodable actorId with
    | true =>
      have hvacant : Vacant env a.revision.packageId id w w :=
        ⟨hw.idle (hchecked.pointer.symm.trans hprior), rfl, rfl, rfl⟩
      exact runs_switch hw hvacant hchecked.prior hchecked.clean hinstalled rfl happroved
        hchecked.content (hexpected.trans (by rw [hprior])) ⟨rfl, rfl⟩ rfl hencodable
        (hnames.1 hencodable) rfl
    | false =>
      -- the revision's record cannot be written
      refine runs_bind (runs_appendRevision env trivial (fun htexts _ => ?_) fun _ _ => hkept)
      simp [Replaced.activated, texts, hencodable] at htexts
  | some p =>
    rw [hprior] at hprevious
    have hp : head w.active a.revision.packageId = some p := hchecked.pointer.symm.trans hprior
    have hid := ((hw.keyed id _ hchecked.prior).clean hchecked.clean).1
    obtain ⟨previous, hsuperseded, hne, hs, hv⟩ :=
      supersession_pointed hw hp hid hold hprevious
    rw [hsuperseded]
    have hencodable : encodable actorId = true := by simpa [hprior] using hnames.2
    refine runs_bind (wp_mono _ (runs_supersede a.revision hw hp hne hs hv) (fun _ w₂ hvacant => ?_)
      fun _ _ h => h)
    exact runs_switch hw hvacant hchecked.prior hchecked.clean hinstalled rfl happroved
      hchecked.content (hexpected.trans (by rw [hprior])) ⟨rfl, rfl⟩ rfl hencodable
      (hnames.1 hencodable) rfl

def NamesRollback (actorId reason : Text) : Prop :=
  encodable actorId = true ∧ isToken actorId = true ∧ encodable reason = true

theorem runs_rollback {actorId reason : Text} (hw : Sound env w)
    (hnames : ∀ r, rollbackPlan env packageId id reason w = .ok r → NamesRollback actorId reason) :
    Runs (fun _ => True) (rollback env packageId id actorId reason) (fun _ => Sound env)
      (fun _ => Kept env w) w := by
  have hkept : Kept env w w := ⟨hw, rfl⟩
  refine runs_bind (runs_consult trivial (fun r hr => ?_) fun _ _ => hkept)
  obtain ⟨hencodable, htoken, hreason⟩ := hnames r hr
  have hchecked := rollbackPlan_ok hr
  have hsource : r.revision.state ≠ .active := by
    intro hactive
    have hnot := hchecked.source
    rw [hactive] at hnot
    cases hnot
  have happroved : r.revision.approvalId ≠ none := Option.isSome_iff_ne_none.mp hchecked.approved
  obtain ⟨s, hs, -⟩ := hw.pointed packageId _ not_false hchecked.pointer
  have hcurrent := hchecked.current
  simp only [currentRevision, hs, bind_eq_ok, return_eq_ok] at hcurrent
  obtain ⟨v, hv, hcurrent⟩ := hcurrent
  rw [← hcurrent]
  have hrolled : Keyed r.activeHead.value.revisionId (RevisionRecord.stored env {
      revision := {v with state := .rolledBack}
      signatureVerified := some (signatureMarker s.value)}) :=
    (hw.keyed _ _ hs).stored hv rfl rfl
  refine runs_bind (runs_appendRevision env trivial (fun _ _ => ⟨trivial, ?_⟩) fun _ _ => hkept)
  have hvacant : Vacant env packageId id w _ :=
    ⟨hw.retire hchecked.pointer hrolled (fun h => by cases h),
      head_putRevision_other _ hchecked.other.symm, rfl, rfl⟩
  exact runs_switch hw hvacant hchecked.prior hchecked.clean hsource hchecked.package happroved
    hchecked.content (by rw [hchecked.pointer]; rfl) ⟨rfl, rfl⟩ rfl hencodable htoken
    (by simpa using hreason)
end

section

def PackageCall.Sane (env : PackageEnv) (w : PackageWorld) : PackageCall → Prop
  | validate revisionId => ValidatesInactive env w revisionId
  | update source => ∀ i, inspection env true source w = .ok i →
      ValidatesInactive env w i.revision.revisionId
  | activate revisionId actorId approvalId => ∀ a,
      activation env revisionId approvalId w = .ok a → NamesActor actorId a
  | rollback packageId toRevisionId actorId reason => ∀ r,
      rollbackPlan env packageId toRevisionId reason w = .ok r → NamesRollback actorId reason
  | _ => True

variable {w : PackageWorld}

theorem runs_unit {α : Type} {p : PackageProg α} {X : PackageFault → PackageWorld → Prop}
    {Q : PackageWorld → Prop} (h : Runs (fun _ => True) p (fun _ => Q) X w) :
    Runs (fun _ => True) (do let _ ← p) (fun _ => Q) X w :=
  runs_bind (wp_mono _ h (fun _ _ h => runs_pure h) fun _ _ h => h)

theorem runs_call {call : PackageCall} (hw : Sound env w) (hsane : call.Sane env w) :
    Runs (fun _ => True) (call.program env) (fun _ => Sound env) (fun _ => Kept env w) w := by
  have hkept : Kept env w w := ⟨hw, rfl⟩
  have hsound : ∀ {α : Type} {p : PackageProg α}, Keeps env w p w →
      Runs (fun _ => True) p (fun _ => Sound env) (fun _ => Kept env w) w := fun h =>
    wp_mono _ h (fun _ _ h => h.1) fun _ _ h => h
  cases call with
  | discover source => exact hsound (keeps_discover hkept source)
  | inspect source => exact runs_unit (hsound (keeps_inspect source hkept))
  | update source => exact runs_unit (hsound (keeps_update hkept hsane))
  | validate revisionId => exact runs_unit (hsound (keeps_validate hkept hsane))
  | approve revisionId actorId approvalId evalRunIds =>
    exact runs_unit (hsound (keeps_approve hkept))
  | install revisionId => exact runs_unit (hsound (keeps_install hkept))
  | activate revisionId actorId approvalId => exact runs_unit (runs_activate hw hsane)
  | rollback packageId toRevisionId actorId reason => exact runs_unit (runs_rollback hw hsane)
  | outside evalRuns authorised sources =>
    exact wp_sequential_set trivial (hw.same ⟨rfl, rfl, rfl⟩)

theorem calls_sound {w₀ : PackageWorld} (hw : Sound env w₀)
    (h : Calls (program env) (fun w call => call.Sane env w) w₀ w) : Sound env w :=
  calls_invariant (fun _ _ hw hsane => wp_mono _ (runs_call hw hsane) (fun _ _ h => h)
    fun _ _ h => h.1) hw h

/-- In every run whose calls stay clear of the defects each active record names the one active
revision of its package, and a call that raises leaves every active record as it was. -/
theorem activation_kept {evalRuns : Text → Option EvalRun} {authorised : ApprovalRequest → Bool}
    {sources : List Text → SourcePath}
    (h : Calls (PackageCall.program env) (fun w call => call.Sane env w)
      (.untouched evalRuns authorised sources) w) :
    ActivationInvariant env w ∧ ∀ call e w', call.Sane env w →
      Exec (PackageCall.program env call) w (.raised e) w' → w'.active = w.active := by
  have hsound := calls_sound (sound_untouched env evalRuns authorised sources) h
  refine ⟨hsound.activation, ?_⟩
  intro call e w' hsane hx
  exact (exec_sound (runs_call hsound hsane) trivial hx : Kept env w w').2
end

section

def digest : Text := List.replicate 64 0x61

def demoId : Text := chars "pkgrev_1"

def demoManifest : PackageManifest where
  packageId := chars "demo"
  name := chars "Demo"
  version := chars "1.0.0"
  publisher := chars "local"
  contentSha256 := digest
  licenseExpression := chars "MIT"
  raytsystemCompatibility := chars "1"

def demoEnv : PackageEnv where
  enabled := true
  blocksProcessing _ _ := false
  safeLoad _ := .mapping (some demoManifest)
  manifestMaterial := .ok
  sha256Hex _ := digest
  treeSha256 _ := digest
  manifestSha256 _ := digest
  reportSha256 _ _ _ := digest
  revisionId _ _ _ _ := demoId
  discoveryId _ := chars "pkgdisc_1"
  nfc t := t
  revisionId_valid _ _ _ _ := by decide
  reportSha256_valid _ _ _ := by decide
  nfc_ascii _ _ := rfl

def demoWorld : PackageWorld :=
  .untouched (fun _ => none) (fun _ => true) fun path =>
    if path = [chars "demo"] then .directory [⟨packageYaml, .file [1] 1⟩] else .missing

def played (call : PackageCall) (w : PackageWorld) : PackageWorld :=
  ((call.program demoEnv).play 20 [] w).2

def inspectedDemo : PackageWorld := played (.inspect (chars "demo")) demoWorld
def validatedDemo : PackageWorld := played (.validate demoId) inspectedDemo
def approvedDemo : PackageWorld :=
  played (.approve demoId (chars "owner") (chars "approval_1") []) validatedDemo
def installedDemo : PackageWorld := played (.install demoId) approvedDemo
def activeDemo : PackageWorld :=
  played (.activate demoId (chars "owner") (chars "approval_1")) installedDemo
def namelessCall : PackageCall := .activate demoId (chars "the owner") (chars "approval_1")
def revalidatedDemo : PackageWorld := played (.validate demoId) activeDemo

theorem demo_evaluated :
    (((program demoEnv (.inspect (chars "demo"))).play 20 [] demoWorld).1.value? =
        some () ∧
      ((program demoEnv (.validate demoId)).play 20 [] inspectedDemo).1.value? =
        some () ∧
      ((program demoEnv (.approve demoId (chars "owner") (chars "approval_1") [])).play
        20 [] validatedDemo).1.value? = some () ∧
      ((program demoEnv (.install demoId)).play 20 [] approvedDemo).1.value? = some () ∧
      ((program demoEnv (.activate demoId (chars "owner") (chars "approval_1"))).play
        20 [] installedDemo).1.value? = some () ∧
      ((program demoEnv (.validate demoId)).play 20 [] activeDemo).1.value? =
        some ()) ∧
    ((namelessCall.program demoEnv).play 20 [] installedDemo).1.error? =
      some (.token "actor ID") ∧
    (head revalidatedDemo.active (chars "demo")).map (·.value.revisionId) = some demoId ∧
    (head revalidatedDemo.revisions demoId).map (·.value.state) = some .validated ∧
    (head inspectedDemo.revisions demoId).map (·.value.state) = some .quarantined ∧
    ((played namelessCall installedDemo).active (chars "demo")).length ≠
      (installedDemo.active (chars "demo")).length := by
  decide +kernel

variable {allowed : PackageWorld → PackageCall → Prop}

theorem calls_played {call : PackageCall} {w : PackageWorld}
    (h : Calls (program demoEnv) allowed demoWorld w) (hallowed : allowed w call)
    (hdone : ((program demoEnv call).play 20 [] w).1.value? = some ()) :
    Calls (program demoEnv) allowed demoWorld (played call w) :=
  .call call h hallowed (exec_play_returned hdone) (by simp)

theorem reached_approvedDemo (hinspect : allowed demoWorld (.inspect (chars "demo")))
    (hvalidate : allowed inspectedDemo (.validate demoId))
    (happrove : allowed validatedDemo (.approve demoId (chars "owner") (chars "approval_1") [])) :
    Calls (program demoEnv) allowed demoWorld approvedDemo := by
  obtain ⟨⟨hdone, hdone', hdone'', -⟩, -⟩ := demo_evaluated
  have hinspected := calls_played .start hinspect hdone
  have hvalidated := calls_played hinspected hvalidate hdone'
  exact calls_played hvalidated happrove hdone''

theorem reached_installedDemo
    (h : Calls (program demoEnv) allowed demoWorld approvedDemo)
    (hinstall : allowed approvedDemo (.install demoId)) :
    Calls (program demoEnv) allowed demoWorld installedDemo :=
  calls_played h hinstall demo_evaluated.1.2.2.2.1

theorem activated_demo : Exec (program demoEnv
    (.activate demoId (chars "owner") (chars "approval_1"))) installedDemo (.returned ()) activeDemo :=
  exec_play_returned demo_evaluated.1.2.2.2.2.1

/-- A validation of the active revision marks it as validated, and the pointer still names it; an
activation by an actor whose name holds a blank raises after it has moved the pointer. -/
theorem active_revision_revalidated :
    (Calls (PackageCall.program demoEnv) (fun _ _ => True) demoWorld revalidatedDemo ∧
      ¬ActivationInvariant demoEnv revalidatedDemo) ∧
    Calls (PackageCall.program demoEnv) (fun _ _ => True) demoWorld installedDemo ∧
      Exec (namelessCall.program demoEnv) installedDemo (.raised (.token "actor ID"))
        (played namelessCall installedDemo) ∧
      (played namelessCall installedDemo).active ≠ installedDemo.active := by
  obtain ⟨⟨-, -, -, -, -, hrevalidated⟩, hraised, hpointer, hstate, -, hlengths⟩ := demo_evaluated
  refine ⟨⟨?_, ?_⟩, ?_, exec_play hraised, ?_⟩
  · exact .call (.validate demoId) (.call _ (reached_installedDemo (reached_approvedDemo trivial trivial trivial) trivial)
      trivial activated_demo (by simp)) trivial
      (exec_play_returned hrevalidated) (by simp)
  · intro h
    obtain ⟨a, ha, hid⟩ := Option.map_eq_some_iff.mp hpointer
    obtain ⟨s, hs, hactive, -⟩ := (h _ a ha).1
    rw [hid] at hs
    rw [hs, Option.map_some, hactive] at hstate
    cases hstate
  · exact reached_installedDemo (reached_approvedDemo trivial trivial trivial) trivial
  · intro hsame
    exact hlengths (by rw [hsame])

theorem validatesInactive_of_state {w : PackageWorld} {id : Text} {state : PackageLifecycleState}
    (h : (head w.revisions id).map (·.value.state) = some state) (hstate : state ≠ .active) :
    ValidatesInactive env w id := by
  intro v hv
  rw [(validation_ok hv).1] at h
  have hprior : v.prior.value.state = state := Option.some.inj h
  rw [hprior]
  exact hstate

/-- A package that was inspected, validated, approved, installed and activated. -/
theorem active_demo_kept :
    ActivationInvariant demoEnv activeDemo ∧ ∀ call e w', call.Sane demoEnv activeDemo →
      Exec (PackageCall.program demoEnv call) activeDemo (.raised e) w' →
      w'.active = activeDemo.active := by
  obtain ⟨-, -, -, -, hquarantined, -⟩ := demo_evaluated
  have hinactive : ValidatesInactive demoEnv inspectedDemo demoId :=
    validatesInactive_of_state hquarantined (by decide)
  have hnames : (PackageCall.activate demoId (chars "owner") (chars "approval_1")).Sane demoEnv
      installedDemo := fun _ _ => ⟨fun _ => by decide, Or.inl (by decide)⟩
  exact activation_kept (.call _ (reached_installedDemo (reached_approvedDemo trivial hinactive trivial) trivial) hnames
    activated_demo (by simp))
end

end RaytSystem.Packages
