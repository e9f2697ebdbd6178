import RaytSystem.PackageRules

/-! The active pointers, the states of the revisions and the installed bytes agree. -/
namespace RaytSystem.Packages
open Extraction Interleaving RecordTable

variable {env : PackageEnv}

def Pointed (env : PackageEnv) (w : PackageWorld) (packageId revisionId : Text) : Prop :=
  ∃ s, head w.revisions revisionId = some s ∧ s.value.state = .active ∧
    s.value.revision.packageId = packageId ∧ s.value.revision.approvalId ≠ none ∧
    contentOf env (w.installed revisionId) = .ok (some s.value.revision.contentSha256)

def ActivationInvariant (env : PackageEnv) (w : PackageWorld) : Prop :=
  ∀ packageId a, head w.active packageId = some a →
    Pointed env w packageId a.value.revisionId ∧
      ∀ revisionId s, head w.revisions revisionId = some s →
        s.value.revision.packageId = packageId → s.value.state = .active →
          revisionId = a.value.revisionId

structure Keyed (id : Text) (r : RevisionRecord) : Prop where
  identifier : isIdentifier id = true
  package : isIdentifier r.revision.packageId = true
  same : r.revision.revisionId = id

structure SoundBut (env : PackageEnv) (busy : Text → Prop) (w : PackageWorld) : Prop where
  keyed : ∀ id s, head w.revisions id = some s → Keyed id s.value
  pointed : ∀ packageId a, ¬busy packageId → head w.active packageId = some a →
    Pointed env w packageId a.value.revisionId
  pointer : ∀ id s, head w.revisions id = some s → s.value.state = .active →
    ¬busy s.value.revision.packageId ∧
      ∃ a, head w.active s.value.revision.packageId = some a ∧ a.value.revisionId = id

abbrev Sound (env : PackageEnv) (w : PackageWorld) : Prop := SoundBut env (fun _ => False) w

theorem Sound.activation {w : PackageWorld} (h : Sound env w) : ActivationInvariant env w := by
  intro packageId a ha
  refine ⟨h.pointed packageId a id ha, ?_⟩
  intro revisionId s hs hpackage hactive
  obtain ⟨-, a', ha', hid⟩ := h.pointer revisionId s hs hactive
  rw [hpackage, ha] at ha'
  cases ha'
  exact hid.symm

theorem sound_untouched (env : PackageEnv) (evalRuns : Text → Option EvalRun)
    (authorised : ApprovalRequest → Bool) (sources : List Text → SourcePath) :
    Sound env (.untouched evalRuns authorised sources) where
  keyed _ _ h := by cases h
  pointed _ _ _ h := by cases h
  pointer _ _ h := by cases h

section
variable {w : PackageWorld} {busy : Text → Prop}

@[simp] theorem putRevision_active (id : Text) (r : RevisionRecord) :
    (w.putRevision id r).active = w.active := rfl
@[simp] theorem putRevision_installed (id : Text) (r : RevisionRecord) :
    (w.putRevision id r).installed = w.installed := rfl
@[simp] theorem putManifest_revisions (id : Text) (r : ManifestRecord) :
    (w.putManifest id r).revisions = w.revisions := rfl
@[simp] theorem putActive_revisions (id : Text) (r : ActiveRecord) :
    (w.putActive id r).revisions = w.revisions := rfl
@[simp] theorem putActive_installed (id : Text) (r : ActiveRecord) :
    (w.putActive id r).installed = w.installed := rfl
@[simp] theorem putEvent_active (event : PackageEvent) : (w.putEvent event).active = w.active := rfl

theorem head_putRevision (id : Text) (r : RevisionRecord) :
    head (w.putRevision id r).revisions id = some ⟨(w.revisions id).length + 1, r⟩ :=
  head_push w.revisions id r

theorem head_putRevision_other {id id' : Text} (r : RevisionRecord) (h : id' ≠ id) :
    head (w.putRevision id r).revisions id' = head w.revisions id' :=
  head_push_other w.revisions r h

theorem head_putActive (id : Text) (r : ActiveRecord) :
    head (w.putActive id r).active id = some ⟨(w.active id).length + 1, r⟩ :=
  head_push w.active id r

theorem head_putActive_other {id id' : Text} (r : ActiveRecord) (h : id' ≠ id) :
    head (w.putActive id r).active id' = head w.active id' :=
  head_push_other w.active r h

variable {r : RevisionRecord}

theorem head_putRevision_cases {id id' : Text} {s : Stored RevisionRecord}
    (h : head (w.putRevision id r).revisions id' = some s) :
    (id' = id ∧ s.value = r) ∨ (id' ≠ id ∧ head w.revisions id' = some s) := by
  by_cases hid : id' = id
  · subst hid
    rw [head_putRevision] at h
    cases h
    exact Or.inl ⟨rfl, rfl⟩
  · rw [head_putRevision_other r hid] at h
    exact Or.inr ⟨hid, h⟩

structure SameActivation (w w' : PackageWorld) : Prop where
  revisions : w'.revisions = w.revisions
  active : w'.active = w.active
  installed : w'.installed = w.installed

theorem SoundBut.same {w' : PackageWorld} (h : SoundBut env busy w) (hw : SameActivation w w') :
    SoundBut env busy w' where
  keyed := hw.revisions ▸ h.keyed
  pointed := by
    unfold Pointed
    rw [hw.revisions, hw.active, hw.installed]
    exact h.pointed
  pointer := by
    rw [hw.revisions, hw.active]
    exact h.pointer

theorem SoundBut.putEvent (h : SoundBut env busy w) (event : PackageEvent) :
    SoundBut env busy (w.putEvent event) := h.same ⟨rfl, rfl, rfl⟩

theorem pointed_putRevision {packageId revisionId id : Text}
    (h : Pointed env w packageId revisionId) (hne : revisionId ≠ id) :
    Pointed env (w.putRevision id r) packageId revisionId := by
  obtain ⟨s, hs, hrest⟩ := h
  exact ⟨s, by rw [head_putRevision_other r hne]; exact hs, hrest⟩

theorem SoundBut.putRevision {id : Text} (h : SoundBut env busy w) (hkeyed : Keyed id r)
    (hr : r.state ≠ .active) (hold : ∀ s, head w.revisions id = some s → s.value.state ≠ .active) :
    SoundBut env busy (w.putRevision id r) where
  keyed id' s hs := by
    rcases head_putRevision_cases hs with ⟨rfl, rfl⟩ | ⟨-, hs⟩
    · exact hkeyed
    · exact h.keyed id' s hs
  pointed packageId a hbusy ha := by
    have hpointed := h.pointed packageId a hbusy ha
    apply pointed_putRevision hpointed
    rintro rfl
    obtain ⟨s, hs, hactive, -⟩ := hpointed
    exact hold s hs hactive
  pointer id' s hs hactive := by
    rcases head_putRevision_cases hs with ⟨-, rfl⟩ | ⟨-, hs⟩
    · exact absurd hactive hr
    · exact h.pointer id' s hs hactive

theorem Sound.retire {packageId : Text} {a : Stored ActiveRecord} (h : Sound env w)
    (ha : head w.active packageId = some a) (hkeyed : Keyed a.value.revisionId r)
    (hr : r.state ≠ .active) :
    SoundBut env (· = packageId) (w.putRevision a.value.revisionId r) where
  keyed id s hs := by
    rcases head_putRevision_cases hs with ⟨rfl, rfl⟩ | ⟨-, hs⟩
    · exact hkeyed
    · exact h.keyed id s hs
  pointed packageId' a' hbusy ha' := by
    have hpointed := h.pointed packageId' a' id ha'
    apply pointed_putRevision hpointed
    -- an active revision belongs to one package
    intro he
    obtain ⟨s, hs, -, hpackage, -⟩ := h.pointed packageId a id ha
    obtain ⟨s', hs', -, hpackage', -⟩ := hpointed
    rw [he, hs] at hs'
    cases hs'
    exact hbusy (hpackage'.symm.trans hpackage)
  pointer id s hs hactive := by
    rcases head_putRevision_cases hs with ⟨-, rfl⟩ | ⟨hid, hs⟩
    · exact absurd hactive hr
    · obtain ⟨-, a', ha', hid'⟩ := h.pointer id s hs hactive
      refine ⟨?_, a', ha', hid'⟩
      intro hpackage
      rw [hpackage, ha] at ha'
      cases ha'
      exact hid hid'.symm

theorem Sound.idle {packageId : Text} (h : Sound env w) (ha : head w.active packageId = none) :
    SoundBut env (· = packageId) w where
  keyed := h.keyed
  pointed packageId' a hbusy := h.pointed packageId' a id
  pointer id s hs hactive := by
    obtain ⟨-, a, ha', hid⟩ := h.pointer id s hs hactive
    refine ⟨?_, a, ha', hid⟩
    intro hpackage
    rw [hpackage, ha] at ha'
    cases ha'

theorem SoundBut.activate {packageId id : Text} {a : ActiveRecord}
    (h : SoundBut env (· = packageId) w) (hkeyed : Keyed id r) (hstate : r.state = .active)
    (hpackage : r.revision.packageId = packageId) (happroved : r.revision.approvalId ≠ none)
    (hcontent : contentOf env (w.installed id) = .ok (some r.revision.contentSha256))
    (hold : ∀ s, head w.revisions id = some s → s.value.state ≠ .active) (ha : a.revisionId = id) :
    Sound env ((w.putRevision id r).putActive packageId a) where
  keyed id' s hs := by
    rcases head_putRevision_cases hs with ⟨rfl, rfl⟩ | ⟨-, hs⟩
    · exact hkeyed
    · exact h.keyed id' s hs
  pointed packageId' a' _ ha' := by
    by_cases hp : packageId' = packageId
    · subst hp
      rw [head_putActive] at ha'
      cases ha'
      refine ⟨⟨(w.revisions id).length + 1, r⟩, ?_, hstate, hpackage, happroved, ?_⟩
      · rw [ha]
        exact head_putRevision id r
      · rw [ha]
        exact hcontent
    · rw [head_putActive_other a hp] at ha'
      have hpointed := h.pointed packageId' a' hp ha'
      apply pointed_putRevision hpointed
      rintro rfl
      obtain ⟨s, hs, hactive, -⟩ := hpointed
      exact hold s hs hactive
  pointer id' s hs hactive := by
    refine ⟨not_false, ?_⟩
    rcases head_putRevision_cases hs with ⟨rfl, rfl⟩ | ⟨-, hs⟩
    · rw [hpackage, head_putActive]
      exact ⟨_, rfl, ha⟩
    · obtain ⟨hother, hrest⟩ := h.pointer id' s hs hactive
      rw [head_putActive_other a hother]
      exact hrest

theorem Sound.install {w' : PackageWorld} {id : Text} (h : Sound env w)
    (hrevisions : w'.revisions = w.revisions) (hactive : w'.active = w.active)
    (hinstalled : ∀ id' ≠ id, w'.installed id' = w.installed id')
    (hold : ∀ s, head w.revisions id = some s → s.value.state ≠ .active) : Sound env w' where
  keyed := hrevisions ▸ h.keyed
  pointed packageId a _ ha := by
    rw [hactive] at ha
    obtain ⟨s, hs, hstate, hrest⟩ := h.pointed packageId a not_false ha
    have hne : a.value.revisionId ≠ id := by
      intro he
      rw [he] at hs
      exact hold s hs hstate
    refine ⟨s, ?_, hstate, ?_⟩
    · rw [hrevisions]
      exact hs
    · rw [hinstalled _ hne]
      exact hrest
  pointer := by
    rw [hrevisions, hactive]
    exact h.pointer
end

section
variable {w : PackageWorld} {id : Text}

theorem Keyed.clean {r : RevisionRecord} {v : PackageRevision} (h : Keyed id r)
    (hv : cleanRevision r = .ok v) :
    v.revisionId = id ∧ v.packageId = r.revision.packageId ∧ v.state = r.state := by
  obtain ⟨-, hstate, hpackage, hid⟩ := clean_fields hv
  refine ⟨?_, ?_, hstate⟩
  · rw [hid, h.same, (plain_identifier h.identifier).trim_eq]
  · rw [hpackage, (plain_identifier h.package).trim_eq]

theorem Keyed.stored {old r : RevisionRecord} {v : PackageRevision} (h : Keyed id old)
    (hv : cleanRevision old = .ok v) (hid : r.revision.revisionId = v.revisionId)
    (hpackage : r.revision.packageId = v.packageId) : Keyed id (r.stored env) := by
  obtain ⟨hvid, hvpackage, -⟩ := h.clean hv
  have hid' : (r.stored env).revision.revisionId = id := by
    change env.nfc r.revision.revisionId = id
    rw [hid, hvid, (plain_identifier h.identifier).nfc_eq]
  have hpackage' : (r.stored env).revision.packageId = old.revision.packageId := by
    change env.nfc r.revision.packageId = _
    rw [hpackage, hvpackage, (plain_identifier h.package).nfc_eq]
  exact ⟨h.identifier, hpackage'.symm ▸ h.package, hid'⟩

theorem readManifest_accepted {tree : Tree} {content : Text} {m : PackageManifest}
    (h : readManifest env tree content = .ok m) : m.accepted = true := by
  unfold readManifest at h
  split at h
  · cases h
  · cases h
  · cases h
  · dsimp only at h
    split at h
    next haccepted =>
      cases h
      exact haccepted
    · cases h

theorem inspection_ok {asUpdate : Bool} {source : Text} {i : Inspection}
    (h : inspection env asUpdate source w = .ok i) :
    isIdentifier i.revision.revisionId = true ∧ isIdentifier i.revision.packageId = true ∧
      i.revision.state = .quarantined := by
  simp only [inspection, bind_eq_ok, return_eq_ok] at h
  obtain ⟨-, -, ⟨relative, discovery⟩, -, tree, -, ⟨files, content⟩, -, -, -, manifest, hmanifest,
    previous, -, rfl⟩ := h
  refine ⟨env.revisionId_valid _ _ _ _, ?_, rfl⟩
  have haccepted := readManifest_accepted hmanifest
  simp only [PackageManifest.accepted, PackageManifest.fieldsValid, Bool.and_eq_true] at haccepted
  exact haccepted.1.1.1.1.1.1.1.1.1.1.1.1

theorem validation_ok {v : Validation} (h : validation env id w = .ok v) :
    head w.revisions id = some v.prior ∧ cleanRevision v.prior.value = .ok v.revision := by
  simp only [validation, bind_eq_ok, return_eq_ok, found_eq_ok] at h
  obtain ⟨-, -, -, -, prior, hprior, manifestRecord, -, revision, hclean, manifest, -, rfl⟩ := h
  exact ⟨hprior, hclean⟩

theorem approval_ok {approvalId : Text} {evalRunIds : List Text} {a : Replaced}
    (h : approval env id approvalId evalRunIds w = .ok a) :
    head w.revisions id = some a.prior ∧ cleanRevision a.prior.value = .ok a.revision ∧
      a.revision.state = .validated := by
  simp only [approval, bind_eq_ok, return_eq_ok, found_eq_ok, requires_eq_ok, beq_iff_eq] at h
  obtain ⟨-, -, -, -, -, -, prior, hprior, _, -, revision, hclean, -, hstate, _, -, _, -, _, -, -, -,
    -, -, rfl⟩ := h
  exact ⟨hprior, hclean, hstate⟩

theorem installation_ok {i : Installation} (h : installation env id w = .ok i) :
    head w.revisions id = some i.prior ∧ cleanRevision i.prior.value = .ok i.revision ∧
      i.revision.state = .approved := by
  simp only [installation, bind_eq_ok, found_eq_ok, requires_eq_ok, beq_iff_eq] at h
  obtain ⟨-, -, -, -, prior, hprior, _, -, revision, hclean, -, hstate, _, -, ⟨_, _⟩, -, -, -, h⟩ := h
  split at h
  · rw [return_eq_ok] at h
    subst h
    exact ⟨hprior, hclean, hstate⟩
  · simp only [bind_eq_ok, return_eq_ok] at h
    obtain ⟨-, -, -, -, rfl⟩ := h
    exact ⟨hprior, hclean, hstate⟩

structure Activation.Checked (env : PackageEnv) (id approvalId : Text) (w : PackageWorld)
    (a : Activation) : Prop where
  prior : head w.revisions id = some a.prior
  clean : cleanRevision a.prior.value = .ok a.revision
  state : a.revision.state = .installed
  approved : a.revision.approvalId = some approvalId
  content : contentOf env (w.installed id) = .ok (some a.revision.contentSha256)
  pointer : a.priorActive = head w.active a.revision.packageId
  previous : match a.priorActive with
    | none => a.superseded = none
    | some p => supersession p.value.revisionId a.revision w = .ok a.superseded

theorem activation_ok {approvalId : Text} {a : Activation}
    (h : activation env id approvalId w = .ok a) : a.Checked env id approvalId w := by
  simp only [activation, bind_eq_ok, found_eq_ok, requires_eq_ok, beq_iff_eq] at h
  obtain ⟨-, -, -, -, prior, hprior, revision, hclean, -, hstate, -, happroved, content, hcontent, -,
    hmatches, h⟩ := h
  subst hmatches
  split at h
  next hactive =>
    rw [return_eq_ok] at h
    subst h
    exact ⟨hprior, hclean, hstate, happroved, hcontent, hactive.symm, rfl⟩
  next p hactive =>
    simp only [bind_eq_ok, return_eq_ok] at h
    obtain ⟨superseded, hsuperseded, rfl⟩ := h
    exact ⟨hprior, hclean, hstate, happroved, hcontent, hactive.symm, hsuperseded⟩

structure Rollback.Checked (env : PackageEnv) (packageId id : Text) (w : PackageWorld)
    (r : Rollback) : Prop where
  pointer : head w.active packageId = some r.activeHead
  other : r.activeHead.value.revisionId ≠ id
  prior : head w.revisions id = some r.prior
  clean : cleanRevision r.prior.value = .ok r.revision
  package : r.revision.packageId = packageId
  source : r.revision.state.rollbackSource = true
  approved : r.revision.approvalId.isSome = true
  content : contentOf env (w.installed id) = .ok (some r.revision.contentSha256)
  current : currentRevision r.activeHead.value.revisionId w = .ok r.current

theorem rollbackPlan_ok {packageId reason : Text} {r : Rollback}
    (h : rollbackPlan env packageId id reason w = .ok r) : r.Checked env packageId id w := by
  simp only [rollbackPlan, bind_eq_ok, return_eq_ok, found_eq_ok, requires_eq_ok, beq_iff_eq,
    Bool.and_eq_true, decide_eq_true_eq] at h
  obtain ⟨-, -, -, -, -, -, activeHead, hactive, -, hother, -, -, prior, hprior, target, hclean, -,
    hpackage, -, ⟨hsource, happroved⟩, content, hcontent, -, hmatches, current, hcurrent, rfl⟩ := h
  subst hmatches
  exact ⟨hactive, hother, hprior, hclean, hpackage, hsource, happroved, hcontent, hcurrent⟩
end

end RaytSystem.Packages
