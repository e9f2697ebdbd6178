import RaytSystem.PackageInvariant

/-! Calls of the package service that lost their process, and the same calls made again. -/
namespace RaytSystem.Packages
open Extraction Interleaving RecordTable Stored

variable {env : PackageEnv} {w w' w₁ : PackageWorld} {id packageId : Text}

structure SameOutcome (w w' : PackageWorld) : Prop where
  manifests : ∀ id, (head w.manifests id).map value = (head w'.manifests id).map value
  revisions : ∀ id, (head w.revisions id).map value = (head w'.revisions id).map value
  active : ∀ id, (head w.active id).map value = (head w'.active id).map value
  discoveries : ∀ id,
    (head w.discoveries id).map value = (head w'.discoveries id).map value
  installed : ∀ id, w.installed id = w'.installed id

def PackageWorld.quiet (w : PackageWorld) : PackageWorld := {w with events := []}

theorem eq_of_quiet {β : Type} (f : PackageWorld → β) (hf : ∀ v, f v.quiet = f v)
    (h : w.quiet = w'.quiet) : f w = f w' := by
  rw [← hf w, h, hf w']

theorem same_of_quiet (h : w.quiet = w'.quiet) : SameOutcome w w' where
  manifests id := eq_of_quiet (fun v => (head v.manifests id).map value) (fun _ => rfl) h
  revisions id := eq_of_quiet (fun v => (head v.revisions id).map value) (fun _ => rfl) h
  active id := eq_of_quiet (fun v => (head v.active id).map value) (fun _ => rfl) h
  discoveries id := eq_of_quiet (fun v => (head v.discoveries id).map value) (fun _ => rfl) h
  installed id := eq_of_quiet (fun v => v.installed id) (fun _ => rfl) h

theorem head_value_push {ρ : Type} {t t' : Table Text ρ} {id id' : Text} {r : ρ}
    (h : (head t id').map value = (head t' id').map value) :
    (head (push t id r) id').map value = (head (push t' id r) id').map value := by
  by_cases hid : id' = id
  · subst hid
    rw [head_push, head_push]
    rfl
  · rw [head_push_other t r hid, head_push_other t' r hid, h]

theorem SameOutcome.putRevision (h : SameOutcome w w') (id : Text) (r : RevisionRecord) :
    SameOutcome (w.putRevision id r) (w'.putRevision id r) :=
  {h with revisions := fun id' => head_value_push (h.revisions id')}

theorem SameOutcome.putActive (h : SameOutcome w w') (id : Text) (r : ActiveRecord) :
    SameOutcome (w.putActive id r) (w'.putActive id r) :=
  {h with active := fun id' => head_value_push (h.active id')}

theorem same_putRevision_twice (w : PackageWorld) (id : Text) (r : RevisionRecord) :
    SameOutcome (w.putRevision id r) ((w.putRevision id r).putRevision id r) where
  manifests _ := rfl
  active _ := rfl
  discoveries _ := rfl
  installed _ := rfl
  revisions id' := by
    by_cases hid : id' = id
    · subst hid
      rw [head_putRevision, head_putRevision]
      rfl
    · rw [head_putRevision_other (w := w.putRevision id r) r hid]

theorem SameOutcome.trans {w₂ : PackageWorld} (h : SameOutcome w w') (h' : SameOutcome w' w₂) :
    SameOutcome w w₂ where
  manifests id := (h.manifests id).trans (h'.manifests id)
  revisions id := (h.revisions id).trans (h'.revisions id)
  active id := (h.active id).trans (h'.active id)
  discoveries id := (h.discoveries id).trans (h'.discoveries id)
  installed id := (h.installed id).trans (h'.installed id)

theorem clean_stored (env : PackageEnv) {r : RevisionRecord} (hfields : r.revision.fieldsValid = true)
    (hstate : r.revision.revisionState = true) :
    r.stored env = r ∧ cleanRevision (r.stored env) = .ok r.revision := by
  have hstored : r.stored env = r := by
    rw [RevisionRecord.stored, mapText_accepted (fun t ht => ht.nfc_eq env) hfields]
  refine ⟨hstored, ?_⟩
  rw [hstored, cleanRevision_eq_ok, mapText_accepted (fun t ht => ht.trim_eq) hfields,
    PackageRevision.accepted, hfields, hstate]
  exact ⟨rfl, rfl⟩

section

def InspectionResumes (env : PackageEnv) (asUpdate : Bool) (source : Text) (w : PackageWorld) :
    Prop :=
  ∀ i, inspection env asUpdate source w = .ok i → head w.revisions i.revision.revisionId = none →
    head w.manifests i.revision.revisionId = none

def InState (p : PackageLifecycleState → Bool) (id : Text) (w : PackageWorld) : Prop :=
  ∃ s, head w.revisions id = some s ∧ p s.value.revision.state = true

def PackageCall.Resumable (env : PackageEnv) (w : PackageWorld) : PackageCall → Prop
  | inspect source => InspectionResumes env false source w
  | update source => InspectionResumes env true source w
  | install revisionId => InState (· == .approved) revisionId w ∧
      (w.installed revisionId = .absent → w.staging revisionId = .absent)
  | activate revisionId _ _ => InState (· == .installed) revisionId w
  | rollback _ toRevisionId _ _ => InState PackageLifecycleState.rollbackSource toRevisionId w
  | _ => True

def PackageCall.retried : PackageCall → Bool
  | inspect _ => true
  | update _ => true
  | install _ => true
  | activate .. => true
  | rollback .. => true
  | _ => false

variable {p : PackageLifecycleState → Bool} {s : Stored RevisionRecord}

theorem inState_of_clean {v : PackageRevision} (hs : head w.revisions id = some s)
    (hv : cleanRevision s.value = .ok v) (hp : p v.state = true) : InState p id w :=
  ⟨s, hs, by rwa [← (clean_fields hv).2.1]⟩

theorem not_inState (hs : head w.revisions id = some s) (hp : p s.value.revision.state = false) :
    ¬InState p id w := by
  rintro ⟨s', hs', hstate⟩
  rw [hs] at hs'
  cases hs'
  rw [hp] at hstate
  cases hstate
end

section
variable {actorId : Text}

structure SwitchWrites (packageId id actorId : Text) (s : Stored RevisionRecord)
    (v : PackageRevision) (expected : Option ℕ) (a : ActiveRecord) (event : PackageEvent)
    (w : PackageWorld) : Prop where
  texts : ((Replaced.mk s v).activated actorId).revision.texts.all encodable = true
  target : (head w.revisions id).map revision = some s.revision
  actor : encodable a.activatedBy = true
  reason : a.rollbackReason.all encodable = true
  pointer : (head w.active packageId).map revision = expected
  token : isToken event.actorId = true
  event : encodable event.actorId = true

def switchedWorld (env : PackageEnv) (w : PackageWorld) (packageId id actorId : Text) (r : Replaced)
    (a : ActiveRecord) : PackageWorld :=
  (w.putRevision id ((r.activated actorId).stored env)).putActive packageId (a.stored env)

variable {s : Stored RevisionRecord} {v : PackageRevision} {expected : Option ℕ} {a : ActiveRecord}
variable {event : PackageEvent}

theorem runs_switchWrites {α : Type} {C : PackageWorld → Prop}
    {X : PackageFault → PackageWorld → Prop} {p : PackageLifecycleState → Bool} {result : α}
    (hp : p .active = false) (hC : C w) (hbusy : ∀ w', ¬InState p id w' → C w')
    (hX : ¬SwitchWrites packageId id actorId s v expected a event w → ∀ e w', X e w') : Runs C (do
      appendRevision env id (some s.revision) ((Replaced.mk s v).activated actorId)
      appendActive env packageId expected a
      appendEvent event
      return result)
      (fun _ w₁ => SwitchWrites packageId id actorId s v expected a event w ∧
        w₁.quiet = (switchedWorld env w packageId id actorId ⟨s, v⟩ a).quiet) X w := by
  have hactive : ∀ w' : PackageWorld, w'.revisions = push w.revisions id
      (((Replaced.mk s v).activated actorId).stored env) → C w' := by
    intro w' hw'
    have hhead : head w'.revisions id = some ⟨(w.revisions id).length + 1,
        ((Replaced.mk s v).activated actorId).stored env⟩ := by rw [hw', head_push]
    exact hbusy w' (not_inState hhead hp)
  refine runs_bind (runs_appendRevision env hC (fun htexts htarget => ⟨hactive _ rfl, ?_⟩)
    fun hnot e => hX (fun h => hnot ⟨h.texts, h.target⟩) e _)
  refine runs_bind (runs_appendActive env (hactive _ rfl)
    (fun hactor hreason hpointer => ⟨hactive _ rfl, ?_⟩)
    fun hnot e => hX (fun h => hnot ⟨h.actor, h.reason, h.pointer⟩) e _)
  refine runs_bind (runs_appendEvent (hactive _ rfl)
    (fun htoken hevent => ⟨hactive _ rfl, runs_pure ⟨?_, rfl⟩⟩)
    fun hnot e => hX (fun h => hnot ⟨h.token, h.event⟩) e _)
  exact ⟨htexts, htarget, hactor, hreason, hpointer, htoken, hevent⟩

theorem SwitchWrites.quiet (h : SwitchWrites packageId id actorId s v expected a event w)
    (hq : w'.quiet = w.quiet) : SwitchWrites packageId id actorId s v expected a event w' where
  texts := h.texts
  target := (eq_of_quiet (fun v => (head v.revisions id).map revision) (fun _ => rfl)
    hq).trans h.target
  actor := h.actor
  reason := h.reason
  pointer := (eq_of_quiet (fun v => (head v.active packageId).map revision) (fun _ => rfl)
    hq).trans h.pointer
  token := h.token
  event := h.event

theorem SwitchWrites.putRevision {id' : Text} (r : RevisionRecord)
    (h : SwitchWrites packageId id actorId s v expected a event w) (hne : id ≠ id') :
    SwitchWrites packageId id actorId s v expected a event (w.putRevision id' r) where
  texts := h.texts
  target := by
    rw [head_putRevision_other r hne]
    exact h.target
  actor := h.actor
  reason := h.reason
  pointer := h.pointer
  token := h.token
  event := h.event

theorem switchedWorld_quiet {r : Replaced} (hq : w'.quiet = w.quiet) :
    (switchedWorld env w' packageId id actorId r a).quiet =
      (switchedWorld env w packageId id actorId r a).quiet :=
  congrArg (fun v => switchedWorld env v packageId id actorId r a) hq
end

section
variable {actorId approvalId : Text}

def Replaced.superseded (r : Replaced) : RevisionRecord where
  revision := {r.revision with state := .superseded}
  signatureVerified := some (signatureMarker r.prior.value)

def supersededWorld (env : PackageEnv) (w : PackageWorld) : Option (Text × Replaced) → PackageWorld
  | none => w
  | some (previousId, previous) => w.putRevision previousId (previous.superseded.stored env)

variable (a : Activation)

def Activation.record (id actorId approvalId : Text) : ActiveRecord where
  packageId := a.revision.packageId
  revisionId := id
  contentSha256 := a.revision.contentSha256
  activatedBy := actorId
  approvalId := some approvalId

def Activation.event (id actorId : Text) : PackageEvent :=
  ⟨a.revision.packageId, id, "package_activated", actorId⟩

abbrev Activation.Writes (id actorId approvalId : Text) (w : PackageWorld) : Prop :=
  SwitchWrites a.revision.packageId id actorId a.prior a.revision (a.priorActive.map revision)
    (a.record id actorId approvalId) (a.event id actorId) w

abbrev activatedWorld (env : PackageEnv) (w : PackageWorld) (a : Activation)
    (id actorId approvalId : Text) : PackageWorld :=
  switchedWorld env w a.revision.packageId id actorId a.toReplaced (a.record id actorId approvalId)

theorem Activation.Checked.other {a : Activation} (h : a.Checked env id approvalId w)
    {previousId : Text} {previous : Replaced} (hs : a.superseded = some (previousId, previous)) :
    previousId ≠ id ∧ previous.revision.fieldsValid = true ∧
      head w.revisions previousId = some previous.prior ∧
      ∃ p, a.priorActive = some p ∧ p.value.revisionId = previousId := by
  have hprevious := h.previous
  cases hprior : a.priorActive with
  | none =>
    rw [hprior, hs] at hprevious
    cases hprevious
  | some p =>
    simp only [hprior, hs, supersession] at hprevious
    split at hprevious
    · cases hprevious
    · split at hprevious
      · cases hprevious
      next prior hhead =>
        split at hprevious
        next hactive =>
          simp only [bind_eq_ok, return_eq_ok, Option.some.injEq, Prod.mk.injEq] at hprevious
          obtain ⟨v, hv, rfl, rfl⟩ := hprevious
          refine ⟨?_, (clean_fields hv).1, hhead, p, rfl, rfl⟩
          -- the same record would be active and installed
          rintro rfl
          rw [h.prior] at hhead
          cases hhead
          have hinstalled := (clean_fields h.clean).2.1.symm.trans h.state
          rw [RevisionRecord.state, hinstalled] at hactive
          cases hactive
        · cases hprevious

def ActivationLost (env : PackageEnv) (id approvalId : Text) (w w' : PackageWorld) : Prop :=
  InState (· == .installed) id w' → w' = w ∨ ∃ a, activation env id approvalId w = .ok a ∧
    a.superseded.isSome = true ∧ w'.quiet = (supersededWorld env w a.superseded).quiet

theorem activate_steps (actorId : Text) : Runs (ActivationLost env id approvalId w)
    (activate env id actorId approvalId)
    (fun _ w₁ => ∃ a, activation env id approvalId w = .ok a ∧
      a.Writes id actorId approvalId (supersededWorld env w a.superseded) ∧
      w₁.quiet = (activatedWorld env (supersededWorld env w a.superseded) a id actorId
        approvalId).quiet) (fun _ _ => True) w := by
  have hstart : ActivationLost env id approvalId w w := fun _ => Or.inl rfl
  have hbusy : ∀ w', ¬InState (· == .installed) id w' → ActivationLost env id approvalId w w' :=
    fun w' hnot h => absurd h hnot
  refine runs_bind (runs_consult hstart (fun a ha => ?_) fun _ _ => trivial)
  cases hsuperseded : a.superseded with
  | none =>
    refine runs_bind (runs_pure ?_)
    refine wp_mono _ (runs_switchWrites rfl hstart hbusy fun _ _ _ => trivial)
      (fun _ w₁ h => ⟨a, ha, ?_⟩) fun _ _ _ => trivial
    rw [hsuperseded]
    exact h
  | some previous =>
    have hlost : ∀ w', w'.quiet = (supersededWorld env w (some previous)).quiet →
        ActivationLost env id approvalId w w' := fun w' h _ =>
      Or.inr ⟨a, ha, by rw [hsuperseded]; rfl, by rw [hsuperseded]; exact h⟩
    refine runs_bind (runs_bind (runs_appendRevision env hstart
      (fun _ _ => ⟨hlost _ rfl, ?_⟩) fun _ _ => trivial))
    refine runs_appendEvent (hlost _ rfl) (fun _ _ => ⟨hlost _ rfl, ?_⟩) fun _ _ => trivial
    refine wp_mono _ (runs_switchWrites rfl (hlost _ rfl) hbusy fun _ _ _ => trivial)
      (fun _ w₁ h => ⟨a, ha, ?_⟩) fun _ _ _ => trivial
    rw [hsuperseded]
    exact ⟨⟨h.1.texts, h.1.target, h.1.actor, h.1.reason, h.1.pointer, h.1.token, h.1.event⟩, h.2⟩

theorem activation_quiet (hq : w'.quiet = w.quiet) :
    activation env id approvalId w' = activation env id approvalId w :=
  eq_of_quiet (activation env id approvalId) (fun _ => rfl) hq

theorem activation_superseded {a : Activation} (ha : activation env id approvalId w = .ok a)
    (hs : a.superseded.isSome = true) :
    activation env id approvalId (supersededWorld env w a.superseded) =
      .ok {a with superseded := none} := by
  have hchecked := activation_ok ha
  obtain ⟨⟨previousId, previous⟩, hsuperseded⟩ := Option.isSome_iff_exists.mp hs
  obtain ⟨hne, hfields, hhead, p, hprior, hp⟩ := hchecked.other hsuperseded
  rw [hsuperseded, supersededWorld]
  simp only [activation, bind_eq_ok, found_eq_ok, requires_eq_ok, beq_iff_eq] at ha ⊢
  obtain ⟨u₁, henabled, u₂, hkey, prior, hhead', revision, hclean, u₃, hstate, u₄, happroved,
    content, hcontent, u₅, hmatches, ha⟩ := ha
  refine ⟨u₁, henabled, u₂, hkey, prior, ?_, revision, hclean, u₃, hstate, u₄, happroved, content,
    hcontent, u₅, hmatches, ?_⟩
  · rw [head_putRevision_other _ hne.symm]
    exact hhead'
  · rw [putRevision_active]
    split at ha
    next hactive =>
      rw [return_eq_ok] at ha
      subst ha
      cases hprior
    next p' hactive =>
      simp only [bind_eq_ok, return_eq_ok] at ha ⊢
      obtain ⟨x, hx, rfl⟩ := ha
      cases hprior
      refine ⟨none, ?_, rfl⟩
      rw [hp, supersession, head_putRevision]
      split
      · rfl
      · exact if_neg fun h => by cases h

variable {result : PackageRevision}

theorem activate_again (hlost : ActivationLost env id approvalId w w')
    (hin : InState (· == .installed) id w')
    (hx : Exec (activate env id actorId approvalId) w (.returned result) w₁) :
    ∃ result' w₂, Exec (activate env id actorId approvalId) w' (.returned result') w₂ ∧
      SameOutcome w₁ w₂ := by
  rcases hlost hin with rfl | ⟨a, ha, hs, hq⟩
  · exact ⟨result, w₁, hx, same_of_quiet rfl⟩
  obtain ⟨a', ha', hwrites, hend⟩ := exec_sound (activate_steps actorId) (fun _ => Or.inl rfl) hx
  rw [ha] at ha'
  cases ha'
  have hagain : activation env id approvalId w' = .ok {a with superseded := none} :=
    (activation_quiet hq).trans (activation_superseded ha hs)
  apply exec_returns
  refine runs_bind (runs_consult trivial (fun b hb => ?_) fun e he => ?_)
  · rw [hagain] at hb
    cases hb
    refine runs_bind (runs_pure ?_)
    refine wp_mono _ (runs_switchWrites (p := (· == .installed)) rfl trivial (fun _ _ => trivial)
      fun hnot => absurd (hwrites.quiet hq) hnot) (fun _ w₂ h => ?_) fun _ _ h => h
    apply same_of_quiet
    rw [hend, h.2]
    exact (switchedWorld_quiet hq).symm
  · rw [hagain] at he
    cases he

theorem activate_began (hx : Exec (activate env id actorId approvalId) w (.returned result) w₁) :
    InState (· == .installed) id w := by
  obtain ⟨a, ha, -⟩ := exec_sound (activate_steps actorId) (fun _ => Or.inl rfl) hx
  have hchecked := activation_ok ha
  exact inState_of_clean hchecked.prior hchecked.clean (by rw [hchecked.state]; rfl)
end

section
variable {actorId reason : Text}

def Replaced.rolledBack (r : Replaced) : RevisionRecord where
  revision := {r.revision with state := .rolledBack}
  signatureVerified := some (signatureMarker r.prior.value)

def rolledBackWorld (env : PackageEnv) (w : PackageWorld) (currentId : Text) :
    Option Replaced → PackageWorld
  | none => w
  | some current => w.putRevision currentId (current.rolledBack.stored env)

def Rollback.record (r : Rollback) (packageId id actorId reason : Text) : ActiveRecord where
  packageId := packageId
  revisionId := id
  contentSha256 := r.revision.contentSha256
  activatedBy := actorId
  approvalId := r.revision.approvalId
  rolledBackFrom := some r.activeHead.value.revisionId
  rollbackReason := some reason

abbrev Rollback.Writes (r : Rollback) (packageId id actorId reason : Text) (w : PackageWorld) : Prop :=
  SwitchWrites packageId id actorId r.prior r.revision (some r.activeHead.revision)
    (r.record packageId id actorId reason) ⟨packageId, id, "package_rolled_back", actorId⟩ w

abbrev restoredWorld (env : PackageEnv) (w : PackageWorld) (r : Rollback)
    (packageId id actorId reason : Text) : PackageWorld :=
  switchedWorld env w packageId id actorId r.toReplaced (r.record packageId id actorId reason)

def RollbackLost (env : PackageEnv) (packageId id reason : Text) (w w' : PackageWorld) : Prop :=
  InState PackageLifecycleState.rollbackSource id w' → w' = w ∨
    ∃ r current, rollbackPlan env packageId id reason w = .ok r ∧ r.current = some current ∧
      w'.quiet = (rolledBackWorld env w r.activeHead.value.revisionId (some current)).quiet

theorem rollback_steps (actorId : Text) : Runs (RollbackLost env packageId id reason w)
    (rollback env packageId id actorId reason)
    (fun _ w₁ => ∃ r, rollbackPlan env packageId id reason w = .ok r ∧
      r.Writes packageId id actorId reason
        (rolledBackWorld env w r.activeHead.value.revisionId r.current) ∧
      w₁.quiet = (restoredWorld env (rolledBackWorld env w r.activeHead.value.revisionId r.current)
        r packageId id actorId reason).quiet) (fun _ _ => True) w := by
  have hstart : RollbackLost env packageId id reason w w := fun _ => Or.inl rfl
  have hbusy : ∀ w', ¬InState PackageLifecycleState.rollbackSource id w' →
      RollbackLost env packageId id reason w w' := fun w' hnot h => absurd h hnot
  refine runs_bind (runs_consult hstart (fun r hr => ?_) fun _ _ => trivial)
  cases hcurrent : r.current with
  | none =>
    refine runs_bind (runs_pure ?_)
    refine wp_mono _ (runs_switchWrites rfl hstart hbusy fun _ _ _ => trivial)
      (fun _ w₁ h => ⟨r, hr, ?_⟩) fun _ _ _ => trivial
    rw [hcurrent]
    exact h
  | some current =>
    have hlost : RollbackLost env packageId id reason w
        (rolledBackWorld env w r.activeHead.value.revisionId (some current)) := fun _ =>
      Or.inr ⟨r, current, hr, hcurrent, rfl⟩
    refine runs_bind (runs_appendRevision env hstart (fun _ _ => ⟨hlost, ?_⟩) fun _ _ => trivial)
    refine wp_mono _ (runs_switchWrites rfl hlost hbusy fun _ _ _ => trivial)
      (fun _ w₁ h => ⟨r, hr, ?_⟩) fun _ _ _ => trivial
    rw [hcurrent]
    exact h

theorem rollbackPlan_quiet (hq : w'.quiet = w.quiet) :
    rollbackPlan env packageId id reason w' = rollbackPlan env packageId id reason w :=
  eq_of_quiet (rollbackPlan env packageId id reason) (fun _ => rfl) hq

def Replaced.again (env : PackageEnv) (current : Replaced) (revision : ℕ) : Replaced where
  prior := ⟨revision, current.rolledBack.stored env⟩
  revision := current.rolledBack.revision

theorem rolledBack_again (env : PackageEnv) (current : Replaced) (n : ℕ) :
    (current.again env n).rolledBack = current.rolledBack := by
  have hmarker : ∀ b : Bool, signatureMarker (RevisionRecord.stored env
      {revision := current.rolledBack.revision, signatureVerified := some b}) = b := by
    intro b
    cases b <;> rfl
  simp only [Replaced.rolledBack, Replaced.again]
  exact congrArg (RevisionRecord.mk _ none) (congrArg some (hmarker _))

theorem rollbackPlan_rolledBack {r : Rollback} {current : Replaced}
    (hr : rollbackPlan env packageId id reason w = .ok r) (hcurrent : r.current = some current) :
    rollbackPlan env packageId id reason
        (rolledBackWorld env w r.activeHead.value.revisionId (some current)) =
      .ok {r with current := some (current.again env
        ((w.revisions r.activeHead.value.revisionId).length + 1))} ∧
      current.revision.fieldsValid = true := by
  have hchecked := rollbackPlan_ok hr
  have hfields : current.revision.fieldsValid = true := by
    have hread := hchecked.current
    rw [hcurrent] at hread
    unfold currentRevision at hread
    split at hread
    · cases hread
    · simp only [bind_eq_ok, return_eq_ok, Option.some.injEq] at hread
      obtain ⟨v, hv, rfl⟩ := hread
      exact (clean_fields hv).1
  refine ⟨?_, hfields⟩
  have hclean := (clean_stored env (r := current.rolledBack) hfields rfl).2
  rw [rolledBackWorld]
  simp only [rollbackPlan, bind_eq_ok, return_eq_ok, found_eq_ok, requires_eq_ok, beq_iff_eq,
    Bool.and_eq_true, decide_eq_true_eq] at hr ⊢
  obtain ⟨u₁, henabled, u₂, hreason, u₃, hpackage, activeHead, hactive, u₄, hother, u₅, hkey, prior,
    hprior, target, htarget, u₆, hsame, u₇, hsource, content, hcontent, u₈, hmatches, x, hx, rfl⟩ := hr
  refine ⟨u₁, henabled, u₂, hreason, u₃, hpackage, activeHead, hactive, u₄, hother, u₅, hkey, prior,
    ?_, target, htarget, u₆, hsame, u₇, hsource, content, hcontent, u₈, hmatches,
    some (current.again env ((w.revisions activeHead.value.revisionId).length + 1)), ?_, rfl⟩
  · rw [head_putRevision_other _ (Ne.symm hother)]
    exact hprior
  · rw [currentRevision, head_putRevision]
    simp only [hclean]
    rfl

variable {result : PackageRevision}

theorem rollback_again (hlost : RollbackLost env packageId id reason w w')
    (hin : InState PackageLifecycleState.rollbackSource id w')
    (hx : Exec (rollback env packageId id actorId reason) w (.returned result) w₁) :
    ∃ result' w₂, Exec (rollback env packageId id actorId reason) w' (.returned result') w₂ ∧
      SameOutcome w₁ w₂ := by
  rcases hlost hin with rfl | ⟨r, current, hr, hcurrent, hq⟩
  · exact ⟨result, w₁, hx, same_of_quiet rfl⟩
  obtain ⟨r', hr', hwrites, hend⟩ := exec_sound (rollback_steps actorId) (fun _ => Or.inl rfl) hx
  rw [hr] at hr'
  cases hr'
  rw [hcurrent] at hwrites hend
  obtain ⟨hplan, hfields⟩ := rollbackPlan_rolledBack hr hcurrent
  have hagain := (rollbackPlan_quiet hq).trans hplan
  have hother := (rollbackPlan_ok hr).other
  have hhead : (head w'.revisions r.activeHead.value.revisionId).map revision =
      some ((w.revisions r.activeHead.value.revisionId).length + 1) := by
    rw [eq_of_quiet (fun v => head v.revisions r.activeHead.value.revisionId) (fun _ => rfl) hq]
    exact congrArg (Option.map revision) (head_putRevision _ _)
  apply exec_returns
  refine runs_bind (runs_consult trivial (fun b hb => ?_) fun e he => ?_)
  · rw [hagain] at hb
    cases hb
    refine runs_bind (runs_appendRevision env trivial (fun _ _ => ⟨trivial, ?_⟩)
      fun hnot => absurd ⟨encodable_texts hfields, hhead⟩ hnot)
    refine wp_mono _ (runs_switchWrites (p := PackageLifecycleState.rollbackSource) rfl trivial
      (fun _ _ => trivial) fun hnot => absurd ((hwrites.quiet hq).putRevision _ hother.symm) hnot)
      (fun _ w₂ h => ?_) fun _ _ h => h
    have htwice := ((same_putRevision_twice w r.activeHead.value.revisionId
      (current.rolledBack.stored env)).putRevision id
      ((r.activated actorId).stored env)).putActive packageId
      ((r.record packageId id actorId reason).stored env)
    refine (same_of_quiet hend).trans (htwice.trans (same_of_quiet ?_))
    rw [h.2]
    have hrecord := congrArg (RevisionRecord.stored env) (rolledBack_again env current
      ((w.revisions r.activeHead.value.revisionId).length + 1))
    change _ = (switchedWorld env (w'.putRevision _ (RevisionRecord.stored env
      (current.again env _).rolledBack)) packageId id actorId r.toReplaced _).quiet
    rw [hrecord]
    exact (switchedWorld_quiet (congrArg (fun v => v.putRevision r.activeHead.value.revisionId
      (current.rolledBack.stored env)) hq)).symm
  · rw [hagain] at he
    cases he

theorem rollback_began
    (hx : Exec (rollback env packageId id actorId reason) w (.returned result) w₁) :
    InState PackageLifecycleState.rollbackSource id w := by
  obtain ⟨r, hr, -⟩ := exec_sound (rollback_steps actorId) (fun _ => Or.inl rfl) hx
  have hchecked := rollbackPlan_ok hr
  exact inState_of_clean hchecked.prior hchecked.clean hchecked.source
end

end RaytSystem.Packages
