import RaytSystem.PackageRetry
import RaytSystem.PackageRuns

/-! Inspections, updates and installations that lost their process, and when the same call made
again completes them. -/
namespace RaytSystem.Packages
open Extraction Interleaving RecordTable

variable {env : PackageEnv} {w w' w₁ : PackageWorld} {id : Text}

section

def copyTree (tree : Tree) : Tree :=
  tree.filterMap fun entry => (copyNode entry.node).map fun node => ⟨entry.path, node⟩

def PackageWorld.putStaging (w : PackageWorld) (id : Text) (path : PathState) : PackageWorld :=
  {w with staging := Function.update w.staging id path}

def placedWorld (w : PackageWorld) (id : Text) (tree : Tree) : PackageWorld :=
  {w with
    installed := Function.update w.installed id (.directory tree)
    staging := Function.update w.staging id .absent}

def Replaced.installed (r : Replaced) : RevisionRecord where
  revision := {r.revision with state := .installed}
  signatureVerified := some (signatureMarker r.prior.value)

theorem putStaging_idem (id : Text) (p q : PathState) :
    (w.putStaging id p).putStaging id q = w.putStaging id q := by
  rw [PackageWorld.putStaging, PackageWorld.putStaging, Function.update_idem]
  rfl

theorem staging_putStaging (id : Text) (p : PathState) : (w.putStaging id p).staging id = p :=
  Function.update_self _ _ _

variable {C : PackageWorld → Prop} {X : PackageFault → PackageWorld → Prop}

theorem runs_copy {t : Tree} (tree : Tree) (hC : ∀ t, C (w.putStaging id (.directory t))) :
    Runs C (.each (copyEntry id) tree)
      (fun _ w₂ => w₂ = w.putStaging id (.directory (t ++ copyTree tree))) X
      (w.putStaging id (.directory t)) := by
  induction tree generalizing t with
  | nil =>
    refine runs_pure ?_
    rw [copyTree, List.filterMap_nil, List.append_nil]
  | cons entry rest ih =>
    refine (wp_bind _ _ _ _ _ _).mpr ?_
    cases hnode : copyNode entry.node with
    | none =>
      have hskip : copyEntry id entry = pure () := by rw [copyEntry, hnode]
      have hrest : copyTree (entry :: rest) = copyTree rest := by simp [copyTree, hnode]
      rw [hskip, hrest]
      exact runs_pure ih
    | some node =>
      have hcopy : copyEntry id entry = .set () fun w =>
          w.putStaging id ((w.staging id).add ⟨entry.path, node⟩) := by
        rw [copyEntry, hnode]
        rfl
      have hadd : (w.putStaging id (.directory t)).putStaging id
          (((w.putStaging id (.directory t)).staging id).add ⟨entry.path, node⟩) =
          w.putStaging id (.directory (t ++ [⟨entry.path, node⟩])) := by
        rw [staging_putStaging, putStaging_idem]
        rfl
      have hrest : copyTree (entry :: rest) = ⟨entry.path, node⟩ :: copyTree rest := by
        simp [copyTree, hnode]
      rw [hcopy, hrest, List.append_cons]
      refine wp_sequential_set ?_ ?_
      · rw [hadd]
        exact hC _
      · rw [hadd]
        exact ih

variable {i : Installation}

theorem runs_stageTree (hpresent : i.present = false) (hstart : C w)
    (hC : ∀ t, C (w.putStaging id (.directory t)))
    (hplaced : contentOf env (.directory (copyTree i.source)) = .ok (some i.observed) →
      C (placedWorld w id (copyTree i.source))) :
    Runs C (stage env id i) (fun _ w₂ => w.staging id = .absent ∧
      contentOf env (.directory (copyTree i.source)) = .ok (some i.observed) ∧
      w₂ = placedWorld w id (copyTree i.source)) (fun _ _ => True) w := by
  unfold stage
  rw [if_neg (by simp [hpresent])]
  refine runs_bind (wp_sequential_attempt hstart ?_ fun _ _ => trivial)
  intro _ w₂ hf
  split at hf
  next habsent =>
    cases hf
    refine ⟨hC [], runs_bind (wp_mono _ (runs_copy i.source hC) (fun _ w₃ h => ?_) fun _ _ h => h)⟩
    subst h
    refine runs_bind (runs_consult (hC _) (fun content hcontent => ?_) fun _ _ => trivial)
    refine runs_bind (wp_require _ (fun hobserved => ?_) fun _ => trivial)
    subst hobserved
    have hstaged : (w.putStaging id (.directory ([] ++ copyTree i.source))).staging id =
        .directory (copyTree i.source) := Function.update_self _ _ _
    rw [hstaged] at hcontent
    have hplace : {w.putStaging id (.directory ([] ++ copyTree i.source)) with
        installed := Function.update w.installed id
          ((w.putStaging id (.directory ([] ++ copyTree i.source))).staging id)
        staging := Function.update
          (w.putStaging id (.directory ([] ++ copyTree i.source))).staging id .absent} =
        placedWorld w id (copyTree i.source) := by
      rw [hstaged, PackageWorld.putStaging, Function.update_idem]
      rfl
    refine wp_sequential_set ?_ ⟨habsent, hcontent, hplace⟩
    exact hplace ▸ hplaced hcontent
  · cases hf

theorem installation_present (h : installation env id w = .ok i) :
    i.present = false ↔ w.installed id = .absent := by
  simp only [installation, bind_eq_ok, found_eq_ok, requires_eq_ok, beq_iff_eq] at h
  obtain ⟨-, -, -, -, prior, -, _, -, revision, -, -, -, _, -, ⟨_, _⟩, -, -, -, h⟩ := h
  split at h
  next habsent =>
    rw [return_eq_ok] at h
    subst h
    simp [habsent]
  next hpath =>
    simp only [bind_eq_ok, return_eq_ok] at h
    obtain ⟨-, -, -, -, rfl⟩ := h
    simpa using hpath

def InstallResumes (id : Text) (w : PackageWorld) : Prop :=
  InState (· == .approved) id w ∧ (w.installed id = .absent → w.staging id = .absent)

def InstallLost (env : PackageEnv) (id : Text) (w w' : PackageWorld) : Prop :=
  InstallResumes id w' → w' = w ∨ ∃ i, installation env id w = .ok i ∧ i.present = false ∧
    contentOf env (.directory (copyTree i.source)) = .ok (some i.observed) ∧
    w' = placedWorld w id (copyTree i.source)

def readyWorld (w : PackageWorld) (id : Text) (i : Installation) : PackageWorld :=
  if i.present then w else placedWorld w id (copyTree i.source)

theorem runs_installed (hC : C w) (hbusy : ∀ w', ¬InState (· == .approved) id w' → C w')
    (hprior : head w.revisions id = some i.prior)
    (hclean : cleanRevision i.prior.value = .ok i.revision) : Runs C (do
      appendRevision env id (some i.prior.revision) i.installed
      appendEvent ⟨i.revision.packageId, id, "package_installed", installer⟩
      return i.installed.revision)
      (fun _ w₁ => w₁.quiet = (w.putRevision id (i.installed.stored env)).quiet) X w := by
  have hdone : ∀ w' : PackageWorld, w'.revisions = push w.revisions id (i.installed.stored env) →
      C w' := by
    intro w' hw'
    have hhead : head w'.revisions id =
        some ⟨(w.revisions id).length + 1, i.installed.stored env⟩ := by rw [hw', head_push]
    exact hbusy w' (not_inState hhead rfl)
  refine runs_bind (runs_appendRevision env hC (fun _ _ => ⟨hdone _ rfl, ?_⟩) fun hnot => ?_)
  · exact runs_bind (runs_appendEvent (hdone _ rfl) (fun _ _ => ⟨hdone _ rfl, rfl⟩)
      fun hnot => absurd installer_token hnot)
  · exact absurd ⟨encodable_texts (clean_fields hclean).1, by rw [hprior]; rfl⟩ hnot

theorem install_steps : Runs (InstallLost env id w) (install env id)
    (fun _ w₁ => ∃ i, installation env id w = .ok i ∧
      (i.present = false → w.staging id = .absent) ∧
      w₁.quiet = ((readyWorld w id i).putRevision id (i.installed.stored env)).quiet)
    (fun _ _ => True) w := by
  have hstart : InstallLost env id w w := fun _ => Or.inl rfl
  have hbusy : ∀ w', ¬InState (· == .approved) id w' → InstallLost env id w w' :=
    fun w' hnot h => absurd h.1 hnot
  refine runs_bind (runs_consult hstart (fun i hi => ?_) fun _ _ => trivial)
  obtain ⟨hprior, hclean, -⟩ := installation_ok hi
  cases hpresent : i.present with
  | true =>
    rw [stage, if_pos hpresent]
    refine runs_bind (runs_pure ?_)
    refine wp_mono _ (runs_installed hstart hbusy hprior hclean) (fun _ w₁ h => ⟨i, hi, ?_, ?_⟩)
      fun _ _ h => h
    · simp [hpresent]
    · rw [readyWorld, if_pos hpresent]
      exact h
  | false =>
    have habsent := (installation_present hi).mp hpresent
    -- a staging directory without an installed one stops every new installation
    have hC : ∀ t, InstallLost env id w (w.putStaging id (.directory t)) := by
      intro t h
      have hstaging := h.2 habsent
      rw [staging_putStaging] at hstaging
      cases hstaging
    have hplaced : contentOf env (.directory (copyTree i.source)) = .ok (some i.observed) →
        InstallLost env id w (placedWorld w id (copyTree i.source)) :=
      fun hcontent _ => Or.inr ⟨i, hi, hpresent, hcontent, rfl⟩
    refine runs_bind (wp_mono _ (runs_stageTree hpresent hstart hC hplaced) (fun _ w₂ h => ?_)
      fun _ _ h => h)
    obtain ⟨hstaging, hcontent, rfl⟩ := h
    refine wp_mono _ (runs_installed (hplaced hcontent) hbusy hprior hclean)
      (fun _ w₁ h => ⟨i, hi, fun _ => hstaging, ?_⟩) fun _ _ h => h
    rw [readyWorld, if_neg (by simp [hpresent])]
    exact h

theorem installation_placed (hi : installation env id w = .ok i)
    (hcontent : contentOf env (.directory (copyTree i.source)) = .ok (some i.observed)) :
    installation env id (placedWorld w id (copyTree i.source)) = .ok {i with present := true} := by
  simp only [installation, bind_eq_ok, found_eq_ok, requires_eq_ok, beq_iff_eq] at hi ⊢
  obtain ⟨u₁, henabled, u₂, hkey, prior, hprior, manifest, hmanifest, revision, hclean, u₃, hstate,
    source, hsource, ⟨files, observed⟩, hscan, u₄, hobserved, hi⟩ := hi
  refine ⟨u₁, henabled, u₂, hkey, prior, hprior, manifest, hmanifest, revision, hclean, u₃, hstate,
    source, hsource, ⟨files, observed⟩, hscan, u₄, hobserved, ?_⟩
  have hshape : i.toReplaced = ⟨prior, revision⟩ ∧ i.source = source ∧ i.observed = observed := by
    split at hi
    · rw [return_eq_ok] at hi
      subst hi
      exact ⟨rfl, rfl, rfl⟩
    · simp only [bind_eq_ok, return_eq_ok] at hi
      obtain ⟨-, -, -, -, rfl⟩ := hi
      exact ⟨rfl, rfl, rfl⟩
  obtain ⟨hreplaced, rfl, rfl⟩ := hshape
  have hplace : (placedWorld w id (copyTree i.source)).installed id =
      .directory (copyTree i.source) := Function.update_self _ _ _
  rw [hplace]
  simp only [hcontent, bind_eq_ok, return_eq_ok, requires_eq_ok, beq_iff_eq]
  exact ⟨_, rfl, (), rfl, by rw [← hreplaced]⟩

variable {result : PackageRevision}

theorem install_again (hlost : InstallLost env id w w') (hin : InstallResumes id w')
    (hx : Exec (install env id) w (.returned result) w₁) :
    ∃ result' w₂, Exec (install env id) w' (.returned result') w₂ ∧ SameOutcome w₁ w₂ := by
  rcases hlost hin with rfl | ⟨i, hi, hpresent, hcontent, rfl⟩
  · exact ⟨result, w₁, hx, same_of_quiet rfl⟩
  obtain ⟨i', hi', -, hend⟩ := exec_sound install_steps (fun _ => Or.inl rfl) hx
  rw [hi] at hi'
  cases hi'
  have hagain := installation_placed hi hcontent
  apply exec_returns
  refine runs_bind (runs_consult trivial (fun b hb => ?_) fun e he => ?_)
  · rw [hagain] at hb
    cases hb
    obtain ⟨hprior, hclean, -⟩ := installation_ok hagain
    rw [stage, if_pos rfl]
    refine runs_bind (runs_pure ?_)
    refine wp_mono _ (runs_installed (i := {i with present := true}) trivial
      (fun _ _ => trivial) hprior hclean) (fun _ w₂ h => ?_) fun _ _ h => h
    apply same_of_quiet
    rw [hend, h, readyWorld, if_neg (by simp [hpresent])]
  · rw [hagain] at he
    cases he

theorem install_began (hx : Exec (install env id) w (.returned result) w₁) :
    InstallResumes id w := by
  obtain ⟨i, hi, hstaging, -⟩ := exec_sound install_steps (fun _ => Or.inl rfl) hx
  obtain ⟨hprior, hclean, hstate⟩ := installation_ok hi
  exact ⟨inState_of_clean hprior hclean (by rw [hstate]; rfl),
    fun habsent => hstaging ((installation_present hi).mpr habsent)⟩
end

section
variable {asUpdate : Bool} {source : Text} {i : Inspection}

def Inspection.manifestRecord (i : Inspection) : ManifestRecord :=
  ⟨i.manifest, i.sourceRelative, i.fileCount⟩

def recordedWorld (env : PackageEnv) (w : PackageWorld) (i : Inspection) : PackageWorld :=
  match head w.revisions i.revision.revisionId with
  | some _ => w
  | none => (w.putManifest i.revision.revisionId (i.manifestRecord.stored env)).putRevision
      i.revision.revisionId (RevisionRecord.stored env {revision := i.revision})

def pendingDiscovery (w : PackageWorld) (i : Inspection) : Option (Text × Stored DiscoveryRecord) :=
  i.discoveryId.bind fun id =>
    ((head w.discoveries id).filter fun d => !d.value.inspected).map fun d => (id, d)

def markedWorld (w : PackageWorld) (i : Inspection) : PackageWorld :=
  match pendingDiscovery w i with
  | none => w
  | some (id, d) => w.putDiscovery id (i.mark d.value)

def MarkWrites (i : Inspection) (w : PackageWorld) : Prop :=
  ∀ id d, pendingDiscovery w i = some (id, d) → encodable d.value.sourceRelative = true

theorem markedWorld_of_none (h : pendingDiscovery w i = none) :
    MarkWrites i w ∧ markedWorld w i = w := by
  rw [markedWorld, h]
  refine ⟨fun id d hd => ?_, rfl⟩
  rw [h] at hd
  cases hd

variable {d : Stored DiscoveryRecord}

theorem markedWorld_of_some {id : Text} (h : pendingDiscovery w i = some (id, d)) :
    (MarkWrites i w ↔ encodable d.value.sourceRelative = true) ∧
      markedWorld w i = w.putDiscovery id (i.mark d.value) := by
  rw [markedWorld, h]
  refine ⟨⟨fun hwrites => hwrites id d h, fun htext id' d' hd => ?_⟩, rfl⟩
  rw [h] at hd
  cases hd
  exact htext

theorem pendingDiscovery_some {id : Text} (h : pendingDiscovery w i = some (id, d)) :
    i.discoveryId = some id ∧ head w.discoveries id = some d ∧ d.value.inspected = false := by
  simp only [pendingDiscovery, Option.bind_eq_some_iff, Option.map_eq_some_iff,
    Option.filter_eq_some_iff, Prod.mk.injEq, Bool.not_eq_true'] at h
  obtain ⟨id', hid, d', ⟨hd, hinspected⟩, rfl, rfl⟩ := h
  exact ⟨hid, hd, hinspected⟩

theorem pendingDiscovery_quiet (hq : w'.quiet = w.quiet) :
    pendingDiscovery w' i = pendingDiscovery w i :=
  eq_of_quiet (fun v => pendingDiscovery v i) (fun _ => rfl) hq

theorem pendingDiscovery_recorded :
    pendingDiscovery (recordedWorld env w i) i = pendingDiscovery w i := by
  unfold recordedWorld
  split <;> rfl

theorem markedWorld_quiet (hq : w'.quiet = w.quiet) :
    (markedWorld w' i).quiet = (markedWorld w i).quiet := by
  cases hpending : pendingDiscovery w i with
  | none =>
    rw [(markedWorld_of_none hpending).2,
      (markedWorld_of_none ((pendingDiscovery_quiet hq).trans hpending)).2]
    exact hq
  | some p =>
    rw [(markedWorld_of_some hpending).2,
      (markedWorld_of_some ((pendingDiscovery_quiet hq).trans hpending)).2]
    exact congrArg (fun v => v.putDiscovery p.1 (i.mark p.2.value)) hq

variable {C : PackageWorld → Prop}

theorem runs_mark {X : PackageFault → PackageWorld → Prop} (hC : C w)
    (hmarked : C (markedWorld w i)) (hX : ¬MarkWrites i w → ∀ e w', X e w') :
    Runs C (markInspected i) (fun _ w₁ => MarkWrites i w ∧ w₁ = markedWorld w i) X w := by
  have hdone : pendingDiscovery w i = none → MarkWrites i w ∧ w = markedWorld w i := fun h =>
    ⟨(markedWorld_of_none h).1, (markedWorld_of_none h).2.symm⟩
  unfold markInspected
  cases hid : i.discoveryId with
  | none => exact runs_pure (hdone (by simp [pendingDiscovery, hid]))
  | some id =>
    refine runs_bind (wp_sequential_get hC ?_)
    cases hd : head w.discoveries id with
    | none => exact runs_pure (hdone (by simp [pendingDiscovery, hid, hd]))
    | some d =>
      dsimp only
      split
      next hinspected => exact runs_pure (hdone (by simp [pendingDiscovery, hid, hd, hinspected]))
      next hinspected =>
        have hpending : pendingDiscovery w i = some (id, d) := by
          simp [pendingDiscovery, hid, hd, hinspected]
        obtain ⟨hwrites, hworld⟩ := markedWorld_of_some hpending
        rw [hworld] at hmarked ⊢
        exact runs_appendDiscovery hC (fun htext _ => ⟨hmarked, hwrites.mpr htext, rfl⟩)
          fun hnot e => hX (fun h => hnot ⟨hwrites.mp h, by rw [hd]; rfl⟩) e w

theorem ingest_steps (hstart : C w) (hmanifest : ∀ i, inspection env asUpdate source w = .ok i →
      head w.revisions i.revision.revisionId = none →
      C (w.putManifest i.revision.revisionId (i.manifestRecord.stored env)))
    (hrecorded : ∀ i w', inspection env asUpdate source w = .ok i →
      w'.quiet = (recordedWorld env w i).quiet → C w')
    (hmarked : ∀ i w', inspection env asUpdate source w = .ok i →
      w'.quiet = (markedWorld (recordedWorld env w i) i).quiet → C w') :
    Runs C (ingest env asUpdate source) (fun i w₁ => inspection env asUpdate source w = .ok i ∧
      (head w.revisions i.revision.revisionId = none →
        head w.manifests i.revision.revisionId = none) ∧
      MarkWrites i w ∧ w₁.quiet = (markedWorld (recordedWorld env w i) i).quiet)
      (fun _ _ => True) w := by
  refine runs_bind (runs_consult hstart (fun i hi => ?_) fun _ _ => trivial)
  -- once the inspection is on record, the discovery follows
  have hfinish : ∀ w', w'.quiet = (recordedWorld env w i).quiet →
      (head w.revisions i.revision.revisionId = none →
        head w.manifests i.revision.revisionId = none) →
      Runs C (do markInspected i; return i) (fun i w₁ => inspection env asUpdate source w = .ok i ∧
        (head w.revisions i.revision.revisionId = none →
          head w.manifests i.revision.revisionId = none) ∧
        MarkWrites i w ∧ w₁.quiet = (markedWorld (recordedWorld env w i) i).quiet)
        (fun _ _ => True) w' := by
    intro w' hq hfresh
    have hquiet := markedWorld_quiet (i := i) hq
    refine runs_bind (wp_mono _ (runs_mark (hrecorded i w' hi hq) (hmarked i _ hi hquiet)
      fun _ _ _ => trivial) (fun _ w₁ h => ?_) fun _ _ h => h)
    obtain ⟨hwrites, rfl⟩ := h
    refine runs_pure ⟨hi, hfresh, ?_, hquiet⟩
    intro id d hd
    exact hwrites id d (by rw [pendingDiscovery_quiet hq, pendingDiscovery_recorded, hd])
  refine runs_bind (runs_bind (wp_sequential_get hstart ?_))
  cases hhead : head w.revisions i.revision.revisionId with
  | some s =>
    refine runs_pure (hfinish w ?_ fun h => by rw [hhead] at h; cases h)
    rw [recordedWorld, hhead]
  | none =>
    have hworld : recordedWorld env w i = (w.putManifest i.revision.revisionId
        (i.manifestRecord.stored env)).putRevision i.revision.revisionId
        (RevisionRecord.stored env {revision := i.revision}) := by rw [recordedWorld, hhead]
    refine runs_bind (runs_appendManifest env hstart
      (fun _ hfresh => ⟨hmanifest i hi hhead, ?_⟩) fun _ _ => trivial)
    have hdone : ∀ w', w'.quiet = ((w.putManifest i.revision.revisionId
        (i.manifestRecord.stored env)).putRevision i.revision.revisionId
        (RevisionRecord.stored env {revision := i.revision})).quiet → C w' := fun w' h =>
      hrecorded i w' hi (by rw [hworld]; exact h)
    refine runs_bind (runs_appendRevision env (hmanifest i hi hhead)
      (fun _ _ => ⟨hdone _ rfl, ?_⟩) fun _ _ => trivial)
    refine runs_appendEvent (hdone _ rfl) (fun _ _ => ⟨hdone _ rfl, ?_⟩) fun _ _ => trivial
    exact hfinish _ (by rw [hworld]; rfl) fun _ => by simpa using hfresh

abbrev ingestedWorld (env : PackageEnv) (w : PackageWorld) (i : Inspection) : PackageWorld :=
  markedWorld (recordedWorld env w i) i

theorem inspection_quiet (asUpdate : Bool) (source : Text) (hq : w'.quiet = w.quiet) :
    inspection env asUpdate source w' = inspection env asUpdate source w :=
  eq_of_quiet (inspection env asUpdate source) (fun _ => rfl) hq

theorem resolveSource_marked {id : Text} (hd : head w.discoveries id = some d) :
    resolveSource source (w.putDiscovery id (i.mark d.value)) = resolveSource source w := by
  unfold resolveSource
  by_cases hid : source = id
  · subst hid
    have hnew : head (w.putDiscovery source (i.mark d.value)).discoveries source =
        some ⟨(w.discoveries source).length + 1, i.mark d.value⟩ := head_push _ _ _
    rw [hnew, hd]
    rfl
  · have hother : head (w.putDiscovery id (i.mark d.value)).discoveries source =
        head w.discoveries source := head_push_other _ _ hid
    rw [hother]

theorem inspection_marked :
    inspection env asUpdate source (markedWorld w i) = inspection env asUpdate source w := by
  cases hpending : pendingDiscovery w i with
  | none => rw [(markedWorld_of_none hpending).2]
  | some p =>
    obtain ⟨id, d⟩ := p
    rw [(markedWorld_of_some hpending).2]
    simp only [inspection, resolveSource_marked (pendingDiscovery_some hpending).2.1]
    rfl

theorem inspection_ingested :
    inspection env asUpdate source (recordedWorld env w i) = inspection env asUpdate source w ∧
    inspection env asUpdate source (ingestedWorld env w i) =
      inspection env asUpdate source w := by
  have hrecorded : inspection env asUpdate source (recordedWorld env w i) =
      inspection env asUpdate source w := by
    unfold recordedWorld
    split <;> rfl
  exact ⟨hrecorded, inspection_marked.trans hrecorded⟩

theorem pendingDiscovery_marked : pendingDiscovery (markedWorld w i) i = none := by
  cases hpending : pendingDiscovery w i with
  | none => rw [(markedWorld_of_none hpending).2, hpending]
  | some p =>
    obtain ⟨id, d⟩ := p
    have hnew : head (w.putDiscovery id (i.mark d.value)).discoveries id =
        some ⟨(w.discoveries id).length + 1, i.mark d.value⟩ := head_push _ _ _
    rw [(markedWorld_of_some hpending).2, pendingDiscovery, (pendingDiscovery_some hpending).1,
      Option.bind_some, hnew]
    rfl

theorem revisions_marked : (markedWorld w i).revisions = w.revisions := by
  unfold markedWorld
  split <;> rfl

theorem head_recorded :
    (head (recordedWorld env w i).revisions i.revision.revisionId).isSome = true := by
  unfold recordedWorld
  split
  next s hs => rw [hs, Option.isSome_some]
  next => rw [head_putRevision, Option.isSome_some]

theorem ingest_completes (hi : inspection env asUpdate source w = .ok i)
    (hhead : (head w.revisions i.revision.revisionId).isSome = true) (hwrites : MarkWrites i w) :
    Runs (fun _ => True) (ingest env asUpdate source)
      (fun i' w₂ => i' = i ∧ w₂ = markedWorld w i) (fun _ _ => False) w := by
  refine runs_bind (runs_consult trivial (fun b hb => ?_) fun e he => ?_)
  · rw [hi] at hb
    cases hb
    obtain ⟨s, hs⟩ := Option.isSome_iff_exists.mp hhead
    refine runs_bind (runs_bind (wp_sequential_get trivial ?_))
    rw [hs]
    refine runs_pure (runs_bind (wp_mono _ (runs_mark trivial trivial
      fun hnot => absurd hwrites hnot) (fun _ w₂ h => runs_pure ⟨rfl, h.2⟩) fun _ _ h => h))
  · rw [hi] at he
    cases he

def Ingested (env : PackageEnv) (w : PackageWorld) (i : Inspection) (w' : PackageWorld) : Prop :=
  w'.quiet = (recordedWorld env w i).quiet ∨ w'.quiet = (ingestedWorld env w i).quiet

theorem ingest_again (hi : inspection env asUpdate source w = .ok i) (hw' : Ingested env w i w')
    (hwrites : MarkWrites i w) : Runs (fun _ => True) (ingest env asUpdate source)
      (fun i' w₂ => i' = i ∧ w₂.quiet = (ingestedWorld env w i).quiet) (fun _ _ => False) w' := by
  have hhead : ∀ v : PackageWorld, v.quiet = (recordedWorld env w i).quiet ∨
      v.quiet = (ingestedWorld env w i).quiet →
      (head v.revisions i.revision.revisionId).isSome = true := by
    rintro v (hq | hq)
    · exact (eq_of_quiet (fun v => (head v.revisions i.revision.revisionId).isSome)
        (fun _ => rfl) hq).trans head_recorded
    · refine (eq_of_quiet (fun v => (head v.revisions i.revision.revisionId).isSome)
        (fun _ => rfl) hq).trans ?_
      rw [revisions_marked]
      exact head_recorded
  rcases hw' with hq | hq
  · have hi' := ((inspection_quiet asUpdate source hq).trans
      inspection_ingested.1).trans hi
    have hwrites' : MarkWrites i w' := fun id d hd => hwrites id d (by
      rw [← hd, pendingDiscovery_quiet hq, pendingDiscovery_recorded])
    refine wp_mono _ (ingest_completes hi' (hhead w' (Or.inl hq)) hwrites') (fun i' w₂ h => ?_)
      fun _ _ h => h
    exact ⟨h.1, h.2 ▸ markedWorld_quiet hq⟩
  · have hi' := ((inspection_quiet asUpdate source hq).trans
      inspection_ingested.2).trans hi
    have hnone := (pendingDiscovery_quiet hq).trans pendingDiscovery_marked
    obtain ⟨hwrites', hsame⟩ := markedWorld_of_none hnone
    refine wp_mono _ (ingest_completes hi' (hhead w' (Or.inr hq)) hwrites') (fun i' w₂ h => ?_)
      fun _ _ h => h
    exact ⟨h.1, by rw [h.2, hsame]; exact hq⟩

theorem manifest_stops {r : ManifestRecord} (hi : inspection env asUpdate source w = .ok i)
    (hnone : head w.revisions i.revision.revisionId = none) :
    ¬InspectionResumes env asUpdate source (w.putManifest i.revision.revisionId r) := by
  intro h
  have hempty := h i hi hnone
  have hnew : head (w.putManifest i.revision.revisionId r).manifests i.revision.revisionId = _ :=
    head_push w.manifests i.revision.revisionId r
  rw [hnew] at hempty
  cases hempty

def InspectionLost (env : PackageEnv) (source : Text) (w w' : PackageWorld) : Prop :=
  InspectionResumes env false source w' → w' = w ∨
    ∃ i, inspection env false source w = .ok i ∧ Ingested env w i w'

theorem inspect_steps : Runs (InspectionLost env source w) (inspect env source)
    (fun _ w₁ => ∃ i, inspection env false source w = .ok i ∧
      (head w.revisions i.revision.revisionId = none →
        head w.manifests i.revision.revisionId = none) ∧
      MarkWrites i w ∧ w₁.quiet = (ingestedWorld env w i).quiet) (fun _ _ => True) w := by
  refine runs_bind (wp_mono _ (ingest_steps (fun _ => Or.inl rfl) ?_ ?_ ?_)
    (fun i _ h => runs_pure ⟨i, h⟩) fun _ _ h => h)
  · exact fun i hi hnone h => absurd h (manifest_stops hi hnone)
  · exact fun i w' hi hq _ => Or.inr ⟨i, hi, Or.inl hq⟩
  · exact fun i w' hi hq _ => Or.inr ⟨i, hi, Or.inr hq⟩

variable {result : PackageRevision}

theorem inspect_again (hlost : InspectionLost env source w w')
    (hin : InspectionResumes env false source w')
    (hx : Exec (inspect env source) w (.returned result) w₁) :
    ∃ result' w₂, Exec (inspect env source) w' (.returned result') w₂ ∧ SameOutcome w₁ w₂ := by
  rcases hlost hin with rfl | ⟨i, hi, hstage⟩
  · exact ⟨result, w₁, hx, same_of_quiet rfl⟩
  obtain ⟨i', hi', -, hwrites, hend⟩ := exec_sound inspect_steps (fun _ => Or.inl rfl) hx
  rw [hi] at hi'
  cases hi'
  apply exec_returns
  refine runs_bind (wp_mono _ (ingest_again hi hstage hwrites) (fun i' w₂ h => ?_) fun _ _ h => h)
  exact runs_pure (same_of_quiet (hend.trans h.2.symm))

theorem inspect_began (hx : Exec (inspect env source) w (.returned result) w₁) :
    InspectionResumes env false source w := by
  obtain ⟨i, hi, hfresh, -⟩ := exec_sound inspect_steps (fun _ => Or.inl rfl) hx
  intro i' hi'
  rw [hi] at hi'
  cases hi'
  exact hfresh
end

section
variable {source : Text}

def Validation.record (v : Validation) : RevisionRecord where
  revision := v.validated
  validationFailures := some v.failures
  signatureVerified := some false

theorem validation_quiet (hq : w'.quiet = w.quiet) : validation env id w' = validation env id w :=
  eq_of_quiet (validation env id) (fun _ => rfl) hq

variable {v : Validation}

theorem validation_fields (h : validation env id w = .ok v) :
    v.validated.fieldsValid = true ∧ v.validated.revisionState = true ∧
      (head w.revisions id).map Stored.revision = some v.prior.revision := by
  obtain ⟨hprior, hclean⟩ := validation_ok h
  have hfields := (clean_fields hclean).1
  have hreport : isSha256 v.report = true := by
    simp only [validation, bind_eq_ok, return_eq_ok] at h
    obtain ⟨-, -, -, -, -, -, -, -, -, -, -, -, rfl⟩ := h
    exact env.reportSha256_valid _ _ _
  refine ⟨?_, ?_, by rw [hprior]; rfl⟩
  · simp only [PackageRevision.fieldsValid, Bool.and_eq_true] at hfields ⊢
    exact ⟨⟨⟨⟨hfields.1.1.1.1, hreport⟩, hfields.1.1.2⟩, hfields.1.2⟩, hfields.2⟩
  · simp only [Validation.validated, PackageRevision.revisionState]
    split <;> rfl

theorem validate_steps {C : PackageWorld → Prop} (hstart : C w)
    (hwritten : ∀ v w', validation env id w = .ok v →
      w'.quiet = (w.putRevision id (v.record.stored env)).quiet → C w') :
    Runs C (validate env id) (fun _ w₁ => ∃ v, validation env id w = .ok v ∧ v.failures = [] ∧
      w₁.quiet = (w.putRevision id (v.record.stored env)).quiet) (fun _ _ => True) w := by
  refine runs_bind (runs_consult hstart (fun v hv => ?_) fun _ _ => trivial)
  refine runs_bind (runs_appendRevision env hstart
    (fun _ _ => ⟨hwritten v _ hv rfl, ?_⟩) fun _ _ => trivial)
  refine runs_bind (runs_appendEvent (hwritten v _ hv rfl)
    (fun _ _ => ⟨hwritten v _ hv rfl, ?_⟩) fun _ _ => trivial)
  exact runs_bind (wp_require _ (fun hnone => runs_pure ⟨v, hv, hnone, rfl⟩) fun _ => trivial)

theorem validator_token : isToken validator = true ∧ encodable validator = true := by decide

theorem validate_completes (hv : validation env id w = .ok v) (hnone : v.failures = []) :
    Runs (fun _ => True) (validate env id)
      (fun _ w₁ => w₁.quiet = (w.putRevision id (v.record.stored env)).quiet) (fun _ _ => False)
      w := by
  obtain ⟨hfields, -, hhead⟩ := validation_fields hv
  refine runs_bind (runs_consult trivial (fun b hb => ?_) fun e he => ?_)
  · rw [hv] at hb
    cases hb
    refine runs_bind (runs_appendRevision env trivial (fun _ _ => ⟨trivial, ?_⟩)
      fun hnot => absurd ⟨encodable_texts hfields, hhead⟩ hnot)
    refine runs_bind (runs_appendEvent trivial (fun _ _ => ⟨trivial, ?_⟩)
      fun hnot => absurd validator_token hnot)
    exact runs_bind (wp_require _ (fun _ => runs_pure rfl) fun hsome => hsome hnone)
  · rw [hv] at he
    cases he

theorem validation_again (hv : validation env id w = .ok v) :
    ∃ v', validation env id (w.putRevision id (v.record.stored env)) = .ok v' ∧
      v'.failures = v.failures ∧ v'.record = v.record := by
  obtain ⟨hfields, hstate, -⟩ := validation_fields hv
  have hclean := (clean_stored env (r := v.record) hfields hstate).2
  simp only [validation, bind_eq_ok, return_eq_ok, found_eq_ok] at hv ⊢
  obtain ⟨u₁, henabled, u₂, hkey, prior, -, manifestRecord, hrecord, revision, -, manifest,
    hmanifest, rfl⟩ := hv
  refine ⟨_, ⟨u₁, henabled, u₂, hkey, _, head_putRevision _ _, manifestRecord, hrecord, _, hclean,
    manifest, hmanifest, rfl⟩, rfl, rfl⟩

def UpdateLost (env : PackageEnv) (source : Text) (w w' : PackageWorld) : Prop :=
  InspectionResumes env true source w' → w' = w ∨
    ∃ i, inspection env true source w = .ok i ∧ (Ingested env w i w' ∨
      ∃ v, validation env i.revision.revisionId (ingestedWorld env w i) = .ok v ∧
        w'.quiet = ((ingestedWorld env w i).putRevision i.revision.revisionId
          (v.record.stored env)).quiet)

theorem update_steps : Runs (UpdateLost env source w) (update env source)
    (fun _ w₁ => ∃ i v, inspection env true source w = .ok i ∧
      (head w.revisions i.revision.revisionId = none →
        head w.manifests i.revision.revisionId = none) ∧ MarkWrites i w ∧
      validation env i.revision.revisionId (ingestedWorld env w i) = .ok v ∧ v.failures = [] ∧
      w₁.quiet = ((ingestedWorld env w i).putRevision i.revision.revisionId
        (v.record.stored env)).quiet) (fun _ _ => True) w := by
  refine runs_bind (wp_mono _ (ingest_steps (fun _ => Or.inl rfl) ?_ ?_ ?_)
    (fun i w₂ h => ?_) fun _ _ h => h)
  · exact fun i hi hnone h => absurd h (manifest_stops hi hnone)
  · exact fun i w' hi hq _ => Or.inr ⟨i, hi, Or.inl (Or.inl hq)⟩
  · exact fun i w' hi hq _ => Or.inr ⟨i, hi, Or.inl (Or.inr hq)⟩
  · obtain ⟨hi, hfresh, hwrites, hq⟩ := h
    have hput : ∀ r, (w₂.putRevision i.revision.revisionId r).quiet =
        ((ingestedWorld env w i).putRevision i.revision.revisionId r).quiet := fun r =>
      congrArg (fun v => v.putRevision i.revision.revisionId r) hq
    refine wp_mono _ (validate_steps (fun _ => Or.inr ⟨i, hi, Or.inl (Or.inr hq)⟩) ?_)
      (fun _ w₁ h => ?_) fun _ _ h => h
    · intro v w' hv hw' _
      rw [validation_quiet hq] at hv
      exact Or.inr ⟨i, hi, Or.inr ⟨v, hv, hw'.trans (hput _)⟩⟩
    · obtain ⟨v, hv, hnone, hend⟩ := h
      rw [validation_quiet hq] at hv
      exact ⟨i, v, hi, hfresh, hwrites, hv, hnone, hend.trans (hput _)⟩

variable {result : PackageRevision}

theorem update_again (hlost : UpdateLost env source w w')
    (hin : InspectionResumes env true source w')
    (hx : Exec (update env source) w (.returned result) w₁) :
    ∃ result' w₂, Exec (update env source) w' (.returned result') w₂ ∧ SameOutcome w₁ w₂ := by
  rcases hlost hin with rfl | ⟨i, hi, hstage⟩
  · exact ⟨result, w₁, hx, same_of_quiet rfl⟩
  obtain ⟨i', v, hi', -, hwrites, hv, hnone, hend⟩ :=
    exec_sound update_steps (fun _ => Or.inl rfl) hx
  rw [hi] at hi'
  cases hi'
  have hput : ∀ {w₂ w₃ : PackageWorld} r, w₂.quiet = w₃.quiet →
      (w₂.putRevision i.revision.revisionId r).quiet =
        (w₃.putRevision i.revision.revisionId r).quiet := fun r hq =>
    congrArg (fun v => v.putRevision i.revision.revisionId r) hq
  apply exec_returns
  rcases hstage with hstage | ⟨v', hv', hq⟩
  · refine runs_bind (wp_mono _ (ingest_again hi hstage hwrites) (fun i' w₂ h => ?_) fun _ _ h => h)
    obtain ⟨rfl, hq⟩ := h
    have hv₂ := (validation_quiet hq).trans hv
    refine wp_mono _ (validate_completes hv₂ hnone) (fun _ w₃ h => ?_) fun _ _ h => h
    exact same_of_quiet (hend.trans ((hput _ hq.symm).trans h.symm))
  · -- the validation is on record, and is written once more
    rw [hv] at hv'
    cases hv'
    have hi' := ((inspection_quiet true source hq).trans
      inspection_ingested.2).trans hi
    have hhead : (head w'.revisions i.revision.revisionId).isSome = true :=
      (eq_of_quiet (fun v => (head v.revisions i.revision.revisionId).isSome) (fun _ => rfl)
        hq).trans (by rw [head_putRevision, Option.isSome_some])
    have hpending : pendingDiscovery w' i = none :=
      (pendingDiscovery_quiet hq).trans pendingDiscovery_marked
    obtain ⟨hwrites', hsame⟩ := markedWorld_of_none hpending
    refine runs_bind (wp_mono _ (ingest_completes hi' hhead hwrites') (fun i' w₂ h => ?_)
      fun _ _ h => h)
    obtain ⟨rfl, rfl⟩ := h
    rw [hsame]
    obtain ⟨v', hv', hfailures, hrecord⟩ := validation_again hv
    refine wp_mono _ (validate_completes ((validation_quiet hq).trans hv')
      (hfailures.trans hnone)) (fun _ w₃ h => ?_) fun _ _ h => h
    rw [hrecord] at h
    exact (same_of_quiet hend).trans ((same_putRevision_twice _ _ _).trans
      (same_of_quiet ((hput _ hq.symm).trans h.symm)))

theorem update_began (hx : Exec (update env source) w (.returned result) w₁) :
    InspectionResumes env true source w := by
  obtain ⟨i, v, hi, hfresh, -⟩ := exec_sound update_steps (fun _ => Or.inl rfl) hx
  intro i' hi'
  rw [hi] at hi'
  cases hi'
  exact hfresh
end

/-- A call that lost its process is completed by the same call exactly where it can be made again:
a retry then ends in the records and the installed trees of the call that was not lost. -/
theorem retry_completes_iff {call : PackageCall} (hcall : call.retried = true)
    (hx : Exec (call.program env) w (.returned ()) w₁)
    (hlost : Exec (call.program env) w .crashed w') :
    (∃ w₂, Exec (call.program env) w' (.returned ()) w₂ ∧ SameOutcome w₁ w₂) ↔
      call.Resumable env w' := by
  -- the calls return their revision, which the program drops
  have hdrop : ∀ {p : PackageProg PackageRevision} {R : Prop},
      (∀ {result w₂}, Exec p w' (.returned result) w₂ → R) →
      (R → Exec p w .crashed w' → ∀ {result}, Exec p w (.returned result) w₁ →
        ∃ result' w₂, Exec p w' (.returned result') w₂ ∧ SameOutcome w₁ w₂) →
      Exec (do let _ ← p) w (.returned ()) w₁ → Exec (do let _ ← p) w .crashed w' →
      ((∃ w₂, Exec (do let _ ← p) w' (.returned ()) w₂ ∧ SameOutcome w₁ w₂) ↔ R) := by
    intro p R hbegan hagain hx hlost
    obtain ⟨result, hx⟩ := exec_discard.1.mp hx
    constructor
    · rintro ⟨w₂, hreturned, -⟩
      obtain ⟨result', hreturned⟩ := exec_discard.1.mp hreturned
      exact hbegan hreturned
    · intro hR
      obtain ⟨result', w₂, hreturned, hsame⟩ := hagain hR (exec_discard.2 hlost) hx
      exact ⟨w₂, exec_discard.1.mpr ⟨result', hreturned⟩, hsame⟩
  cases call with
  | inspect source =>
    exact hdrop inspect_began (fun hR hlost _ hx =>
      inspect_again (exec_sound inspect_steps (fun _ => Or.inl rfl) hlost) hR hx) hx hlost
  | update source =>
    exact hdrop update_began (fun hR hlost _ hx =>
      update_again (exec_sound update_steps (fun _ => Or.inl rfl) hlost) hR hx) hx hlost
  | install revisionId =>
    exact hdrop install_began (fun hR hlost _ hx =>
      install_again (exec_sound install_steps (fun _ => Or.inl rfl) hlost) hR hx) hx hlost
  | activate revisionId actorId approvalId =>
    exact hdrop activate_began (fun hR hlost _ hx => activate_again
      (exec_sound (activate_steps actorId) (fun _ => Or.inl rfl) hlost) hR hx) hx hlost
  | rollback packageId toRevisionId actorId reason =>
    exact hdrop rollback_began (fun hR hlost _ hx => rollback_again
      (exec_sound (rollback_steps actorId) (fun _ => Or.inl rfl) hlost) hR hx) hx hlost
  | discover source => cases hcall
  | validate revisionId => cases hcall
  | approve revisionId actorId approvalId evalRunIds => cases hcall
  | outside evalRuns authorised sources => cases hcall

def stagingDemo : PackageWorld :=
  (((PackageCall.install demoId).program demoEnv).play 2 [] approvedDemo).2

def placedDemo : PackageWorld :=
  (((PackageCall.install demoId).program demoEnv).play 5 [] approvedDemo).2

theorem installed_demo : Exec ((PackageCall.install demoId).program demoEnv) approvedDemo
    (.returned ()) installedDemo := exec_play_returned (by decide)

/-- An installation that was lost once its staging directory existed never completes. -/
theorem lost_staging_stays :
    Calls (PackageCall.program demoEnv) (fun _ _ => True) demoWorld approvedDemo ∧
      Exec ((PackageCall.install demoId).program demoEnv) approvedDemo (.returned ()) installedDemo ∧
      Exec ((PackageCall.install demoId).program demoEnv) approvedDemo .crashed stagingDemo ∧
      ¬∃ w₂, Exec ((PackageCall.install demoId).program demoEnv) stagingDemo (.returned ()) w₂ := by
  refine ⟨reached_approvedDemo trivial trivial trivial, installed_demo, exec_play_crashed _ _ _ _, ?_⟩
  rintro ⟨w₂, hx⟩
  obtain ⟨result, hx⟩ := exec_discard.1.mp hx
  have habsent : stagingDemo.staging demoId = .absent :=
    (install_began hx).2 (by decide)
  revert habsent
  decide

/-- A tree that is in its place is taken over by the retry. -/
theorem placed_demo_completes :
    ∃ w₂, Exec ((PackageCall.install demoId).program demoEnv) placedDemo (.returned ()) w₂ ∧
      SameOutcome installedDemo w₂ := by
  have hstate : (head placedDemo.revisions demoId).map (·.value.revision.state) =
      some .approved := by decide
  obtain ⟨s, hs, happroved⟩ := Option.map_eq_some_iff.mp hstate
  have hplaced : placedDemo.installed demoId ≠ .absent := by decide
  exact (retry_completes_iff rfl installed_demo (exec_play_crashed 5 [] _ _)).mpr
    ⟨⟨s, hs, by rw [happroved]; rfl⟩, fun habsent => absurd habsent hplaced⟩

end RaytSystem.Packages
