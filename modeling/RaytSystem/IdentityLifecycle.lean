import RaytSystem.IdentityCommands

/-! Histories of commands and external changes. -/
namespace RaytSystem.Identity
open Interleaving RecordTable

variable {env : IdentityEnv} {w : Workspace}

theorem visible_of_editable {p : Path} (h : env.editable p = true) : env.visible p = true := by
  unfold IdentityEnv.editable at h
  unfold IdentityEnv.visible
  cases hdecide : env.decide p with
  | none => simp [hdecide] at h
  | some decision =>
    simp only [hdecide, Option.any_some, Bool.and_eq_true] at h ⊢
    exact h.1

section

theorem ends_ensureDocument {p : Path} (h : Sound env w) (hvisible : env.visible p = true)
    (hleft : ¬MovedAt w.identities p) {Q : DocumentId → Workspace → Prop}
    {X : DocumentFault → Workspace → Prop}
    (hQ : ∀ d w', Sound env w' → w'.files = w.files → w'.operations = w.operations →
      w'.receipts = w.receipts → ActiveAt w'.identities p d → Q d w') :
    Ends (ensureDocument env p) Q X w := by
  refine ends_bind (ends_any fun now => ?_)
  obtain ⟨d, seen, t', hensure, hsound, hgrows, hidentity, -⟩ :=
    ensureIdentity_sound h.identities hvisible hleft none (fun d hd => by cases hd) now
  apply ends_attempt
  · intro b w' hf
    rw [hensure] at hf
    cases hf
    refine hQ d _ ⟨hsound, fun q hq hqv => hgrows.not_movedAt (h.unmoved q hq hqv), ?_⟩ rfl rfl
      rfl (activeAt_of_identityForPath hidentity)
    exact fun rows hrows row hrow => hgrows.activeAt (h.rows rows hrows row hrow)
  · intro e hf
    rw [hensure] at hf
    cases hf

theorem Sound.refreshable (h : Sound env w) (paths : List Path) : ∀ rows, w.index = some rows →
    ∀ row ∈ rows, ActiveAt w.identities row.relativePath row.documentId ∨
      row.relativePath ∉ w.files ∧ paths.head? = some row.relativePath :=
  fun rows hrows row hrow => Or.inl (h.rows rows hrows row hrow)

theorem Sound.insert (h : Sound env w) {p : Path} (hleft : ¬MovedAt w.identities p)
    (data : Bytes) : Sound env {w with files := w.files.insert p data} where
  identities := h.identities
  unmoved q hq hqv := by
    rcases (AList.mem_insert _).mp hq with rfl | hq
    · exact hleft
    · exact h.unmoved q hq hqv
  rows := h.rows

theorem Sound.erase (h : Sound env w) (p : Path) : Sound env {w with files := w.files.erase p} where
  identities := h.identities
  unmoved q hq hqv := h.unmoved q (AList.mem_erase.mp hq).2 hqv
  rows := h.rows

variable {r : CreateRequest} {prepared : Stored OperationRecord} {C : Prop}

theorem ends_publishCreated (h : Sound env w) (hvisible : env.visible r.relativePath = true)
    (hleft : ¬MovedAt w.identities r.relativePath) (hlength : r.data.length ≤ env.maxFileBytes)
    (hopen : env.restricted r.relativePath r.data = false)
    (hC : C → head w.operations r.key = some prepared ∧ w.receipts r.key = none ∧
      r.relativePath ∉ w.files) : Ends (publishCreated env r prepared) (fun _ w' => Sound env w')
      (fun _ w' => Sound env w' ∧ ¬C) w := by
  have hcreate : ∀ w' publishing, SameDocuments w w' →
      (C → head w'.operations r.key = some publishing) →
      Ends (atomicCreate r.relativePath r.data >>= fun _ => ensureDocument env r.relativePath >>=
        fun documentId => completeOperation env r.key (r.request env) publishing [r.relativePath]
          documentId (some documentId))
        (fun _ w' => Sound env w') (fun _ w' => Sound env w' ∧ ¬C) w' := by
    intro w' publishing hsame hhead
    have h' := hsame.sound h
    refine ends_bind (ends_attempt (fun _ w'' hf => ?_) fun e hf => ⟨h', fun hc => ?_⟩)
    · split at hf
      · cases hf
      next habsent =>
        cases hf
        have hleft' : ¬MovedAt w'.identities r.relativePath := by rwa [hsame.identities]
        refine ends_bind (ends_ensureDocument (h'.insert hleft' r.data) hvisible hleft'
          fun d w₃ hsound hfiles hoperations hreceipts hactive => ?_)
        refine ends_completeOperation hsound.identities hsound.unmoved
          (hsound.refreshable [r.relativePath]) fun hc => ?_
        refine ⟨by rw [hoperations]; exact hhead hc, ?_, r.relativePath, r.data, rfl, hactive,
          hvisible, ?_, hlength, hopen⟩
        · rw [hreceipts]
          exact hsame.receipts ▸ (hC hc).2.1
        · rw [hfiles]
          exact AList.lookup_insert _
    · split at hf
      next hpresent =>
        rw [hsame.files] at hpresent
        exact (hC hc).2.2 hpresent
      next => cases hf
  refine ends_bind (ends_publishOperation (hcreate w prepared ⟨rfl, rfl, rfl, rfl⟩ fun hc =>
    (hC hc).1) (fun w' publishing hsame hhead => hcreate w' publishing hsame fun _ => hhead)
    fun hne e => ⟨h, fun hc => hne (hC hc).1⟩)

theorem ends_createPrepared (h : Sound env w) (hvisible : env.visible r.relativePath = true)
    (hleft : ¬MovedAt w.identities r.relativePath) (hlength : r.data.length ≤ env.maxFileBytes)
    (hopen : env.restricted r.relativePath r.data = false)
    (hC : C → prepared.value.state = .prepared ∧ head w.operations r.key = some prepared ∧
      w.receipts r.key = none ∧ r.relativePath ∉ w.files ∧
      ∃ rows, w.index = some rows ∧ r.expectedSnapshotId = env.snapshotId rows ∧
        rowForPath rows r.relativePath = none) :
    Ends (createPrepared env r prepared) (fun _ w' => Sound env w')
      (fun _ w' => Sound env w' ∧ ¬C) w := by
  have hrecovering : prepared.value.state = .publishing → ¬C := by
    intro hstate hc
    rw [(hC hc).1] at hstate
    cases hstate
  refine ends_bind (ends_requireSnapshot (fun _ => ?_) fun e hsnapshot => ⟨h, fun hc => ?_⟩)
  · refine ends_bind (ends_bind (ends_bind (ends_get (ends_ofOption (fun rows hrows => ?_)
      fun hnone => ⟨h, fun hc => ?_⟩))))
    · split
      next existing hexisting =>
        have hnot : ¬C := by
          intro hc
          obtain ⟨-, -, -, -, rows', hrows', -, hrow⟩ := hC hc
          obtain rfl := Option.some.inj (hrows.symm.trans hrows')
          rw [hexisting] at hrow
          cases hrow
        refine ends_bind (ends_require (fun _ => ends_pure ?_) fun _ => ⟨h, hnot⟩)
        exact ends_completeOperation h.identities h.unmoved (h.refreshable _)
          fun hc => absurd hc hnot
      next =>
        refine ends_bind (ends_get ?_)
        split
        next hrecovered =>
          have hnot := hrecovering (of_decide_eq_true hrecovered.1)
          refine ends_bind (ends_ensureDocument h hvisible hleft
            fun d w₁ hsound _ _ _ _ => ?_)
          refine ends_bind (ends_refresh hsound.identities hsound.unmoved (hsound.refreshable _)
            fun w₂ hindexed => ends_pure ?_)
          exact ends_completeOperation hindexed.sound.identities hindexed.sound.unmoved
            (hindexed.sound.refreshable _) fun hc => absurd hc hnot
        next =>
          refine ends_pure (ends_publishCreated h hvisible hleft hlength hopen fun hc => ?_)
          exact ⟨(hC hc).2.1, (hC hc).2.2.1, (hC hc).2.2.2.1⟩
    · obtain ⟨-, -, -, -, rows', hrows', -⟩ := hC hc
      rw [hnone] at hrows'
      cases hrows'
  · obtain ⟨-, -, -, -, rows', hrows', hexpected, -⟩ := hC hc
    exact hsnapshot ⟨hexpected ▸ env.snapshot_safe rows', rows', hrows', Or.inl hexpected⟩

def Unused (w : Workspace) (key : String) : Prop :=
  w.receipts key = none ∧ head w.operations key = none

structure Creatable (env : IdentityEnv) (w : Workspace) (r : CreateRequest) : Prop where
  editable : env.editable r.relativePath = true
  content : r.data.length ≤ env.maxFileBytes ∧ env.restricted r.relativePath r.data = false
  key : env.safeKey r.key = true
  unused : Unused w r.key
  snapshot : ∃ rows, w.index = some rows ∧ r.expectedSnapshotId = env.snapshotId rows
  absent : r.relativePath ∉ w.files

/-- Creating a document where none was moved away keeps the workspace sound, and a creatable one
is created unless the index still has a row at its path. -/
theorem ends_create (h : Sound env w) (hleft : ¬MovedAt w.identities r.relativePath) :
    Ends (create env r) (fun _ w' => Sound env w')
      (fun _ w' => Sound env w' ∧ ¬(Creatable env w r ∧
        ∀ rows, w.index = some rows → rowForPath rows r.relativePath = none)) w := by
  refine ends_bind (ends_ensureIndex h fun w₁ h₁ hgrows hsame₁ => ?_)
  have hleft₁ := hgrows.not_movedAt hleft
  have hsame : Creatable env w r → w₁ = w := fun hc => by
    obtain ⟨rows, hrows, -⟩ := hc.snapshot
    exact hsame₁ (by simp [hrows])
  refine ends_bind (ends_require (fun heditable => ?_) fun hno =>
    ⟨h₁, fun hc => hno hc.1.editable⟩)
  refine ends_bind (ends_require (fun hcontent => ?_) fun hno => ⟨h₁, fun hc => hno hc.1.content⟩)
  refine ends_bind (ends_require (fun _ => ?_) fun hno => ⟨h₁, fun hc => hno hc.1.key⟩)
  have hvisible := visible_of_editable heditable
  refine ends_bind (ends_idempotentReceipt (fun hreceipt => ?_) (fun receipt => ends_pure h₁)
    fun hne e => ⟨h₁, fun hc => hne (hsame hc.1 ▸ hc.1.unused.1)⟩)
  refine ends_bind (ends_prepareOperation (fun _ w₂ hprepared hhead => ?_)
    (fun prepared hsome => ?_) fun hne e => ⟨h₁, fun hc => hne (hsame hc.1 ▸ hc.1.unused.2)⟩)
  · have hleft₂ : ¬MovedAt w₂.identities r.relativePath := by rwa [hprepared.identities]
    refine ends_createPrepared (hprepared.sound h₁) hvisible hleft₂ hcontent.1 hcontent.2
      fun hc => ⟨rfl, hhead, by rw [hprepared.receipts]; exact hreceipt, ?_, ?_⟩
    · rw [hprepared.files, hsame hc.1]
      exact hc.1.absent
    · obtain ⟨rows, hrows, hexpected⟩ := hc.1.snapshot
      exact ⟨rows, by rw [hprepared.index, hsame hc.1]; exact hrows, hexpected, hc.2 rows hrows⟩
  · refine ends_createPrepared h₁ hvisible hleft₁ hcontent.1 hcontent.2 fun hc => ?_
    have hunused := hc.1.unused.2
    rw [← hsame hc.1, hsome] at hunused
    cases hunused
end

section
variable {r : MoveRequest} {prepared publishing : Stored OperationRecord} {C : Prop}

theorem moveIdentity_ok {t t' : Table Path IdentityRecord} {old new : Path} {d : DocumentId}
    (h : moveIdentity env t old new d = .ok t') :
    t' = t ∧ ActiveAt t new d ∨ ActiveAt t old d ∧ head t new = none := by
  unfold moveIdentity at h
  split at h
  · split at h
    next identity hidentity =>
      split at h
      next hsame =>
        cases h
        exact Or.inl ⟨rfl, hsame ▸ activeAt_of_identityForPath hidentity⟩
      next => cases h
    next =>
      split at h
      next => cases h
      next revision record hhead =>
        split at h
        next hactive =>
          split at h
          next hnone =>
            obtain ⟨state, payload⟩ := record
            obtain rfl : state = .active := hactive.1
            exact Or.inr ⟨⟨revision, payload, hhead, hactive.2⟩, hnone⟩
          next => cases h
        next => cases h
  · cases h

theorem moveIdentity_there {t : Table Path IdentityRecord} {old new : Path} {d : DocumentId}
    (h : SoundIdentities env t) (hvisible : env.visible old = true ∧ env.visible new = true)
    (hnew : ActiveAt t new d) : moveIdentity env t old new d = .ok t := by
  obtain ⟨firstSeen, hidentity⟩ := identityForPath_of_activeAt h hnew
  simp [moveIdentity, hvisible, hidentity]

theorem ends_followOrReturn (h : Sound env w)
    (hvisible : env.visible r.old = true ∧ env.visible r.new = true)
    (hleft : MovedAt w.identities r.old → ActiveAt w.identities r.new r.documentId)
    (habsent : r.old ∉ w.files)
    (hC : C → head w.operations r.key = some publishing ∧ w.receipts r.key = none ∧
      ActiveAt w.identities r.old r.documentId ∧ head w.identities r.new = none ∧
      ∃ data, w.files.lookup r.new = some data ∧ data.length ≤ env.maxFileBytes ∧
        env.restricted r.new data = false) :
    Ends (followOrReturn env r publishing) (fun _ w' => Sound env w')
      (fun _ w' => Sound env w' ∧ ¬C) w := by
  refine ends_bind (ends_toExcept (ends_attempt (fun _ w' hf => ?_) fun e hf => ?_))
  · obtain ⟨t', hmove, hw'⟩ : ∃ t', moveIdentity env w.identities r.old r.new r.documentId =
        .ok t' ∧ w' = {w with identities := t'} := by
      cases hmove : moveIdentity env w.identities r.old r.new r.documentId with
      | error fault =>
        rw [hmove] at hf
        cases hf
      | ok t' =>
        rw [hmove] at hf
        cases hf
        exact ⟨t', rfl, rfl⟩
    subst hw'
    rcases moveIdentity_ok hmove with ⟨rfl, hactive⟩ | ⟨hold, hnone⟩
    · refine ends_completeOperation h.identities h.unmoved (h.refreshable _) fun hc => ?_
      obtain ⟨hhead, hreceipt, -, -, data, hdata, hlength, hopen⟩ := hC hc
      exact ⟨hhead, hreceipt, r.new, data, rfl, hactive, hvisible.2, hdata, hlength, hopen⟩
    · obtain ⟨t'', hmove', hsound, hactive, -, hother⟩ :=
        moveIdentity_sound h.identities hold hnone hvisible.2
      obtain rfl : t'' = t' := Except.ok.inj (hmove'.symm.trans hmove)
      refine ends_completeOperation hsound ?_ ?_ fun hc => ?_
      · intro q hq hqv
        by_cases hqn : q = r.new
        · exact hqn ▸ not_movedAt_of_activeAt hactive
        · have hqo : q ≠ r.old := fun he => habsent (he ▸ hq)
          rintro ⟨revision, payload, hhead⟩
          exact h.unmoved q hq hqv ⟨revision, payload, (hother q hqo hqn).symm.trans hhead⟩
      · intro rows hrows row hrow
        obtain ⟨revision, payload, hhead, hid⟩ := h.rows rows hrows row hrow
        by_cases hqo : row.relativePath = r.old
        · exact Or.inr ⟨hqo ▸ habsent, congrArg some hqo.symm⟩
        · have hqn : row.relativePath ≠ r.new := by
            intro he
            rw [he, hnone] at hhead
            cases hhead
          exact Or.inl ⟨revision, payload, (hother _ hqo hqn).trans hhead, hid⟩
      · obtain ⟨hhead, hreceipt, -, -, data, hdata, hlength, hopen⟩ := hC hc
        exact ⟨hhead, hreceipt, r.new, data, rfl, hactive, hvisible.2, hdata, hlength, hopen⟩
  · have hfailed : ∀ t', moveIdentity env w.identities r.old r.new r.documentId ≠ .ok t' := by
      intro t' hmove
      rw [hmove] at hf
      cases hf
    have hstays : ¬MovedAt w.identities r.old := fun hmoved =>
      hfailed _ (moveIdentity_there h.identities hvisible (hleft hmoved))
    have hnot : ¬C := by
      intro hc
      obtain ⟨-, -, hactive, hnone, -⟩ := hC hc
      obtain ⟨t', hmove, -⟩ := moveIdentity_sound h.identities hactive hnone hvisible.2
      exact hfailed t' hmove
    refine ends_bind (ends_toExcept (ends_attempt (fun _ w' hback => ?_) fun _ _ => ?_))
    · have hsound : Sound env w' := by
        repeat' split at hback
        all_goals cases hback
        exact (h.erase r.new).insert hstays _
      exact ends_fail ⟨hsound, hnot⟩
    · exact ends_fail ⟨h, hnot⟩

structure Movable (env : IdentityEnv) (w : Workspace) (r : MoveRequest) : Prop where
  editable : env.editable r.old = true ∧ env.editable r.new = true
  changed : r.old ≠ r.new
  key : env.safeKey r.key = true
  snapshot : env.safeSnapshot r.expectedSnapshotId = true ∧ w.index ≠ none
  file : ∃ data, w.files.lookup r.old = some data ∧ data.length ≤ env.maxFileBytes ∧
    env.sha256Hex data = r.expectedSha256 ∧ env.restricted r.old data = false ∧
    env.restricted r.new data = false
  free : r.new ∉ w.files ∧ identityForPath env w.identities r.new = none

def Unleft (w : Workspace) (r : MoveRequest) : Prop :=
  ¬MovedAt w.identities r.new ∧
    (MovedAt w.identities r.old → ActiveAt w.identities r.new r.documentId)

theorem ends_publishMove (data : Bytes) {published : Bool} (h : Sound env w)
    (hchanged : r.old ≠ r.new) (hleft : ¬MovedAt w.identities r.new)
    (hpublished : published = true → r.old ∉ w.files)
    (hC : C → published = false ∧ w.files.lookup r.old = some data ∧
      data.length ≤ env.maxFileBytes ∧ env.sha256Hex data = r.expectedSha256 ∧ r.new ∉ w.files)
    {Q : Unit → Workspace → Prop}
    (hQ : ∀ w', Sound env w' → w'.identities = w.identities → w'.operations = w.operations →
      w'.receipts = w.receipts → r.old ∉ w'.files → (C → w'.files.lookup r.new = some data) →
      Q () w') : Ends (publishMove env r published) Q (fun _ w' => Sound env w' ∧ ¬C) w := by
  unfold publishMove
  split
  next hpub =>
    refine ends_pure (hQ w h rfl rfl rfl (hpublished hpub) fun hc => ?_)
    rw [(hC hc).1] at hpub
    cases hpub
  next =>
    refine ends_attempt (fun _ w' hf => ?_) fun e hf => ⟨h, fun hc => ?_⟩
    · split at hf
      next => cases hf
      next data' hdata' =>
        repeat' split at hf
        all_goals cases hf
        refine hQ _ ((h.erase r.old).insert hleft data') rfl rfl rfl ?_ fun hc => ?_
        · intro hmem
          rcases (AList.mem_insert _).mp hmem with he | hmem
          · exact hchanged he
          · exact (AList.mem_erase.mp hmem).1 rfl
        · obtain ⟨-, hdata, -⟩ := hC hc
          obtain rfl : data' = data := Option.some.inj (hdata'.symm.trans hdata)
          exact AList.lookup_insert _
    · obtain ⟨-, hdata, hlength, hsha, hfree⟩ := hC hc
      simp [hdata, hlength, hsha, hfree] at hf

theorem ends_movePrepared (h : Sound env w)
    (hvisible : env.visible r.old = true ∧ env.visible r.new = true) (hchanged : r.old ≠ r.new)
    (hleft : Unleft w r)
    (hC : C → prepared.value.state = .prepared ∧ head w.operations r.key = some prepared ∧
      w.receipts r.key = none ∧ ActiveAt w.identities r.old r.documentId ∧ Movable env w r) :
    Ends (movePrepared env r prepared) (fun _ w' => Sound env w')
      (fun _ w' => Sound env w' ∧ ¬C) w := by
  refine ends_bind (ends_requireSnapshot (fun _ => ?_) fun e hsnapshot => ⟨h, fun hc => ?_⟩)
  · refine ends_bind (ends_attempt (fun found w' hf => ?_) fun e hf => ⟨h, fun hc => ?_⟩)
    · have hread : w' = w ∧ (found.2 = true → r.old ∉ w.files) ∧ (C → found.2 = false ∧
          w.files.lookup r.old = some found.1) := by
        split at hf
        next hrecovering hold _ =>
          cases hf
          refine ⟨rfl, fun _ => AList.lookup_eq_none.mp hold, fun hc => ?_⟩
          simp [(hC hc).1] at hrecovering
        next hrecovering hold _ =>
          cases hf
          exact ⟨rfl, (fun hpub => by cases hpub), fun _ => ⟨rfl, hold⟩⟩
        next => cases hf
        next hrecovering hold =>
          split at hf
          · cases hf
            exact ⟨rfl, (fun hpub => by cases hpub), fun _ => ⟨rfl, hold⟩⟩
          · cases hf
        next => cases hf
      obtain ⟨rfl, hpublished, hfound⟩ := hread
      have hdata : C → found.1.length ≤ env.maxFileBytes ∧
          env.sha256Hex found.1 = r.expectedSha256 ∧ env.restricted r.old found.1 = false ∧
          env.restricted r.new found.1 = false := by
        intro hc
        obtain ⟨data, hdata, hrest⟩ := (hC hc).2.2.2.2.file
        obtain rfl : found.1 = data := Option.some.inj ((hfound hc).2.symm.trans hdata)
        exact hrest
      have hmove : ∀ w₁ publishing, SameDocuments w' w₁ →
          (C → head w₁.operations r.key = some publishing) →
          Ends (publishMove env r found.2 >>= fun _ => followOrReturn env r publishing)
            (fun _ w' => Sound env w') (fun _ w' => Sound env w' ∧ ¬C) w₁ := by
        intro w₁ publishing hsame hhead
        refine ends_bind (ends_publishMove (C := C) found.1 (hsame.sound h) hchanged
          (by rw [hsame.identities]; exact hleft.1) (by rw [hsame.files]; exact hpublished)
          (fun hc => ?_) fun w₂ hsound hidentities hoperations hreceipts habsent hlookup => ?_)
        · rw [hsame.files]
          exact ⟨(hfound hc).1, (hfound hc).2, (hdata hc).1, (hdata hc).2.1,
            (hC hc).2.2.2.2.free.1⟩
        · refine ends_followOrReturn hsound hvisible ?_ habsent fun hc => ?_
          · rw [hidentities, hsame.identities]
            exact hleft.2
          · have hmovable := (hC hc).2.2.2.2
            refine ⟨by rw [hoperations]; exact hhead hc, ?_, ?_, ?_, found.1, hlookup hc,
              (hdata hc).1, (hdata hc).2.2.2⟩
            · rw [hreceipts, hsame.receipts]
              exact (hC hc).2.2.1
            · rw [hidentities, hsame.identities]
              exact (hC hc).2.2.2.1
            · rw [hidentities, hsame.identities]
              exact (movedAt_or_none h.identities hmovable.free.2).resolve_left hleft.1
      refine ends_bind (ends_require (fun _ => ?_) fun hno => ⟨h, fun hc => hno (hdata hc).2.2.1⟩)
      refine ends_bind (ends_require (fun _ => ?_) fun hno => ⟨h, fun hc => hno (hdata hc).2.1⟩)
      exact ends_bind (ends_publishOperation (hmove w' prepared ⟨rfl, rfl, rfl, rfl⟩
        fun hc => (hC hc).2.1) (fun w₁ publishing hsame hhead => hmove w₁ publishing hsame
          fun _ => hhead) fun hne e => ⟨h, fun hc => hne (hC hc).2.1⟩)
    · obtain ⟨data, hfile, hlength, -⟩ := (hC hc).2.2.2.2.file
      have hstate : decide (prepared.value.state = .publishing) = false := by simp [(hC hc).1]
      simp [hstate, hfile, hlength] at hf
  · obtain ⟨hsafe, hindex⟩ := (hC hc).2.2.2.2.snapshot
    obtain ⟨rows, hrows⟩ := Option.ne_none_iff_exists'.mp hindex
    exact hsnapshot ⟨hsafe, rows, hrows, Or.inr rfl⟩

/-- Moving a document between paths that others were not moved away from keeps the workspace
sound, and a movable one is moved. -/
theorem ends_moveDocument (h : Sound env w) (hleft : Unleft w r) :
    Ends (moveDocument env r) (fun _ w' => Sound env w')
      (fun _ w' => Sound env w' ∧ ¬(Movable env w r ∧ Unused w r.key ∧
        ActiveAt w.identities r.old r.documentId)) w := by
  refine ends_bind (ends_ensureIndex h fun w₁ h₁ hgrows hsame₁ => ?_)
  have hleft₁ : Unleft w₁ r := by
    refine ⟨hgrows.not_movedAt hleft.1, fun hmoved => ?_⟩
    have hbefore : MovedAt w.identities r.old := by
      by_contra hnot
      exact hgrows.not_movedAt hnot hmoved
    exact hgrows.activeAt (hleft.2 hbefore)
  have hsame : Movable env w r → w₁ = w := fun hc => hsame₁ hc.snapshot.2
  refine ends_bind (ends_require (fun heditable => ?_) fun hno =>
    ⟨h₁, fun hc => hno hc.1.editable⟩)
  refine ends_bind (ends_require (fun hchanged => ?_) fun hno => ⟨h₁, fun hc => hno hc.1.changed⟩)
  refine ends_bind (ends_require (fun _ => ?_) fun hno => ⟨h₁, fun hc => hno hc.1.key⟩)
  have hvisible := And.intro (visible_of_editable heditable.1) (visible_of_editable heditable.2)
  refine ends_bind (ends_idempotentReceipt (fun hreceipt => ?_) (fun receipt => ends_pure h₁)
    fun hne e => ⟨h₁, fun hc => hne (hsame hc.1 ▸ hc.2.1.1)⟩)
  refine ends_bind (ends_prepareOperation (fun _ w₂ hprepared hhead => ?_)
    (fun prepared hsome => ?_) fun hne e => ⟨h₁, fun hc => hne (hsame hc.1 ▸ hc.2.1.2)⟩)
  · have hleft₂ : Unleft w₂ r := by
      unfold Unleft
      rw [hprepared.identities]
      exact hleft₁
    refine ends_movePrepared (hprepared.sound h₁) hvisible hchanged hleft₂ fun hc =>
      ⟨rfl, hhead, by rw [hprepared.receipts]; exact hreceipt, ?_, ?_⟩
    · rw [hprepared.identities, hsame hc.1]
      exact hc.2.2
    · obtain ⟨hed, hch, hkey, hsnapshot, hfile, hfree⟩ := hc.1
      refine ⟨hed, hch, hkey, ⟨hsnapshot.1, ?_⟩, ?_, ?_⟩
      · rw [hprepared.index, hsame hc.1]
        exact hsnapshot.2
      · rw [hprepared.files, hsame hc.1]
        exact hfile
      · rw [hprepared.files, hprepared.identities, hsame hc.1]
        exact hfree
  · refine ends_movePrepared h₁ hvisible hchanged hleft₁ fun hc => ?_
    have hunused := hc.2.1.2
    rw [← hsame hc.1, hsome] at hunused
    cases hunused

def Concerns (w : Workspace) (documentId : DocumentId) (destination : Path → Path) (key : String)
    (old new : Path) : Prop :=
  (∃ stored, head w.operations key = some stored ∧ stored.value.request.oldPath = some old ∧
    stored.value.request.newPath = new) ∨
  ∃ rows row, w.index = some rows ∧ row ∈ rows ∧ row.documentId = documentId ∧
    old = row.relativePath ∧ new = destination old

def Relocatable (env : IdentityEnv) (w : Workspace) (operation : Operation)
    (documentId : DocumentId) (destination : Path → Path)
    (expectedSha256 expectedSnapshotId key : String) : Prop :=
  Unused w key ∧ ∃ rows row, w.index = some rows ∧
    rows.find? (fun row => row.documentId = documentId) = some row ∧
    Movable env w ⟨operation, documentId, row.relativePath, destination row.relativePath,
      expectedSha256, expectedSnapshotId, key⟩

theorem ends_relocate {operation : Operation} {documentId : DocumentId} {destination : Path → Path}
    {binds : Path → Path → Bool} {expectedSha256 expectedSnapshotId key : String} (h : Sound env w)
    (hleft : ∀ old new, Concerns w documentId destination key old new →
      Unleft w ⟨operation, documentId, old, new, expectedSha256, expectedSnapshotId, key⟩) :
    Ends (relocate env operation documentId destination binds expectedSha256 expectedSnapshotId key)
      (fun _ w' => Sound env w') (fun _ w' => Sound env w' ∧ ¬Relocatable env w operation
        documentId destination expectedSha256 expectedSnapshotId key) w := by
  refine ends_bind (ends_bind (ends_require (fun _ => ?_) fun hno => ⟨h, fun hc => ?_⟩))
  · refine ends_attempt (fun resumed w' hf => ?_) fun e hf => ⟨h, fun hc => ?_⟩
    · have hresumed : w' = w ∧ (resumed = none ∨ (head w.operations key ≠ none ∧ resumed ≠ none ∧
          ∀ request, resumed = some (.inr request) → ∃ stored, head w.operations key =
            some stored ∧ stored.value.request = request)) := by
        split at hf
        next =>
          cases hf
          exact ⟨rfl, Or.inl rfl⟩
        next revision record hhead =>
          have hne : head w.operations key ≠ none := by simp [hhead]
          repeat' split at hf
          all_goals cases hf
          · exact ⟨rfl, Or.inl rfl⟩
          · exact ⟨rfl, Or.inr ⟨hne, (by simp), fun request he => by cases he⟩⟩
          · refine ⟨rfl, Or.inr ⟨hne, (by simp), fun request he => ?_⟩⟩
            cases he
            exact ⟨_, hhead, rfl⟩
      obtain ⟨rfl, hnone | ⟨hne, hsome, hrequest⟩⟩ := hresumed
      · subst hnone
        refine ends_bind (ends_bind (ends_bind (ends_get (ends_ofOption (fun rows hrows => ?_)
          fun hno => ⟨h, fun hc => ?_⟩))))
        · refine ends_ofOption (fun row hrow => ?_) fun hno => ⟨h, fun hc => ?_⟩
          · have hid : row.documentId = documentId := by simpa using List.find?_some hrow
            have hmem := List.mem_of_find?_eq_some hrow
            have hactive : ActiveAt w'.identities row.relativePath documentId :=
              hid ▸ h.rows rows hrows row hmem
            refine ends_mono (ends_moveDocument h (hleft _ _ (Or.inr
              ⟨rows, row, hrows, hmem, hid, rfl, rfl⟩))) (fun _ _ hsound => hsound) ?_
            rintro e w'' ⟨hsound, hnot⟩
            refine ⟨hsound, fun hc => hnot ?_⟩
            obtain ⟨hunused, rows', row', hrows', hrow', hmovable⟩ := hc
            obtain rfl := Option.some.inj (hrows.symm.trans hrows')
            obtain rfl := Option.some.inj (hrow.symm.trans hrow')
            exact ⟨hmovable, hunused, hactive⟩
          · obtain ⟨-, rows', row', hrows', hrow', -⟩ := hc
            obtain rfl := Option.some.inj (hrows.symm.trans hrows')
            rw [hno] at hrow'
            cases hrow'
        · obtain ⟨-, rows', row', hrows', -⟩ := hc
          rw [hno] at hrows'
          cases hrows'
      · have hnot : ¬Relocatable env w' operation documentId destination expectedSha256
            expectedSnapshotId key := fun hc => hne hc.1.2
        split
        next receipt => exact ends_pure h
        next request =>
          refine ends_bind (ends_ofOption (fun old hold => ?_) fun _ => ⟨h, hnot⟩)
          refine ends_bind (ends_require (fun _ => ?_) fun _ => ⟨h, hnot⟩)
          obtain ⟨stored, hstored, hrequest⟩ := hrequest request rfl
          refine ends_mono (ends_moveDocument h (hleft _ _ (Or.inl ⟨stored, hstored, ?_, ?_⟩)))
            (fun _ _ hsound => hsound) fun e w'' hx => ⟨hx.1, hnot⟩
          · rw [hrequest]
            exact hold
          · rw [hrequest]
        next => exact absurd rfl hsome
    · rw [hc.1.2] at hf
      cases hf
  · obtain ⟨-, rows, row, -, -, hmovable⟩ := hc
    exact hno hmovable.key
end

end RaytSystem.Identity
