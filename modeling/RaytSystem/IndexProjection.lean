import RaytSystem.IdentityInvariant

/-! The index takes its identities from the records and never contradicts them. -/
namespace RaytSystem.Identity
open RecordTable List

variable {env : IdentityEnv}

section
variable {t : Table Path IdentityRecord} {files : AList fun _ : Path => Bytes}

def Unmoved (env : IdentityEnv) (files : AList fun _ : Path => Bytes)
    (t : Table Path IdentityRecord) : Prop :=
  ∀ p ∈ files, env.visible p = true → ¬MovedAt t p

def scannedId (env : IdentityEnv) (t : Table Path IdentityRecord) (p : Path) : DocumentId :=
  ((identityForPath env t p).map Prod.fst).getD (env.derived p)

variable {p : Path}

theorem scannedId_cases (h : SoundIdentities env t) (hp : ¬MovedAt t p) :
    ActiveAt t p (scannedId env t p) ∨
      head t p = none ∧ identityForPath env t p = none ∧ scannedId env t p = env.derived p := by
  unfold scannedId
  cases hidentity : identityForPath env t p with
  | some existing => exact Or.inl (activeAt_of_identityForPath hidentity)
  | none => exact Or.inr ⟨(movedAt_or_none h hidentity).resolve_left hp, rfl, rfl⟩

theorem not_activeAt_derived (h : SoundIdentities env t) {p q : Path} {r : String}
    (hp : head t p = none) : ¬ActiveAt t q (env.deriveDocument r p) := by
  rintro ⟨revision, payload, hhead, hd⟩
  obtain ⟨r', o, horigin, ho⟩ := h.origin q _ hhead
  exact ho (env.derive_path r r' p o (hd.symm.trans horigin) ▸ hp)

theorem scannedId_inj (h : SoundIdentities env t) {p q : Path} (hp : ¬MovedAt t p)
    (hq : ¬MovedAt t q) (hpq : scannedId env t p = scannedId env t q) : p = q := by
  rcases scannedId_cases h hp with hp | ⟨hpnone, -, hpid⟩
  · rcases scannedId_cases h hq with hq | ⟨hqnone, -, hqid⟩
    · exact h.distinct p q _ hp (hpq ▸ hq)
    · rw [hpq, hqid] at hp
      exact absurd hp (not_activeAt_derived h hqnone)
  · rcases scannedId_cases h hq with hq | ⟨hqnone, -, hqid⟩
    · rw [← hpq, hpid] at hq
      exact absurd hq (not_activeAt_derived h hpnone)
    · rw [hpid, hqid] at hpq
      exact env.derive_path _ _ _ _ hpq

structure RowOf (env : IdentityEnv) (files : AList fun _ : Path => Bytes) (row : DocumentRow) :
    Prop where
  visible : env.visible row.relativePath = true
  file : ∃ data, files.lookup row.relativePath = some data ∧ data.length ≤ env.maxFileBytes ∧
    row.contentSha256 = env.sha256Hex data ∧
    row.restricted = env.restricted row.relativePath data

def FreshAt (env : IdentityEnv) (files : AList fun _ : Path => Bytes) (rows : List DocumentRow)
    (p : Path) : Prop :=
  ∀ data, env.visible p = true → files.lookup p = some data → data.length ≤ env.maxFileBytes →
    (∃ row ∈ rows, row.relativePath = p) ∧
    ∀ row ∈ rows, row.relativePath = p → row.contentSha256 = env.sha256Hex data ∧
      row.restricted = env.restricted p data

variable {documentId : Option DocumentId}

theorem scanFile_eq_some {firstSeen : Time} {item : DocumentRow}
    (h : scanFile env files p firstSeen documentId = some item) :
    RowOf env files item ∧ item.relativePath = p ∧ item.firstSeenAt = firstSeen ∧
      item.documentId = documentId.getD (env.derived p) := by
  unfold scanFile at h
  split at h
  next hvisible =>
    split at h
    next data hdata =>
      split at h
      next hlength =>
        obtain rfl := Option.some.inj h
        exact ⟨⟨hvisible, data, hdata, hlength, rfl, rfl⟩, rfl, rfl, rfl⟩
      next => cases h
    next => cases h
  next => cases h

theorem scanFile_eq_none {firstSeen : Time} (h : scanFile env files p firstSeen documentId = none)
    (data : Bytes) (hvisible : env.visible p = true) (hdata : files.lookup p = some data) :
    ¬data.length ≤ env.maxFileBytes := by
  unfold scanFile at h
  rw [if_pos hvisible, hdata] at h
  intro hlength
  simp [hlength] at h

theorem freshAt_of_rowOf {rows : List DocumentRow}
    (hrows : ∀ row ∈ rows, row.relativePath = p → RowOf env files row)
    (hshown : ∀ data, env.visible p = true → files.lookup p = some data →
      data.length ≤ env.maxFileBytes → ∃ row ∈ rows, row.relativePath = p) :
    FreshAt env files rows p := by
  intro data hvisible hdata hlength
  refine ⟨hshown data hvisible hdata hlength, fun row hrow hp => ?_⟩
  obtain ⟨data', hdata', -, hsha, hrestricted⟩ := (hrows row hrow hp).file
  rw [hp] at hdata' hrestricted
  obtain rfl : data' = data := Option.some.inj (hdata'.symm.trans hdata)
  exact ⟨hsha, hrestricted⟩

theorem RowOf.mem {row : DocumentRow} (h : RowOf env files row) : row.relativePath ∈ files := by
  obtain ⟨data, hdata, -⟩ := h.file
  exact AList.lookup_isSome.mp (by rw [hdata]; rfl)

theorem scanStream_sound (h : SoundIdentities env t) (hunmoved : Unmoved env files t)
    (previous : Path → Option Time) (now : Time) (paths : List Path) :
    ∀ rows : List DocumentRow, paths.Nodup →
      (∀ row ∈ rows, RowOf env files row ∧ row.documentId = scannedId env t row.relativePath ∧
        row.relativePath ∉ paths) →
      ∃ rows', scanStream env files (identityForPath env t) previous now paths rows = .ok rows' ∧
        (∀ row ∈ rows, row ∈ rows') ∧
        (∀ row ∈ rows', RowOf env files row ∧
          row.documentId = scannedId env t row.relativePath) ∧
        ∀ p ∈ paths, ∀ data, env.visible p = true → files.lookup p = some data →
          data.length ≤ env.maxFileBytes → ∃ row ∈ rows', row.relativePath = p := by
  induction paths with
  | nil => exact fun rows _ hrows => ⟨rows, rfl, fun _ hr => hr,
      fun row hr => ⟨(hrows row hr).1, (hrows row hr).2.1⟩, fun p hp => by cases hp⟩
  | cons p paths ih =>
    intro rows hnodup hrows
    obtain ⟨hnot, hnodup⟩ := nodup_cons.mp hnodup
    have hkept : ∀ row ∈ rows, RowOf env files row ∧
        row.documentId = scannedId env t row.relativePath ∧ row.relativePath ∉ paths :=
      fun row hr => ⟨(hrows row hr).1, (hrows row hr).2.1,
        fun hmem => (hrows row hr).2.2 (mem_cons_of_mem p hmem)⟩
    rw [scanStream]
    split
    next hnone =>
      obtain ⟨rows', hscan, hold, hall, hshown⟩ := ih rows hnodup hkept
      refine ⟨rows', hscan, hold, hall, fun q hq data hvisible hdata hlength => ?_⟩
      rcases mem_cons.mp hq with rfl | hq
      · exact absurd hlength (scanFile_eq_none hnone data hvisible hdata)
      · exact hshown q hq data hvisible hdata hlength
    next item hitem =>
      obtain ⟨hrow, hpath, -, hid⟩ := scanFile_eq_some hitem
      have hid' : item.documentId = scannedId env t item.relativePath := by rw [hid, hpath]; rfl
      have hunmovedItem : ¬MovedAt t item.relativePath :=
        hunmoved _ hrow.mem hrow.visible
      have hnew : (rows.any fun row => row.documentId = item.documentId ||
          row.relativePath = item.relativePath) = false := by
        rw [any_eq_false]
        intro row hr hsame
        obtain ⟨hrowOf, hrowId, hrowPath⟩ := hrows row hr
        have hpathSame : row.relativePath = item.relativePath := by
          rcases (by simpa using hsame : row.documentId = item.documentId ∨
            row.relativePath = item.relativePath) with hsame | hsame
          · apply scannedId_inj h (hunmoved _ hrowOf.mem hrowOf.visible) hunmovedItem
            rw [← hrowId, hsame, hid']
          · exact hsame
        exact hrowPath (hpathSame ▸ hpath ▸ mem_cons_self)
      have hinsert : insertDocument rows item = .ok (rows ++ [item]) := by
        simp [insertDocument, hnew]
      rw [hinsert]
      have hrows' : ∀ row ∈ rows ++ [item], RowOf env files row ∧
          row.documentId = scannedId env t row.relativePath ∧ row.relativePath ∉ paths := by
        intro row hr
        rcases mem_append.mp hr with hr | hr
        · exact hkept row hr
        · obtain rfl := mem_singleton.mp hr
          exact ⟨hrow, hid', hpath ▸ hnot⟩
      obtain ⟨rows', hscan, hold, hall, hshown⟩ := ih (rows ++ [item]) hnodup hrows'
      refine ⟨rows', hscan, fun row hr => hold row (mem_append_left _ hr), hall,
        fun q hq data hvisible hdata hlength => ?_⟩
      rcases mem_cons.mp hq with rfl | hq
      · exact ⟨item, hold item (mem_append_right _ (mem_singleton.mpr rfl)), hpath⟩
      · exact hshown q hq data hvisible hdata hlength
end

theorem persistIdentities_sound (missing : List DocumentRow) :
    ∀ t : Table Path IdentityRecord, SoundIdentities env t →
      (∀ item ∈ missing, env.visible item.relativePath = true ∧
        item.documentId = env.derived item.relativePath ∧
        (head t item.relativePath = none ∨ ActiveAt t item.relativePath item.documentId)) →
      ∃ t', persistIdentities missing t = .ok t' ∧ SoundIdentities env t' ∧ Grows t t' ∧
        ∀ item ∈ missing, ActiveAt t' item.relativePath item.documentId := by
  induction missing with
  | nil => exact fun t h _ => ⟨t, rfl, h, grows_refl t, fun item hi => by cases hi⟩
  | cons item missing ih =>
    intro t h hmissing
    obtain ⟨⟨hvisible, hid, hitem⟩, hmissing⟩ := forall_mem_cons.mp hmissing
    rcases hitem with hnone | hactive
    · let payload : IdentityPayload :=
        { documentId := item.documentId, relativePath := item.relativePath,
          firstSeenAt := item.firstSeenAt }
      have hgrows := grows_push hnone payload
      have hpushed : ActiveAt (push t item.relativePath ⟨.active, payload⟩) item.relativePath
          item.documentId := activeAt_push.mpr (Or.inl ⟨rfl, rfl⟩)
      have hmissing' : ∀ item' ∈ missing, env.visible item'.relativePath = true ∧
          item'.documentId = env.derived item'.relativePath ∧
          (head (push t item.relativePath ⟨.active, payload⟩) item'.relativePath = none ∨
            ActiveAt (push t item.relativePath ⟨.active, payload⟩) item'.relativePath
              item'.documentId) := by
        intro item' hi'
        obtain ⟨hvisible', hid', hitem'⟩ := hmissing item' hi'
        refine ⟨hvisible', hid', ?_⟩
        by_cases hsame : item'.relativePath = item.relativePath
        · refine Or.inr ?_
          rw [hid', hsame, ← hid]
          exact hpushed
        · rw [head_push_other t _ hsame]
          exact hitem'.imp_right hgrows.activeAt
      obtain ⟨t', hpersist, hsound, hgrows', hall⟩ :=
        ih _ (sound_push h hnone hvisible payload hid) hmissing'
      refine ⟨t', ?_, hsound, hgrows.trans hgrows', ?_⟩
      · rw [persistIdentities, hnone]
        exact hpersist
      · exact forall_mem_cons.mpr ⟨hgrows'.activeAt hpushed, hall⟩
    · obtain ⟨t', hpersist, hsound, hgrows, hall⟩ := ih t h hmissing
      obtain ⟨revision, payload, hhead, hd⟩ := hactive
      refine ⟨t', ?_, hsound, hgrows, ?_⟩
      · rw [persistIdentities, hhead]
        simp only [hd, and_self, if_true]
        exact hpersist
      · exact forall_mem_cons.mpr
          ⟨hgrows.activeAt ⟨revision, payload, hhead, hd⟩, hall⟩

structure Sound (env : IdentityEnv) (w : Workspace) : Prop where
  identities : SoundIdentities env w.identities
  unmoved : Unmoved env w.files w.identities
  rows : ∀ rows, w.index = some rows → ∀ row ∈ rows,
    ActiveAt w.identities row.relativePath row.documentId

structure Indexed (env : IdentityEnv) (fresh : Path → Prop) (w w' : Workspace) : Prop where
  sound : Sound env w'
  files : w'.files = w.files
  operations : w'.operations = w.operations
  receipts : w'.receipts = w.receipts
  grows : Grows w.identities w'.identities
  shown : ∃ rows, w'.index = some rows ∧ ∀ p, fresh p → FreshAt env w.files rows p

theorem Indexed.mono {fresh fresh' : Path → Prop} {w w' : Workspace} (h : Indexed env fresh w w')
    (hfresh : ∀ p, fresh' p → fresh p) : Indexed env fresh' w w' := by
  obtain ⟨rows, hrows, hshown⟩ := h.shown
  exact ⟨h.sound, h.files, h.operations, h.receipts, h.grows, rows, hrows,
    fun p hp => hshown p (hfresh p hp)⟩

theorem rebuild_indexed {w : Workspace} (h : SoundIdentities env w.identities)
    (hunmoved : Unmoved env w.files w.identities) (now : Time) :
    ∃ w', rebuild env now w = .ok w' ∧ Indexed env (fun _ => True) w w' := by
  obtain ⟨rows, hscan, -, hrows, hshown⟩ := scanStream_sound h hunmoved
    (fun path => (rowForPath (w.index.getD []) path).map DocumentRow.firstSeenAt) now w.files.keys
    [] w.files.keys_nodup (fun row hr => by cases hr)
  have hmissing : ∀ item ∈ rows.filter fun row =>
        (identityForPath env w.identities row.relativePath).isNone,
      env.visible item.relativePath = true ∧ item.documentId = env.derived item.relativePath ∧
        (head w.identities item.relativePath = none ∨
          ActiveAt w.identities item.relativePath item.documentId) := by
    intro item hitem
    obtain ⟨hmem, hnone⟩ := mem_filter.mp hitem
    obtain ⟨hrow, hid⟩ := hrows item hmem
    rcases scannedId_cases h (hunmoved _ hrow.mem hrow.visible) with hactive | ⟨hhead, -, hderived⟩
    · obtain ⟨firstSeen, hsome⟩ := identityForPath_of_activeAt h hactive
      simp [hsome] at hnone
    · exact ⟨hrow.visible, hid.trans hderived, Or.inl hhead⟩
  obtain ⟨t', hpersist, hsound, hgrows, hall⟩ := persistIdentities_sound _ _ h hmissing
  refine ⟨{w with identities := t', index := some rows}, ?_, ?_⟩
  · simp only [rebuild, hscan, hpersist]
  · refine ⟨⟨hsound, fun p hp hvisible => hgrows.not_movedAt (hunmoved p hp hvisible), ?_⟩, rfl,
      rfl, rfl, hgrows, rows, rfl, fun p _ => ?_⟩
    · intro rows' hrows' row hrow
      obtain rfl := Option.some.inj hrows'
      obtain ⟨hrowOf, hid⟩ := hrows row hrow
      rcases scannedId_cases h (hunmoved _ hrowOf.mem hrowOf.visible) with
        hactive | ⟨hhead, hnone, -⟩
      · rw [hid]
        exact hgrows.activeAt hactive
      · exact hall row (mem_filter.mpr ⟨hrow, by simp [hnone]⟩)
    · apply freshAt_of_rowOf fun row hrow _ => (hrows row hrow).1
      intro data hvisible hdata hlength
      have hmem : p ∈ w.files.keys := AList.mem_keys.mp
        (AList.lookup_isSome.mp (by rw [hdata]; rfl))
      exact hshown p hmem data hvisible hdata hlength

section
variable {files : AList fun _ : Path => Bytes}

structure Refreshing (env : IdentityEnv) (files : AList fun _ : Path => Bytes) (paths : List Path)
    (s : RefreshState) : Prop where
  identities : SoundIdentities env s.identities
  unmoved : Unmoved env files s.identities
  known : s.known = identityForPath env s.identities
  rows : ∀ row ∈ s.rows, ActiveAt s.identities row.relativePath row.documentId ∨
    row.relativePath ∉ files ∧ paths.head? = some row.relativePath

theorem rowForPath_mem {rows : List DocumentRow} {p : Path} {row : DocumentRow}
    (h : rowForPath rows p = some row) : row ∈ rows ∧ row.relativePath = p := by
  have hpath := find?_some h
  exact ⟨mem_of_find?_eq_some h, by simpa using hpath⟩

variable {paths : List Path}

theorem refreshed_identity {s : RefreshState} {p : Path} (h : Refreshing env files (p :: paths) s)
    (hfile : p ∈ files) :
    (s.known p).or ((rowForPath s.rows p).map fun row => (row.documentId, row.firstSeenAt)) =
      identityForPath env s.identities p := by
  rw [h.known]
  cases hidentity : identityForPath env s.identities p with
  | some existing => rfl
  | none =>
    have hrow : rowForPath s.rows p = none := by
      rw [Option.eq_none_iff_forall_ne_some]
      intro row hrow
      obtain ⟨hmem, hpath⟩ := rowForPath_mem hrow
      rcases h.rows row hmem with hactive | ⟨habsent, -⟩
      · obtain ⟨firstSeen, hsome⟩ := identityForPath_of_activeAt h.identities (hpath ▸ hactive)
        rw [hsome] at hidentity
        cases hidentity
      · exact habsent (hpath ▸ hfile)
    rw [hrow]
    rfl

theorem refreshPath_sound {s : RefreshState} {p : Path} (h : Refreshing env files (p :: paths) s)
    (now : Time) :
    ∃ s', refreshPath env files now s p = (.ok (), s') ∧ Refreshing env files paths s' ∧
      Grows s.identities s'.identities ∧ FreshAt env files s'.rows p := by
  have hkept : ∀ row ∈ s.rows.filter fun row => row.relativePath ≠ p,
      ActiveAt s.identities row.relativePath row.documentId := by
    intro row hrow
    obtain ⟨hmem, hne⟩ := mem_filter.mp hrow
    refine (h.rows row hmem).resolve_right fun hstale => ?_
    exact of_decide_eq_true hne (Option.some.inj hstale.2).symm
  rw [refreshPath]
  dsimp only
  split
  next hnone =>
    refine ⟨_, rfl, ⟨h.identities, h.unmoved, h.known, fun row hrow => Or.inl (hkept row hrow)⟩,
      grows_refl _, ?_⟩
    intro data hvisible hdata hlength
    exact absurd hlength (scanFile_eq_none hnone data hvisible hdata)
  next item hitem =>
    obtain ⟨hrow, hpath, hseen, hid⟩ := scanFile_eq_some hitem
    have hfile : p ∈ files := hpath ▸ hrow.mem
    have hvisible : env.visible p = true := hpath ▸ hrow.visible
    have hmoved : ¬MovedAt s.identities p := h.unmoved p hfile hvisible
    rw [refreshed_identity h hfile] at hid hseen
    have hitemId : item.documentId = scannedId env s.identities p := hid
    have hcases : ∀ d, some item.documentId = some d → ActiveAt s.identities p d ∨
        head s.identities p = none ∧ d = env.derived p := by
      rintro d hd
      obtain rfl := Option.some.inj hd
      rw [hitemId]
      exact (scannedId_cases h.identities hmoved).imp_right fun hc => ⟨hc.1, hc.2.2⟩
    obtain ⟨d, seen, t', hensure, hsound, hgrows, hidentity, hother, hsame, hfirst⟩ :=
      ensureIdentity_sound h.identities hvisible hmoved (some item.documentId) hcases
        item.firstSeenAt
    obtain rfl : d = item.documentId := hsame _ rfl
    have hseen' : seen = item.firstSeenAt := by
      cases hold : identityForPath env s.identities p with
      | none => exact hfirst ((movedAt_or_none h.identities hold).resolve_left hmoved)
      | some existing =>
        rw [hold] at hseen
        have hhead : ∃ stored, head s.identities p = some stored := by
          obtain ⟨revision, payload, hhead, -⟩ := activeAt_of_identityForPath hold
          exact ⟨_, hhead⟩
        obtain ⟨stored, hhead⟩ := hhead
        have hunchanged : identityForPath env t' p = identityForPath env s.identities p := by
          simp only [identityForPath, hhead, hgrows.kept p _ hhead]
        rw [hunchanged, hold] at hidentity
        rw [hseen, Option.some.inj hidentity]
        rfl
    have hactive : ActiveAt t' p item.documentId := activeAt_of_identityForPath hidentity
    have hfree : ((s.rows.filter fun row => row.relativePath ≠ p).any fun row =>
        row.documentId = item.documentId || row.relativePath = item.relativePath) = false := by
      rw [any_eq_false]
      intro row hmem hclash
      have hne : row.relativePath ≠ p := of_decide_eq_true (mem_filter.mp hmem).2
      rcases (by simpa using hclash : row.documentId = item.documentId ∨
        row.relativePath = item.relativePath) with hclash | hclash
      · exact hne (hsound.distinct _ p _ (hclash ▸ hgrows.activeAt (hkept row hmem)) hactive)
      · exact hne (hclash.trans hpath)
    have hinsert : insertDocument (s.rows.filter fun row => row.relativePath ≠ p) item =
        .ok ((s.rows.filter fun row => row.relativePath ≠ p) ++ [item]) := by
      simp only [insertDocument, hfree]
      rfl
    rw [hensure]
    dsimp only
    rw [hinsert]
    refine ⟨_, rfl, ⟨hsound, fun q hq hqv => hgrows.not_movedAt (h.unmoved q hq hqv), ?_, ?_⟩,
      hgrows, ?_⟩
    · funext q
      by_cases hq : q = p
      · subst hq
        change Function.update s.known q _ q = identityForPath env t' q
        rw [Function.update_self, hidentity, hseen']
      · change Function.update s.known p _ q = identityForPath env t' q
        rw [Function.update_of_ne hq, h.known]
        simp only [identityForPath, hother q hq]
    · intro row hmem
      rcases mem_append.mp hmem with hmem | hmem
      · exact Or.inl (hgrows.activeAt (hkept row hmem))
      · obtain rfl := mem_singleton.mp hmem
        exact Or.inl (hpath ▸ hactive)
    · apply freshAt_of_rowOf
      · intro row hmem hrowPath
        rcases mem_append.mp hmem with hmem | hmem
        · exact absurd hrowPath (of_decide_eq_true (mem_filter.mp hmem).2)
        · obtain rfl := mem_singleton.mp hmem
          exact hrow
      · exact fun _ _ _ _ =>
          ⟨item, mem_append_right _ (mem_singleton.mpr rfl), hpath⟩

theorem refreshPaths_sound (now : Time) (paths : List Path) : ∀ s : RefreshState,
    Refreshing env files paths s → ∃ s', refreshPaths env files now paths s = (.ok (), s') ∧
      Refreshing env files [] s' ∧ Grows s.identities s'.identities ∧
      ∀ p, paths.getLast? = some p → FreshAt env files s'.rows p := by
  induction paths with
  | nil => exact fun s h => ⟨s, rfl, h, grows_refl _, fun p hp => by cases hp⟩
  | cons p paths ih =>
    intro s h
    obtain ⟨s', hstep, hs', hgrows, hfresh⟩ := refreshPath_sound h now
    obtain ⟨s'', hrest, hs'', hgrows', hlast⟩ := ih s' hs'
    refine ⟨s'', ?_, hs'', hgrows.trans hgrows', fun q hq => ?_⟩
    · simp only [refreshPaths, hstep, hrest]
    · cases paths with
      | nil =>
        obtain rfl := Option.some.inj hq
        cases hrest
        exact hfresh
      | cons p' paths => exact hlast q (by rwa [getLast?_cons_cons] at hq)

theorem refreshWorkspace_indexed {w : Workspace} (h : SoundIdentities env w.identities)
    (hunmoved : Unmoved env w.files w.identities)
    (hrows : ∀ rows, w.index = some rows → ∀ row ∈ rows,
      ActiveAt w.identities row.relativePath row.documentId ∨
        row.relativePath ∉ w.files ∧ paths.head? = some row.relativePath) (current : Bool)
    (now : Time) : ∃ w', refreshWorkspace env current now paths w = (.ok (), w') ∧
      Indexed env (fun p => paths.getLast? = some p) w w' := by
  obtain ⟨rebuilt, hrebuild, hindexed⟩ := rebuild_indexed h hunmoved now
  have hindexed' : Indexed env (fun p => paths.getLast? = some p) w rebuilt :=
    hindexed.mono fun _ _ => trivial
  cases hindex : w.index with
  | none =>
    cases current with
    | true => exact ⟨rebuilt, by simp only [refreshWorkspace, hindex, hrebuild], hindexed'⟩
    | false => exact ⟨rebuilt, by simp only [refreshWorkspace, hrebuild], hindexed'⟩
  | some rows =>
    cases current with
    | false => exact ⟨rebuilt, by simp only [refreshWorkspace, hrebuild], hindexed'⟩
    | true =>
      obtain ⟨s', hpaths, hs', hgrows, hlast⟩ := refreshPaths_sound now paths
        ⟨rows, identityForPath env w.identities, w.identities⟩ ⟨h, hunmoved, rfl, hrows rows hindex⟩
      refine ⟨{w with identities := s'.identities, index := some s'.rows}, ?_,
        ⟨⟨hs'.identities, hs'.unmoved, ?_⟩, rfl, rfl, rfl, hgrows, s'.rows, rfl, hlast⟩⟩
      · simp only [refreshWorkspace, hindex, hpaths]
      · intro rows' hrows' row hrow
        obtain rfl := Option.some.inj hrows'
        exact (hs'.rows row hrow).resolve_right fun hstale => by cases hstale.2
end

end RaytSystem.Identity
