import RaytSystem.BackupArchive

/-! A created private backup, its verification and its restoration. -/
namespace RaytSystem.Backup

variable {lib : Library} {ws : Workspace} {restricted : Bool} {createdAt : String}
  {pub : Publication} {members : Members}

structure Library.Behaves (lib : Library) (pub : Publication) : Prop where
  loads_manifest : lib.loadManifest (lib.dumpManifest pub.manifest) = some pub.manifest
  loads_report : lib.loadReport (lib.dumpReport pub.report) = some pub.report
  digest_trimmed : ∀ payload,
    lib.sha256 (lib.payloadBytes pub.manifest.toManifestPayload) =
      lib.sha256 (lib.payloadBytes payload) →
    trimmedHashes payload.fileHashes = pub.manifest.fileHashes →
    payload.fileHashes = pub.manifest.fileHashes

structure Created (lib : Library) (ws : Workspace) (restricted : Bool) (members : Members)
    (pub : Publication) : Prop where
  gathered : Gathered ws restricted members
  archive_eq : pub.archive = writeArchive lib members pub.manifest pub.report
  hashes_eq : pub.manifest.fileHashes =
    (sortedItems members).map fun member => (member.1,lib.sha256 member.2)
  report_hash : pub.manifest.redactionReportSha256 =
    some (lib.sha256 (lib.reportBytes pub.report))
  schema : pub.manifest.schemaVersions =
    [("contracts","1.4.0"), ("platform_store","1"), ("bundle","1")]
  identity : (pub.manifest.verifyHash lib && pub.manifest.verifyId lib) = true
  acceptable : ∀ member ∈ members, Acceptable member
  count : members.length + 2 ≤ maxBundleMembers
  manifest_size : (lib.dumpManifest pub.manifest).length ≤ maxBundleMetadataBytes
  report_size : (lib.dumpReport pub.report).length ≤ maxBundleMetadataBytes
  bundle_size : totalSize members + (lib.dumpManifest pub.manifest).length +
    (lib.dumpReport pub.report).length ≤ maxBundleBytes

theorem modelValidate_eq_ok {m m' : BackupManifest} (h : modelValidate m = .ok m') :
    m' = {m with fileHashes := trimmedHashes m.fileHashes} := by
  obtain ⟨_, -, h⟩ := bind_eq_ok.mp h
  exact (return_eq_ok.mp h).symm

theorem validateSpooledMembers_eq_ok {size : ℕ} (h : validateSpooledMembers members = .ok size) :
    members.length + 2 ≤ maxBundleMembers ∧ (∀ member ∈ members, Acceptable member) ∧
      size = totalSize members := by
  obtain ⟨_, hcount, h⟩ := bind_eq_ok.mp h
  obtain ⟨hacceptable, hsize⟩ := measure_eq_ok h
  exact ⟨of_decide_eq_true (requires_eq_ok.mp hcount), hacceptable, by rw [hsize, Nat.zero_add]⟩

theorem create_eq_ok (h : create lib ws restricted createdAt = .ok pub) (hlib : lib.Behaves pub) :
    ∃ members, Created lib ws restricted members pub := by
  obtain ⟨⟨members, removed⟩, hgather, h⟩ := bind_eq_ok.mp h
  obtain ⟨memberBytes, hmembers, h⟩ := bind_eq_ok.mp h
  obtain ⟨manifest, hmanifest, h⟩ := bind_eq_ok.mp h
  obtain ⟨_, hidentity, h⟩ := bind_eq_ok.mp h
  obtain ⟨_, hsizes, h⟩ := bind_eq_ok.mp h
  rw [return_eq_ok] at h
  subst h
  obtain ⟨hcount, hacceptable, rfl⟩ := validateSpooledMembers_eq_ok hmembers
  have hidentity := requires_eq_ok.mp hidentity
  have hvalidated := modelValidate_eq_ok hmanifest
  simp only [requires_eq_ok, Bool.and_eq_true, decide_eq_true_eq] at hsizes
  -- the draft's digest is the published one, so its paths have nothing to trim
  have hhash : manifest.manifestSha256 = lib.sha256 (lib.payloadBytes manifest.toManifestPayload) :=
    of_decide_eq_true (Bool.and_eq_true_iff.mp hidentity).1
  have hdraft := hlib.digest_trimmed
    (manifestPayload lib members (redactionReport removed) restricted createdAt)
    (hhash.symm.trans (by rw [hvalidated]; rfl)) (by rw [hvalidated]; rfl)
  exact ⟨members, {
    gathered := gather_eq_ok hgather
    archive_eq := rfl
    hashes_eq := hdraft.symm
    report_hash := by rw [hvalidated]; rfl
    schema := by rw [hvalidated]; rfl
    identity := hidentity
    acceptable := hacceptable
    count := hcount
    manifest_size := hsizes.1.1
    report_size := hsizes.1.2
    bundle_size := hsizes.2 }⟩

theorem Created.names_eq (h : Created lib ws restricted members pub) : pub.archive.map Prod.fst =
      (sortedItems members).map Prod.fst ++ [manifestMember, redactionMember] := by
  rw [h.archive_eq, writeArchive, List.map_append]
  rfl

theorem Created.hashes_names (h : Created lib ws restricted members pub) :
    pub.manifest.fileHashes.map Prod.fst = (sortedItems members).map Prod.fst := by
  rw [h.hashes_eq, List.map_map]
  rfl

theorem Created.mem_archive (h : Created lib ws restricted members pub)
    {member : Path × List UInt8} (hmem : member ∈ members) : member ∈ pub.archive := by
  rw [h.archive_eq, writeArchive]
  exact List.mem_append_left _ (mem_sortedItems.mpr hmem)

theorem sorted_names (members : Members) :
    ((sortedItems members).map Prod.fst).Perm (members.map Prod.fst) :=
  (perm_sortedItems members).map _

theorem Created.nodup_iff (h : Created lib ws restricted members pub) :
    (pub.archive.map Prod.fst).Nodup ↔
      manifestMember ∉ members.map Prod.fst ∧ redactionMember ∉ members.map Prod.fst := by
  have hsorted := sorted_names members
  rw [h.names_eq, List.nodup_append, hsorted.nodup_iff]
  constructor
  · rintro ⟨-, -, hdisjoint⟩
    refine ⟨fun hmem => ?_, fun hmem => ?_⟩
    · exact hdisjoint _ (hsorted.mem_iff.mpr hmem) manifestMember (by decide) rfl
    · exact hdisjoint _ (hsorted.mem_iff.mpr hmem) redactionMember (by decide) rfl
  · rintro ⟨hmanifest, hredaction⟩
    refine ⟨h.gathered.distinct, by decide, fun p hp q hq heq => ?_⟩
    subst heq
    have hp := hsorted.mem_iff.mp hp
    simp only [List.mem_cons, List.not_mem_nil, or_false] at hq
    rcases hq with rfl | rfl
    · exact hmanifest hp
    · exact hredaction hp

theorem Created.read_manifest (h : Created lib ws restricted members pub)
    (hd : (pub.archive.map Prod.fst).Nodup) :
    readEntry pub.archive manifestMember = .ok (lib.dumpManifest pub.manifest) := by
  refine readEntry_of_mem hd ?_
  rw [h.archive_eq, writeArchive]
  exact List.mem_append_right _ List.mem_cons_self

theorem Created.read_report (h : Created lib ws restricted members pub)
    (hd : (pub.archive.map Prod.fst).Nodup) :
    readEntry pub.archive redactionMember = .ok (lib.dumpReport pub.report) := by
  refine readEntry_of_mem hd ?_
  rw [h.archive_eq, writeArchive]
  exact List.mem_append_right _ (List.mem_cons_of_mem _ List.mem_cons_self)

theorem Created.matching (h : Created lib ws restricted members pub)
    (hd : (pub.archive.map Prod.fst).Nodup) :
    ∀ entry ∈ pub.manifest.fileHashes, Matches lib pub.archive entry := by
  intro entry hentry
  rw [h.hashes_eq] at hentry
  obtain ⟨member, hmember, rfl⟩ := List.mem_map.mp hentry
  exact ⟨member.2, readEntry_of_mem hd (h.mem_archive (mem_sortedItems.mp hmember)), rfl⟩

theorem validMember_manifest : validMember manifestMember = true := by decide

theorem validMember_redaction : validMember redactionMember = true := by decide

theorem Created.measured (h : Created lib ws restricted members pub) :
    ∃ size, measure "Backup bundle is too large" 0 pub.archive = .ok size := by
  have hmetadata : maxBundleMetadataBytes ≤ maxMemberBytes := by decide
  have hacceptable : ∀ member ∈ pub.archive, Acceptable member := by
    intro member hmember
    rw [h.archive_eq, writeArchive, List.mem_append, List.mem_cons, List.mem_singleton] at hmember
    rcases hmember with hmember | rfl | rfl
    · exact h.acceptable member (mem_sortedItems.mp hmember)
    · exact ⟨validMember_manifest, h.manifest_size.trans hmetadata⟩
    · exact ⟨validMember_redaction, h.report_size.trans hmetadata⟩
  have htotal : totalSize pub.archive = totalSize members +
      (lib.dumpManifest pub.manifest).length + (lib.dumpReport pub.report).length := by
    rw [h.archive_eq, writeArchive, ← totalSize_perm (perm_sortedItems members)]
    simp [totalSize, Nat.add_assoc]
  refine ⟨_, measure_ok _ hacceptable ?_⟩
  rw [htotal, Nat.zero_add]
  exact h.bundle_size

theorem Created.sameNames (h : Created lib ws restricted members pub) :
    sameNames (pub.archive.map Prod.fst) pub.manifest.fileHashes = true := by
  unfold Backup.sameNames
  rw [h.names_eq, h.hashes_names]
  simp only [List.all_eq_true, decide_eq_true_eq, Bool.and_eq_true]
  exact ⟨fun p hp => hp, fun p hp => hp⟩

theorem Created.verify_ok (h : Created lib ws restricted members pub) (hlib : lib.Behaves pub)
    (hd : (pub.archive.map Prod.fst).Nodup) : verify lib pub.archive = .ok pub.manifest := by
  obtain ⟨size, hsize⟩ := h.measured
  have hlength : (pub.archive.map Prod.fst).length ≤ maxBundleMembers := by
    rw [h.names_eq, List.length_append, List.length_map, (perm_sortedItems members).length_eq]
    exact h.count
  have hlist : (decide ((pub.archive.map Prod.fst).length ≤ maxBundleMembers) &&
      decide (pub.archive.map Prod.fst).Nodup && decide (manifestMember ∈ pub.archive.map Prod.fst) &&
      decide (redactionMember ∈ pub.archive.map Prod.fst)) = true := by
    simp only [Bool.and_eq_true, decide_eq_true_eq]
    refine ⟨⟨⟨hlength, hd⟩, ?_⟩, ?_⟩ <;> rw [h.names_eq] <;> exact List.mem_append_right _ (by decide)
  have hreport : decide (pub.manifest.redactionReportSha256 =
      some (lib.sha256 (lib.reportBytes pub.report))) = true := decide_eq_true h.report_hash
  have hmanifest : parsed (lib.loadManifest (lib.dumpManifest pub.manifest)) = .ok pub.manifest := by
    rw [hlib.loads_manifest, parsed]
  have hloaded : parsed (lib.loadReport (lib.dumpReport pub.report)) = .ok pub.report := by
    rw [hlib.loads_report, parsed]
  refine requires_bind hlist (bind_ok hsize ?_)
  refine bind_ok (h.read_manifest hd) (requires_bind (decide_eq_true h.manifest_size) ?_)
  refine bind_ok hmanifest (requires_bind h.identity ?_)
  refine bind_ok (h.read_report hd) (requires_bind (decide_eq_true h.report_size) ?_)
  refine bind_ok hloaded (requires_bind hreport (requires_bind h.sameNames ?_))
  exact bind_ok (checkMembers_ok (h.matching hd)) rfl

theorem nodup_of_verify {archive : Members} {manifest : BackupManifest}
    (h : verify lib archive = .ok manifest) : (archive.map Prod.fst).Nodup := by
  obtain ⟨_, hlist, -⟩ := bind_eq_ok.mp h
  simp only [requires_eq_ok, Bool.and_eq_true, decide_eq_true_eq] at hlist
  exact hlist.1.1.2

def Faithful (lib : Library) (ws : Workspace) (restricted : Bool) (pub : Publication) : Prop :=
  (∃ manifest, verify lib pub.archive = .ok manifest) ∧
  ∃ files, restore lib ws pub.archive [] = .ok files ∧
    ∀ p data, (p,data) ∈ files ↔ Expected ws restricted p data

def Collectable (ws : Workspace) (restricted : Bool) : Prop :=
  (skipped ws.location = false ∨ ∀ p data, p ≠ platformDbRelative →
    ¬Included ws (backupRoots ws restricted) p data) ∧
  ∀ p ∈ [manifestMember, redactionMember], ∀ data,
    ¬Included ws (backupRoots ws restricted) p data

theorem Created.restored (h : Created lib ws restricted members pub) (hlib : lib.Behaves pub)
    (hd : (pub.archive.map Prod.fst).Nodup) : ∃ files, restore lib ws pub.archive [] = .ok files ∧
      ∀ p data, (p,data) ∈ files ↔ (p,data) ∈ members := by
  have hperm := perm_sortedItems pub.manifest.fileHashes
  have hnames : ((sortedItems pub.manifest.fileHashes).map Prod.fst).Perm (members.map Prod.fst) := by
    refine (hperm.map _).trans ?_
    rw [h.hashes_names]
    exact sorted_names members
  have hmatches : ∀ entry ∈ sortedItems pub.manifest.fileHashes, Matches lib pub.archive entry :=
    fun entry hentry => h.matching hd entry (hperm.mem_iff.mp hentry)
  have hvalid : ∀ entry ∈ sortedItems pub.manifest.fileHashes, validMember entry.1 = true := by
    intro entry hentry
    have hname := hnames.mem_iff.mp (List.mem_map_of_mem hentry)
    obtain ⟨member, hmember, heq⟩ := List.mem_map.mp hname
    rw [← heq]
    exact (h.acceptable member hmember).1
  obtain ⟨files, hfiles⟩ : ∃ files, restoreMembers lib pub.archive []
      (sortedItems pub.manifest.fileHashes) = .ok files := by
    refine restoreMembers_ok hmatches hvalid ?_ fun p hp q hq => ?_
    · rw [List.map_nil, List.nil_append, hnames.nodup_iff]
      exact h.gathered.distinct
    · exact h.gathered.prefix_free (hnames.mem_iff.mp hp) (hnames.mem_iff.mp hq)
  have hverify := h.verify_ok hlib hd
  have hcompatible : (!incompatible pub.manifest) = true := by
    rw [incompatible, h.schema]
    rfl
  have hrestore : restore lib ws pub.archive [] = .ok files := by
    refine requires_bind h.gathered.enabled (bind_ok hverify (requires_bind hcompatible ?_))
    exact requires_bind rfl (bind_ok hverify hfiles)
  refine ⟨files, hrestore, fun p data => ?_⟩
  rw [restoreMembers_eq_ok hfiles, hnames.mem_iff]
  constructor
  · rintro (hnil | ⟨hp, hread⟩)
    · cases hnil
    · obtain ⟨member, hmember, rfl⟩ := List.mem_map.mp hp
      rw [readEntry_of_mem hd (h.mem_archive hmember), Except.ok.injEq] at hread
      rw [← hread]
      exact hmember
  · intro hmem
    exact Or.inr ⟨List.mem_map_of_mem hmem, readEntry_of_mem hd (h.mem_archive hmem)⟩

/-- A published private backup is verified and restored to the workspace's files exactly if the
workspace lies under no skipped name, or has no file to collect, and no file to collect has the name
of a metadata member. -/
theorem backup_faithful_iff (h : create lib ws restricted createdAt = .ok pub)
    (hlib : lib.Behaves pub) : Faithful lib ws restricted pub ↔ Collectable ws restricted := by
  obtain ⟨members, hc⟩ := create_eq_ok h hlib
  have hholds := hc.gathered.holds
  constructor
  · rintro ⟨⟨manifest, hverify⟩, files, hrestore, hfiles⟩
    have hd := nodup_of_verify hverify
    obtain ⟨files', hrestore', hfiles'⟩ := hc.restored hlib hd
    rw [hrestore, Except.ok.injEq] at hrestore'
    subst hrestore'
    have hmem : ∀ p data, p ≠ platformDbRelative →
        Included ws (backupRoots ws restricted) p data → (p,data) ∈ members :=
      fun p data hp hin => (hfiles' p data).mp ((hfiles p data).mpr (Or.inr ⟨hp, hin⟩))
    obtain ⟨hmanifest, hredaction⟩ := hc.nodup_iff.mp hd
    refine ⟨?_, fun p hp data hin => ?_⟩
    · by_cases hskip : skipped ws.location = false
      · exact Or.inl hskip
      · exact Or.inr fun p data hp hin => hskip (((hholds p data).mp (hmem p data hp hin)).2 hp)
    · simp only [List.mem_cons, List.not_mem_nil, or_false] at hp
      rcases hp with rfl | rfl
      · exact hmanifest (List.mem_map_of_mem (hmem _ _ (by decide) hin))
      · exact hredaction (List.mem_map_of_mem (hmem _ _ (by decide) hin))
  · rintro ⟨hlocation, hreserved⟩
    have hunreserved : ∀ p ∈ [manifestMember, redactionMember], p ∉ members.map Prod.fst := by
      intro p hp hmem
      obtain ⟨member, hmember, rfl⟩ := List.mem_map.mp hmem
      rcases ((hholds member.1 member.2).mp hmember).1 with ⟨heq, -⟩ | ⟨-, hin⟩
      · rw [heq] at hp
        exact absurd hp (by decide)
      · exact hreserved member.1 hp member.2 hin
    have hd : (pub.archive.map Prod.fst).Nodup := hc.nodup_iff.mpr
      ⟨hunreserved _ (by decide), hunreserved _ (by decide)⟩
    obtain ⟨files, hrestore, hfiles⟩ := hc.restored hlib hd
    refine ⟨⟨_, hc.verify_ok hlib hd⟩, files, hrestore, fun p data => ?_⟩
    rw [hfiles, hholds]
    refine and_iff_left_of_imp fun hexpected hp => ?_
    rcases hexpected with ⟨heq, -⟩ | ⟨-, hin⟩
    · exact absurd heq hp
    · exact hlocation.resolve_right fun hnone => hnone p data hp hin

def demoWorkspace (location : List String) : Workspace where
  location := location
  tree := .directory ["docs","ops"] fun name =>
    if name = "docs" then .directory ["a.md"] fun _ => .file [97] 1
    else .directory ["platform.sqlite"] fun _ => .file [1] 1
  backupEnabled := true
  restrictedEncryptionEnabled := false
  documents := some []
  store := some [7]

def demoPayload (hashes : List (Path × String)) : ManifestPayload where
  kind := .privateBackup
  raytsystemVersion := "0.1.0"
  schemaVersions := [("contracts","1.4.0"), ("platform_store","1"), ("bundle","1")]
  fileHashes := hashes
  excludedPaths := [[".raytsystem","index.sqlite"], [".raytsystem","documents.sqlite"],
    ["knowledge","graph.json"]]
  restrictedDataIncluded := false
  encrypted := false
  redactionReportSha256 := some "R"
  createdAt := "2026-01-01T00:00:00Z"

def demoPublication (members : Members) (hashes : List (Path × String)) : Publication where
  manifest := { demoPayload hashes with manifestSha256 := "P", backupId := "backup_P" }
  report := redactionReport []
  archive := members ++ [(manifestMember,[77]), (redactionMember,[82])]

def demoLibrary (pub : Publication) : Library where
  sha256 data := String.ofList (data.map fun byte => Char.ofNat byte.toNat)
  payloadBytes payload := if payload.fileHashes = pub.manifest.fileHashes then [80] else [81]
  reportBytes _ := [82]
  deriveId hash _ := "backup_" ++ hash
  dumpManifest _ := [77]
  loadManifest data := if data = [77] then some pub.manifest else none
  dumpReport _ := [82]
  loadReport data := if data = [82] then some pub.report else none
  isEncryptedBlob _ := false

def completePublication : Publication :=
  demoPublication [(["docs","a.md"],[97]), (platformDbRelative,[7])]
    [(["docs","a.md"],"a"), (platformDbRelative,String.ofList [Char.ofNat 7])]

theorem demoLibrary_behaves (pub : Publication) : (demoLibrary pub).Behaves pub where
  loads_manifest := rfl
  loads_report := rfl
  digest_trimmed payload hdigest _ := by
    by_contra hne
    simp only [demoLibrary, if_neg hne, if_true] at hdigest
    exact absurd hdigest (by decide)

/-- A workspace below a plain directory. -/
theorem home_backup_faithful :
    Faithful (demoLibrary completePublication) (demoWorkspace ["home","kb"]) false
      completePublication := by
  have hcreate : create (demoLibrary completePublication) (demoWorkspace ["home","kb"]) false
      "2026-01-01T00:00:00Z" = .ok completePublication := by decide
  refine (backup_faithful_iff hcreate (demoLibrary_behaves _)).mpr ⟨Or.inl (by decide), ?_⟩
  rintro p hp data ⟨-, ⟨links, hlocated⟩, -, -⟩
  simp only [List.mem_cons, List.not_mem_nil, or_false] at hp
  rcases hp with rfl | rfl <;> cases hlocated

def emptyPublication : Publication :=
  demoPublication [(platformDbRelative,[7])]
    [(platformDbRelative,String.ofList [Char.ofNat 7])]

/-- The same workspace below `node_modules`. -/
theorem vendored_backup_empty :
    create (demoLibrary emptyPublication) (demoWorkspace ["home","node_modules","kb"]) false
      "2026-01-01T00:00:00Z" = .ok emptyPublication ∧
    Expected (demoWorkspace ["home","node_modules","kb"]) false ["docs","a.md"] [97] ∧
    ¬Faithful (demoLibrary emptyPublication) (demoWorkspace ["home","node_modules","kb"]) false
      emptyPublication := by
  have hexpected : Expected (demoWorkspace ["home","node_modules","kb"]) false ["docs","a.md"]
      [97] := by
    refine Or.inr ⟨by decide, ⟨["docs"], by decide, ⟨["a.md"], rfl⟩⟩, ⟨1, rfl⟩, ?_, ?_⟩
    · decide
    · decide
  refine ⟨by decide, hexpected, ?_⟩
  rintro ⟨-, files, hrestore, hfiles⟩
  have hall : restore (demoLibrary emptyPublication) (demoWorkspace ["home","node_modules","kb"])
      emptyPublication.archive [] = .ok [(platformDbRelative,[7])] := by decide
  rw [hall, Except.ok.injEq] at hrestore
  subst hrestore
  exact absurd ((hfiles _ _).mpr hexpected) (by decide)

end RaytSystem.Backup
