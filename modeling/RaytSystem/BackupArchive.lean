import RaytSystem.BackupCollection

/-! What a created bundle holds, and how an archive is read, verified and restored. -/
namespace RaytSystem.Backup
open List

section
variable {ws : Workspace} {restricted : Bool} {lib : Library}

def backupRoots (ws : Workspace) (restricted : Bool) : List Path :=
  privateRoots ++ (configuredDocumentRoots ws).toOption.getD [] ++
    if restricted then [encryptedRoot] else []

def snapshotOf (ws : Workspace) : Option (List UInt8) :=
  if (ws.tree.locate platformDbRelative).isSome then ws.store else none

theorem configuredRoots_eq_ok {roots : List Path} (h : configuredRoots ws restricted = .ok roots)
    (p : Path) : (∃ r ∈ roots, r <+: p) ↔ ∃ r ∈ backupRoots ws restricted, r <+: p := by
  obtain ⟨configured, hconfigured, hroots⟩ := bind_eq_ok.mp h
  rw [return_eq_ok] at hroots
  subst hroots
  have hor : ∀ xs ys : List Path, (∃ r ∈ xs ++ ys, r <+: p) ↔
      (∃ r ∈ xs, r <+: p) ∨ ∃ r ∈ ys, r <+: p := fun xs ys => by
    simp only [mem_append, or_and_right, exists_or]
  rw [backupRoots, hconfigured, hor, hor (privateRoots ++ _), compact_covers]
  rfl

theorem platformSnapshotFile_eq_ok {maxBytes : ℕ} {snapshot : Option (List UInt8)}
    (h : platformSnapshotFile ws maxBytes = .ok snapshot) : snapshot = snapshotOf ws ∧
    (ws.tree.locate platformDbRelative = none ∨
      ∃ crossed data links, ws.tree.locate platformDbRelative = some (crossed,.file data links) ∧
        snapshot.isSome = true) := by
  unfold platformSnapshotFile at h
  unfold snapshotOf
  split at h
  next hnone =>
    cases h
    exact ⟨by rw [hnone]; rfl, Or.inl hnone⟩
  next crossed data hsome =>
    split at h
    · cases h
    next snap hstore =>
      split at h
      · cases h
      · cases h
        exact ⟨by rw [hsome, hstore]; rfl, Or.inr ⟨crossed, data, 1, hsome, rfl⟩⟩
  · cases h

theorem mem_setEntry {α : Type} {entries : List (Path × α)} {key p : Path} {value a : α} :
    (p,a) ∈ setEntry entries key value ↔
      (p = key ∧ a = value) ∨ (p ≠ key ∧ (p,a) ∈ entries) := by
  simp only [setEntry, mem_append, mem_filter, mem_singleton, Prod.mk.injEq,
    decide_eq_true_eq]
  tauto

theorem nodup_setEntry {α : Type} {entries : List (Path × α)} (key : Path) (value : α)
    (h : (entries.map Prod.fst).Nodup) : ((setEntry entries key value).map Prod.fst).Nodup := by
  rw [setEntry, map_append, nodup_append]
  refine ⟨h.sublist (List.Sublist.map _ filter_sublist), nodup_singleton _, ?_⟩
  intro p hp q hq heq
  obtain ⟨entry, hentry, rfl⟩ := mem_map.mp hp
  rw [map_singleton, mem_singleton] at hq
  have hne := (mem_filter.mp hentry).2
  rw [heq, hq] at hne
  simp at hne

def Expected (ws : Workspace) (restricted : Bool) (p : Path) (data : List UInt8) : Prop :=
  (p = platformDbRelative ∧ snapshotOf ws = some data) ∨
  (p ≠ platformDbRelative ∧ Included ws (backupRoots ws restricted) p data)

structure Gathered (ws : Workspace) (restricted : Bool) (members : Members) : Prop where
  enabled : ws.backupEnabled = true
  distinct : (members.map Prod.fst).Nodup
  holds : ∀ p data, (p,data) ∈ members ↔ Expected ws restricted p data ∧
    (p ≠ platformDbRelative → skipped ws.location = false)
  files : ∀ p data, (p,data) ∈ members →
    ∃ crossed bytes links, ws.tree.locate p = some (crossed,.file bytes links)

theorem included_congr {roots roots' : List Path} {p : Path} {data : List UInt8}
    (h : (∃ r ∈ roots, r <+: p) ↔ ∃ r ∈ roots', r <+: p) :
    Included ws roots p data ↔ Included ws roots' p data :=
  ⟨fun hp => ⟨h.mp hp.rooted, hp.regular, hp.named, hp.unskipped⟩,
    fun hp => ⟨h.mpr hp.rooted, hp.regular, hp.named, hp.unskipped⟩⟩

theorem gather_eq_ok {members : Members} {removed : List Path}
    (h : gather lib ws restricted = .ok (members,removed)) : Gathered ws restricted members := by
  obtain ⟨_, henabled, h⟩ := bind_eq_ok.mp h
  obtain ⟨_, -, h⟩ := bind_eq_ok.mp h
  obtain ⟨roots, hroots, h⟩ := bind_eq_ok.mp h
  obtain ⟨s, hcollect, h⟩ := bind_eq_ok.mp h
  obtain ⟨_, -, h⟩ := bind_eq_ok.mp h
  obtain ⟨collectedBytes, -, h⟩ := bind_eq_ok.mp h
  obtain ⟨snapshot, hsnapshot, h⟩ := bind_eq_ok.mp h
  rw [return_eq_ok, Prod.mk.injEq] at h
  obtain ⟨hdistinct, hcollected⟩ := collect_eq_ok hcollect
  obtain ⟨hsnap, hstore⟩ := platformSnapshotFile_eq_ok hsnapshot
  have hincluded : ∀ p data, (p,data) ∈ s.members ↔
      skipped ws.location = false ∧ Included ws (backupRoots ws restricted) p data :=
    fun p data => (hcollected p data).trans
      (and_congr_right fun _ => included_congr (configuredRoots_eq_ok hroots p))
  have hregular : ∀ p data, (p,data) ∈ s.members →
      ∃ crossed bytes links, ws.tree.locate p = some (crossed,.file bytes links) :=
    fun p data hmem => by
      obtain ⟨links, hlocated⟩ := ((hincluded p data).mp hmem).2.regular
      exact ⟨false, data, links, hlocated⟩
  rw [← h.1]
  cases snapshot with
  | none =>
    have habsent : ws.tree.locate platformDbRelative = none := by
      rcases hstore with hstore | ⟨_, _, _, -, hsome⟩
      · exact hstore
      · cases hsome
    refine ⟨requires_eq_ok.mp henabled, hdistinct, fun p data => ?_, hregular⟩
    have hne : (p,data) ∈ s.members → p ≠ platformDbRelative := by
      rintro hmem rfl
      obtain ⟨_, _, _, hlocated⟩ := hregular _ _ hmem
      rw [habsent] at hlocated
      cases hlocated
    rw [Expected, ← hsnap]
    constructor
    · intro hmem
      obtain ⟨hskip, hin⟩ := (hincluded p data).mp hmem
      exact ⟨Or.inr ⟨hne hmem, hin⟩, fun _ => hskip⟩
    · rintro ⟨⟨-, hnone⟩ | ⟨hp, hin⟩, hskip⟩
      · cases hnone
      · exact (hincluded p data).mpr ⟨hskip hp, hin⟩
  | some snap =>
    refine ⟨requires_eq_ok.mp henabled, nodup_setEntry _ _ hdistinct, fun p data => ?_,
      fun p data hmem => ?_⟩
    · rw [withSnapshot, mem_setEntry, hincluded, Expected, ← hsnap, Option.some.injEq, eq_comm]
      tauto
    · rcases mem_setEntry.mp hmem with ⟨rfl, rfl⟩ | ⟨-, hmem⟩
      · rcases hstore with hstore | ⟨crossed, bytes, links, hlocated, -⟩
        · rw [snapshotOf, hstore] at hsnap
          cases hsnap
        · exact ⟨crossed, bytes, links, hlocated⟩
      · exact hregular p data hmem

theorem Gathered.prefix_free {members : Members} (h : Gathered ws restricted members) {p q : Path}
    (hp : p ∈ members.map Prod.fst) (hq : q ∈ members.map Prod.fst) (hpq : p <+: q) : p = q := by
  obtain ⟨member, hmember, rfl⟩ := mem_map.mp hp
  obtain ⟨member', hmember', rfl⟩ := mem_map.mp hq
  obtain ⟨rest, hrest⟩ := hpq
  obtain ⟨_, _, _, hlocated⟩ := h.files member.1 member.2 hmember
  obtain ⟨_, _, _, hlocated'⟩ := h.files member'.1 member'.2 hmember'
  by_cases hnil : rest = []
  · rw [← hrest, hnil, append_nil]
  · rw [← hrest, WorkspaceNode.locate_below_file hlocated hnil] at hlocated'
    cases hlocated'
end

section
variable {lib : Library} {archive : Members}

def totalSize (members : Members) : ℕ := (members.map fun member => member.2.length).sum

def Acceptable (member : Path × List UInt8) : Prop :=
  validMember member.1 = true ∧ member.2.length ≤ maxMemberBytes

theorem measure_eq_ok {tooLarge : String} {total size : ℕ} {members : Members}
    (h : measure tooLarge total members = .ok size) :
    (∀ member ∈ members, Acceptable member) ∧ size = total + totalSize members := by
  induction members generalizing total with
  | nil =>
    cases h
    exact ⟨fun _ hmem => absurd hmem not_mem_nil, rfl⟩
  | cons member rest ih =>
    obtain ⟨_, hvalid, h⟩ := bind_eq_ok.mp h
    obtain ⟨_, hsize, h⟩ := bind_eq_ok.mp h
    obtain ⟨_, -, h⟩ := bind_eq_ok.mp h
    obtain ⟨hrest, hsum⟩ := ih h
    refine ⟨forall_mem_cons.mpr ⟨⟨requires_eq_ok.mp hvalid, ?_⟩, hrest⟩, ?_⟩
    · exact of_decide_eq_true (requires_eq_ok.mp hsize)
    · rw [hsum, totalSize, totalSize, map_cons, sum_cons, Nat.add_assoc]

theorem measure_ok (tooLarge : String) {total : ℕ} {members : Members}
    (h : ∀ member ∈ members, Acceptable member)
    (hsize : total + totalSize members ≤ maxBundleBytes) :
    measure tooLarge total members = .ok (total + totalSize members) := by
  induction members generalizing total with
  | nil => rfl
  | cons member rest ih =>
    obtain ⟨⟨hvalid, hlength⟩, hrest⟩ := forall_mem_cons.mp h
    rw [totalSize, map_cons, sum_cons, ← Nat.add_assoc] at hsize ⊢
    have hstep : total + member.2.length ≤ maxBundleBytes := by omega
    unfold measure
    rw [hvalid, decide_eq_true hlength, decide_eq_true hstep]
    exact ih hrest hsize

theorem perm_sortedItems {α : Type} (entries : List (Path × α)) :
    (sortedItems entries).Perm entries := perm_insertionSort _ entries

theorem totalSize_perm {members members' : Members} (h : members.Perm members') :
    totalSize members = totalSize members' := (h.map _).sum_nat

theorem mem_sortedItems {α : Type} {entries : List (Path × α)} {entry : Path × α} :
    entry ∈ sortedItems entries ↔ entry ∈ entries := (perm_sortedItems entries).mem_iff

theorem readEntry_of_mem {p : Path} {data : List UInt8} (hd : (archive.map Prod.fst).Nodup)
    (h : (p,data) ∈ archive) : readEntry archive p = .ok data := by
  unfold readEntry
  cases hfind : archive.reverse.find? (·.1 = p) with
  | none =>
    have hnone := find?_eq_none.mp hfind (p,data) (mem_reverse.mpr h)
    simp at hnone
  | some entry =>
    have hname : entry.1 = p := by simpa using find?_some hfind
    have hmem : entry ∈ archive := mem_reverse.mp (mem_of_find?_eq_some hfind)
    have hsame : entry = (p,data) := inj_on_of_nodup_map hd hmem h hname
    rw [hsame]

def Matches (lib : Library) (archive : Members) (entry : Path × String) : Prop :=
  ∃ data, readEntry archive entry.1 = .ok data ∧ lib.sha256 data = entry.2

theorem checkedMember_eq_ok {message : String} {entry : Path × String} {data : List UInt8} :
    checkedMember lib archive message entry = .ok data ↔
      readEntry archive entry.1 = .ok data ∧ lib.sha256 data = entry.2 := by
  unfold checkedMember
  constructor
  · intro h
    obtain ⟨data', hread, h⟩ := bind_eq_ok.mp h
    obtain ⟨_, hhash, h⟩ := bind_eq_ok.mp h
    rw [return_eq_ok] at h
    subst h
    exact ⟨hread, of_decide_eq_true (requires_eq_ok.mp hhash)⟩
  · rintro ⟨hread, hhash⟩
    exact bind_ok hread (requires_bind (decide_eq_true hhash) rfl)

theorem checkMembers_ok {entries : List (Path × String)}
    (h : ∀ entry ∈ entries, Matches lib archive entry) :
    checkMembers lib archive entries = .ok () := by
  induction entries with
  | nil => rfl
  | cons entry rest ih =>
    obtain ⟨⟨data, hread, hhash⟩, hrest⟩ := forall_mem_cons.mp h
    exact bind_ok (checkedMember_eq_ok.mpr ⟨hread, hhash⟩) (ih hrest)
end

section
variable {lib : Library} {archive staging files : Members} {entries : List (Path × String)}

theorem writeStaged_eq_ok {p : Path} {data : List UInt8}
    (h : writeStaged staging p data = .ok files) : files = staging ++ [(p,data)] := by
  unfold writeStaged at h
  split at h
  · cases h
  · split at h
    · cases h
    · cases h
      rfl

theorem restoreMembers_eq_ok (h : restoreMembers lib archive staging entries = .ok files)
    (p : Path) (data : List UInt8) : (p,data) ∈ files ↔
      (p,data) ∈ staging ∨ (p ∈ entries.map Prod.fst ∧ readEntry archive p = .ok data) := by
  induction entries generalizing staging with
  | nil =>
    cases h
    simp
  | cons entry rest ih =>
    obtain ⟨_, -, h⟩ := bind_eq_ok.mp h
    obtain ⟨read, hread, h⟩ := bind_eq_ok.mp h
    obtain ⟨staged, hstaged, h⟩ := bind_eq_ok.mp h
    obtain ⟨hread, -⟩ := checkedMember_eq_ok.mp hread
    rw [ih h, writeStaged_eq_ok hstaged, mem_append, mem_singleton, Prod.mk.injEq,
      map_cons, mem_cons, or_assoc, or_and_right]
    refine or_congr_right (or_congr_left (and_congr_right fun heq => ?_))
    rw [heq, hread, Except.ok.injEq, eq_comm]

theorem restoreMembers_ok (hmatches : ∀ entry ∈ entries, Matches lib archive entry)
    (hvalid : ∀ entry ∈ entries, validMember entry.1 = true)
    (hdistinct : (staging.map Prod.fst ++ entries.map Prod.fst).Nodup)
    (hfree : ∀ p ∈ staging.map Prod.fst ++ entries.map Prod.fst,
      ∀ q ∈ staging.map Prod.fst ++ entries.map Prod.fst, p <+: q → p = q) :
    ∃ files, restoreMembers lib archive staging entries = .ok files := by
  induction entries generalizing staging with
  | nil => exact ⟨staging, rfl⟩
  | cons entry rest ih =>
    obtain ⟨⟨data, hread, hhash⟩, hmatches⟩ := forall_mem_cons.mp hmatches
    obtain ⟨hentry, hvalid⟩ := forall_mem_cons.mp hvalid
    have hself : entry.1 ∈ staging.map Prod.fst ++ (entry :: rest).map Prod.fst :=
      mem_append_right _ (mem_map_of_mem mem_cons_self)
    have hfresh : entry.1 ∉ staging.map Prod.fst := fun hmem =>
      (nodup_append.mp hdistinct).2.2 _ hmem _ (mem_map_of_mem mem_cons_self) rfl
    have hnone : ∀ staged ∈ staging, ¬entry.1 <+: staged.1 ∧ ¬staged.1 <+: entry.1 := by
      intro staged hstaged
      have hmem := mem_map_of_mem (f := Prod.fst) hstaged
      refine ⟨fun hunder => hfresh ?_, fun hunder => hfresh ?_⟩
      · rw [hfree _ hself _ (mem_append_left _ hmem) hunder]
        exact hmem
      · rw [← hfree _ (mem_append_left _ hmem) _ hself hunder]
        exact hmem
    have hstaged : writeStaged staging entry.1 data = .ok (staging ++ [(entry.1,data)]) := by
      unfold writeStaged
      rw [if_neg, if_neg]
      · simp only [any_eq_true, isPrefixOf_iff_prefix, not_exists, not_and]
        exact fun staged hin => (hnone staged hin).2
      · simp only [any_eq_true, isPrefixOf_iff_prefix, not_exists, not_and]
        exact fun staged hin => (hnone staged hin).1
    have hsame : staging.map Prod.fst ++ (entry :: rest).map Prod.fst =
        (staging ++ [(entry.1,data)]).map Prod.fst ++ rest.map Prod.fst := by
      simp
    rw [hsame] at hdistinct hfree
    obtain ⟨files, hfiles⟩ := ih hmatches hvalid hdistinct hfree
    refine ⟨files, requires_bind hentry ?_⟩
    exact bind_ok (checkedMember_eq_ok.mpr ⟨hread, hhash⟩) (bind_ok hstaged hfiles)
end

end RaytSystem.Backup
