import RaytSystem.BackupModel
import RaytSystem.ExceptRules

/-! The members of a private backup: what the walk over the roots collects. -/
namespace RaytSystem.Backup
open WorkspaceNode List

section
variable {α β : Type}

theorem requires_eq_ok {b : Bool} {message : String} {u : Unit} :
    requires b message = .ok u ↔ b = true := by
  cases b <;> simp [requires]

theorem bind_ok {x : Except String α} {f : α → Except String β} {a : α} {b : β} (hx : x = .ok a)
    (hf : f a = .ok b) : (x >>= f) = .ok b := bind_eq_ok.mpr ⟨a, hx, hf⟩

theorem requires_bind {b : Bool} {message : String} {f : Unit → Except String β} {r : β}
    (hb : b = true) (hf : f () = .ok r) : (requires b message >>= f) = .ok r :=
  bind_ok (requires_eq_ok.mpr hb) hf
end

section
variable {roots : List Path} {r p : Path} {tree : WorkspaceNode}

theorem foldl_selectRoot (candidates selected : List Path) :
    (∀ r ∈ candidates.foldl selectRoot selected, r ∈ selected ∨ r ∈ candidates) ∧
    ∀ r, r ∈ selected ∨ r ∈ candidates → ∃ r' ∈ candidates.foldl selectRoot selected, r' <+: r := by
  induction candidates generalizing selected with
  | nil =>
    refine ⟨fun r hr => Or.inl hr, fun r hr => ⟨r, ?_, prefix_rfl⟩⟩
    exact hr.resolve_right not_mem_nil
  | cons candidate rest ih =>
    obtain ⟨hfrom, hcover⟩ := ih (selectRoot selected candidate)
    rw [foldl_cons]
    constructor
    · intro r hr
      rcases hfrom r hr with hr | hr
      · unfold selectRoot at hr
        split at hr
        · exact Or.inl hr
        · rcases mem_append.mp hr with hr | hr
          · exact Or.inl hr
          · exact Or.inr (mem_cons.mpr (Or.inl (mem_singleton.mp hr)))
      · exact Or.inr (mem_cons_of_mem _ hr)
    · intro r hr
      -- each root is selected, waits, or lies under one that was selected before it
      have hnext : ∃ r', (r' ∈ selectRoot selected candidate ∨ r' ∈ rest) ∧ r' <+: r := by
        rcases hr with hr | hr
        · refine ⟨r, Or.inl ?_, prefix_rfl⟩
          unfold selectRoot
          split
          · exact hr
          · exact mem_append_left _ hr
        rcases mem_cons.mp hr with rfl | hr
        · by_cases hany : (selected.any fun parent => parent.isPrefixOf r) = true
          · obtain ⟨parent, hparent, hunder⟩ := any_eq_true.mp hany
            refine ⟨parent, Or.inl ?_, isPrefixOf_iff_prefix.mp hunder⟩
            rwa [selectRoot, if_pos hany]
          · refine ⟨r, Or.inl ?_, prefix_rfl⟩
            rw [selectRoot, if_neg hany]
            exact mem_append_right _ (mem_singleton_self r)
        · exact ⟨r, Or.inr hr, prefix_rfl⟩
      obtain ⟨r', hr', hunder⟩ := hnext
      obtain ⟨r'', hr'', hunder'⟩ := hcover r' hr'
      exact ⟨r'', hr'', hunder'.trans hunder⟩

theorem compact_covers : (∃ r ∈ compactBackupRoots roots, r <+: p) ↔ ∃ r ∈ roots, r <+: p := by
  obtain ⟨hfrom, hcover⟩ := foldl_selectRoot (roots.dedup.insertionSort fun a b =>
    a.length < b.length ∨ (a.length = b.length ∧ asPosix a ≤ asPosix b)) []
  have hmem : ∀ r, r ∈ (roots.dedup.insertionSort fun a b =>
      a.length < b.length ∨ (a.length = b.length ∧ asPosix a ≤ asPosix b)) ↔ r ∈ roots := fun r => by
    rw [mem_insertionSort, mem_dedup]
  constructor
  · rintro ⟨r, hr, hunder⟩
    exact ⟨r, (hmem r).mp ((hfrom r hr).resolve_left not_mem_nil), hunder⟩
  · rintro ⟨r, hr, hunder⟩
    obtain ⟨r', hr', hunder'⟩ := hcover r (Or.inr ((hmem r).mpr hr))
    exact ⟨r', hr', hunder'.trans hunder⟩

theorem located_of_iter {c : Candidate} (h : c ∈ iterBackupPaths tree r) :
    r <+: c.path ∧ tree.locate c.path = some (c.crossed,c.node) := by
  unfold iterBackupPaths at h
  split at h
  next crossed names child hroot =>
    obtain ⟨entry, hentry, rfl⟩ := mem_map.mp h
    obtain ⟨rest, hrest, hlocate⟩ := locate_of_walk hentry
    dsimp only
    rw [hrest, locate_append, hroot, Option.bind_some, hlocate]
    exact ⟨prefix_append r rest, by simp⟩
  · cases h
  next crossed node _ _ hroot =>
    rw [mem_singleton.mp h]
    exact ⟨prefix_rfl, hroot⟩
  · cases h

theorem iter_of_located {data : List UInt8} {links : ℕ} (hr : r <+: p)
    (h : tree.locate p = some (false,.file data links)) :
    (⟨p, false, .file data links⟩ : Candidate) ∈ iterBackupPaths tree r := by
  obtain ⟨rest, rfl⟩ := hr
  rw [locate_append] at h
  obtain ⟨⟨crossed, node⟩, hroot, h⟩ := Option.bind_eq_some_iff.mp h
  obtain ⟨⟨crossed', last⟩, hlast, heq⟩ := Option.map_eq_some_iff.mp h
  obtain ⟨hcrossed, rfl⟩ := Prod.mk.inj heq
  obtain ⟨rfl, rfl⟩ := Bool.or_eq_false_iff.mp hcrossed
  unfold iterBackupPaths
  rw [hroot]
  cases node with
  | directory names child =>
    have hne : rest ≠ [] := by
      rintro rfl
      cases hlast
    exact mem_map.mpr ⟨_, walk_of_locate hne hlast, rfl⟩
  | symlink target =>
    cases rest with
    | nil => cases hlast
    | cons name rest => cases locate_symlink_crossed rfl hlast
  | file data' links' =>
    cases rest with
    | nil =>
      cases hlast
      rw [append_nil]
      exact mem_singleton_self _
    | cons name rest => cases hlast
  | dangling => cases rest <;> cases hlast
  | special => cases rest <;> cases hlast
end

section
variable {ws : Workspace} {s s' : Collection} {c : Candidate}

structure Stages (ws : Workspace) (c : Candidate) (data : List UInt8) : Prop where
  direct : c.crossed = false
  regular : ∃ links, c.node = .file data links
  named : excludedName c.path = false
  unskipped : skipped (ws.location ++ c.path) = false

theorem candidate_eq {c c' : Candidate} {tree : WorkspaceNode} (hpath : c.path = c'.path)
    (h : tree.locate c.path = some (c.crossed,c.node))
    (h' : tree.locate c'.path = some (c'.crossed,c'.node)) : c = c' := by
  rw [hpath, h'] at h
  obtain ⟨path, crossed, node⟩ := c
  obtain ⟨path', crossed', node'⟩ := c'
  cases hpath
  cases h
  rfl

theorem readRegularFile_eq_ok {data : List UInt8} (h : readRegularFile c = .ok data) :
    c.crossed = false ∧ ∃ links, c.node = .file data links := by
  unfold readRegularFile at h
  split at h
  next data' links hnode =>
    split at h
    · cases h
    next hsafe =>
      cases h
      refine ⟨Bool.not_eq_true _ ▸ fun hc => hsafe ?_, links, hnode⟩
      exact Or.inr (Or.inr (Or.inr (Or.inl hc)))
  · cases h

theorem collectNew_eq_ok (h : collectNew ws s c = .ok s') : s'.visited = s.visited ∧
    ((∃ data, Stages ws c data ∧ s'.members = s.members ++ [(c.path,data)]) ∨
      (∀ data, ¬Stages ws c data) ∧ s'.members = s.members) := by
  have hother : (∀ data links, c.node ≠ .file data links) → ∀ data, ¬Stages ws c data :=
    fun hnode data hstages => by
      obtain ⟨links, hfile⟩ := hstages.regular
      exact hnode data links hfile
  unfold collectNew at h
  split at h
  next hnode =>
    cases h
    exact ⟨rfl, Or.inr ⟨hother fun _ _ => by rw [hnode]; nofun, rfl⟩⟩
  next hnode =>
    cases h
    exact ⟨rfl, Or.inr ⟨hother fun _ _ => by rw [hnode]; nofun, rfl⟩⟩
  next hnode =>
    cases h
    exact ⟨rfl, Or.inr ⟨hother fun _ _ => by rw [hnode]; nofun, rfl⟩⟩
  next hnode =>
    cases h
    exact ⟨rfl, Or.inr ⟨hother fun _ _ => by rw [hnode]; nofun, rfl⟩⟩
  · split at h
    next hname =>
      cases h
      refine ⟨rfl, Or.inr ⟨fun data hstages => ?_, rfl⟩⟩
      rw [hstages.named] at hname
      cases hname
    next hname =>
      split at h
      next hskip =>
        cases h
        refine ⟨rfl, Or.inr ⟨fun data hstages => ?_, rfl⟩⟩
        rw [hstages.unskipped] at hskip
        cases hskip
      next hskip =>
        obtain ⟨data, hread, hstage⟩ := bind_eq_ok.mp h
        unfold stageMember at hstage
        split at hstage
        · cases hstage
        · cases hstage
          obtain ⟨hdirect, hregular⟩ := readRegularFile_eq_ok hread
          exact ⟨rfl, Or.inl ⟨data, ⟨hdirect, hregular, Bool.not_eq_true _ ▸ hname,
            Bool.not_eq_true _ ▸ hskip⟩, rfl⟩⟩

structure Collected (ws : Workspace) (seen : List Candidate) (s : Collection) : Prop where
  visited : ∀ p, p ∈ s.visited ↔ ∃ c ∈ seen, c.path = p
  members : ∀ p data, (p,data) ∈ s.members ↔ ∃ c ∈ seen, c.path = p ∧ Stages ws c data
  distinct : (s.members.map Prod.fst).Nodup

theorem collected_nil (ws : Workspace) : Collected ws [] {} where
  visited p := by simp
  members p data := by simp
  distinct := nodup_nil

theorem collected_one {seen : List Candidate} (hs : Collected ws seen s)
    (hlocated : ∀ c' ∈ seen ++ [c], ws.tree.locate c'.path = some (c'.crossed,c'.node))
    (h : collectOne ws s c = .ok s') : Collected ws (seen ++ [c]) s' := by
  have hsplit : ∀ P : Candidate → Prop, (∃ c' ∈ seen ++ [c], P c') ↔ (∃ c' ∈ seen, P c') ∨ P c :=
    fun P => by
      simp only [mem_append, mem_singleton, or_and_right, exists_or, exists_eq_left]
  unfold collectOne at h
  split at h
  next hvisited =>
    cases h
    obtain ⟨c', hc', hpath⟩ := (hs.visited c.path).mp hvisited
    have hsame : c' = c := candidate_eq hpath (hlocated c' (mem_append_left _ hc'))
      (hlocated c (mem_append_right _ (mem_singleton_self c)))
    subst hsame
    have hin : ∀ P : Candidate → Prop, (∃ x ∈ seen ++ [c'], P x) ↔ ∃ x ∈ seen, P x := fun P => by
      rw [hsplit]
      exact ⟨fun hP => hP.elim id fun hP => ⟨c', hc', hP⟩, Or.inl⟩
    exact ⟨fun p => by rw [hs.visited p, hin], fun p data => by rw [hs.members p data, hin],
      hs.distinct⟩
  next hnew =>
    split at h
    · cases h
    · have hfresh : ∀ data, (c.path,data) ∉ s.members := fun data hmem => by
        obtain ⟨c', hc', hpath, -⟩ := (hs.members _ _).mp hmem
        exact hnew ((hs.visited _).mpr ⟨c', hc', hpath⟩)
      obtain ⟨hvisited, hmembers⟩ := collectNew_eq_ok h
      have hseen : ∀ p, p ∈ s'.visited ↔ ∃ c' ∈ seen ++ [c], c'.path = p := fun p => by
        rw [hvisited, mem_cons, hs.visited p, hsplit, or_comm, eq_comm (a := p)]
      rcases hmembers with ⟨data, hstages, hmembers⟩ | ⟨hnone, hmembers⟩
      · refine ⟨hseen, fun p data' => ?_, ?_⟩
        · rw [hmembers, mem_append, mem_singleton, hs.members p data', hsplit]
          refine or_congr Iff.rfl ⟨fun heq => ?_, fun hc => ?_⟩
          · cases heq
            exact ⟨rfl, hstages⟩
          · obtain ⟨links, hfile⟩ := hstages.regular
            obtain ⟨links', hfile'⟩ := hc.2.regular
            rw [hfile] at hfile'
            cases hfile'
            rw [hc.1]
        · rw [hmembers, map_append, nodup_append]
          refine ⟨hs.distinct, nodup_singleton _, ?_⟩
          intro p hp p' hp' heq
          obtain ⟨⟨q, data'⟩, hmem, rfl⟩ := mem_map.mp hp
          rw [map_singleton, mem_singleton] at hp'
          subst hp'
          dsimp only at heq
          exact hfresh data' (heq ▸ hmem)
      · refine ⟨hseen, fun p data => ?_, hmembers ▸ hs.distinct⟩
        rw [hmembers, hs.members p data, hsplit]
        exact ⟨Or.inl, fun hP => hP.elim id fun hc => absurd hc.2 (hnone data)⟩

theorem collected_all {seen rest : List Candidate} (hs : Collected ws seen s)
    (hlocated : ∀ c' ∈ seen ++ rest, ws.tree.locate c'.path = some (c'.crossed,c'.node))
    (h : collectAll ws s rest = .ok s') : Collected ws (seen ++ rest) s' := by
  induction rest generalizing seen s with
  | nil =>
    cases h
    rwa [append_nil]
  | cons c rest ih =>
    obtain ⟨s₁, hone, hrest⟩ := bind_eq_ok.mp h
    have happend : seen ++ c :: rest = seen ++ [c] ++ rest := by
      rw [append_assoc, singleton_append]
    rw [happend] at hlocated ⊢
    exact ih (collected_one hs (fun c' hc' => hlocated c' (mem_append_left _ hc')) hone)
      hlocated hrest

theorem skipped_append (p q : List String) : skipped (p ++ q) = (skipped p || skipped q) :=
  any_append

structure Included (ws : Workspace) (roots : List Path) (p : Path) (data : List UInt8) : Prop where
  rooted : ∃ r ∈ roots, r <+: p
  regular : ∃ links, ws.tree.locate p = some (false,.file data links)
  named : excludedName p = false
  unskipped : skipped p = false

theorem collect_eq_ok {roots : List Path} (h : collect ws roots = .ok s) :
    (s.members.map Prod.fst).Nodup ∧ ∀ p data, (p,data) ∈ s.members ↔
      skipped ws.location = false ∧ Included ws roots p data := by
  have hall : Collected ws (roots.flatMap (iterBackupPaths ws.tree)) s := by
    have hrun := collected_all (collected_nil ws) ?_ h
    · rwa [nil_append] at hrun
    · intro c hc
      rw [nil_append] at hc
      obtain ⟨r, -, hc⟩ := mem_flatMap.mp hc
      exact (located_of_iter hc).2
  refine ⟨hall.distinct, fun p data => (hall.members p data).trans ⟨?_, ?_⟩⟩
  · rintro ⟨c, hc, rfl, hstages⟩
    obtain ⟨r, hr, hc⟩ := mem_flatMap.mp hc
    obtain ⟨hunder, hlocated⟩ := located_of_iter hc
    obtain ⟨links, hfile⟩ := hstages.regular
    have hskip := hstages.unskipped
    rw [skipped_append, Bool.or_eq_false_iff] at hskip
    rw [hstages.direct, hfile] at hlocated
    exact ⟨hskip.1, ⟨r, hr, hunder⟩, ⟨links, hlocated⟩, hstages.named, hskip.2⟩
  · rintro ⟨hlocation, ⟨r, hr, hunder⟩, ⟨links, hlocated⟩, hnamed, hskip⟩
    refine ⟨_, mem_flatMap.mpr ⟨r, hr, iter_of_located hunder hlocated⟩, rfl, rfl,
      ⟨links, rfl⟩, hnamed, ?_⟩
    rw [skipped_append, hlocation, hskip]
    rfl
end

end RaytSystem.Backup
