import RaytSystem.MetadataInsertion

/-! Which links can be resolved, and which documents keep a rebuild from completing. -/
namespace RaytSystem.Extraction
open List

section

theorem splitOn_ne_nil (c : CodePoint) (text : Text) : splitOn c text ≠ [] := by
  cases text with
  | nil => simp [splitOn]
  | cons x rest =>
    unfold splitOn
    split
    · simp
    · split <;> simp

theorem splitOn_append {c : CodePoint} {s : Text} (h : c ∉ s) (text : Text) :
    ∃ part parts, splitOn c text = part :: parts ∧ splitOn c (s ++ text) = (s ++ part) :: parts := by
  induction s with
  | nil =>
    obtain ⟨part, parts, hparts⟩ := exists_cons_of_ne_nil (splitOn_ne_nil c text)
    exact ⟨part, parts, hparts, hparts⟩
  | cons x s ih =>
    obtain ⟨hx, hs⟩ := not_or.mp (mt mem_cons.mpr h)
    obtain ⟨part, parts, hparts, hrest⟩ := ih hs
    refine ⟨part, parts, hparts, ?_⟩
    rw [cons_append, splitOn, hrest]
    simp [Ne.symm hx]

variable {env : ExtractionEnv}

theorem splitOn_casefold (text : Text) :
    splitOn 0x2f (env.casefold text) = (splitOn 0x2f text).map env.casefold := by
  induction text with
  | nil => rfl
  | cons c rest ih =>
    have hcons : env.casefold (c :: rest) = env.foldChar c ++ env.casefold rest := rfl
    obtain ⟨part, parts, hparts⟩ := exists_cons_of_ne_nil (splitOn_ne_nil 0x2f rest)
    rw [hparts] at ih
    by_cases hslash : c = 0x2f
    · subst hslash
      rw [hcons, env.fold_slash, singleton_append, splitOn, ih]
      simp only [splitOn, hparts, map_cons, if_pos]
      rfl
    · have hnone : 0x2f ∉ env.foldChar c := by
        by_cases hdot : c = 0x2e
        · subst hdot
          simp [env.fold_dot]
        · exact (env.fold_other c hdot hslash).2.2
      obtain ⟨part', parts', hparts', happend⟩ := splitOn_append hnone (env.casefold rest)
      rw [ih] at hparts'
      obtain ⟨rfl, rfl⟩ := cons.inj hparts'
      rw [hcons, happend]
      simp only [splitOn, hparts, map_cons, if_neg hslash]
      rfl

theorem foldChar_ne_nil (c : CodePoint) : env.foldChar c ≠ [] := by
  by_cases hdot : c = 0x2e
  · simp [hdot, env.fold_dot]
  · by_cases hslash : c = 0x2f
    · simp [hslash, env.fold_slash]
    · exact (env.fold_other c hdot hslash).1

theorem casefold_eq_nil {text : Text} : env.casefold text = [] ↔ text = [] := by
  cases text with
  | nil => simp [ExtractionEnv.casefold]
  | cons c rest => simp [ExtractionEnv.casefold, foldChar_ne_nil]

theorem casefold_eq_dot {text : Text} : env.casefold text = [0x2e] ↔ text = [0x2e] := by
  constructor
  · intro h
    cases text with
    | nil => simp [ExtractionEnv.casefold] at h
    | cons c rest =>
      have hcons : env.foldChar c ++ env.casefold rest = [0x2e] := h
      obtain ⟨hhead, -⟩ | ⟨hhead, hrest⟩ := append_eq_singleton_iff.mp hcons
      · exact absurd hhead (foldChar_ne_nil c)
      · have hdot : c = 0x2e := by
          by_contra hdot
          by_cases hslash : c = 0x2f
          · simp [hslash, env.fold_slash] at hhead
          · exact (env.fold_other c hdot hslash).2.1 (by simp [hhead])
        rw [hdot, casefold_eq_nil.mp hrest]
  · rintro rfl
    simp [ExtractionEnv.casefold, env.fold_dot]

theorem isComponent_casefold (part : Text) : isComponent (env.casefold part) = isComponent part := by
  have hnil : (env.casefold part = []) ↔ part = [] := casefold_eq_nil
  have hdot : (env.casefold part = [0x2e]) ↔ part = [0x2e] := casefold_eq_dot
  simp [isComponent, hnil, hdot]

theorem name_eq_nil {path : Text} : (parsePath path).name = [] ↔ (parsePath path).tail = [] := by
  unfold PurePath.name
  cases hlast : (parsePath path).tail.getLast? with
  | none => simp [getLast?_eq_none_iff.mp hlast]
  | some part =>
    have hmem := mem_of_getLast? hlast
    have hpart : isComponent part = true := (mem_filter.mp hmem).2
    refine iff_of_false (fun h => ?_) (ne_nil_of_mem hmem)
    rw [Option.getD_some] at h
    simp [isComponent, h] at hpart

theorem name_casefold {path : Text} :
    (parsePath (env.casefold path)).name = [] ↔ (parsePath path).name = [] := by
  rw [name_eq_nil, name_eq_nil]
  have hfold : (parsePath (env.casefold path)).tail = (parsePath path).tail.map env.casefold := by
    unfold parsePath
    dsimp only
    rw [splitOn_casefold, filter_map]
    congr 1
    exact filter_congr fun part _ => isComponent_casefold part
  rw [hfold, map_eq_nil_iff]
end

section
variable {env : IndexEnv}

theorem withoutSuffix_eq_ok {p : PurePath} : (∃ q, withoutSuffix p = .ok q) ↔ p.name ≠ [] := by
  unfold withoutSuffix
  split
  next hname => simp [hname]
  next hname => simp [hname]

theorem name_join {p q : PurePath} (h : q.name ≠ []) : (p.join q).name ≠ [] := by
  unfold PurePath.join
  split
  · have htail : q.tail ≠ [] := by
      intro htail
      simp [PurePath.name, htail] at h
    obtain ⟨part, hpart⟩ := Option.ne_none_iff_exists'.mp (mt getLast?_eq_none_iff.mp htail)
    simpa [PurePath.name, getLast?_append, hpart] using h
  · exact h

theorem lookupTarget_eq_ok {byPath byName : Keys} {parent : PurePath} {linkType : LinkType}
    {target : Text} : (∃ found, lookupTarget env byPath byName parent linkType target = .ok found) ↔
      (parsePath target).name ≠ [] := by
  constructor
  · rintro ⟨found, hok⟩
    obtain ⟨lookups, -, hok⟩ := bind_eq_ok.mp hok
    obtain ⟨bare, hbare, -⟩ := bind_eq_ok.mp hok
    exact withoutSuffix_eq_ok.mp ⟨bare, hbare⟩
  · intro hname
    obtain ⟨bare, hbare⟩ := withoutSuffix_eq_ok.mpr hname
    obtain ⟨relative, hrelative⟩ : ∃ relative,
        relativeLookups env byPath (parent.join (parsePath target)) linkType = .ok relative := by
      obtain ⟨candidate, hcandidate⟩ := withoutSuffix_eq_ok.mpr (name_join (p := parent) hname)
      unfold relativeLookups
      split
      · rw [hcandidate]
        exact ⟨_, rfl⟩
      · exact ⟨_, rfl⟩
    exact ⟨_, bind_eq_ok.mpr ⟨relative, hrelative, bind_eq_ok.mpr ⟨bare, hbare, rfl⟩⟩⟩

def Named (link : ExtractedLink) : Prop := (parsePath (linkText link)).name ≠ []

def CacheNamed (env : IndexEnv) (cache : List (CacheKey × LinkTarget)) : Prop :=
  ∀ entry ∈ cache, ∃ parent linkType target,
    entry.1 = cacheKey env parent linkType target ∧ (parsePath target).name ≠ []

variable {documents : List IndexedDocument}

theorem resolveRows_eq_ok {byPath byName : Keys} {rows : List LinkRow}
    {cache : List (CacheKey × LinkTarget)} (h : CacheNamed env cache) :
    (∃ rows', resolveRows env documents byPath byName rows cache = .ok rows') ↔
      ∀ row ∈ rows, Named row.link := by
  induction rows generalizing cache with
  | nil => simp [resolveRows]
  | cons row rows ih =>
    simp only [forall_mem_cons, resolveRows]
    split
    next cached hcached =>
      obtain ⟨parent, linkType, target, hkey, hname⟩ := h cached (mem_of_find?_eq_some hcached)
      have hsame : cached.1 = cacheKey env (parentOf documents row.source) row.link.linkType
          (linkText row.link) := by simpa using find?_some hcached
      have htarget : env.casefold target = env.casefold (linkText row.link) := by
        have hkeys := hkey.symm.trans hsame
        exact (Prod.mk.inj (Prod.mk.inj hkeys).2).2
      have hnamed : Named row.link := by
        intro hnone
        have hfolded := (@name_casefold env.toExtractionEnv _).mpr hnone
        rw [← htarget] at hfolded
        exact hname (name_casefold.mp hfolded)
      rw [and_iff_right hnamed, ← ih h]
      constructor
      · rintro ⟨rows', hok⟩
        obtain ⟨rest, hrest, -⟩ := bind_eq_ok.mp hok
        exact ⟨rest, hrest⟩
      · rintro ⟨rest, hrest⟩
        rw [hrest]
        exact ⟨_, rfl⟩
    next =>
      cases hlookup : lookupTarget env byPath byName (parentOf documents row.source)
        row.link.linkType (linkText row.link) with
      | error fault =>
        refine iff_of_false (fun h => ?_) fun h => ?_
        · obtain ⟨rows', hok⟩ := h
          cases hok
        · obtain ⟨found, hfound⟩ := lookupTarget_eq_ok.mpr h.1
          rw [hlookup] at hfound
          cases hfound
      | ok found =>
        have hnamed : Named row.link := lookupTarget_eq_ok.mp ⟨found, hlookup⟩
        have hcache : CacheNamed env ((cacheKey env (parentOf documents row.source)
            row.link.linkType (linkText row.link), found) :: cache) := by
          intro entry hentry
          rcases mem_cons.mp hentry with rfl | hentry
          · exact ⟨_, _, _, rfl, hnamed⟩
          · exact h entry hentry
        rw [and_iff_right hnamed, ← ih hcache]
        dsimp only
        constructor
        · rintro ⟨rows', hok⟩
          obtain ⟨rest, hrest, -⟩ := bind_eq_ok.mp hok
          exact ⟨rest, hrest⟩
        · rintro ⟨rest, hrest⟩
          rw [hrest]
          exact ⟨_, rfl⟩

theorem pathKeys_ok (h : ∀ d ∈ documents, env.visible d.relativePath = true) :
    ∃ keys, documents.mapM (pathKeys env) = .ok keys := by
  induction documents with
  | nil => exact ⟨[], rfl⟩
  | cons d documents ih =>
    obtain ⟨keys, hkeys⟩ := ih fun d' hd' => h d' (mem_cons_of_mem _ hd')
    obtain ⟨bare, hbare⟩ := withoutSuffix_eq_ok.mpr (env.visible_name _ (h d mem_cons_self))
    rw [mapM_cons, pathKeys, hbare, hkeys]
    exact ⟨_, rfl⟩

theorem resolveLinks_eq_ok {index : Index} (h : Built env index) :
    (∃ index', resolveLinks env index = .ok index') ↔ ∀ row ∈ index.links, Named row.link := by
  have hvisible : ∀ d ∈ index.documents.insertionSort fun a b => a.documentId ≤ b.documentId,
      env.visible d.relativePath = true := by
    intro d hd
    exact h.documents d ((mem_insertionSort _).mp hd)
  obtain ⟨byPath, hkeys⟩ := pathKeys_ok hvisible
  have hresolve := @resolveRows_eq_ok env
    (index.documents.insertionSort fun a b => a.documentId ≤ b.documentId) byPath
    ((index.documents.insertionSort fun a b => a.documentId ≤ b.documentId).map (nameKeys env))
    (index.links.insertionSort fun a b => a.linkId ≤ b.linkId) []
    fun entry hentry => by cases hentry
  simp only [mem_insertionSort] at hresolve
  rw [← hresolve]
  constructor
  · rintro ⟨index', hok⟩
    obtain ⟨byPath', hkeys', hok⟩ := bind_eq_ok.mp hok
    obtain rfl := Except.ok.inj (hkeys.symm.trans hkeys')
    obtain ⟨links, hlinks, -⟩ := bind_eq_ok.mp hok
    exact ⟨links, hlinks⟩
  · rintro ⟨links, hlinks⟩
    exact ⟨{index with links}, bind_eq_ok.mpr ⟨byPath, hkeys, bind_eq_ok.mpr ⟨links, hlinks, rfl⟩⟩⟩

end

section
variable {env : IndexEnv} {ctx : ScanContext}

def shownItem (env : IndexEnv) (ctx : ScanContext) (file : SourceFile) : Option IndexedDocument :=
  match ctx.scan env file with
  | .ok item => item
  | .error _ => none

structure Within (env : IndexEnv) (ctx : ScanContext) (tree : Tree) : Prop where
  bytes : ((tree.files.filterMap (shownItem env ctx)).map IndexedDocument.sizeBytes).sum ≤
    env.maxTotalBytes
  links : ((tree.files.filterMap (shownItem env ctx)).map
    fun item => item.metadata.links.length).sum ≤ maxTotalLinks
  files : (tree.files.filterMap (shownItem env ctx)).length ≤ env.maxFiles
  folders : tree.folders.length ≤ maxFolders

variable {files : List SourceFile} {items : List IndexedDocument}

variable {tree : Tree}

theorem ScanResult.named {index index' : Index} (h : ScanResult env index files items index')
    (hnone : index.links = []) : (∀ row ∈ index'.links, Named row.link) ↔
      ∀ item ∈ items, ∀ link ∈ item.metadata.links, Named link := by
  rw [h.links, hnone, nil_append]
  constructor
  · intro hall item hitem link hlink
    rw [← @linkRows_links env item] at hlink
    obtain ⟨row, hrow, rfl⟩ := mem_map.mp hlink
    exact hall row (mem_flatMap.mpr ⟨item, hitem, hrow⟩)
  · intro hall row hrow
    obtain ⟨item, hitem, hrow⟩ := mem_flatMap.mp hrow
    exact hall item hitem row.link (mem_linkRows hrow).2.1

end

def asciiFold (c : ℕ) : List ℕ := if 0x41 ≤ c ∧ c ≤ 0x5a then [c + 32] else [c]

theorem asciiFold_other (c : ℕ) (hdot : c ≠ 0x2e) (hslash : c ≠ 0x2f) :
    asciiFold c ≠ [] ∧ 0x2e ∉ asciiFold c ∧ 0x2f ∉ asciiFold c := by
  unfold asciiFold
  split
  · simp only [ne_eq, cons_ne_self, not_false_eq_true, mem_singleton, true_and]
    omega
  · simp [Ne.symm hdot, Ne.symm hslash]

def asciiEnv : IndexEnv where
  foldChar := asciiFold
  isWord c := (0x30 ≤ c && c ≤ 0x39) || (0x41 ≤ c && c ≤ 0x5a) || (0x61 ≤ c && c ≤ 0x7a) || c = 0x5f
  reprOf _ := none
  scanAliases _ := .error .yamlError
  compose _ := .error .yamlError
  safeLoad _ := .error .yamlError
  fold_dot := rfl
  fold_slash := rfl
  fold_other := asciiFold_other
  visible p := (parsePath p).name ≠ []
  rootPath _ := [chars "docs"]
  folderInfo _ := ⟨chars "docs", chars "read_write", true⟩
  contentAllowed _ _ := true
  decode data := some (data.map UInt8.toNat)
  sha256Hex data := data.map UInt8.toNat
  derived p := p
  folderId := folderText
  linkId d i _ _ := i :: d
  maxFileBytes := 100
  maxTotalBytes := 1000
  maxFiles := 10
  visible_name p h := by simpa using h
  linkId_inj d d' i i' _ _ _ _ h := ⟨(cons.inj h).2, (cons.inj h).1⟩

def treeOf (files : List SourceFile) (h : (files.map SourceFile.relative).Nodup) : Tree :=
  ⟨files, [], 0, h, .nil⟩

def faultOf (result : Except Fault Index) : Option Fault :=
  match result with
  | .error fault => some fault
  | .ok _ => none

end RaytSystem.Extraction
