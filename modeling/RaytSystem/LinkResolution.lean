import RaytSystem.IndexTotality

/-! What the resolution of the links marks: the documents that the keys of a link match, counted
once each, whatever was looked up before. -/
namespace RaytSystem.Extraction
open List

section
variable {env : ExtractionEnv}

theorem casefold_append (a b : Text) : env.casefold (a ++ b) = env.casefold a ++ env.casefold b := by
  simp [ExtractionEnv.casefold]

theorem casefold_cons (c : CodePoint) (text : Text) :
    env.casefold (c :: text) = env.foldChar c ++ env.casefold text := rfl

variable {text : Text}

theorem dot_mem_casefold : 0x2e ∈ env.casefold text ↔ 0x2e ∈ text := by
  induction text with
  | nil => simp [ExtractionEnv.casefold]
  | cons c rest ih =>
    rw [casefold_cons, mem_append, ih, mem_cons]
    refine or_congr_left ?_
    by_cases hdot : c = 0x2e
    · simp [hdot, env.fold_dot]
    · refine iff_of_false ?_ (Ne.symm hdot)
      by_cases hslash : c = 0x2f
      · simp [hslash, env.fold_slash]
      · exact (env.fold_other c hdot hslash).2.1

theorem slash_mem_casefold : 0x2f ∈ env.casefold text ↔ 0x2f ∈ text := by
  induction text with
  | nil => simp [ExtractionEnv.casefold]
  | cons c rest ih =>
    rw [casefold_cons, mem_append, ih, mem_cons]
    refine or_congr_left ?_
    by_cases hslash : c = 0x2f
    · simp [hslash, env.fold_slash]
    · refine iff_of_false ?_ (Ne.symm hslash)
      by_cases hdot : c = 0x2e
      · simp [hdot, env.fold_dot]
      · exact (env.fold_other c hdot hslash).2.2

theorem casefold_dot_cons (text : Text) :
    env.casefold (0x2e :: text) = 0x2e :: env.casefold text := by
  rw [casefold_cons, env.fold_dot]
  rfl

theorem casefold_slash_cons (text : Text) :
    env.casefold (0x2f :: text) = 0x2f :: env.casefold text := by
  rw [casefold_cons, env.fold_slash]
  rfl

theorem casefold_eq_dots : env.casefold text = [0x2e, 0x2e] ↔ text = [0x2e, 0x2e] := by
  constructor
  · intro h
    cases text with
    | nil => cases h
    | cons c rest =>
      have hdot : c = 0x2e := by
        by_contra hdot
        have hnone : 0x2e ∉ env.foldChar c := by
          by_cases hslash : c = 0x2f
          · simp [hslash, env.fold_slash]
          · exact (env.fold_other c hdot hslash).2.1
        rw [casefold_cons] at h
        obtain ⟨x, xs, hx⟩ := exists_cons_of_ne_nil (@foldChar_ne_nil env c)
        rw [hx] at h hnone
        obtain ⟨rfl, -⟩ := cons.inj h
        exact hnone mem_cons_self
      rw [hdot, casefold_dot_cons] at h
      rw [hdot, casefold_eq_dot.mp (cons.inj h).2]
  · rintro rfl
    rw [casefold_dot_cons, casefold_dot_cons]
    rfl

theorem stemOf_plain {name : Text} (h : 0x2e ∉ name) : stemOf name = name := by
  have hall : name.reverse.takeWhile (· ≠ 0x2e) = name.reverse := by
    rw [takeWhile_eq_self_iff]
    intro c hc
    have hne : c ≠ 0x2e := fun hdot => h (hdot ▸ mem_reverse.mp hc)
    simpa using hne
  unfold stemOf
  dsimp only
  rw [hall, if_neg]
  rw [length_reverse]
  omega

theorem stemOf_dot {stem extension : Text} (h : 0x2e ∉ extension) :
    stemOf (stem ++ 0x2e :: extension) =
      if stem = [] ∨ extension = [] then stem ++ 0x2e :: extension else stem := by
  have htake : (stem ++ 0x2e :: extension).reverse.takeWhile (· ≠ 0x2e) = extension.reverse := by
    rw [reverse_append, reverse_cons, append_assoc, takeWhile_append_of_pos]
    · simp
    · intro c hc
      have hne : c ≠ 0x2e := fun hdot => h (hdot ▸ mem_reverse.mp hc)
      simpa using hne
  unfold stemOf
  dsimp only
  rw [htake, length_reverse]
  by_cases hstem : stem = []
  · rw [if_neg (by simp [hstem]), if_pos (Or.inl hstem)]
  · by_cases hextension : extension = []
    · rw [if_neg (by simp [hextension]), if_pos (Or.inr hextension)]
    · have hlength : 0 < stem.length := length_pos_of_ne_nil hstem
      rw [if_pos ⟨by simpa using hextension, by simp; omega⟩,
        if_neg (by simp [hstem, hextension])]
      have hcount : (stem ++ 0x2e :: extension).length - extension.length - 1 = stem.length := by
        simp
        omega
      rw [hcount, take_left]

theorem exists_last_dot {name : Text} (h : 0x2e ∈ name) :
    ∃ stem extension, name = stem ++ 0x2e :: extension ∧ 0x2e ∉ extension := by
  obtain ⟨front, back, hsplit, hfront⟩ :=
    eq_append_cons_of_mem (mem_reverse.mpr h)
  refine ⟨back.reverse, front.reverse, ?_, by simpa using hfront⟩
  have hname := congrArg reverse hsplit
  simpa using hname

theorem stemOf_casefold (name : Text) : stemOf (env.casefold name) = env.casefold (stemOf name) := by
  by_cases hdot : 0x2e ∈ name
  · obtain ⟨stem, extension, rfl, hextension⟩ := exists_last_dot hdot
    rw [casefold_append, casefold_dot_cons, stemOf_dot (mt dot_mem_casefold.mp hextension),
      stemOf_dot hextension]
    simp only [casefold_eq_nil]
    split
    · rw [casefold_append, casefold_dot_cons]
    · rfl
  · rw [stemOf_plain hdot, stemOf_plain (mt dot_mem_casefold.mp hdot)]
end

section
variable {env : ExtractionEnv}

def foldPath (env : ExtractionEnv) (p : PurePath) : PurePath := {p with tail := p.tail.map env.casefold}

def bareOf (p : PurePath) : PurePath := {p with tail := p.tail.dropLast ++ [stemOf p.name]}

structure Parsed (p : PurePath) : Prop where
  root : p.root = [] ∨ p.root = [0x2f] ∨ p.root = [0x2f, 0x2f]
  components : ∀ part ∈ p.tail, isComponent part = true ∧ 0x2f ∉ part

theorem not_mem_of_mem_splitOn {c : CodePoint} {text part : Text} (h : part ∈ splitOn c text) :
    c ∉ part := by
  induction text generalizing part with
  | nil =>
    rw [splitOn, mem_singleton] at h
    simp [h]
  | cons x rest ih =>
    obtain ⟨first, parts, hparts⟩ := exists_cons_of_ne_nil (splitOn_ne_nil c rest)
    rw [hparts] at ih
    rw [splitOn, hparts] at h
    dsimp only at h
    split at h
    next hx =>
      rcases mem_cons.mp h with rfl | h
      · simp
      · exact ih h
    next hx =>
      rcases mem_cons.mp h with rfl | h
      · rw [mem_cons]
        exact not_or.mpr ⟨Ne.symm hx, ih mem_cons_self⟩
      · exact ih (mem_cons_of_mem _ h)

theorem parsed_parsePath (path : Text) : Parsed (parsePath path) := by
  constructor
  · unfold parsePath
    dsimp only
    split <;> simp
  · intro part hpart
    obtain ⟨hmem, hcomponent⟩ := mem_filter.mp hpart
    exact ⟨hcomponent, not_mem_of_mem_splitOn hmem⟩

variable {p : PurePath}

theorem Parsed.parent (h : Parsed p) : Parsed p.parent :=
  ⟨h.root, fun part hpart => h.components part ((dropLast_sublist _).subset hpart)⟩

theorem parsed_parentOf (documents : List IndexedDocument) (source : DocumentId) :
    Parsed (parentOf documents source) := by
  unfold parentOf
  cases documents.find? fun item => item.documentId = source with
  | none => exact ⟨Or.inl rfl, by simp⟩
  | some item => exact (parsed_parsePath item.relativePath).parent

theorem Parsed.join {p q : PurePath} (hp : Parsed p) (hq : Parsed q) : Parsed (p.join q) := by
  unfold PurePath.join
  split
  · refine ⟨hp.root, fun part hpart => ?_⟩
    rcases mem_append.mp hpart with hpart | hpart
    · exact hp.components part hpart
    · exact hq.components part hpart
  · exact hq

theorem parsePath_casefold (path : Text) :
    parsePath (env.casefold path) = foldPath env (parsePath path) := by
  have hroot : ((env.casefold path).takeWhile (· = 0x2f)).length =
      (path.takeWhile (· = 0x2f)).length := by
    induction path with
    | nil => rfl
    | cons c rest ih =>
      by_cases hslash : c = 0x2f
      · subst hslash
        rw [casefold_slash_cons]
        simp [ih]
      · obtain ⟨x, xs, hx⟩ := exists_cons_of_ne_nil (@foldChar_ne_nil env c)
        have hnone : 0x2f ∉ env.casefold [c] := by
          rw [slash_mem_casefold]
          simpa using Ne.symm hslash
        have hxs : env.casefold [c] = x :: xs := by simpa [ExtractionEnv.casefold] using hx
        have hxne : x ≠ 0x2f := by
          rintro rfl
          exact hnone (hxs ▸ mem_cons_self)
        rw [casefold_cons, hx]
        simp [hslash, hxne]
  have htail : (parsePath (env.casefold path)).tail = (foldPath env (parsePath path)).tail := by
    unfold foldPath parsePath
    dsimp only
    rw [splitOn_casefold, filter_map]
    congr 1
    exact filter_congr fun part _ => isComponent_casefold part
  have hhead : (parsePath (env.casefold path)).root = (foldPath env (parsePath path)).root := by
    unfold foldPath parsePath
    dsimp only
    rw [hroot]
  cases hleft : parsePath (env.casefold path)
  cases hright : foldPath env (parsePath path)
  simp_all

theorem name_foldPath (p : PurePath) : (foldPath env p).name = env.casefold p.name := by
  unfold PurePath.name foldPath
  rw [getLast?_map]
  cases p.tail.getLast? <;> rfl

theorem foldPath_bareOf (p : PurePath) : bareOf (foldPath env p) = foldPath env (bareOf p) := by
  unfold bareOf
  rw [name_foldPath, stemOf_casefold]
  simp [foldPath]

theorem foldPath_join (p q : PurePath) :
    foldPath env (p.join q) = (foldPath env p).join (foldPath env q) := by
  unfold PurePath.join foldPath
  dsimp only
  split <;> simp

theorem dots_mem_foldPath : [0x2e, 0x2e] ∈ (foldPath env p).tail ↔ [0x2e, 0x2e] ∈ p.tail := by
  unfold foldPath
  rw [mem_map]
  constructor
  · rintro ⟨part, hpart, hfold⟩
    exact casefold_eq_dots.mp hfold ▸ hpart
  · exact fun h => ⟨_, h, casefold_eq_dots.mpr rfl⟩

theorem casefold_asPosix (hrooted : p.root = [] ∨ p.root = [0x2f] ∨ p.root = [0x2f, 0x2f]) :
    env.casefold p.asPosix = (foldPath env p).asPosix := by
  have hjoin : ∀ parts : List Text, env.casefold (parts.intersperse [0x2f]).flatten =
      ((parts.map env.casefold).intersperse [0x2f]).flatten := by
    intro parts
    induction parts with
    | nil => rfl
    | cons part parts ih =>
      cases parts with
      | nil => simp
      | cons part' parts =>
        rw [intersperse_cons₂, flatten_cons, flatten_cons, casefold_append,
          casefold_append, ih]
        simp [ExtractionEnv.casefold, env.fold_slash]
  have hroot : env.casefold p.root = p.root := by
    rcases hrooted with hroot | hroot | hroot <;> rw [hroot] <;>
      simp [ExtractionEnv.casefold, env.fold_slash]
  unfold PurePath.asPosix foldPath
  dsimp only
  simp only [map_eq_nil_iff]
  split
  · exact casefold_eq_dot.mpr rfl
  · rw [casefold_append, hroot, hjoin]

theorem splitOn_separator (c : CodePoint) (text : Text) :
    splitOn c (c :: text) = [] :: splitOn c text := by
  obtain ⟨first, parts, hparts⟩ := exists_cons_of_ne_nil (splitOn_ne_nil c text)
  rw [splitOn, hparts]
  simp

theorem splitOn_joined {parts : List Text} (hparts : ∀ part ∈ parts, 0x2f ∉ part)
    (hne : parts ≠ []) : splitOn 0x2f (parts.intersperse [0x2f]).flatten = parts := by
  induction parts with
  | nil => exact absurd rfl hne
  | cons part parts ih =>
    have hpart := hparts part mem_cons_self
    cases parts with
    | nil =>
      obtain ⟨first, rest, hfirst, happend⟩ := splitOn_append hpart []
      obtain ⟨rfl, rfl⟩ := cons.inj (hfirst.symm.trans rfl)
      simpa using happend
    | cons part' parts =>
      have hrest := ih (fun part h => hparts part (mem_cons_of_mem _ h)) (by simp)
      have hslash : splitOn 0x2f (0x2f :: ((part' :: parts).intersperse [0x2f]).flatten) =
          [] :: part' :: parts := by
        rw [splitOn_separator, hrest]
      obtain ⟨first, rest, hfirst, happend⟩ := splitOn_append hpart
        (0x2f :: ((part' :: parts).intersperse [0x2f]).flatten)
      rw [hslash] at hfirst
      obtain ⟨rfl, rfl⟩ := cons.inj hfirst
      rw [append_nil] at happend
      simpa [intersperse_cons₂] using happend

theorem parsePath_asPosix (h : Parsed p) : parsePath p.asPosix = p := by
  obtain ⟨root, tail⟩ := p
  obtain ⟨hroot, hparts⟩ := h
  dsimp only at hroot hparts
  have hfilter : tail.filter isComponent = tail := filter_eq_self.mpr fun part hpart =>
    (hparts part hpart).1
  by_cases htail : tail = []
  · subst htail
    rcases hroot with rfl | rfl | rfl <;> decide
  · have hsplit := splitOn_joined (fun part hpart => (hparts part hpart).2) htail
    obtain ⟨part, parts, rfl⟩ := exists_cons_of_ne_nil htail
    obtain ⟨hcomponent, hslash⟩ := hparts part mem_cons_self
    have hhead : ((part :: parts).intersperse [0x2f]).flatten.takeWhile (· = 0x2f) = [] := by
      cases part with
      | nil => simp [isComponent] at hcomponent
      | cons c part =>
        have hc : c ≠ 0x2f := fun hc => hslash (hc ▸ mem_cons_self)
        cases parts <;> simp [intersperse, hc]
    have hposix : PurePath.asPosix ⟨root, part :: parts⟩ =
        root ++ ((part :: parts).intersperse [0x2f]).flatten := by
      simp [PurePath.asPosix]
    rw [hposix]
    unfold parsePath
    rcases hroot with rfl | rfl | rfl
    · rw [nil_append, hhead, hsplit, hfilter]
      rfl
    · rw [singleton_append, splitOn_separator, hsplit, takeWhile_cons, hhead,
        filter_cons_of_neg (by decide), hfilter]
      rfl
    · rw [cons_append, singleton_append, splitOn_separator, splitOn_separator, hsplit,
        takeWhile_cons, takeWhile_cons, hhead, filter_cons_of_neg (by decide),
        filter_cons_of_neg (by decide), hfilter]
      rfl

theorem foldPath_of_asPosix {p q : PurePath} (hp : Parsed p) (hq : Parsed q)
    (h : env.casefold p.asPosix = env.casefold q.asPosix) : foldPath env p = foldPath env q := by
  rw [← parsePath_asPosix hp, ← parsePath_asPosix hq, ← parsePath_casefold, ← parsePath_casefold, h]
end

section
variable {env : IndexEnv}

theorem withoutSuffix_named {p : PurePath} (h : p.name ≠ []) : withoutSuffix p = .ok (bareOf p) := by
  rw [withoutSuffix, if_neg h, bareOf]

attribute [local instance] text_lawful in
def relativeKeys (env : IndexEnv) (parent : PurePath) (linkType : LinkType) (target : Text) :
    List Text :=
  let candidate := parent.join (parsePath target)
  if linkType ≠ .wikilink ∧ [0x2e, 0x2e] ∉ candidate.tail then
    [env.casefold candidate.asPosix, env.casefold (bareOf candidate).asPosix]
  else []

def targetPathKeys (env : IndexEnv) (target : Text) : List Text :=
  [env.casefold target, env.casefold (bareOf (parsePath target)).asPosix]

def targetNameKeys (env : IndexEnv) (target : Text) : List Text :=
  [env.casefold (parsePath target).name, env.casefold (stemOf (parsePath target).name)]

def answer (byPath byName : Keys) (relative path name : List Text) : LinkTarget :=
  let relative := boundedCandidateUnion (relative.map (byPath.bucket .path))
  let found := if relative.2 ≠ 0 then relative
    else boundedCandidateUnion (path.map (byPath.bucket .path) ++ name.map (byName.bucket .name))
  if found.2 = 1 then ⟨found.1.head?, .resolved, found.1, found.2⟩
  else if found.2 ≠ 0 then ⟨none, .ambiguous, found.1, found.2⟩ else {}

variable {byPath byName : Keys}

theorem lookupTarget_named {parent : PurePath} {linkType : LinkType} {target : Text}
    (h : (parsePath target).name ≠ []) : lookupTarget env byPath byName parent linkType target =
      .ok (answer byPath byName (relativeKeys env parent linkType target)
        (targetPathKeys env target) (targetNameKeys env target)) := by
  have hcandidate := withoutSuffix_named (name_join (p := parent) h)
  unfold lookupTarget relativeLookups relativeKeys
  dsimp only
  rw [withoutSuffix_named h, hcandidate]
  split <;> rfl

variable {parent parent' : PurePath} {target target' : Text}

theorem relativeKeys_congr {linkType : LinkType} (hparent : Parsed parent)
    (hparent' : Parsed parent')
    (hfold : linkType ≠ .wikilink → foldPath env.toExtractionEnv parent =
      foldPath env.toExtractionEnv parent') (htarget : env.casefold target = env.casefold target') :
    relativeKeys env parent linkType target = relativeKeys env parent' linkType target' := by
  by_cases hlink : linkType = .wikilink
  · simp [relativeKeys, hlink]
  have hpath : foldPath env.toExtractionEnv (parsePath target) =
      foldPath env.toExtractionEnv (parsePath target') := by
    rw [← parsePath_casefold, ← parsePath_casefold, htarget]
  have hjoin : foldPath env.toExtractionEnv (parent.join (parsePath target)) =
      foldPath env.toExtractionEnv (parent'.join (parsePath target')) := by
    rw [foldPath_join, foldPath_join, hfold hlink, hpath]
  have hroot := (hparent.join (parsed_parsePath target)).root
  have hroot' := (hparent'.join (parsed_parsePath target')).root
  have hdots : [0x2e, 0x2e] ∈ (parent.join (parsePath target)).tail ↔
      [0x2e, 0x2e] ∈ (parent'.join (parsePath target')).tail := by
    rw [← @dots_mem_foldPath env.toExtractionEnv, hjoin, dots_mem_foldPath]
  have hbare : foldPath env.toExtractionEnv (bareOf (parent.join (parsePath target))) =
      foldPath env.toExtractionEnv (bareOf (parent'.join (parsePath target'))) := by
    rw [← foldPath_bareOf, ← foldPath_bareOf, hjoin]
  unfold relativeKeys
  dsimp only
  rw [casefold_asPosix hroot, casefold_asPosix hroot', casefold_asPosix (p := bareOf _) hroot,
    casefold_asPosix (p := bareOf _) hroot', hjoin, hbare]
  simp only [hdots]

theorem targetKeys_congr (htarget : env.casefold target = env.casefold target') :
    targetPathKeys env target = targetPathKeys env target' ∧
      targetNameKeys env target = targetNameKeys env target' := by
  have hpath : foldPath env.toExtractionEnv (parsePath target) =
      foldPath env.toExtractionEnv (parsePath target') := by
    rw [← parsePath_casefold, ← parsePath_casefold, htarget]
  have hbare : foldPath env.toExtractionEnv (bareOf (parsePath target)) =
      foldPath env.toExtractionEnv (bareOf (parsePath target')) := by
    rw [← foldPath_bareOf, ← foldPath_bareOf, hpath]
  have hname : env.casefold (parsePath target).name = env.casefold (parsePath target').name := by
    rw [← name_foldPath, ← name_foldPath, hpath]
  unfold targetPathKeys targetNameKeys
  rw [casefold_asPosix (p := bareOf (parsePath target)) (parsed_parsePath target).root,
    casefold_asPosix (p := bareOf (parsePath target')) (parsed_parsePath target').root, hbare, htarget, hname,
    ← stemOf_casefold, ← stemOf_casefold, hname]
  exact ⟨rfl, rfl⟩

theorem answer_congr {linkType linkType' : LinkType} (hparent : Parsed parent)
    (hparent' : Parsed parent')
    (h : cacheKey env parent linkType target = cacheKey env parent' linkType' target') :
    answer byPath byName (relativeKeys env parent linkType target) (targetPathKeys env target)
        (targetNameKeys env target) =
      answer byPath byName (relativeKeys env parent' linkType' target')
        (targetPathKeys env target') (targetNameKeys env target') := by
  obtain ⟨rfl, hrest⟩ := Prod.mk.inj h
  obtain ⟨hfolder, htarget⟩ := Prod.mk.inj hrest
  have hfold : linkType ≠ .wikilink → foldPath env.toExtractionEnv parent =
      foldPath env.toExtractionEnv parent' := by
    intro hlink
    rw [if_neg hlink, if_neg hlink] at hfolder
    exact foldPath_of_asPosix hparent hparent' hfolder
  rw [relativeKeys_congr hparent hparent' hfold htarget, (targetKeys_congr htarget).1,
    (targetKeys_congr htarget).2]

def CacheSound (env : IndexEnv) (byPath byName : Keys) (cache : List (CacheKey × LinkTarget)) :
    Prop :=
  ∀ entry ∈ cache, ∃ parent linkType target, Parsed parent ∧
    entry.1 = cacheKey env parent linkType target ∧
    entry.2 = answer byPath byName (relativeKeys env parent linkType target)
      (targetPathKeys env target) (targetNameKeys env target)

def answerOf (env : IndexEnv) (documents : List IndexedDocument) (byPath byName : Keys)
    (row : LinkRow) : LinkTarget :=
  answer byPath byName
    (relativeKeys env (parentOf documents row.source) row.link.linkType (linkText row.link))
    (targetPathKeys env (linkText row.link)) (targetNameKeys env (linkText row.link))

theorem resolveRows_answers {documents : List IndexedDocument} {rows rows' : List LinkRow}
    {cache : List (CacheKey × LinkTarget)} (hcache : CacheSound env byPath byName cache)
    (h : resolveRows env documents byPath byName rows cache = .ok rows') :
    rows' = rows.map fun row => {row with found := answerOf env documents byPath byName row} := by
  induction rows generalizing cache rows' with
  | nil => exact (Except.ok.inj h).symm
  | cons row rows ih =>
    have hparent := parsed_parentOf documents row.source
    simp only [resolveRows] at h
    split at h
    next cached hcached =>
      obtain ⟨parent, linkType, target, hparsed, hkey, hanswer⟩ :=
        hcache cached (mem_of_find?_eq_some hcached)
      have hsame : cached.1 = cacheKey env (parentOf documents row.source) row.link.linkType
          (linkText row.link) := by simpa using find?_some hcached
      have hfound : cached.2 = answerOf env documents byPath byName row :=
        hanswer.trans (answer_congr hparsed hparent (hkey.symm.trans hsame))
      obtain ⟨rest, hrest, hok⟩ := bind_eq_ok.mp h
      rw [← Except.ok.inj hok, ih hcache hrest, hfound]
      rfl
    next =>
      split at h
      next fault hfault => cases h
      next found hfound =>
        have hnamed := lookupTarget_eq_ok.mp ⟨found, hfound⟩
        rw [lookupTarget_named hnamed] at hfound
        obtain ⟨rest, hrest, hok⟩ := bind_eq_ok.mp h
        have hrows := ih ?_ hrest
        · rw [← Except.ok.inj hok, hrows, ← Except.ok.inj hfound]
          rfl
        · intro entry hentry
          rcases mem_cons.mp hentry with rfl | hentry
          · exact ⟨_, _, _, hparent, rfl, (Except.ok.inj hfound).symm⟩
          · exact hcache entry hentry
end

section

theorem sorted_merge {le : DocumentId → DocumentId → Bool} (hle : ∀ a b, le a b = true ↔ a ≤ b)
    {xs ys : List DocumentId} (hx : xs.Pairwise (· ≤ ·)) (hy : ys.Pairwise (· ≤ ·)) :
    (xs.merge ys le).Pairwise (· ≤ ·) := by
  have htrans : ∀ a b c, le a b = true → le b c = true → le a c = true := by
    intro a b c hab hbc
    rw [hle] at hab hbc ⊢
    exact le_trans hab hbc
  have htotal : ∀ a b, (le a b || le b a) = true := by
    intro a b
    rw [Bool.or_eq_true, hle, hle]
    exact le_total a b
  have hmerge := pairwise_merge htrans htotal xs ys (hx.imp fun h => (hle _ _).mpr h)
    (hy.imp fun h => (hle _ _).mpr h)
  exact hmerge.imp fun h => (hle _ _).mp h

variable {sources : List (List DocumentId)}

theorem sorted_mergeSources (h : ∀ source ∈ sources, source.Pairwise (· ≤ ·)) :
    (mergeSources sources).Pairwise (· ≤ ·) := by
  induction sources with
  | nil => exact List.Pairwise.nil
  | cons source sources ih =>
    rw [mergeSources, foldr_cons]
    exact sorted_merge (fun a b => decide_eq_true_iff) (h source mem_cons_self)
      (ih fun s hs => h s (mem_cons_of_mem _ hs))

theorem mem_mergeSources {d : DocumentId} :
    d ∈ mergeSources sources ↔ ∃ source ∈ sources, d ∈ source := by
  induction sources with
  | nil => simp [mergeSources]
  | cons source sources ih =>
    rw [mergeSources, foldr_cons, mem_merge, ← mergeSources, ih]
    simp

theorem skipRepeats_sorted {previous : Option DocumentId} {xs : List DocumentId}
    (h : xs.Pairwise (· ≤ ·)) (hprevious : ∀ p ∈ previous, ∀ x ∈ xs, p ≤ x) :
    (skipRepeats previous xs).Pairwise (· < ·) ∧
      ∀ d, d ∈ skipRepeats previous xs ↔ d ∈ xs ∧ some d ≠ previous := by
  induction xs generalizing previous with
  | nil => simp [skipRepeats]
  | cons x xs ih =>
    obtain ⟨hx, hxs⟩ := pairwise_cons.mp h
    rw [skipRepeats]
    split
    next hsame =>
      subst hsame
      obtain ⟨hsorted, hmem⟩ := ih hxs fun p hp y hy => by
        obtain rfl := Option.some.inj hp
        exact hx y hy
      refine ⟨hsorted, fun d => ?_⟩
      rw [hmem]
      constructor
      · exact fun hd => ⟨mem_cons_of_mem _ hd.1, hd.2⟩
      · rintro ⟨hd, hne⟩
        exact ⟨(mem_cons.mp hd).resolve_left fun heq => hne (congrArg some heq), hne⟩
    next hother =>
      obtain ⟨hsorted, hmem⟩ := @ih (some x) hxs fun p hp y hy => by
        obtain rfl := Option.some.inj hp
        exact hx y hy
      constructor
      · rw [pairwise_cons]
        refine ⟨fun d hd => ?_, hsorted⟩
        obtain ⟨hd, hne⟩ := (hmem d).mp hd
        exact lt_of_le_of_ne (hx d hd) fun heq => hne (congrArg some heq.symm)
      · intro d
        rw [mem_cons, hmem, mem_cons]
        constructor
        · rintro (rfl | ⟨hd, hne⟩)
          · exact ⟨Or.inl rfl, hother⟩
          · refine ⟨Or.inr hd, fun heq => ?_⟩
            subst heq
            have hle : d ≤ x := hprevious d rfl x mem_cons_self
            exact hne (congrArg some (le_antisymm hle (hx d hd)))
        · rintro ⟨rfl | hd, hne⟩
          · exact Or.inl rfl
          · by_cases heq : d = x
            · exact Or.inl heq
            · exact Or.inr ⟨hd, fun h => heq (Option.some.inj h)⟩

theorem mem_uniqueSources {sources : List Bucket}
    (hobjects : ∀ a ∈ sources, ∀ b ∈ sources, a.object = b.object → a.ids = b.ids) {d : DocumentId} :
    (∃ source ∈ uniqueSources sources, d ∈ source.ids) ↔ ∃ source ∈ sources, d ∈ source.ids := by
  induction sources with
  | nil => simp [uniqueSources]
  | cons source sources ih =>
    have hrest := ih fun a ha b hb => hobjects a (mem_cons_of_mem _ ha) b
      (mem_cons_of_mem _ hb)
    have hsub : ∀ {sources : List Bucket} {b : Bucket}, b ∈ uniqueSources sources →
        b ∈ sources := by
      intro sources
      induction sources with
      | nil => exact fun h => h
      | cons a sources ih' =>
        intro b hb
        rw [uniqueSources] at hb
        split at hb
        · exact mem_cons_of_mem _ (ih' hb)
        · rcases mem_cons.mp hb with rfl | hb
          · exact mem_cons_self
          · exact mem_cons_of_mem _ (ih' (mem_filter.mp hb).1)
    rw [uniqueSources]
    split
    next hempty =>
      rw [hrest]
      simp [hempty]
    next =>
      constructor
      · rintro ⟨b, hb, hd⟩
        rcases mem_cons.mp hb with rfl | hb
        · exact ⟨b, mem_cons_self, hd⟩
        · exact ⟨b, mem_cons_of_mem _ (hsub (mem_filter.mp hb).1), hd⟩
      · rintro ⟨b, hb, hd⟩
        rcases mem_cons.mp hb with rfl | hb
        · exact ⟨b, mem_cons_self, hd⟩
        · obtain ⟨b, hb, hd⟩ := hrest.mpr ⟨b, hb, hd⟩
          by_cases hobject : b.object = source.object
          · have hids := hobjects b (mem_cons_of_mem _ (hsub hb)) source mem_cons_self
              hobject
            exact ⟨source, mem_cons_self, hids ▸ hd⟩
          · exact ⟨b, mem_cons_of_mem _ (mem_filter.mpr ⟨hb, by simpa using hobject⟩), hd⟩

theorem uniqueSources_sublist (sources : List Bucket) :
    (uniqueSources sources).Sublist sources := by
  induction sources with
  | nil => exact List.Sublist.slnil
  | cons source sources ih =>
    rw [uniqueSources]
    split
    · exact ih.cons _
    · exact (filter_sublist.trans ih).cons_cons _

theorem boundedCandidateUnion_sorted {sources : List Bucket}
    (hsorted : ∀ source ∈ sources, source.ids.Pairwise (· ≤ ·))
    (hobjects : ∀ a ∈ sources, ∀ b ∈ sources, a.object = b.object → a.ids = b.ids) :
    ∃ union : List DocumentId, union.Pairwise (· < ·) ∧
      (∀ d, d ∈ union ↔ ∃ source ∈ sources, d ∈ source.ids) ∧
      boundedCandidateUnion sources = (union.take retainedLimit, union.length) := by
  have hmerged : (mergeSources ((uniqueSources sources).map Bucket.ids)).Pairwise (· ≤ ·) := by
    apply sorted_mergeSources
    intro ids hids
    obtain ⟨source, hsource, rfl⟩ := mem_map.mp hids
    exact hsorted source ((uniqueSources_sublist sources).subset hsource)
  obtain ⟨hunion, hmem⟩ := @skipRepeats_sorted none _ hmerged fun p hp => by cases hp
  refine ⟨_, hunion, fun d => ?_, rfl⟩
  rw [hmem, mem_mergeSources, ← mem_uniqueSources hobjects]
  simp
end

section
variable {env : IndexEnv}

def FoundByPath (env : IndexEnv) (item : IndexedDocument) (keys : List Text) : Prop :=
  env.casefold item.relativePath ∈ keys ∨
    env.casefold (bareOf (parsePath item.relativePath)).asPosix ∈ keys

def FoundByName (env : IndexEnv) (item : IndexedDocument) (keys : List Text) : Prop :=
  env.casefold (parsePath item.relativePath).name ∈ keys ∨
    env.casefold (stemOf (parsePath item.relativePath).name) ∈ keys ∨
    env.casefold item.metadata.title ∈ keys ∨
    ∃ other ∈ item.metadata.aliases, env.casefold other ∈ keys

def MatchesRelative (env : IndexEnv) (index : Index) (row : LinkRow) (item : IndexedDocument) :
    Prop :=
  item ∈ index.documents ∧ FoundByPath env item
    (relativeKeys env (parentOf index.documents row.source) row.link.linkType (linkText row.link))

def Matches (env : IndexEnv) (index : Index) (row : LinkRow) (item : IndexedDocument) : Prop :=
  MatchesRelative env index row item ∨
    (∀ other, ¬MatchesRelative env index row other) ∧ item ∈ index.documents ∧
      (FoundByPath env item (targetPathKeys env (linkText row.link)) ∨
        FoundByName env item (targetNameKeys env (linkText row.link)))

structure RightlyMarked (env : IndexEnv) (index : Index) (row : LinkRow) : Prop where
  resolved : ∀ d, row.found.resolution = .resolved ∧ row.found.target = some d ↔
    (∃ item, Matches env index row item ∧ item.documentId = d) ∧
      ∀ item, Matches env index row item → item.documentId = d
  ambiguous : row.found.resolution = .ambiguous ↔
    ∃ item item', Matches env index row item ∧ Matches env index row item' ∧
      item.documentId ≠ item'.documentId
  only_resolved : row.found.target ≠ none → row.found.resolution = .resolved
  candidates : ∃ ids : List DocumentId, ids.Pairwise (· < ·) ∧
    (∀ d, d ∈ ids ↔ ∃ item, Matches env index row item ∧ item.documentId = d) ∧
    row.found.count = ids.length ∧ row.found.candidates = ids.take 20

variable {key : Text} {d : DocumentId}

theorem mem_lookup {keys : Keys} :
    d ∈ keys.lookup key ↔ ∃ entry ∈ keys, entry.1 = d ∧ key ∈ entry.2 := by
  simp only [Keys.lookup, mem_flatMap, mem_map, mem_filter, decide_eq_true_eq]
  constructor
  · rintro ⟨entry, hentry, key', ⟨hkey, rfl⟩, rfl⟩
    exact ⟨entry, hentry, rfl, hkey⟩
  · rintro ⟨entry, hentry, rfl, hkey⟩
    exact ⟨entry, hentry, key, ⟨hkey, rfl⟩, rfl⟩

theorem sorted_lookup {keys : Keys} (h : keys.Pairwise fun a b => a.1 ≤ b.1) (key : Text) :
    (keys.lookup key).Pairwise (· ≤ ·) := by
  induction keys with
  | nil => exact List.Pairwise.nil
  | cons entry keys ih =>
    obtain ⟨hentry, hkeys⟩ := pairwise_cons.mp h
    have hcons : Keys.lookup (entry :: keys) key =
        ((entry.2.filter (· = key)).map fun _ => entry.1) ++ Keys.lookup keys key := rfl
    rw [hcons, pairwise_append]
    refine ⟨?_, ih hkeys, ?_⟩
    · rw [pairwise_map]
      exact pairwise_of_forall fun _ _ => le_refl _
    · intro d hd d' hd'
      obtain ⟨-, -, rfl⟩ := mem_map.mp hd
      obtain ⟨entry', hentry', rfl, -⟩ := mem_lookup.mp hd'
      exact hentry entry' hentry'

def ownPathKeys (env : IndexEnv) (item : IndexedDocument) : DocumentId × List Text :=
  (item.documentId, [env.casefold item.relativePath,
    env.casefold (bareOf (parsePath item.relativePath)).asPosix])

variable {documents : List IndexedDocument}

theorem pathKeys_named {byPath : Keys} (h : documents.mapM (pathKeys env) = .ok byPath) :
    byPath = documents.map (ownPathKeys env) := by
  induction documents generalizing byPath with
  | nil => exact (Except.ok.inj h).symm
  | cons item documents ih =>
    rw [mapM_cons] at h
    obtain ⟨keys, hkeys, h⟩ := bind_eq_ok.mp h
    obtain ⟨rest, hrest, h⟩ := bind_eq_ok.mp h
    obtain ⟨bare, hbare, hkeys⟩ := bind_eq_ok.mp hkeys
    have hname := withoutSuffix_eq_ok.mp ⟨bare, hbare⟩
    rw [withoutSuffix_named hname] at hbare
    rw [← Except.ok.inj h, ih hrest, ← Except.ok.inj hkeys, ← Except.ok.inj hbare]
    rfl

theorem mem_pathLookup : d ∈ Keys.lookup (documents.map (ownPathKeys env)) key ↔
      ∃ item ∈ documents, item.documentId = d ∧ FoundByPath env item [key] := by
  rw [mem_lookup]
  constructor
  · rintro ⟨entry, hentry, rfl, hkey⟩
    obtain ⟨item, hitem, rfl⟩ := mem_map.mp hentry
    refine ⟨item, hitem, rfl, ?_⟩
    simpa [ownPathKeys, FoundByPath, eq_comm] using hkey
  · rintro ⟨item, hitem, rfl, hkey⟩
    refine ⟨_, mem_map_of_mem hitem, rfl, ?_⟩
    simpa [ownPathKeys, FoundByPath, eq_comm] using hkey

theorem mem_nameLookup : d ∈ Keys.lookup (documents.map (nameKeys env)) key ↔
      ∃ item ∈ documents, item.documentId = d ∧ FoundByName env item [key] := by
  rw [mem_lookup]
  constructor
  · rintro ⟨entry, hentry, rfl, hkey⟩
    obtain ⟨item, hitem, rfl⟩ := mem_map.mp hentry
    refine ⟨item, hitem, rfl, ?_⟩
    simpa [nameKeys, FoundByName, eq_comm] using hkey
  · rintro ⟨item, hitem, rfl, hkey⟩
    refine ⟨_, mem_map_of_mem hitem, rfl, ?_⟩
    simpa [nameKeys, FoundByName, eq_comm] using hkey

variable {item : IndexedDocument}

theorem foundByPath_iff {keys : List Text} :
    FoundByPath env item keys ↔ ∃ key ∈ keys, FoundByPath env item [key] := by
  simp only [FoundByPath, mem_singleton]
  constructor
  · rintro (h | h)
    · exact ⟨_, h, Or.inl rfl⟩
    · exact ⟨_, h, Or.inr rfl⟩
  · rintro ⟨key, hkey, rfl | rfl⟩
    · exact Or.inl hkey
    · exact Or.inr hkey

theorem foundByName_iff {keys : List Text} :
    FoundByName env item keys ↔ ∃ key ∈ keys, FoundByName env item [key] := by
  simp only [FoundByName, mem_singleton]
  constructor
  · rintro (h | h | h | ⟨other, hother, h⟩)
    · exact ⟨_, h, Or.inl rfl⟩
    · exact ⟨_, h, Or.inr (Or.inl rfl)⟩
    · exact ⟨_, h, Or.inr (Or.inr (Or.inl rfl))⟩
    · exact ⟨_, h, Or.inr (Or.inr (Or.inr ⟨other, hother, rfl⟩))⟩
  · rintro ⟨key, hkey, rfl | rfl | rfl | ⟨other, hother, rfl⟩⟩
    · exact Or.inl hkey
    · exact Or.inr (Or.inl hkey)
    · exact Or.inr (Or.inr (Or.inl hkey))
    · exact Or.inr (Or.inr (Or.inr ⟨other, hother, hkey⟩))

theorem union_found (hsorted : documents.Pairwise fun a b => a.documentId ≤ b.documentId)
    (pathKeys nameKeys' : List Text) : ∃ union : List DocumentId, union.Pairwise (· < ·) ∧
      (∀ d, d ∈ union ↔ ∃ item ∈ documents, item.documentId = d ∧
        (FoundByPath env item pathKeys ∨ FoundByName env item nameKeys')) ∧
      boundedCandidateUnion
          (pathKeys.map (Keys.bucket .path (documents.map (ownPathKeys env))) ++
            nameKeys'.map (Keys.bucket .name (documents.map (nameKeys env)))) =
        (union.take retainedLimit, union.length) := by
  have hpath : (documents.map (ownPathKeys env)).Pairwise fun a b => a.1 ≤ b.1 := by
    rw [pairwise_map]
    exact hsorted
  have hname : (documents.map (nameKeys env)).Pairwise fun a b => a.1 ≤ b.1 := by
    rw [pairwise_map]
    exact hsorted
  have hkind : ∀ source ∈ pathKeys.map (Keys.bucket .path (documents.map (ownPathKeys env))) ++
      nameKeys'.map (Keys.bucket .name (documents.map (nameKeys env))),
      (∃ key ∈ pathKeys, source = Keys.bucket .path (documents.map (ownPathKeys env)) key) ∨
        ∃ key ∈ nameKeys', source = Keys.bucket .name (documents.map (nameKeys env)) key := by
    intro source hsource
    rcases mem_append.mp hsource with h | h
    · obtain ⟨key, hkey, rfl⟩ := mem_map.mp h
      exact Or.inl ⟨key, hkey, rfl⟩
    · obtain ⟨key, hkey, rfl⟩ := mem_map.mp h
      exact Or.inr ⟨key, hkey, rfl⟩
  obtain ⟨union, hunion, hmem, hresult⟩ := @boundedCandidateUnion_sorted
    (pathKeys.map (Keys.bucket .path (documents.map (ownPathKeys env))) ++
      nameKeys'.map (Keys.bucket .name (documents.map (nameKeys env))))
    (by
      intro source hsource
      rcases hkind source hsource with ⟨key, -, rfl⟩ | ⟨key, -, rfl⟩
      · exact sorted_lookup hpath key
      · exact sorted_lookup hname key)
    (by
      intro a ha b hb hobject
      rcases hkind a ha with ⟨key, -, rfl⟩ | ⟨key, -, rfl⟩ <;>
        rcases hkind b hb with ⟨key', -, rfl⟩ | ⟨key', -, rfl⟩ <;>
        simp_all [Keys.bucket])
  refine ⟨union, hunion, fun d => ?_, hresult⟩
  rw [hmem]
  constructor
  · rintro ⟨source, hsource, hd⟩
    rcases hkind source hsource with ⟨key, hkey, rfl⟩ | ⟨key, hkey, rfl⟩
    · obtain ⟨item, hitem, hid, hfound⟩ := mem_pathLookup.mp hd
      exact ⟨item, hitem, hid, Or.inl (foundByPath_iff.mpr ⟨key, hkey, hfound⟩)⟩
    · obtain ⟨item, hitem, hid, hfound⟩ := mem_nameLookup.mp hd
      exact ⟨item, hitem, hid, Or.inr (foundByName_iff.mpr ⟨key, hkey, hfound⟩)⟩
  · rintro ⟨item, hitem, hid, hfound | hfound⟩
    · obtain ⟨key, hkey, hfound⟩ := foundByPath_iff.mp hfound
      exact ⟨_, mem_append_left _ (mem_map_of_mem hkey),
        mem_pathLookup.mpr ⟨item, hitem, hid, hfound⟩⟩
    · obtain ⟨key, hkey, hfound⟩ := foundByName_iff.mp hfound
      exact ⟨_, mem_append_right _ (mem_map_of_mem hkey),
        mem_nameLookup.mpr ⟨item, hitem, hid, hfound⟩⟩

def targetOf (matching : List DocumentId) : LinkTarget :=
  if matching.length = 1 then
    ⟨(matching.take retainedLimit).head?, .resolved, matching.take retainedLimit, matching.length⟩
  else if matching.length ≠ 0 then
    ⟨none, .ambiguous, matching.take retainedLimit, matching.length⟩
  else {}

theorem answerOf_matches {index : Index} {documents : List IndexedDocument}
    (hperm : documents.Perm index.documents)
    (hsorted : documents.Pairwise fun a b => a.documentId ≤ b.documentId) {row : LinkRow}
    (hparent : parentOf documents row.source = parentOf index.documents row.source) :
    ∃ matching : List DocumentId, matching.Pairwise (· < ·) ∧
      (∀ d, d ∈ matching ↔ ∃ item, Matches env index row item ∧ item.documentId = d) ∧
      answerOf env documents (documents.map (ownPathKeys env)) (documents.map (nameKeys env)) row =
        targetOf matching := by
  obtain ⟨near, hnear, hnearMem, hnearUnion⟩ := @union_found env documents hsorted
    (relativeKeys env (parentOf documents row.source) row.link.linkType (linkText row.link)) []
  obtain ⟨far, hfar, hfarMem, hfarUnion⟩ := @union_found env documents hsorted
    (targetPathKeys env (linkText row.link)) (targetNameKeys env (linkText row.link))
  have hnone : ∀ item : IndexedDocument, ¬FoundByName env item [] := by
    rintro item (h | h | h | ⟨other, -, h⟩) <;> cases h
  have hrelative : ∀ d, d ∈ near ↔ ∃ item, MatchesRelative env index row item ∧
      item.documentId = d := by
    intro d
    rw [hnearMem, hparent]
    constructor
    · rintro ⟨item, hitem, hid, hfound⟩
      exact ⟨item, ⟨hperm.subset hitem, hfound.resolve_right (hnone item)⟩, hid⟩
    · rintro ⟨item, ⟨hitem, hfound⟩, hid⟩
      exact ⟨item, hperm.symm.subset hitem, hid, Or.inl hfound⟩
  rw [map_nil, append_nil] at hnearUnion
  unfold answerOf answer
  rw [hnearUnion, hfarUnion]
  cases near with
  | nil =>
    refine ⟨far, hfar, fun d => ?_, rfl⟩
    have hempty : ∀ item, ¬MatchesRelative env index row item := fun item h =>
      absurd ((hrelative _).mpr ⟨item, h, rfl⟩) (by simp)
    rw [hfarMem]
    constructor
    · rintro ⟨item, hitem, hid, hfound⟩
      exact ⟨item, Or.inr ⟨hempty, hperm.subset hitem, hfound⟩, hid⟩
    · rintro ⟨item, h | ⟨-, hitem, hfound⟩, hid⟩
      · exact absurd h (hempty item)
      · exact ⟨item, hperm.symm.subset hitem, hid, hfound⟩
  | cons first rest =>
    refine ⟨first :: rest, hnear, fun d => ?_, rfl⟩
    obtain ⟨one, hone, -⟩ := (hrelative first).mp mem_cons_self
    rw [hrelative]
    constructor
    · rintro ⟨item, h, hid⟩
      exact ⟨item, Or.inl h, hid⟩
    · rintro ⟨item, h | ⟨hno, -⟩, hid⟩
      · exact ⟨item, h, hid⟩
      · exact absurd hone (hno one)

theorem rightlyMarked_of_matches {index : Index} {row : LinkRow} {matching : List DocumentId}
    (hsorted : matching.Pairwise (· < ·))
    (hmem : ∀ d, d ∈ matching ↔ ∃ item, Matches env index row item ∧ item.documentId = d)
    (hfound : row.found = targetOf matching) : RightlyMarked env index row := by
  have hids : ∀ item, Matches env index row item → item.documentId ∈ matching := fun item h =>
    (hmem _).mpr ⟨item, h, rfl⟩
  match matching, hsorted, hmem, hids with
  | [], _, hmem, hids =>
    have hnone : ∀ item, ¬Matches env index row item := fun item h => by simpa using hids item h
    refine ⟨fun d => ?_, ?_, ?_, [], List.Pairwise.nil, hmem, ?_⟩ <;> rw [hfound]
    · simp [targetOf, hnone]
    · simp [targetOf, hnone]
    · simp [targetOf]
    · simp [targetOf]
  | [one], hsorted, hmem, hids =>
    have hone : ∀ item, Matches env index row item → item.documentId = one := fun item h => by
      simpa using hids item h
    obtain ⟨item, hitem, hid⟩ := (hmem one).mp mem_cons_self
    refine ⟨fun d => ?_, ?_, ?_, [one], hsorted, hmem, ?_⟩ <;> rw [hfound]
    · have htarget : targetOf [one] = ⟨some one, .resolved, [one], 1⟩ := rfl
      rw [htarget]
      constructor
      · rintro ⟨-, hd⟩
        obtain rfl := Option.some.inj hd
        exact ⟨⟨item, hitem, hid⟩, hone⟩
      · rintro ⟨-, hall⟩
        exact ⟨rfl, congrArg some (hid.symm.trans (hall item hitem))⟩
    · refine iff_of_false (by simp [targetOf]) ?_
      rintro ⟨a, b, ha, hb, hne⟩
      exact hne ((hone a ha).trans (hone b hb).symm)
    · simp [targetOf]
    · exact ⟨rfl, rfl⟩
  | one :: two :: rest, hsorted, hmem, hids =>
    obtain ⟨a, ha, hida⟩ := (hmem one).mp mem_cons_self
    obtain ⟨b, hb, hidb⟩ := (hmem two).mp (mem_cons_of_mem _ mem_cons_self)
    have hlt : one < two := (pairwise_cons.mp hsorted).1 two mem_cons_self
    have hne : a.documentId ≠ b.documentId := by
      rw [hida, hidb]
      exact ne_of_lt hlt
    refine ⟨fun d => ?_, ?_, ?_, _, hsorted, hmem, ?_⟩ <;> rw [hfound]
    · refine iff_of_false (by simp [targetOf]) ?_
      rintro ⟨-, hall⟩
      exact hne ((hall a ha).trans (hall b hb).symm)
    · exact iff_of_true (by simp [targetOf]) ⟨a, b, ha, hb, hne⟩
    · simp [targetOf]
    · exact ⟨by simp [targetOf], by simp [targetOf, retainedLimit]⟩

theorem parentOf_perm {documents documents' : List IndexedDocument}
    (hperm : documents.Perm documents')
    (hdistinct : (documents'.map IndexedDocument.documentId).Nodup) (source : DocumentId) :
    parentOf documents source = parentOf documents' source := by
  have hfind : (documents.find? fun item => item.documentId = source) =
      documents'.find? fun item => item.documentId = source := by
    cases hleft : documents.find? fun item => item.documentId = source with
    | none =>
      symm
      rw [find?_eq_none] at hleft ⊢
      exact fun item hitem => hleft item (hperm.symm.subset hitem)
    | some item =>
      have hmem := hperm.subset (mem_of_find?_eq_some hleft)
      have hid : item.documentId = source := by simpa using find?_some hleft
      cases hright : documents'.find? fun item => item.documentId = source with
      | none => exact absurd hid (by simpa using find?_eq_none.mp hright item hmem)
      | some item' =>
        have hmem' := mem_of_find?_eq_some hright
        have hid' : item'.documentId = source := by simpa using find?_some hright
        rw [inj_on_of_nodup_map hdistinct hmem hmem' (hid.trans hid'.symm)]
  unfold parentOf
  rw [hfind]

structure LinksMarked (env : IndexEnv) (index index' : Index) : Prop where
  kept : ∀ row ∈ index.links, ∃ row' ∈ index'.links,
    row'.linkId = row.linkId ∧ row'.source = row.source ∧ row'.link = row.link
  marked : ∀ row ∈ index'.links, RightlyMarked env index row

theorem resolveLinks_marked {index index' : Index} (h : Built env index)
    (hok : resolveLinks env index = .ok index') : LinksMarked env index index' := by
  obtain ⟨byPath, hkeys, hok⟩ := bind_eq_ok.mp hok
  obtain ⟨links, hlinks, hok⟩ := bind_eq_ok.mp hok
  obtain rfl := Except.ok.inj hok
  have hperm := perm_insertionSort
    (fun a b : IndexedDocument => a.documentId ≤ b.documentId) index.documents
  have hsorted := pairwise_insertionSort
    (fun a b : IndexedDocument => a.documentId ≤ b.documentId) index.documents
  rw [pathKeys_named hkeys] at hlinks
  have hrows := resolveRows_answers (fun entry hentry => by cases hentry) hlinks
  constructor
  · intro row hrow
    have hmem : row ∈ index.links.insertionSort fun a b => a.linkId ≤ b.linkId :=
      (mem_insertionSort _).mpr hrow
    dsimp only
    rw [hrows]
    exact ⟨_, mem_map_of_mem hmem, rfl, rfl, rfl⟩
  · intro row' hrow'
    dsimp only at hrow'
    rw [hrows] at hrow'
    obtain ⟨row, -, rfl⟩ := mem_map.mp hrow'
    obtain ⟨matching, hmatching, hmem, hanswer⟩ := @answerOf_matches env index _ hperm
      hsorted row (parentOf_perm hperm h.distinct row.source)
    exact rightlyMarked_of_matches hmatching hmem hanswer

/-- The resolution marks every link by what it matches, unless a link names nothing. -/
theorem links_marked_iff {index : Index} (h : Built env index) :
    (∃ index', resolveLinks env index = .ok index' ∧ LinksMarked env index index') ↔
      ∀ row ∈ index.links, Named row.link := by
  rw [← resolveLinks_eq_ok h]
  constructor
  · rintro ⟨index', hok, -⟩
    exact ⟨index', hok⟩
  · rintro ⟨index', hok⟩
    exact ⟨index', hok, resolveLinks_marked h hok⟩

variable (target : String)

def linkingDocument : IndexedDocument where
  documentId := chars "docs/a.md"
  relativePath := chars "docs/a.md"
  sizeBytes := 0
  contentSha256 := []
  metadata := { title := chars "A", links := [⟨chars target, chars target, none, none, .markdown,
    false, []⟩] }
  mtime := 0
  firstSeen := []
  gitStatus := []
  text := none

def linkingIndex : Index where
  documents := [linkingDocument target]
  links := linkRows asciiEnv (linkingDocument target)

theorem linkingIndex_built : Built asciiEnv (linkingIndex target) := by
  constructor
  · have hvisible : asciiEnv.visible (chars "docs/a.md") = true := by decide
    simpa [linkingIndex, linkingDocument] using hvisible
  · simp [linkingIndex]
  · simp [linkingIndex]
  · simp [linkingIndex]
  · intro row hrow
    have hone : row = ⟨asciiEnv.linkId (chars "docs/a.md") 0 (chars target) [], chars "docs/a.md",
        ⟨chars target, chars target, none, none, .markdown, false, []⟩, {}⟩ := by
      simpa [linkingIndex, linkRows, linkingDocument] using hrow
    subst hone
    exact ⟨by simp [linkingIndex, linkingDocument], 0, chars target, [], rfl⟩

/-- A link to the own folder ends the resolution. -/
theorem dot_link_unmarked : ¬∃ index', resolveLinks asciiEnv (linkingIndex ".") = .ok index' ∧
    LinksMarked asciiEnv (linkingIndex ".") index' := by
  rintro ⟨index', hok, -⟩
  have hnamed := (resolveLinks_eq_ok (linkingIndex_built ".")).mp ⟨index', hok⟩
  have hrow : (⟨asciiEnv.linkId (chars "docs/a.md") 0 (chars ".") [], chars "docs/a.md",
      ⟨chars ".", chars ".", none, none, .markdown, false, []⟩, {}⟩ : LinkRow) ∈
      (linkingIndex ".").links := by
    simp [linkingIndex, linkRows, linkingDocument]
  exact hnamed _ hrow (by decide)

/-- A link to the document itself is marked as long as it names something. -/
theorem own_link_marked :
    (∃ index', resolveLinks asciiEnv (linkingIndex "A.md") = .ok index' ∧
      LinksMarked asciiEnv (linkingIndex "A.md") index') ↔
      ∀ row ∈ (linkingIndex "A.md").links, Named row.link :=
  links_marked_iff (linkingIndex_built "A.md")
end

end RaytSystem.Extraction
