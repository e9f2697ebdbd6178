import RaytSystem.QueryCitations

/-! The answers of the query service: when no model refuses one, and what its citations point at. -/
namespace RaytSystem.Querying

variable {rules : QueryRules} {corpus : Corpus} {hits : List Hit} {queryText : Text} {limit : ℕ}

section

def Clean (t : Text) : Prop :=
  isNonEmptyStr t = true ∧ trim t = t ∧ t.any (fun c => ['\x00', '\r', '\n'].contains c) = false

variable {facts : List Fact} {groups : List (List String)}

theorem makeSections_eq (hclean : ∀ fact ∈ facts, Clean fact.statement)
    (hlength : groups.length = facts.length) :
    makeSections facts groups = .ok (sectionsOf facts groups) := by
  induction facts generalizing groups with
  | nil => rfl
  | cons fact facts ih =>
    cases groups with
    | nil => cases hlength
    | cons group groups =>
      obtain ⟨htext, htrim, hline⟩ := hclean fact List.mem_cons_self
      have hsection : makeSection fact.statement group = .ok ⟨fact.statement, group⟩ := by
        rw [makeSection, htrim, htext, hline]
        rfl
      have hrest := ih (fun f hf => hclean f (List.mem_cons_of_mem _ hf)) (Nat.succ.inj hlength)
      unfold makeSections
      rw [hsection, hrest]
      rfl

theorem sectionsOf_text (hlength : groups.length = facts.length) :
    (sectionsOf facts groups).map AnswerSection.text = facts.map Fact.statement := by
  induction facts generalizing groups with
  | nil => rfl
  | cons fact facts ih =>
    cases groups with
    | nil => cases hlength
    | cons group groups =>
      have hrest := ih (Nat.succ.inj hlength)
      simp only [sectionsOf, List.zipWith_cons_cons, List.map_cons] at hrest ⊢
      rw [hrest]

theorem sectionsOf_ids (hlength : groups.length = facts.length) :
    (sectionsOf facts groups).flatMap AnswerSection.citationIds = groups.flatten := by
  induction facts generalizing groups with
  | nil =>
    obtain rfl := List.length_eq_zero_iff.mp hlength
    rfl
  | cons fact facts ih =>
    cases groups with
    | nil => cases hlength
    | cons group groups =>
      have hrest := ih (Nat.succ.inj hlength)
      simp only [sectionsOf, List.zipWith_cons_cons, List.flatMap_cons, List.flatten_cons] at hrest ⊢
      rw [hrest]

theorem sectionsOf_ne_nil (h : Grouped facts groups) (hfacts : facts ≠ []) :
    sectionsOf facts groups ≠ [] := by
  cases h with
  | nil => exact absurd rfl hfacts
  | cons => simp [sectionsOf]
end

structure Derives (rules : QueryRules) (corpus : Corpus) (size : ℕ) (hits : List Hit) : Prop where
  separate : ∀ answerId, ∀ m ∈ materialsAt corpus answerId (heading "Facts" ++ ['\n']).length 0
      (candidates corpus hits), ∀ m' ∈ materialsAt corpus answerId
        (heading "Facts" ++ ['\n']).length 0 (candidates corpus hits),
      rules.citationId m = rules.citationId m' → m = m'
  sized : ∀ material, (rules.citationId material).length = size

/-- The query and its facts have texts that the models take as they are, every statement is first
found on its own line, no fact cites one piece of evidence twice, and the answer is short enough. -/
structure Presentable (corpus : Corpus) (size : ℕ) (queryText : Text) (hits : List Hit) : Prop where
  query : isNonEmptyStr queryText = true ∧ trim queryText = queryText
  statements : ∀ fact ∈ candidates corpus hits, Clean fact.statement
  found : placed 0 (heading "Facts" ++ ['\n']) (candidates corpus hits) = true
  evidence : ∀ fact ∈ candidates corpus hits, (fact.evidenceIds.map corpus.evidence).Nodup
  locators : ∀ fact ∈ candidates corpus hits, ∀ id ∈ fact.evidenceIds, ∀ e,
    corpus.evidence id = some e → Locatable e
  short : ∀ groups, Grouped (candidates corpus hits) groups → groups.flatten.Nodup →
    (∀ id ∈ groups.flatten, id.length = size) →
      (renderSections (sectionsOf (candidates corpus hits) groups) []
        (gapSections (candidates corpus hits)) groups.flatten).length ≤ 4096

def lineStart (a : AnswerProposal) (i : ℕ) : ℕ :=
  ((heading "Facts" :: (a.facts.take i).map (sectionLine a.citationIds)).flatMap
    (· ++ ['\n'])).length

structure Pointed (corpus : Corpus) (hits : List Hit) (result : QueryResult) : Prop where
  facts : result.answer.facts.map AnswerSection.text = (candidates corpus hits).map Fact.statement
  lines : ∀ i s, result.answer.facts[i]? = some s → ∃ rest,
    result.answer.renderedAnswer.drop (lineStart result.answer i) =
      sectionLine result.answer.citationIds s ++ '\n' :: rest
  spans : ∀ i s, result.answer.facts[i]? = some s → ∀ c ∈ result.citations,
    c.queryCitationId ∈ s.citationIds →
      c.material.answerCharStart = lineStart result.answer i + 2 ∧
        c.material.answerCharEnd = c.material.answerCharStart + s.text.length

theorem candidate_evidence {hit : Hit} {fact : Fact} (h : candidate corpus hit = some fact) :
    fact.evidenceIds ≠ [] := by
  unfold candidate at h
  split at h
  · cases h
  obtain ⟨claim, -, h⟩ := Option.bind_eq_some_iff.mp h
  split at h
  next hclaim =>
    obtain rfl := Option.some.inj h
    intro hnil
    have hlength := congrArg List.length hnil
    rw [PyText.sorted, List.length_insertionSort] at hlength
    exact hclaim.2 (List.length_eq_zero_iff.mp hlength)
  · cases h

theorem candidates_evidence : ∀ fact ∈ candidates corpus hits, fact.evidenceIds ≠ [] := by
  intro fact hfact
  obtain ⟨hit, -, hhit⟩ := List.mem_filterMap.mp hfact
  exact candidate_evidence hhit

theorem cite_rendered {answerId : String} {facts : List Fact} {gaps : List AnswerSection}
    (h : placed 0 (heading "Facts" ++ ['\n']) facts = true) :
    cite rules corpus answerId (renderSections (sectionsOf facts (placeholderGroups 0 facts)) [] gaps
      (placeholderGroups 0 facts).flatten) 0 facts =
        citeAt rules corpus answerId (heading "Facts" ++ ['\n']).length 0 facts := by
  by_cases hfacts : facts = []
  · subst hfacts
    rfl
  · have hgrouped := grouped_placeholders 0 facts
    obtain ⟨tail, htail⟩ := renderSections_facts gaps (placeholderGroups 0 facts).flatten
      (sectionsOf_ne_nil hgrouped hfacts)
    have hlines := lines_eq hgrouped [] (by simpa using placeholders_nodup facts)
    have hdrop : (renderSections (sectionsOf facts (placeholderGroups 0 facts)) [] gaps
        (placeholderGroups 0 facts).flatten).drop 0 =
          (heading "Facts" ++ ['\n']) ++ ((factLines 0 facts).flatMap (· ++ ['\n']) ++ tail) := by
      rw [List.drop_zero, htail]
      simp only [List.nil_append, List.length_nil] at hlines
      rw [List.flatMap_cons, hlines, List.append_assoc]
    rw [cite_eq h hdrop, Nat.zero_add]

theorem createAnswer_ok (rules : QueryRules) (answerId : String) {facts : List Fact} {groups : List (List String)}
    (hquery : isNonEmptyStr queryText = true ∧ trim queryText = queryText)
    (hgrouped : Grouped facts groups) (hnonempty : ∀ fact ∈ facts, fact.evidenceIds ≠ [])
    (hnodup : groups.flatten.Nodup)
    (hshort : (renderSections (sectionsOf facts groups) [] (gapSections facts)
      groups.flatten).length ≤ 4096) :
    createAnswer rules answerId queryText (sectionsOf facts groups) (gapSections facts)
      groups.flatten = .ok ⟨answerId, rules.sha256 queryText, queryText, sectionsOf facts groups,
        gapSections facts, renderSections (sectionsOf facts groups) [] (gapSections facts)
          groups.flatten, groups.flatten⟩ := by
  obtain ⟨htrim, hlength⟩ := trim_renderSections (sectionsOf facts groups) (gapSections facts)
    groups.flatten
  have hids := sectionsOf_ids hgrouped.length_eq.symm
  have hcited : (sectionsOf facts groups).all (fun s => !s.citationIds.isEmpty) = true := by
    clear hids htrim hlength hshort hnodup
    induction hgrouped with
    | nil => rfl
    | @cons fact group facts groups hlength h ih =>
      have hrest := ih fun f hf => hnonempty f (List.mem_cons_of_mem _ hf)
      have hgroup : group ≠ [] := by
        rintro rfl
        exact hnonempty fact List.mem_cons_self (List.length_eq_zero_iff.mp hlength.symm)
      simp only [sectionsOf, List.zipWith_cons_cons, List.all_cons] at hrest ⊢
      rw [hrest]
      simp [hgroup]
  have hgaps : (gapSections facts).all (fun s => s.citationIds.isEmpty) = true := by
    unfold gapSections
    split <;> rfl
  have hlong : isNonEmptyStr (renderSections (sectionsOf facts groups) [] (gapSections facts)
      groups.flatten) = true := by
    simp [isNonEmptyStr, hshort, hlength]
  have hcover : (groups.flatten.all fun id => groups.flatten.contains id) = true :=
    List.all_eq_true.mpr fun id hid => List.contains_iff_mem.mpr hid
  unfold createAnswer
  rw [htrim, hids, hcited, hgaps, hlong, hquery.2, hquery.1, hcover]
  simp [hnodup]

theorem pointed_result {result : QueryResult} {groups : List (List QueryCitation)}
    {answerId : String} (hnodup : (groups.flatten.map QueryCitation.queryCitationId).Nodup)
    (hcited : Cited rules corpus answerId (heading "Facts" ++ ['\n']).length 0 (candidates corpus hits)
      groups) (hcitations : result.citations = groups.flatten)
    (hfacts : result.answer.facts = sectionsOf (candidates corpus hits)
      (groups.map fun g => g.map QueryCitation.queryCitationId))
    (hids : result.answer.citationIds =
      (groups.map fun g => g.map QueryCitation.queryCitationId).flatten)
    (hrendered : ∃ tail, result.answer.facts ≠ [] → result.answer.renderedAnswer =
      (heading "Facts" :: result.answer.facts.map (sectionLine result.answer.citationIds)).flatMap
        (· ++ ['\n']) ++ tail) : Pointed corpus hits result := by
  have hgrouped := cited_grouped hcited
  rw [List.map_flatten] at hnodup
  have hlines := lines_eq hgrouped [] hnodup
  rw [List.nil_append, ← hids, ← hfacts, List.length_nil] at hlines
  refine ⟨?_, ?_, ?_⟩
  · rw [hfacts]
    exact sectionsOf_text hgrouped.length_eq.symm
  · intro i s hs
    obtain ⟨tail, htail⟩ := hrendered
    have hne : result.answer.facts ≠ [] := by
      intro hnil
      rw [hnil] at hs
      cases hs
    obtain ⟨hi, hget⟩ := List.getElem?_eq_some_iff.mp hs
    have hsplit : result.answer.facts = result.answer.facts.take i ++
        s :: result.answer.facts.drop (i + 1) := by
      rw [← hget, List.getElem_cons_drop, List.take_append_drop]
    have hall : result.answer.renderedAnswer =
        (heading "Facts" :: (result.answer.facts.take i).map
          (sectionLine result.answer.citationIds)).flatMap (· ++ ['\n']) ++
        (sectionLine result.answer.citationIds s ++ '\n' ::
          (((result.answer.facts.drop (i + 1)).map
            (sectionLine result.answer.citationIds)).flatMap (· ++ ['\n']) ++ tail)) := by
      rw [htail hne]
      conv => lhs; rw [hsplit]
      simp
    exact ⟨_, by rw [hall, lineStart, List.drop_left]⟩
  · intro i s hs c hc hmem
    rw [hfacts, sectionsOf, List.getElem?_zipWith_eq_some] at hs
    obtain ⟨fact, group, hfact, hgroup, rfl⟩ := hs
    rw [List.getElem?_map] at hgroup
    obtain ⟨members, hmembers, rfl⟩ := Option.map_eq_some_iff.mp hgroup
    obtain ⟨c', hc', hsame⟩ := List.mem_map.mp hmem
    have hin : c' ∈ groups.flatten :=
      List.mem_flatten.mpr ⟨members, List.mem_of_getElem? hmembers, hc'⟩
    rw [← List.map_flatten] at hnodup
    obtain rfl := List.inj_on_of_nodup_map hnodup hin (hcitations ▸ hc) hsame
    obtain ⟨hstart, hend⟩ := cited_get hcited hmembers hfact c' hc'
    refine ⟨?_, hend⟩
    rw [hstart, lineStart, List.map_take, hlines, List.flatMap_cons]
    simp only [List.length_append]

theorem ok_bind {α β : Type} (a : α) (f : α → Except Failure β) : (Except.ok a >>= f) = f a := rfl

/-- Where the texts of a query and of its facts are presentable, no model refuses the answer, and the
one that is returned has a fact for each supported claim with evidence and points at their texts. -/
theorem citations_point {size : ℕ} (hrules : Derives rules corpus size hits)
    (h : Presentable corpus size queryText hits) :
    (∀ model, answer rules corpus queryText hits limit ≠ .error (.invalid model)) ∧
      ∀ result, answer rules corpus queryText hits limit = .ok result →
        Pointed corpus hits result := by
  have hplaced := makeSections_eq h.statements
    (grouped_placeholders 0 (candidates corpus hits)).length_eq.symm
  have hbare : makeSections (candidates corpus hits) ((candidates corpus hits).map fun _ => []) =
      .ok (sectionsOf (candidates corpus hits) ((candidates corpus hits).map fun _ => [])) :=
    makeSections_eq h.statements (by simp)
  rcases (citeAt_cases h.locators : (∃ code, citeAt rules corpus (answerIdentity rules corpus
      queryText limit (sectionsOf (candidates corpus hits)
        ((candidates corpus hits).map fun _ => [])) (gapSections (candidates corpus hits)))
      (heading "Facts" ++ ['\n']).length 0 (candidates corpus hits) = .error (.integrity code)) ∨ _)
    with ⟨code, hcode⟩ | ⟨groups, hgroups, hcited⟩
  · have hanswer : answer rules corpus queryText hits limit = .error (.integrity code) := by
      simp only [answer, hbare, hplaced, ok_bind, cite_rendered h.found, hcode]
      rfl
    rw [hanswer]
    exact ⟨nofun, nofun⟩
  · have hgrouped := cited_grouped hcited
    have hnodup := cited_nodup (cited_materials hcited) (hrules.separate _) h.evidence hcited
    have hids := hnodup
    have hflat : groups.flatten.map QueryCitation.queryCitationId =
        (groups.map fun g => g.map QueryCitation.queryCitationId).flatten := List.map_flatten
    rw [hflat] at hnodup
    have hsections := makeSections_eq h.statements hgrouped.length_eq.symm
    have hsized : ∀ id ∈ (groups.map fun g => g.map QueryCitation.queryCitationId).flatten,
        id.length = size := by
      rw [← hflat]
      intro id hid
      obtain ⟨c, hc, rfl⟩ := List.mem_map.mp hid
      rw [cited_named hcited c hc]
      exact hrules.sized _
    have hcreate (answerId : String) := createAnswer_ok rules answerId
      h.query hgrouped candidates_evidence hnodup (h.short _ hgrouped hnodup hsized)
    simp only [answer, hbare, hplaced, ok_bind, cite_rendered h.found, hgroups, hflat,
      regroup_eq hgrouped, hsections, hcreate]
    refine ⟨?_, ?_⟩
    · intro model
      unfold checkAnswer
      split
      · nofun
      · split <;> nofun
    · intro result hresult
      unfold checkAnswer at hresult
      split at hresult
      · cases hresult
      split at hresult
      · obtain rfl := Except.ok.inj hresult
        refine pointed_result hids hcited rfl rfl rfl ?_
        by_cases hfacts : sectionsOf (candidates corpus hits)
            (groups.map fun g => g.map QueryCitation.queryCitationId) = []
        · exact ⟨[], fun hne => absurd hfacts hne⟩
        · obtain ⟨tail, htail⟩ := renderSections_facts (gapSections (candidates corpus hits))
            (groups.map fun g => g.map QueryCitation.queryCitationId).flatten hfacts
          exact ⟨tail, fun _ => htail⟩
      · cases hresult

def sampleRules : QueryRules where
  sha256 := fun _ => ""
  runId := fun _ _ _ => "run"
  answerId := fun _ => "ans"
  citationId := fun _ => "qcit"
  casefold := id

def sampleEvidence : Evidence := ⟨"rev", "norm", "seg", "", ['p']⟩

def corpusOf (statement : Text) (evidenceIds : List String) : Corpus where
  generationId := "gen"
  generationSha256 := ""
  claims := fun id => if id = "c" then some ⟨"c", "supported", statement, evidenceIds⟩ else none
  evidence := fun _ => some sampleEvidence

def sampleHits : List Hit := [⟨"claim", "c"⟩]

theorem sample_candidates : candidates (corpusOf ['o', 'k'] ["e"]) sampleHits =
    [⟨"c", ['o', 'k'], ["e"]⟩] := by
  decide +kernel

theorem rstrip_length (t : Text) : (rstrip t).length ≤ t.length := by
  have hle := List.length_dropWhile_le PyText.isSpace t.reverse
  rwa [List.length_reverse, ← List.length_reverse] at hle

theorem sample_short {groups : List (List String)}
    (hgrouped : Grouped [⟨"c", ['o', 'k'], ["e"]⟩] groups)
    (hsize : ∀ id ∈ groups.flatten, id.length = 4) :
    (renderSections (sectionsOf [⟨"c", ['o', 'k'], ["e"]⟩] groups) [] [] groups.flatten).length ≤
      4096 := by
  cases hgrouped with
  | @cons fact group facts groups hlength hrest =>
    cases hrest
    obtain ⟨id, rfl⟩ := List.length_eq_one_iff.mp hlength
    have hid : id.toList.length = 4 := by
      rw [String.length_toList]
      exact hsize id (by simp)
    have hdigits : (Nat.toDigits 10 1).length = 1 := by decide
    refine (rstrip_length _).trans ?_
    simp only [sectionLines, sectionsOf, sourceLines, heading, labelIndex, reference]
    simp [hid, hdigits, join, sectionLine, referenceSuffix, reference, labelIndex]

theorem sample_evaluated :
    placed 0 (heading "Facts" ++ ['\n']) [⟨"c", ['o', 'k'], ["e"]⟩] = true ∧
    (isNonEmptyStr ['o', 'k'] = true ∧ trim ['o', 'k'] = ['o', 'k'] ∧
      ['o', 'k'].any (fun c => ['\x00', '\r', '\n'].contains c) = false) ∧
    (isNonEmptyStr sampleEvidence.sourceLocator = true ∧
      trim sampleEvidence.sourceLocator = sampleEvidence.sourceLocator) ∧
    (answer sampleRules (corpusOf ['o', 'k'] ["e"]) ['o', 'k'] sampleHits 10).toOption.isSome = true ∧
    ((answer sampleRules (corpusOf "Facts".toList ["e"]) ['o', 'k'] sampleHits 10).toOption.map
      fun r => (r.answer.facts.map AnswerSection.citationIds,
        r.citations.map fun c => (c.queryCitationId, c.material.answerCharStart),
        lineStart r.answer 0)) = some ([["qcit"]], [("qcit", 3)], 9) := by
  decide +kernel

theorem sample_presentable : Presentable (corpusOf ['o', 'k'] ["e"]) 4 ['o', 'k'] sampleHits := by
  obtain ⟨hplaced, hclean, hlocator, -⟩ := sample_evaluated
  refine ⟨⟨hclean.1, hclean.2.1⟩, ?_, ?_, ?_, ?_, ?_⟩ <;> rw [sample_candidates]
  · intro fact hfact
    obtain rfl := List.mem_singleton.mp hfact
    exact hclean
  · exact hplaced
  · intro fact hfact
    obtain rfl := List.mem_singleton.mp hfact
    exact List.nodup_singleton _
  · intro fact hfact id _ e he
    obtain rfl := Option.some.inj he
    exact hlocator
  · exact fun groups hgrouped _ hsize => sample_short hgrouped hsize

theorem sample_derives : Derives sampleRules (corpusOf ['o', 'k'] ["e"]) 4 sampleHits := by
  refine ⟨?_, fun _ => show "qcit".length = 4 by decide +kernel⟩
  intro answerId m hm m' hm' _
  rw [sample_candidates] at hm hm'
  exact (List.mem_singleton.mp hm).trans (List.mem_singleton.mp hm').symm

/-- One fact with one piece of evidence. -/
theorem sample_points : ∃ result,
    answer sampleRules (corpusOf ['o', 'k'] ["e"]) ['o', 'k'] sampleHits 10 = .ok result ∧
      Pointed (corpusOf ['o', 'k'] ["e"]) sampleHits result := by
  obtain ⟨-, -, -, hreturned, -⟩ := sample_evaluated
  cases hanswer : answer sampleRules (corpusOf ['o', 'k'] ["e"]) ['o', 'k'] sampleHits 10 with
  | error e =>
    rw [hanswer] at hreturned
    cases hreturned
  | ok result =>
    exact ⟨result, rfl, (citations_point sample_derives sample_presentable).2 result hanswer⟩

/-- A statement that stands in the heading is cited there. -/
theorem heading_cited :
    ∃ result, answer sampleRules (corpusOf "Facts".toList ["e"]) ['o', 'k'] sampleHits 10 =
      .ok result ∧ ¬Pointed (corpusOf "Facts".toList ["e"]) sampleHits result := by
  obtain ⟨-, -, -, -, hheading⟩ := sample_evaluated
  obtain ⟨result, hresult, hparts⟩ := Option.map_eq_some_iff.mp hheading
  cases hanswer : answer sampleRules (corpusOf "Facts".toList ["e"]) ['o', 'k'] sampleHits 10 with
  | error e =>
    rw [hanswer] at hresult
    cases hresult
  | ok found =>
    rw [hanswer] at hresult
    obtain rfl : found = result := Option.some.inj hresult
    refine ⟨found, rfl, fun hpointed => ?_⟩
    obtain ⟨hfacts, hparts⟩ := Prod.mk.inj hparts
    obtain ⟨hcitations, hstart⟩ := Prod.mk.inj hparts
    obtain ⟨s, facts, hs, hids, -⟩ := List.map_eq_cons_iff.mp hfacts
    obtain ⟨c, citations, hc, hspan, -⟩ := List.map_eq_cons_iff.mp hcitations
    obtain ⟨hid, hat⟩ := Prod.mk.inj hspan
    have hpoint := (hpointed.spans 0 s (by rw [hs]; rfl) c (hc ▸ List.mem_cons_self)
      (by rw [hids, hid]; exact List.mem_cons_self)).1
    rw [hat, hstart] at hpoint
    cases hpoint

end RaytSystem.Querying
