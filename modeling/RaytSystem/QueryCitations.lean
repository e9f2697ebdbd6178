import RaytSystem.QuerySpans

/-! Answers whose citations point at their facts. A run of the service ends with one unless a text
is too long or stands somewhere before its own line. -/
namespace RaytSystem.Querying
open List

variable {rules : QueryRules} {corpus : Corpus} {answerId : String} {rendered : Text}

def placed : ℕ → Text → List Fact → Bool
  | _, _, [] => true
  | k, gap, fact :: rest =>
    find fact.statement (gap ++ (['-', ' '] ++ fact.statement)) == some (gap.length + 2) &&
      placed (k + fact.evidenceIds.length)
        (referenceSuffix (range' (k + 1) fact.evidenceIds.length) ++ ['\n']) rest

def citeAt (rules : QueryRules) (corpus : Corpus) (answerId : String) :
    ℕ → ℕ → List Fact → Except Failure (List QueryCitation)
  | _, _, [] => .ok []
  | base, k, fact :: rest => do
    let group ← citeFact rules corpus answerId fact (base + 2) fact.evidenceIds
    let others ← citeAt rules corpus answerId (base + (factLine k fact).length + 1)
      (k + fact.evidenceIds.length) rest
    pure (group ++ others)

theorem cite_eq {facts : List Fact} {k cursor : ℕ} {gap tail : Text}
    (hplaced : placed k gap facts = true)
    (hdrop : rendered.drop cursor = gap ++ ((factLines k facts).flatMap (· ++ ['\n']) ++ tail)) :
    cite rules corpus answerId rendered cursor facts =
      citeAt rules corpus answerId (cursor + gap.length) k facts := by
  induction facts generalizing k cursor gap with
  | nil => rfl
  | cons fact facts ih =>
    obtain ⟨hfirst, hrest⟩ := Bool.and_eq_true_iff.mp hplaced
    let suffix := referenceSuffix (range' (k + 1) fact.evidenceIds.length)
    let later := (factLines (k + fact.evidenceIds.length) facts).flatMap (· ++ ['\n']) ++ tail
    have hline : rendered.drop cursor =
        (gap ++ (['-', ' '] ++ fact.statement)) ++ ((suffix ++ ['\n']) ++ later) := by
      rw [hdrop]
      simp [factLines, factLine, suffix, later]
    have hfind : find fact.statement (rendered.drop cursor) = some (gap.length + 2) := by
      rw [hline]
      exact find_append (beq_iff_eq.mp hfirst)
    have hnext : rendered.drop (cursor + (gap.length + 2) + fact.statement.length) =
        (suffix ++ ['\n']) ++ later := by
      rw [Nat.add_assoc, ← drop_drop, hline]
      refine drop_left' ?_
      simp only [length_append, length_cons, length_nil]
      omega
    have hbase : cursor + (gap.length + 2) + fact.statement.length + (suffix ++ ['\n']).length =
        cursor + gap.length + (factLine k fact).length + 1 := by
      simp only [factLine, suffix, length_append, length_cons, length_nil]
      omega
    have hothers := ih hrest hnext
    rw [hbase] at hothers
    unfold cite citeAt
    rw [hfind]
    dsimp only
    rw [hothers, Nat.add_assoc cursor gap.length 2]

section

def materialOf (corpus : Corpus) (answerId : String) (start : ℕ) (fact : Fact) (e : Evidence) :
    CitationMaterial :=
  ⟨answerId, corpus.generationId, corpus.generationSha256, start, start + fact.statement.length,
    fact.claimId, e⟩

def materialsAt (corpus : Corpus) (answerId : String) : ℕ → ℕ → List Fact → List CitationMaterial
  | _, _, [] => []
  | base, k, fact :: rest =>
    (fact.evidenceIds.filterMap corpus.evidence).map (materialOf corpus answerId (base + 2) fact) ++
      materialsAt corpus answerId (base + (factLine k fact).length + 1)
        (k + fact.evidenceIds.length) rest

structure GroupOf (rules : QueryRules) (corpus : Corpus) (answerId : String) (base : ℕ)
    (fact : Fact) (group : List QueryCitation) : Prop where
  evidence : group.map (fun c => some c.material.evidence) = fact.evidenceIds.map corpus.evidence
  material : ∀ c ∈ group,
    c.material = materialOf corpus answerId (base + 2) fact c.material.evidence
  named : ∀ c ∈ group, c.queryCitationId = rules.citationId c.material

def Cited (rules : QueryRules) (corpus : Corpus) (answerId : String) :
    ℕ → ℕ → List Fact → List (List QueryCitation) → Prop
  | _, _, [], groups => groups = []
  | _, _, _ :: _, [] => False
  | base, k, fact :: facts, group :: groups =>
    GroupOf rules corpus answerId base fact group ∧
      Cited rules corpus answerId (base + (factLine k fact).length + 1) (k + fact.evidenceIds.length) facts
        groups

def Locatable (e : Evidence) : Prop :=
  isNonEmptyStr e.sourceLocator = true ∧ trim e.sourceLocator = e.sourceLocator

theorem citeFact_cases {fact : Fact} {start : ℕ} {ids : List String}
    (hlocators : ∀ id ∈ ids, ∀ e, corpus.evidence id = some e → Locatable e) :
    (∃ code, citeFact rules corpus answerId fact start ids = .error (.integrity code)) ∨
      ∃ group, citeFact rules corpus answerId fact start ids = .ok group ∧
        group.map (fun c => some c.material.evidence) = ids.map corpus.evidence ∧
        (∀ c ∈ group, c.material = materialOf corpus answerId start fact c.material.evidence) ∧
        ∀ c ∈ group, c.queryCitationId = rules.citationId c.material := by
  induction ids with
  | nil => exact Or.inr ⟨[], rfl, rfl, by simp, by simp⟩
  | cons id ids ih =>
    unfold citeFact
    cases he : corpus.evidence id with
    | none => exact Or.inl ⟨_, rfl⟩
    | some e =>
      obtain ⟨htext, htrim⟩ := hlocators id mem_cons_self e he
      have hmake : makeCitation rules ⟨answerId, corpus.generationId, corpus.generationSha256, start,
          start + fact.statement.length, fact.claimId, e⟩ =
          .ok ⟨rules.citationId ⟨answerId, corpus.generationId, corpus.generationSha256, start,
            start + fact.statement.length, fact.claimId, e⟩, ⟨answerId, corpus.generationId,
              corpus.generationSha256, start, start + fact.statement.length, fact.claimId, e⟩⟩ := by
        simp [makeCitation, htrim, htext]
      dsimp only
      rw [hmake]
      rcases ih fun id' hid' => hlocators id' (mem_cons_of_mem _ hid') with
        ⟨code, hcode⟩ | ⟨group, hgroup, hevidence, hmaterial, hnamed⟩
      · rw [hcode]
        exact Or.inl ⟨code, rfl⟩
      · rw [hgroup]
        refine Or.inr ⟨_, rfl, ?_, ?_, ?_⟩
        · rw [map_cons, map_cons, hevidence, he]
        · intro c hc
          rcases mem_cons.mp hc with rfl | hc
          · rfl
          · exact hmaterial c hc
        · intro c hc
          rcases mem_cons.mp hc with rfl | hc
          · rfl
          · exact hnamed c hc

variable {facts : List Fact} {base k : ℕ}

theorem citeAt_cases
    (hlocators : ∀ fact ∈ facts, ∀ id ∈ fact.evidenceIds, ∀ e, corpus.evidence id = some e →
      Locatable e) :
    (∃ code, citeAt rules corpus answerId base k facts = .error (.integrity code)) ∨
      ∃ groups, citeAt rules corpus answerId base k facts = .ok groups.flatten ∧
        Cited rules corpus answerId base k facts groups := by
  induction facts generalizing base k with
  | nil => exact Or.inr ⟨[], rfl, rfl⟩
  | cons fact facts ih =>
    unfold citeAt
    have hfact := hlocators fact mem_cons_self
    rcases (citeFact_cases hfact : (∃ code, citeFact rules corpus answerId fact (base + 2)
      fact.evidenceIds = .error (.integrity code)) ∨ _) with ⟨code, hcode⟩ | ⟨group, hgroup, hrest⟩
    · rw [hcode]
      exact Or.inl ⟨code, rfl⟩
    · rw [hgroup]
      have hfacts := fun fact' hfact' => hlocators fact' (mem_cons_of_mem fact hfact')
      rcases (ih hfacts : (∃ code, citeAt rules corpus answerId
        (base + (factLine k fact).length + 1) (k + fact.evidenceIds.length) facts =
          .error (.integrity code)) ∨ _) with ⟨code, hcode⟩ | ⟨groups, hgroups, hcited⟩
      · refine Or.inl ⟨code, ?_⟩
        change (citeAt _ _ _ _ _ _ >>= _) = _
        rw [hcode]
        rfl
      · refine Or.inr ⟨group :: groups, ?_, ⟨hrest.1, hrest.2.1, hrest.2.2⟩, hcited⟩
        change (citeAt _ _ _ _ _ _ >>= _) = _
        rw [hgroups]
        rfl

variable {groups : List (List QueryCitation)}

theorem cited_grouped (h : Cited rules corpus answerId base k facts groups) :
    Grouped facts (groups.map fun g => g.map QueryCitation.queryCitationId) := by
  induction facts generalizing base k groups with
  | nil =>
    obtain rfl : groups = [] := h
    exact .nil
  | cons fact facts ih =>
    cases groups with
    | nil => exact h.elim
    | cons group groups =>
      refine .cons ?_ (ih h.2)
      have hlength := congrArg length h.1.evidence
      simpa using hlength

theorem regroup_eq {groups : List (List String)} (h : Grouped facts groups) :
    regroup facts groups.flatten = groups := by
  induction h with
  | nil => rfl
  | @cons fact group facts groups hlength h ih =>
    rw [flatten_cons, regroup, ← hlength, take_left, drop_left, ih]

theorem cited_get {base k i : ℕ} {group : List QueryCitation} {fact : Fact}
    (h : Cited rules corpus answerId base k facts groups) (hg : groups[i]? = some group)
    (hf : facts[i]? = some fact) : ∀ c ∈ group, c.material.answerCharStart =
        base + (((factLines k facts).take i).flatMap (· ++ ['\n'])).length + 2 ∧
      c.material.answerCharEnd = c.material.answerCharStart + fact.statement.length := by
  induction facts generalizing base k groups i with
  | nil => simp at hf
  | cons first facts ih =>
    cases groups with
    | nil => exact h.elim
    | cons head groups =>
      cases i with
      | zero =>
        obtain rfl : head = group := by simpa using hg
        obtain rfl : first = fact := by simpa using hf
        intro c hc
        rw [h.1.material c hc]
        simp [materialOf]
      | succ i =>
        intro c hc
        obtain ⟨hstart, hend⟩ := ih h.2 (by simpa using hg) (by simpa using hf) c hc
        refine ⟨?_, hend⟩
        rw [hstart]
        simp only [factLines, take_succ_cons, flatMap_cons, length_append,
          length_cons, length_nil]
        omega

theorem cited_base (h : Cited rules corpus answerId base k facts groups) :
    ∀ c ∈ groups.flatten, base + 2 ≤ c.material.answerCharStart := by
  induction facts generalizing base k groups with
  | nil =>
    obtain rfl : groups = [] := h
    simp
  | cons fact facts ih =>
    cases groups with
    | nil => exact h.elim
    | cons group groups =>
      intro c hc
      rcases mem_append.mp hc with hc | hc
      · rw [h.1.material c hc]
        exact Nat.le_refl _
      · have hle := ih h.2 c hc
        omega

theorem cited_named (h : Cited rules corpus answerId base k facts groups) :
    ∀ c ∈ groups.flatten, c.queryCitationId = rules.citationId c.material := by
  induction facts generalizing base k groups with
  | nil =>
    obtain rfl : groups = [] := h
    simp
  | cons fact facts ih =>
    cases groups with
    | nil => exact h.elim
    | cons group groups =>
      intro c hc
      rcases mem_append.mp hc with hc | hc
      · exact h.1.named c hc
      · exact ih h.2 c hc

theorem cited_materials (h : Cited rules corpus answerId base k facts groups) :
    ∀ c ∈ groups.flatten, c.material ∈ materialsAt corpus answerId base k facts := by
  induction facts generalizing base k groups with
  | nil =>
    obtain rfl : groups = [] := h
    simp
  | cons fact facts ih =>
    cases groups with
    | nil => exact h.elim
    | cons group groups =>
      intro c hc
      rcases mem_append.mp hc with hc | hc
      · have hsome : some c.material.evidence ∈ fact.evidenceIds.map corpus.evidence := by
          rw [← h.1.evidence]
          exact mem_map.mpr ⟨c, hc, rfl⟩
        obtain ⟨id, hid, he⟩ := mem_map.mp hsome
        rw [h.1.material c hc]
        exact mem_append_left _ (mem_map.mpr
          ⟨_, mem_filterMap.mpr ⟨id, hid, he⟩, rfl⟩)
      · exact mem_append_right _ (ih h.2 c hc)

theorem cited_nodup {materials : List CitationMaterial}
    (hmaterials : ∀ c ∈ groups.flatten, c.material ∈ materials)
    (hrules : ∀ m ∈ materials, ∀ m' ∈ materials, rules.citationId m = rules.citationId m' → m = m')
    (hevidence : ∀ fact ∈ facts, (fact.evidenceIds.map corpus.evidence).Nodup)
    (h : Cited rules corpus answerId base k facts groups) :
    (groups.flatten.map QueryCitation.queryCitationId).Nodup := by
  induction facts generalizing base k groups with
  | nil =>
    obtain rfl : groups = [] := h
    simp
  | cons fact facts ih =>
    cases groups with
    | nil => exact h.elim
    | cons group groups =>
      have hgroup (c : QueryCitation) (hc : c ∈ group) := hmaterials c (mem_append_left _ hc)
      have hgroups (c : QueryCitation) (hc : c ∈ groups.flatten) :=
        hmaterials c (mem_append_right _ hc)
      rw [flatten_cons, map_append, nodup_append]
      refine ⟨?_, ih hgroups (fun f hf => hevidence f (mem_cons_of_mem _ hf)) h.2, ?_⟩
      · have hnodup := hevidence fact mem_cons_self
        rw [← h.1.evidence] at hnodup
        refine pairwise_map.mpr ((pairwise_map.mp hnodup).imp_of_mem ?_)
        intro c c' hc hc' hne hsame
        rw [h.1.named c hc, h.1.named c' hc'] at hsame
        exact hne (by rw [hrules _ (hgroup c hc) _ (hgroup c' hc') hsame])
      · intro id hid id' hid' hsame
        obtain ⟨c, hc, rfl⟩ := mem_map.mp hid
        obtain ⟨c', hc', rfl⟩ := mem_map.mp hid'
        rw [h.1.named c hc, cited_named h.2 c' hc'] at hsame
        have hle := cited_base h.2 c' hc'
        rw [← hrules _ (hgroup c hc) _ (hgroups c' hc') hsame, h.1.material c hc] at hle
        simp only [materialOf] at hle
        omega
end

theorem dropWhile_weaker {p q : Char → Bool} (h : ∀ c, q c = true → p c = true) (t : Text) :
    (t.dropWhile p).dropWhile q = t.dropWhile p := by
  induction t with
  | nil => rfl
  | cons c t ih =>
    by_cases hp : p c = true
    · rw [dropWhile_cons_of_pos hp, ih]
    · rw [dropWhile_cons_of_neg hp, dropWhile_cons_of_neg fun hq => hp (h c hq)]

theorem rstrip_cons {c : Char} (hc : PyText.isSpace c = false) (t : Text) :
    rstrip (c :: t) = c :: rstrip t := by
  unfold rstrip
  rw [reverse_cons, dropWhile_append]
  split
  next hempty =>
    rw [isEmpty_iff.mp hempty, dropWhile_cons_of_neg (by simp [hc])]
    rfl
  next => simp

theorem trim_renderSections (facts gaps : List AnswerSection) (ids : List String) :
    trim (renderSections facts [] gaps ids) = renderSections facts [] gaps ids ∧
      1 ≤ (renderSections facts [] gaps ids).length := by
  obtain ⟨t, ht⟩ : ∃ t, join ['\n'] (sectionLines ids "Facts" facts ++
      (sectionLines ids "Inferences" [] ++ (sectionLines ids "Gaps" gaps ++ sourceLines ids))) =
        '#' :: t := by
    unfold sectionLines
    rw [cons_append, cons_append]
    obtain ⟨y, rest, hrest⟩ : ∃ y rest, (if facts = [] then ["_None._".toList]
        else facts.map (sectionLine ids)) ++ [[]] ++
        (sectionLines ids "Inferences" [] ++ (sectionLines ids "Gaps" gaps ++ sourceLines ids)) =
          y :: rest := by
      apply exists_cons_of_ne_nil
      apply append_ne_nil_of_left_ne_nil
      exact append_ne_nil_of_right_ne_nil _ (cons_ne_nil _ _)
    exact ⟨_, by
      unfold sectionLines at hrest
      rw [hrest, join]
      · rfl
      · simp⟩
  unfold renderSections
  rw [ht, rstrip_cons (by decide)]
  refine ⟨?_, by simp⟩
  rw [trim, PyText.stripList, dropWhile_cons_of_neg (by decide), reverse_cons,
    dropWhile_append]
  have hkeep : (rstrip t).reverse.dropWhile PyText.isWhiteSpace = (rstrip t).reverse := by
    rw [rstrip, reverse_reverse]
    exact dropWhile_weaker (fun c hc => (Bool.and_eq_true_iff.mp hc).1) _
  rw [hkeep]
  split
  next hempty =>
    have hnil : rstrip t = [] := by simpa using hempty
    rw [dropWhile_cons_of_neg (by decide), hnil]
    rfl
  next => simp

end RaytSystem.Querying
