import RaytSystem.QueryModel

/-! Where the facts of a rendered answer stand, and where the search for a statement finds it. -/
namespace RaytSystem.Querying
open List

section
variable {pattern t r : Text} {n : ℕ}

theorem find_length (h : find pattern t = some n) : n + pattern.length ≤ t.length := by
  induction t generalizing n with
  | nil =>
    unfold find at h
    split at h
    next hp =>
      obtain rfl := Option.some.inj h
      simp [hp]
    · cases h
  | cons c t ih =>
    unfold find at h
    split at h
    next hp =>
      obtain rfl := Option.some.inj h
      have hle := (List.isPrefixOf_iff_prefix.mp hp).length_le
      omega
    · obtain ⟨k, hk, rfl⟩ := Option.map_eq_some_iff.mp h
      have hle := ih hk
      simp only [length_cons]
      omega

theorem find_append (h : find pattern t = some n) : find pattern (t ++ r) = some n := by
  induction t generalizing n with
  | nil =>
    unfold find at h
    split at h
    next hp =>
      subst hp
      rw [← h]
      cases r <;> simp [find]
    · cases h
  | cons c t ih =>
    unfold find at h
    split at h
    next hp =>
      have hlong : pattern.isPrefixOf (c :: (t ++ r)) = true := by
        have hprefix := (List.isPrefixOf_iff_prefix.mp hp).trans (prefix_append (c :: t) r)
        exact isPrefixOf_iff_prefix.mpr hprefix
      rw [← h, cons_append, find, if_pos hlong]
    next hp =>
      obtain ⟨k, hk, rfl⟩ := Option.map_eq_some_iff.mp h
      have hlong : ¬pattern.isPrefixOf (c :: (t ++ r)) = true := by
        intro hprefix
        apply hp
        rw [List.isPrefixOf_iff_prefix] at hprefix ⊢
        have hle := find_length hk
        refine prefix_of_prefix_length_le hprefix (prefix_append (c :: t) r) ?_
        simp only [length_cons]
        omega
      rw [cons_append, find, if_neg hlong, ih hk]
      rfl
end

theorem join_append (xs : List Text) {ys : List Text} (hy : ys ≠ []) :
    join ['\n'] (xs ++ ys) = xs.flatMap (· ++ ['\n']) ++ join ['\n'] ys := by
  induction xs with
  | nil => rfl
  | cons x xs ih =>
    obtain ⟨y, rest, hrest⟩ : ∃ y rest, xs ++ ys = y :: rest :=
      exists_cons_of_ne_nil (by simp [hy])
    rw [cons_append, hrest, join, ← hrest, ih, flatMap_cons, append_assoc,
      append_assoc]
    · simp
    · simp

theorem rstrip_append (f : Text) {t : Text} {c : Char} (hc : c ∈ t)
    (hspace : PyText.isSpace c = false) : rstrip (f ++ t) = f ++ rstrip t := by
  unfold rstrip
  rw [reverse_append, dropWhile_append, if_neg, reverse_append,
    reverse_reverse]
  intro hempty
  have hall := dropWhile_eq_nil_iff.mp (isEmpty_iff.mp hempty) c (mem_reverse.mpr hc)
  rw [hspace] at hall
  cases hall

theorem mem_join {separator t : Text} {ts : List Text} {c : Char} (ht : t ∈ ts) (hc : c ∈ t) :
    c ∈ join separator ts := by
  induction ts with
  | nil => cases ht
  | cons t' ts ih =>
    cases ts with
    | nil =>
      obtain rfl := mem_singleton.mp ht
      exact hc
    | cons t'' ts =>
      rw [join, append_assoc]
      · rcases mem_cons.mp ht with rfl | ht
        · exact mem_append_left _ hc
        · exact mem_append_right _ (mem_append_right _ (ih ht))
      · exact cons_ne_nil _ _

theorem renderSections_facts {facts : List AnswerSection} (gaps : List AnswerSection)
    (ids : List String) (hfacts : facts ≠ []) : ∃ tail, renderSections facts [] gaps ids =
      (heading "Facts" :: facts.map (sectionLine ids)).flatMap (· ++ ['\n']) ++ tail := by
  refine ⟨rstrip (join ['\n'] ([] :: (sectionLines ids "Inferences" [] ++
    (sectionLines ids "Gaps" gaps ++ sourceLines ids)))), ?_⟩
  have hmark : '#' ∈ join ['\n'] ([] :: (sectionLines ids "Inferences" [] ++
      (sectionLines ids "Gaps" gaps ++ sourceLines ids))) := by
    apply mem_join (t := heading "Inferences") _ mem_cons_self
    apply mem_cons_of_mem
    exact mem_append_left _ mem_cons_self
  rw [renderSections, sectionLines, if_neg hfacts, append_assoc, singleton_append,
    join_append _ (cons_ne_nil _ _), rstrip_append _ hmark (by decide)]

section
variable {ids : List String}

theorem labelIndex_eq {before after : List String} {id : String}
    (h : (before ++ id :: after).Nodup) :
    labelIndex (before ++ id :: after) id = before.length + 1 := by
  have hnot : id ∉ after.reverse := by
    rw [mem_reverse]
    have hnodup := (nodup_append.mp h).2.1
    exact (nodup_cons.mp hnodup).1
  have hindex : (before ++ id :: after).reverse.idxOf id = after.length := by
    rw [reverse_append, reverse_cons, append_assoc,
      idxOf_append_of_notMem hnot, length_reverse]
    simp
  rw [labelIndex, hindex]
  simp only [length_append, length_cons]
  omega

theorem labels_eq (before group after : List String) (h : (before ++ (group ++ after)).Nodup) :
    group.map (labelIndex (before ++ (group ++ after))) =
      range' (before.length + 1) group.length := by
  induction group generalizing before with
  | nil => rfl
  | cons id group ih =>
    have hassoc : before ++ (id :: group ++ after) = (before ++ [id]) ++ (group ++ after) := by simp
    rw [map_cons, length_cons, range'_succ]
    congr 1
    · exact labelIndex_eq h
    · have hrest := ih (before ++ [id]) (hassoc ▸ h)
      rw [← hassoc] at hrest
      rw [hrest]
      simp
end

def factLine (k : ℕ) (fact : Fact) : Text :=
  ['-', ' '] ++ fact.statement ++ referenceSuffix (range' (k + 1) fact.evidenceIds.length)

def factLines : ℕ → List Fact → List Text
  | _, [] => []
  | k, fact :: rest => factLine k fact :: factLines (k + fact.evidenceIds.length) rest

abbrev Grouped : List Fact → List (List String) → Prop :=
  List.Forall₂ fun fact group => group.length = fact.evidenceIds.length

def sectionsOf (facts : List Fact) (groups : List (List String)) : List AnswerSection :=
  zipWith (fun fact group => ⟨fact.statement, group⟩) facts groups

theorem lines_eq {facts : List Fact} {groups : List (List String)} (h : Grouped facts groups)
    (before : List String) (hnodup : (before ++ groups.flatten).Nodup) :
    (sectionsOf facts groups).map (sectionLine (before ++ groups.flatten)) =
      factLines before.length facts := by
  induction h generalizing before with
  | nil => rfl
  | @cons fact group facts groups hlength h ih =>
    have hassoc : before ++ (group :: groups).flatten = (before ++ group) ++ groups.flatten := by
      simp
    have hrest := ih (before ++ group) (hassoc ▸ hnodup)
    rw [← hassoc, length_append, hlength] at hrest
    have hlabels := labels_eq before group groups.flatten (by simpa using hnodup)
    rw [hlength] at hlabels
    simp only [sectionsOf, zipWith_cons_cons, map_cons, factLines] at hrest ⊢
    rw [hrest, sectionLine, flatten_cons, hlabels]
    rfl

theorem grouped_placeholders (n : ℕ) (facts : List Fact) :
    Grouped facts (placeholderGroups n facts) := by
  induction facts generalizing n with
  | nil => exact .nil
  | cons fact facts ih => exact .cons (by simp) (ih _)

theorem placeholder_injective : Function.Injective placeholder := by
  intro a b hab
  have hlist : ("qcit_placeholder_" ++ toString a).toList =
      ("qcit_placeholder_" ++ toString b).toList := congrArg String.toList hab
  rw [String.toList_append, String.toList_append] at hlist
  have hdigits := append_cancel_left hlist
  have ha := Nat.ofDigitChars_ten_toDigits (n := a)
  have hb := Nat.ofDigitChars_ten_toDigits (n := b)
  have hsame : Nat.toDigits 10 a = Nat.toDigits 10 b := by
    simpa [Nat.repr] using hdigits
  rw [← ha, hsame, hb]

theorem placeholders_flatten (n : ℕ) (facts : List Fact) :
    (placeholderGroups n facts).flatten = (range' (n + 1)
      (facts.map (·.evidenceIds.length)).sum).map placeholder := by
  induction facts generalizing n with
  | nil => rfl
  | cons fact facts ih =>
    rw [placeholderGroups, flatten_cons, ih, map_cons, sum_cons,
      ← range'_append_1, map_append]
    congr 1
    · rw [range'_eq_map_range, map_map]
      refine map_congr_left fun k _ => ?_
      simp only [Function.comp]
      congr 1
      omega
    · congr 2
      omega

theorem placeholders_nodup (facts : List Fact) : (placeholderGroups 0 facts).flatten.Nodup := by
  rw [placeholders_flatten]
  exact List.Nodup.map placeholder_injective (by simp [nodup_range'])

end RaytSystem.Querying
