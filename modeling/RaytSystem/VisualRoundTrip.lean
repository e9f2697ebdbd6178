import RaytSystem.CalloutTokens

/-! Restoring the text of the visual editor. -/
namespace RaytSystem.Markdown
open JsText Pattern TokenCode

section
variable {σ : Type}

theorem restore_spell {envelope : VisualMarkdownEnvelope σ} {sources : List JsText}
    (htokens : envelope.protectedTokens = tokensFrom 0 sources)
    (hliteral : ∀ s ∈ sources, Literal s) {edited : JsText} {xs : List (CodeUnit ⊕ ℕ)}
    (hedited : normalizeLf edited = spell tokenCode.token xs)
    (hmem : ∀ j, .inr j ∈ xs ↔ j < sources.length)
    (hclear : tokenCode.Clear sources.length (sourceAt (tokensFrom 0 sources)) xs) :
    restoreVisualMarkdown edited envelope =
      ⟨finishMarkdown envelope
        (removeStrayTokens (spell (sourceAt (tokensFrom 0 sources)) xs)), envelope.issues⟩ := by
  have hfold := foldl_restoreToken (sourceAt (tokensFrom 0 sources)) envelope.issues sources 0 xs
    ((Nat.zero_add _).symm ▸ hclear)
    (fun m s hm => ⟨by rw [Nat.zero_add]; exact sourceAt_tokensFrom sources m s hm,
      hliteral s (List.mem_of_getElem? hm)⟩)
    (fun j => by rw [hmem j]; omega)
  simp only [restoreVisualMarkdown, htokens, hedited, hfold]

theorem infix_removeStrayTokens {w s : JsText} (h : w.map .inl <:+: strayToken.pieces s) :
    w <:+: removeStrayTokens s := by
  obtain ⟨before, after, h⟩ := h
  rw [removeStrayTokens, ← h, List.flatMap_append, List.flatMap_append, List.flatMap_map]
  refine ⟨_, _, congrArg (_ ++ · ++ _) ?_⟩
  exact (List.flatMap_singleton' w).symm

theorem infix_stripNewlines {w s : JsText} (hw : lineFeed ∉ w) (hne : w ≠ []) (h : w <:+: s) :
    w <:+: stripNewlines s := by
  obtain ⟨a, b, rfl⟩ := h
  induction b using List.reverseRecOn with
  | nil =>
    have hlast : stripNewlines (a ++ w ++ []) = a ++ w ++ [] := by
      rw [stripNewlines, List.rdropWhile_eq_self_iff]
      intro hl
      simp only [List.append_nil, List.getLast_append_of_ne_nil _ hne, decide_eq_true_eq]
      exact fun hu => hw (hu ▸ List.getLast_mem hne)
    rw [hlast]
    exact ⟨a, [], rfl⟩
  | append_singleton b u ih =>
    rw [stripNewlines, ← List.append_assoc]
    by_cases hu : u = lineFeed
    · rw [List.rdropWhile_concat_pos _ _ _ (by simpa using hu)]
      exact ih
    · rw [List.rdropWhile_concat_neg _ _ _ (by simpa using hu)]
      exact ⟨a, b ++ [u], by simp⟩

theorem toCrlf_of_not_mem {w : JsText} (hw : lineFeed ∉ w) : toCrlf w = w := by
  induction w with
  | nil => rfl
  | cons u w ih =>
    obtain ⟨hu, hw⟩ := not_or.mp (mt List.mem_cons.mpr hw)
    have hu' : u ≠ lineFeed := fun h => hu h.symm
    change (if u = lineFeed then _ else [u]) ++ toCrlf w = u :: w
    rw [if_neg hu', ih hw]
    rfl

theorem infix_toCrlf {w s : JsText} (hw : lineFeed ∉ w) (h : w <:+: s) : w <:+: toCrlf s := by
  obtain ⟨a, b, rfl⟩ := h
  refine ⟨toCrlf a, toCrlf b, ?_⟩
  conv_lhs => rw [← toCrlf_of_not_mem hw]
  simp only [toCrlf, List.flatMap_append]

theorem infix_finishMarkdown (envelope : VisualMarkdownEnvelope σ) {w body : JsText}
    (hw : lineFeed ∉ w) (hne : w ≠ []) (h : w <:+: body) : w <:+: finishMarkdown envelope body := by
  have hbody : w <:+: stripNewlines (envelope.frontmatter ++ body) :=
    infix_stripNewlines hw hne (h.trans (List.suffix_append _ _).isInfix)
  have hfinal : w <:+: if envelope.finalNewline
      then stripNewlines (envelope.frontmatter ++ body) ++ [lineFeed]
      else stripNewlines (envelope.frontmatter ++ body) := by
    split
    · exact hbody.trans (List.prefix_append _ _).isInfix
    · exact hbody
  simp only [finishMarkdown]
  cases envelope.lineEnding with
  | crlf => exact infix_toCrlf hw hfinal
  | lf => exact hfinal
end

section

theorem normalizeLf_cons {u : CodeUnit} (hu : u ≠ carriageReturn) (s : JsText) :
    normalizeLf (u :: s) = u :: normalizeLf s := by
  cases s with
  | nil => simp [normalizeLf, hu]
  | cons v s => simp [normalizeLf, hu]

variable {w : JsText}

theorem normalizeLf_append (hw : carriageReturn ∉ w) (s : JsText) :
    normalizeLf (w ++ s) = w ++ normalizeLf s := by
  induction w with
  | nil => rfl
  | cons u w ih =>
    obtain ⟨hu, hw⟩ := not_or.mp (mt List.mem_cons.mpr hw)
    rw [List.cons_append, normalizeLf_cons (fun h => hu h.symm), ih hw, List.cons_append]

theorem normalizeLf_of_not_mem (hw : carriageReturn ∉ w) : normalizeLf w = w := by
  simpa [normalizeLf] using normalizeLf_append hw []

theorem infix_normalizeLf (hreturn : carriageReturn ∉ w) (hfeed : lineFeed ∉ w) (hne : w ≠ [])
    (s : JsText) (h : w <:+: s) : w <:+: normalizeLf s := by
  have hstarts : ∀ t, w <+: t → w <:+: normalizeLf t := by
    rintro t ⟨rest, rfl⟩
    rw [normalizeLf_append hreturn]
    exact (List.prefix_append _ _).isInfix
  induction s using normalizeLf.induct with
  | case1 => exact absurd (List.infix_nil.mp h) hne
  | case2 u =>
    rcases List.infix_cons_iff.mp h with h | h
    · exact hstarts [u] h
    · exact absurd (List.infix_nil.mp h) hne
  | case3 rest ih =>
    rcases List.infix_cons_iff.mp h with h | h
    · exact hstarts _ h
    · rcases List.infix_cons_iff.mp h with h | h
      · obtain ⟨x, w, rfl⟩ := List.exists_cons_of_ne_nil hne
        have hx : x = lineFeed := (List.cons_prefix_cons.mp h).1
        exact absurd (hx ▸ List.mem_cons_self) hfeed
      · rw [normalizeLf, if_pos rfl, if_pos rfl]
        exact (ih h).trans (List.suffix_cons _ _).isInfix
  | case4 v rest hv ih =>
    rcases List.infix_cons_iff.mp h with h | h
    · exact hstarts _ h
    · rw [normalizeLf, if_pos rfl, if_neg hv]
      exact (ih h).trans (List.suffix_cons _ _).isInfix
  | case5 u v rest hu ih =>
    rcases List.infix_cons_iff.mp h with h | h
    · exact hstarts _ h
    · rw [normalizeLf_cons hu]
      exact (ih h).trans (List.suffix_cons _ _).isInfix

theorem frontmatter_body (content : JsText) :
    (splitFrontmatter content).frontmatter ++ (splitFrontmatter content).body = content := by
  unfold splitFrontmatter
  split
  · split
    · rfl
    · dsimp only
      split
      next stop _ hbreak =>
        rw [List.append_assoc]
        have hdrop : [lineFeed] ++ content.drop (stop + 4 + 1) = content.drop (stop + 4) := by
          obtain ⟨hlt, hget⟩ := List.getElem?_eq_some_iff.mp hbreak
          rw [List.drop_eq_getElem_cons hlt, hget]
          rfl
        rw [hdrop, List.take_append_drop]
      next => exact List.take_append_drop _ _
  · rfl

inductive LineStyle
  | lf
  | crlf
  | cr
  deriving DecidableEq

def LineStyle.ending : LineStyle → JsText
  | .lf => [lineFeed]
  | .crlf => [carriageReturn, lineFeed]
  | .cr => [carriageReturn]

structure StyledContent where
  lines : JsText
  style : LineStyle
  noReturn : carriageReturn ∉ lines
  oneNewline : ¬[lineFeed, lineFeed] <:+ lines

def StyledContent.content (doc : StyledContent) : JsText :=
  doc.lines.flatMap fun u => if u = lineFeed then doc.style.ending else [u]

namespace StyledContent
variable (doc : StyledContent)

def NoBareReturn : Prop := doc.style ≠ .cr ∨ lineFeed ∉ doc.lines

theorem content_of_not_mem (h : lineFeed ∉ doc.lines) : doc.content = doc.lines := by
  have hsame : ∀ s : JsText, lineFeed ∉ s →
      (s.flatMap fun u => if u = lineFeed then doc.style.ending else [u]) = s := by
    intro s hs
    induction s with
    | nil => rfl
    | cons u s ih =>
      obtain ⟨hu, hs⟩ := not_or.mp (mt List.mem_cons.mpr hs)
      rw [List.flatMap_cons, if_neg fun he => hu he.symm, ih hs]
      rfl
  exact hsame doc.lines h

theorem content_lf (h : doc.style = .lf) : doc.content = doc.lines := by
  have hunit : ∀ u : CodeUnit, (if u = lineFeed then LineStyle.lf.ending else [u]) = [u] := by
    intro u
    split
    next hu => rw [hu]; rfl
    next => rfl
  simp only [content, h, hunit]
  exact List.flatMap_singleton' doc.lines

theorem content_crlf (h : doc.style = .crlf) : doc.content = toCrlf doc.lines := by
  simp only [content, h]
  rfl

theorem normalizeLf_toCrlf {s : JsText} (h : carriageReturn ∉ s) : normalizeLf (toCrlf s) = s := by
  induction s with
  | nil => rfl
  | cons u s ih =>
    obtain ⟨hu, hs⟩ := not_or.mp (mt List.mem_cons.mpr h)
    change normalizeLf ((if u = lineFeed then _ else [u]) ++ toCrlf s) = u :: s
    split
    next hfeed =>
      rw [hfeed, List.cons_append, List.cons_append, List.nil_append, normalizeLf, if_pos rfl,
        if_pos rfl, ih hs]
    next =>
      rw [List.singleton_append, normalizeLf_cons fun he => hu he.symm, ih hs]

theorem normalizeLf_content (h : doc.NoBareReturn) : normalizeLf doc.content = doc.lines := by
  by_cases hfeed : lineFeed ∈ doc.lines
  · cases hstyle : doc.style with
    | lf => rw [doc.content_lf hstyle, normalizeLf_of_not_mem doc.noReturn]
    | crlf => rw [doc.content_crlf hstyle, normalizeLf_toCrlf doc.noReturn]
    | cr => exact absurd hfeed (h.resolve_left fun hne => hne hstyle)
  · rw [doc.content_of_not_mem hfeed, normalizeLf_of_not_mem doc.noReturn]

theorem toCrlf_append (a b : JsText) : toCrlf (a ++ b) = toCrlf a ++ toCrlf b :=
  List.flatMap_append

theorem lineEnding_of_not_mem {content : JsText} (h : carriageReturn ∉ content) :
    normalizedLineEnding content = .lf := by
  rw [normalizedLineEnding, if_neg]
  exact fun hpart => h (hpart.subset List.mem_cons_self)

theorem write_lines (h : doc.NoBareReturn) : (match normalizedLineEnding doc.content with
      | .crlf => toCrlf doc.lines
      | .lf => doc.lines) = doc.content := by
  by_cases hfeed : lineFeed ∈ doc.lines
  · cases hstyle : doc.style with
    | lf =>
      rw [doc.content_lf hstyle, lineEnding_of_not_mem doc.noReturn]
    | crlf =>
      obtain ⟨a, b, hab⟩ := List.append_of_mem hfeed
      have hpart : [carriageReturn, lineFeed] <:+: doc.content := by
        rw [doc.content_crlf hstyle, hab, toCrlf_append]
        exact ⟨toCrlf a, toCrlf b, by simp [toCrlf]⟩
      rw [normalizedLineEnding, if_pos hpart, doc.content_crlf hstyle]
    | cr => exact absurd hfeed (h.resolve_left fun hne => hne hstyle)
  · rw [doc.content_of_not_mem hfeed, lineEnding_of_not_mem doc.noReturn]

theorem getLast_content (h : doc.NoBareReturn) :
    doc.content.getLast? = some lineFeed ↔ doc.lines.getLast? = some lineFeed := by
  rw [← doc.write_lines h]
  split
  next =>
    induction doc.lines using List.reverseRecOn with
    | nil => exact Iff.rfl
    | append_singleton s u _ =>
      rw [toCrlf_append, List.getLast?_concat]
      change ((toCrlf s ++ ((if u = lineFeed then _ else [u]) ++ [])).getLast? = _) ↔ _
      split
      next hu => simp [hu]
      next => simp
  next => exact Iff.rfl

theorem strip_newline {s : JsText} (hone : ¬[lineFeed, lineFeed] <:+ s) :
    (if s.getLast? = some lineFeed then stripNewlines s ++ [lineFeed] else stripNewlines s) =
      s := by
  rcases List.eq_nil_or_concat s with rfl | ⟨s, u, rfl⟩
  · rfl
  · rw [List.concat_eq_append] at hone ⊢
    rw [List.getLast?_concat]
    by_cases hu : u = lineFeed
    · subst hu
      have hlast : stripNewlines s = s := by
        rw [stripNewlines, List.rdropWhile_eq_self_iff]
        intro hl hlast
        apply hone
        rw [← List.dropLast_append_getLast hl, of_decide_eq_true hlast, List.append_assoc]
        exact List.suffix_append _ _
      rw [if_pos rfl, stripNewlines, List.rdropWhile_concat_pos _ _ _ (by simp)]
      exact congrArg (· ++ [lineFeed]) hlast
    · rw [if_neg fun h => hu (Option.some.inj h), stripNewlines,
        List.rdropWhile_concat_neg _ _ _ (by simpa using hu)]

end StyledContent
end

section
variable {σ : Type} (profile : JsText → σ)

def bodyOf (content : JsText) : JsText := (splitFrontmatter (normalizeLf content)).body

theorem finish_body {doc : StyledContent} (h : doc.NoBareReturn) :
    finishMarkdown (prepareVisualMarkdown profile doc.content) (bodyOf doc.content) =
      doc.content := by
  have hwhole : (splitFrontmatter (normalizeLf doc.content)).frontmatter ++
      bodyOf doc.content = doc.lines := by
    rw [bodyOf, frontmatter_body, doc.normalizeLf_content h]
  have hfinal := StyledContent.strip_newline doc.oneNewline
  simp only [finishMarkdown, prepareVisualMarkdown, hwhole, decide_eq_true_eq,
    doc.getLast_content h, hfinal]
  have hwrite := doc.write_lines h
  generalize normalizedLineEnding doc.content = ending at hwrite ⊢
  cases ending with
  | lf => exact hwrite
  | crlf => exact hwrite

theorem no_error_issue {content : JsText} {qualification : Option VisualQualification}
    (h : visualEditorBlockReason content qualification = none) :
    ∀ issue ∈ inspectMarkdownForVisualEditing content, issue.severity ≠ .error := by
  intro issue hissue herror
  have hany : (inspectMarkdownForVisualEditing content).any (·.severity = .error) = true :=
    List.any_eq_true.mpr ⟨issue, hissue, decide_eq_true herror⟩
  unfold visualEditorBlockReason at h
  rw [hany] at h
  split at h
  · cases h
  · split at h <;> cases h

theorem not_mem_spell {u : CodeUnit} {src : ℕ → JsText} {xs : List (CodeUnit ⊕ ℕ)}
    (htoken : ∀ i, u ∉ tokenCode.token i) (h : u ∉ spell src xs) :
    u ∉ spell tokenCode.token xs := by
  induction xs with
  | nil => exact List.not_mem_nil
  | cons x xs ih =>
    cases x with
    | inl v =>
      obtain ⟨hv, hrest⟩ := not_or.mp (mt List.mem_cons.mpr h)
      exact fun hu => (List.mem_cons.mp hu).elim hv (ih hrest)
    | inr i =>
      have hrest : u ∉ spell src xs := fun hu => h (List.mem_append_right _ hu)
      exact fun hu => (List.mem_append.mp hu).elim (htoken i) (ih hrest)

theorem not_mem_token {u : CodeUnit} (hmark : u ≠ tokenMark) (hstarts : u ∉ units "RAYTSYSTEM")
    (hdigits : u ∉ units "0123456789abcdefghijklmnopqrstuvwxyz") (hend : u ≠ tokenEnd) (i : ℕ) :
    u ∉ tokenCode.token i := fun hu =>
  (List.mem_cons.mp hu).elim hmark (not_mem_tail hstarts hdigits hend i)

theorem return_not_mem_token (i : ℕ) : carriageReturn ∉ tokenCode.token i :=
  not_mem_token (by decide) (by decide) (by decide) (by decide) i

theorem feed_not_mem_token (i : ℕ) : lineFeed ∉ tokenCode.token i :=
  not_mem_token (by decide) (by decide) (by decide) (by decide) i

variable {sources : List JsText} {ys : List (CodeUnit ⊕ ℕ)}

theorem spelled_iff {edited : JsText} (hys : normalizeLf edited = spell tokenCode.token ys)
    (hbound : ∀ j, .inr j ∈ ys → j < sources.length)
    (hclear : tokenCode.Clear sources.length (sourceAt (tokensFrom 0 sources)) ys)
    (hall : ∀ item ∈ tokensFrom 0 sources, item.token <:+: edited) (j : ℕ) :
    .inr j ∈ ys ↔ j < sources.length := by
  constructor
  · exact hbound j
  · intro hj
    have hget : (tokensFrom 0 sources)[j]? = some ⟨tokenAt j, sources[j]⟩ := by
      rw [getElem?_tokensFrom, List.getElem?_eq_getElem hj, Nat.zero_add]
      rfl
    have hin : tokenAt j <:+: normalizeLf edited :=
      infix_normalizeLf (return_not_mem_token j) (feed_not_mem_token j) (List.cons_ne_nil _ _)
        edited (hall _ (List.mem_of_getElem? hget))
    rw [hys] at hin
    exact mem_of_infix_spell hclear hj hin

/-- A document that the visual editor opens comes back as it was when its body is restorable, and
an edited text that reads back keeps every protected source. -/
theorem visual_round_trip (doc : StyledContent) (qualification : Option VisualQualification)
    (hopen : visualEditorBlockReason doc.content qualification = none)
    (hreturn : doc.NoBareReturn) (hbody : Restorable (bodyOf doc.content)) :
    let envelope := prepareVisualMarkdown profile doc.content
    ((restoreVisualMarkdown envelope.editorMarkdown envelope).content = doc.content ∧
      ∀ issue ∈ (restoreVisualMarkdown envelope.editorMarkdown envelope).issues,
        issue.severity ≠ .error) ∧
    ∀ edited, (∀ item ∈ envelope.protectedTokens, item.token <:+: edited) →
      ReadsBack envelope.protectedTokens edited →
      ∀ item ∈ envelope.protectedTokens,
        item.source <:+: (restoreVisualMarkdown edited envelope).content := by
  intro envelope
  obtain ⟨sources, xs, htokens, hmarkdown, hsource, hmem, hsources⟩ := protect_spells hbody
  have htokens' : envelope.protectedTokens = tokensFrom 0 sources := htokens
  have hliteral : ∀ s ∈ sources, Literal s := fun s hs => (hsources s hs).1
  have hno : carriageReturn ∉ bodyOf doc.content := by
    have hlines := frontmatter_body (normalizeLf doc.content)
    rw [doc.normalizeLf_content hreturn] at hlines
    intro hmem
    rw [bodyOf, doc.normalizeLf_content hreturn] at hmem
    exact doc.noReturn (hlines ▸ List.mem_append_right _ hmem)
  have hspell : normalizeLf envelope.editorMarkdown = spell tokenCode.token xs := by
    rw [show envelope.editorMarkdown = spell tokenCode.token xs from hmarkdown]
    exact normalizeLf_of_not_mem (not_mem_spell return_not_mem_token (by rwa [hsource]))
  have hclear : ¬TokenText (spell (sourceAt (tokensFrom 0 sources)) xs) := by
    rw [hsource]
    exact hbody.noToken
  have hrestored := restore_spell htokens' hliteral hspell hmem (clear_of_not_tokenText hclear _)
  refine ⟨?_, ?_⟩
  · rw [hrestored, removeStrayTokens_of_not_tokenText hclear, hsource]
    exact ⟨finish_body profile hreturn, no_error_issue hopen⟩
  · rintro edited hall ⟨ys, hys, hbound, hclean, hkept⟩ item hitem
    rw [htokens'] at hall hbound hclean hkept hitem
    rw [length_tokensFrom] at hbound hclean
    have hmem' : ∀ j, .inr j ∈ ys ↔ j < sources.length := spelled_iff hys hbound hclean hall
    rw [restore_spell htokens' hliteral hys hmem' hclean]
    obtain ⟨m, hm⟩ := List.mem_iff_getElem?.mp hitem
    rw [getElem?_tokensFrom] at hm
    obtain ⟨s, hs, rfl⟩ := Option.map_eq_some_iff.mp hm
    obtain ⟨-, hline, hne⟩ := hsources s (List.mem_of_getElem? hs)
    exact infix_finishMarkdown envelope hline hne (infix_removeStrayTokens (hkept _ hitem))
end

def calloutWithLink : StyledContent where
  lines := units "> [!note] [[Link]]\n"
  style := .lf
  noReturn := by decide
  oneNewline := by decide

/-- The wikilink is lost and reported as lost: its token stands in the source of the callout,
where no round of the restoration looks for it again. -/
theorem callout_link_lost :
    visualEditorBlockReason calloutWithLink.content none = none ∧
    let envelope := prepareVisualMarkdown (fun _ => ()) calloutWithLink.content
    let restored := restoreVisualMarkdown envelope.editorMarkdown envelope
    restored.content = units "> [!note] \n" ∧ restored.content ≠ calloutWithLink.content ∧
      restored.issues = [tokenLost (units "[[Link]]")] := by
  decide

def plainLink : StyledContent where
  lines := units "[[Link]]\n"
  style := .lf
  noReturn := by decide
  oneNewline := by decide

theorem mark_of_tokenText {s : JsText} (h : TokenText s) : tokenMark ∈ s := by
  obtain ⟨hit, hpart, opening, rest, rfl, hopening, -⟩ := h
  obtain rfl := spells_text.mp hopening
  exact hpart.subset (List.mem_append_left _ List.mem_cons_self)

theorem plainLink_restorable : Restorable (bodyOf plainLink.content) := by
  have hpieces : wikilink.pieces (bodyOf plainLink.content) =
      [.inr (units "[[Link]]"), .inl lineFeed] := by decide
  have hbracket : ∀ marker, CalloutMarker marker → ∀ w : JsText,
      ¬(marker ++ w).map Sum.inl <:+: wikilink.pieces (bodyOf plainLink.content) := by
    intro marker hmarker w hpart
    obtain ⟨rest, rfl⟩ := hmarker.cons
    have hmem := hpart.subset List.mem_cons_self
    rw [hpieces] at hmem
    rcases List.mem_cons.mp hmem with hlink | hfeed
    · cases hlink
    · exact absurd (Sum.inl.inj (List.mem_singleton.mp hfeed)) (by decide)
  refine ⟨fun link hlink => ?_, fun marker line hmarker _ h => ?_,
    fun marker line link hmarker _ h => ?_, fun h => ?_⟩
  · rw [hpieces] at hlink
    obtain rfl : link = units "[[Link]]" := by simpa using hlink
    decide
  · exact absurd h (hbracket marker hmarker line)
  · exact hbracket marker hmarker line ((List.prefix_append _ _).isInfix.trans h)
  · exact absurd (mark_of_tokenText h) (by decide)

/-- Text is added after a protected link. -/
theorem plain_link_kept :
    (restoreVisualMarkdown (tokenAt 0 ++ units " text")
      (prepareVisualMarkdown (fun _ => ()) plainLink.content)).content =
        units "[[Link]] text\n" ∧
    ∀ item ∈ (prepareVisualMarkdown (fun _ => ()) plainLink.content).protectedTokens,
      item.source <:+: (restoreVisualMarkdown (tokenAt 0 ++ units " text")
        (prepareVisualMarkdown (fun _ => ()) plainLink.content)).content := by
  have hroundTrip := visual_round_trip (fun _ => ()) plainLink none (by decide)
    (Or.inl (by decide)) plainLink_restorable
  have htokens : (prepareVisualMarkdown (fun _ => ()) plainLink.content).protectedTokens =
      [⟨tokenAt 0, units "[[Link]]"⟩] := by decide
  refine ⟨by decide, hroundTrip.2 _ ?_ ?_⟩
  · rw [htokens]
    decide
  · rw [htokens]
    refine ⟨.inr 0 :: (units " text").map .inl, by decide, ?_, ?_, by decide⟩
    · intro j hj
      obtain rfl : j = 0 := by simpa using hj
      decide
    · intro i _ hi
      exact absurd (hi.subset List.mem_cons_self) (by decide)

end RaytSystem.Markdown
