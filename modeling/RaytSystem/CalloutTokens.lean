import RaytSystem.ProtectedTokens

/-! What the passes over the wikilinks and the callouts make of a body. -/
namespace RaytSystem.Markdown
open JsText Pattern TokenCode

theorem noneOf_not_mem {s : String} {u : CodeUnit} {w : JsText} (hu : u ∈ units s)
    (h : ∀ v ∈ w, noneOf s v = true) : u ∉ w := by
  intro hmem
  have hnone := h u hmem
  simp [noneOf, hu] at hnone

theorem wikilink_line {hit : JsText} (h : wikilink.Spells hit) : lineFeed ∉ hit := by
  obtain ⟨bang, rest, rfl, hbang, opening, rest, rfl, hopening, target, rest, rfl, htarget,
    closing, rest, rfl, hclosing, rfl⟩ := h
  obtain ⟨first, more, rfl, ⟨u, hu, rfl⟩, hmore⟩ := htarget
  have hbang' : lineFeed ∉ bang := by
    rcases hbang with hbang | rfl
    · obtain rfl := spells_text.mp hbang
      decide
    · exact List.not_mem_nil
  obtain rfl := spells_text.mp hopening
  obtain rfl := spells_text.mp hclosing
  have hline : lineFeed ∈ units "]\n" := by decide
  have hu' : lineFeed ∉ [u] := noneOf_not_mem hline (by simpa using hu)
  have hmore' : lineFeed ∉ more := noneOf_not_mem hline (spells_star_unit.mp hmore)
  have hopening' : lineFeed ∉ units "[[" := by decide
  have hclosing' : lineFeed ∉ units "]]" := by decide
  simp only [List.mem_append, not_or]
  exact ⟨hbang', hopening', ⟨hu', hmore'⟩, hclosing', List.not_mem_nil⟩

def CalloutMarker (marker : JsText) : Prop :=
  ∃ name, name ≠ [] ∧ (∀ u ∈ name, isCalloutName u = true) ∧
    marker = units "[!" ++ (name ++ units "]")

theorem callout_line {hit : JsText} (h : callout.Spells hit) :
    ∃ marker line, CalloutMarker marker ∧ lineFeed ∉ line ∧ hit = marker ++ line := by
  obtain ⟨opening, rest, rfl, hopening, name, rest, rfl, hname, closing, rest, rfl, hclosing,
    line, rest, rfl, hline, rfl⟩ := h
  obtain ⟨first, more, rfl, ⟨u, hu, rfl⟩, hmore⟩ := hname
  obtain rfl := spells_text.mp hopening
  obtain rfl := spells_text.mp hclosing
  refine ⟨units "[!" ++ (([u] ++ more) ++ units "]"), line,
    ⟨[u] ++ more, List.cons_ne_nil _ _, ?_, rfl⟩, ?_, ?_⟩
  · exact List.forall_mem_cons.mpr ⟨hu, spells_star_unit.mp hmore⟩
  · exact noneOf_not_mem (by decide) (spells_star_unit.mp hline)
  · simp

theorem CalloutMarker.not_mem {marker : JsText} (h : CalloutMarker marker) {u : CodeUnit}
    (hname : isCalloutName u = false) (hbrackets : u ∉ units "[!]") : u ∉ marker := by
  obtain ⟨name, -, hnames, rfl⟩ := h
  have hopening : u ∉ units "[!" := fun hu =>
    hbrackets (List.Sublist.mem hu (by decide))
  have hclosing : u ∉ units "]" := fun hu =>
    hbrackets (List.Sublist.mem hu (by decide))
  simp only [List.mem_append, not_or]
  exact ⟨hopening, fun hu => by simp [hnames u hu] at hname, hclosing⟩

theorem CalloutMarker.cons {marker : JsText} (h : CalloutMarker marker) :
    ∃ rest, marker = 91 :: rest := by
  obtain ⟨name, -, -, rfl⟩ := h
  have hopening : units "[!" = [91, 33] := by decide
  exact ⟨33 :: (name ++ units "]"), by rw [hopening]; rfl⟩

section

def Apart (xs : List (CodeUnit ⊕ ℕ)) : Prop :=
  ∀ marker line i, CalloutMarker marker → lineFeed ∉ line →
    ¬(marker ++ line).map .inl ++ [.inr i] <:+: xs

theorem Apart.of_append {a xs : List (CodeUnit ⊕ ℕ)} (h : Apart (a ++ xs)) : Apart xs :=
  fun marker line i hmarker hline hpart =>
    h marker line i hmarker hline (hpart.trans (List.suffix_append a xs).isInfix)

variable {xs : List (CodeUnit ⊕ ℕ)}

theorem prefix_spell_or {w : JsText} (h : w <+: spell tokenCode.token xs) :
    (∃ ys, xs = w.map .inl ++ ys) ∨
      ∃ a b i ys, w = a ++ b ∧ xs = a.map .inl ++ .inr i :: ys := by
  induction w generalizing xs with
  | nil => exact Or.inl ⟨xs, rfl⟩
  | cons u w ih =>
    cases xs with
    | nil => exact absurd h (by simp)
    | cons x xs =>
      cases x with
      | inr i => exact Or.inr ⟨[], u :: w, i, xs, rfl, rfl⟩
      | inl v =>
        obtain ⟨rfl, hrest⟩ := List.cons_prefix_cons.mp h
        rcases ih hrest with ⟨ys, rfl⟩ | ⟨a, b, i, ys, rfl, rfl⟩
        · exact Or.inl ⟨ys, rfl⟩
        · exact Or.inr ⟨u :: a, b, i, ys, rfl, rfl⟩

theorem callout_units {hit s : JsText} (hapart : Apart xs) (hspells : callout.Spells hit)
    (h : hit ++ s = spell tokenCode.token xs) :
    ∃ ys, xs = hit.map .inl ++ ys ∧ s = spell tokenCode.token ys := by
  obtain ⟨marker, line, hmarker, hline, rfl⟩ := callout_line hspells
  have hmark : tokenCode.mark ∉ marker :=
    hmarker.not_mem (by decide) (by decide)
  rw [List.append_assoc] at h
  obtain ⟨xs₁, rfl⟩ := prefix_spell hmark ⟨line ++ s, h⟩
  rw [spell_append, spell_units, List.append_cancel_left_eq] at h
  rcases prefix_spell_or ⟨s, h⟩ with ⟨ys, rfl⟩ | ⟨a, b, i, ys, rfl, rfl⟩
  · rw [spell_append, spell_units, List.append_cancel_left_eq] at h
    exact ⟨ys, by simp, h⟩
  · have ha : lineFeed ∉ a := fun hu => hline (List.mem_append_left b hu)
    exact absurd ⟨[], ys, by simp⟩ (hapart marker a i hmarker ha)

theorem tail_not_bracket (i : ℕ) : (91 : CodeUnit) ∉ tokenCode.tail i :=
  not_mem_tail (by decide) (by decide) (by decide) i

/-- What the pass over the callouts makes of a text with tokens: `ys` has the callouts as further
tokens, numbered from `k`. The units `w` are the rest of a token. -/
theorem callout_pass (src : ℕ → JsText) {s : JsText} {ps : List (CodeUnit ⊕ JsText)}
    (h : callout.Cuts s ps) : ∀ (w : JsText) (xs : List (CodeUnit ⊕ ℕ)) (k : ℕ),
    (91 : CodeUnit) ∉ w → s = w ++ spell tokenCode.token xs → Apart xs →
    (∀ m hit, (hits ps)[m]? = some hit → src (k + m) = hit) →
    ∃ ys, spell tokenCode.token (number k ps) = w ++ spell tokenCode.token ys ∧
      spell src ys = spell src xs ∧
      (∀ j, .inr j ∈ ys ↔ .inr j ∈ xs ∨ k ≤ j ∧ j < k + (hits ps).length) ∧
      ∀ hit ∈ hits ps, hit.map .inl <:+: xs := by
  induction h with
  | nil =>
    intro w xs k _ hs _ _
    obtain ⟨rfl, hxs⟩ := List.append_eq_nil_iff.mp hs.symm
    refine ⟨xs, by rw [hxs]; rfl, rfl, fun j => ?_, by simp⟩
    simp only [hits_nil, List.length_nil]
    constructor
    · exact Or.inl
    · rintro (hj | hj)
      · exact hj
      · omega
  | @unit u s ps _ ih =>
    intro w xs k hw hs hapart hsrc
    cases w with
    | cons v w =>
      obtain ⟨rfl, hs'⟩ := List.cons.inj hs
      obtain ⟨ys, hspell, hrest⟩ := ih w xs k (mt (List.mem_cons_of_mem u) hw) hs' hapart hsrc
      exact ⟨ys, congrArg (u :: ·) hspell, hrest⟩
    | nil =>
      cases xs with
      | nil => cases hs
      | cons x xs =>
        have hapart' : Apart xs := Apart.of_append (a := [x]) hapart
        cases x with
        | inl v =>
          obtain ⟨rfl, hs'⟩ := List.cons.inj hs
          obtain ⟨ys, hspell, hsource, hmem, hpart⟩ :=
            ih [] xs k List.not_mem_nil hs' hapart' hsrc
          refine ⟨.inl u :: ys, congrArg (u :: ·) hspell, congrArg (u :: ·) hsource, fun j => ?_,
            fun hit hhit => (hpart hit hhit).trans (List.suffix_cons _ _).isInfix⟩
          simpa using hmem j
        | inr i =>
          obtain ⟨rfl, hs'⟩ := List.cons.inj hs
          obtain ⟨ys, hspell, hsource, hmem, hpart⟩ :=
            ih (tokenCode.tail i) xs k (tail_not_bracket i) hs' hapart' hsrc
          refine ⟨.inr i :: ys, congrArg (tokenCode.mark :: ·) hspell,
            congrArg (src i ++ ·) hsource, fun j => ?_,
            fun hit hhit => (hpart hit hhit).trans (List.suffix_cons _ _).isInfix⟩
          simp only [List.mem_cons, hmem j, hits_unit, or_assoc]
  | @hit hit s ps hspells hne _ ih =>
    intro w xs k hw hs hapart hsrc
    have hw' : w = [] := by
      obtain ⟨marker, line, hmarker, -, rfl⟩ := callout_line hspells
      obtain ⟨rest, rfl⟩ := hmarker.cons
      cases w with
      | nil => rfl
      | cons v w =>
        obtain ⟨rfl, -⟩ := List.cons.inj hs
        exact absurd List.mem_cons_self hw
    subst hw'
    obtain ⟨xs', rfl, hs'⟩ := callout_units hapart hspells hs
    have hsrc' : ∀ m hit', (hits ps)[m]? = some hit' → src (k + 1 + m) = hit' := by
      intro m hit' hm
      have hsucc := hsrc (m + 1) hit' hm
      rwa [← Nat.add_assoc, Nat.add_right_comm] at hsucc
    obtain ⟨ys, hspell, hsource, hmem, hpart⟩ :=
      ih [] xs' (k + 1) List.not_mem_nil hs' hapart.of_append hsrc'
    have hk : src k = hit := hsrc 0 hit rfl
    refine ⟨.inr k :: ys, congrArg (tokenCode.token k ++ ·) hspell, ?_, fun j => ?_, ?_⟩
    · rw [spell_token, hk, hsource, spell_append, spell_units]
    · have hunits : Sum.inr j ∉ hit.map (Sum.inl (β := ℕ)) := by simp
      simp only [List.mem_cons, Sum.inr.injEq, hmem j, List.mem_append, hunits, false_or,
        hits_hit, List.length_cons]
      have hbound : k ≤ j ∧ j < k + ((hits ps).length + 1) ↔
          j = k ∨ k + 1 ≤ j ∧ j < k + 1 + (hits ps).length := by omega
      rw [hbound]
      tauto
    · intro hit' hhit'
      rcases List.mem_cons.mp hhit' with rfl | hhit'
      · exact (List.prefix_append _ _).isInfix
      · exact (hpart hit' hhit').trans (List.suffix_append _ _).isInfix
end

structure Restorable (body : JsText) : Prop where
  links : ∀ link, .inr link ∈ wikilink.pieces body → Literal link
  callouts : ∀ marker line, CalloutMarker marker → lineFeed ∉ line →
    (marker ++ line).map .inl <:+: wikilink.pieces body → Literal (marker ++ line)
  apart : ∀ marker line link, CalloutMarker marker → lineFeed ∉ line →
    ¬(marker ++ line).map .inl ++ [.inr link] <:+: wikilink.pieces body
  noToken : ¬TokenText body

variable (tokens : List ProtectedMarkdownToken)

def sourceAt (i : ℕ) : JsText :=
  (tokens[i]?.map ProtectedMarkdownToken.source).getD []

def ReadsBack (edited : JsText) : Prop :=
  ∃ xs, normalizeLf edited = spell tokenCode.token xs ∧
    (∀ j, .inr j ∈ xs → j < tokens.length) ∧
    tokenCode.Clear tokens.length (sourceAt tokens) xs ∧
    ∀ item ∈ tokens, item.source.map .inl <:+: strayToken.pieces (spell (sourceAt tokens) xs)

theorem sourceAt_tokensFrom (sources : List JsText) (m : ℕ) (s : JsText)
    (h : sources[m]? = some s) : sourceAt (tokensFrom 0 sources) m = s := by
  rw [sourceAt, getElem?_tokensFrom, h]
  rfl

theorem protect_spells {body : JsText} (h : Restorable body) :
    ∃ sources xs, (protectAgentExtensions body).tokens = tokensFrom 0 sources ∧
      (protectAgentExtensions body).markdown = spell tokenCode.token xs ∧
      spell (sourceAt (tokensFrom 0 sources)) xs = body ∧
      (∀ j, .inr j ∈ xs ↔ j < sources.length) ∧
      ∀ s ∈ sources, Literal s ∧ lineFeed ∉ s ∧ s ≠ [] := by
  have hlinkCuts := cuts_pieces wikilink body
  let links := wikilink.pieces body
  let marked := spell tokenCode.token (number 0 links)
  have hcalloutCuts := cuts_pieces callout marked
  let found := callout.pieces marked
  let sources := hits links ++ hits found
  let src := sourceAt (tokensFrom 0 sources)
  have hfirst : replaceWith protect [] links = (marked, tokensFrom 0 (hits links)) :=
    replaceWith_protect [] links
  have hsecond : replaceWith protect (tokensFrom 0 (hits links)) found =
      (spell tokenCode.token (number (hits links).length found), tokensFrom 0 sources) := by
    rw [replaceWith_protect, length_tokensFrom, tokensFrom_append, Nat.zero_add]
  have hprotected : protectAgentExtensions body =
      ⟨spell tokenCode.token (number (hits links).length found), tokensFrom 0 sources⟩ := by
    simp only [protectAgentExtensions]
    rw [show wikilink.pieces body = links from rfl, hfirst,
      show callout.pieces marked = found from rfl, hsecond]
  have hlinks : spell src (number 0 links) = body := by
    rw [spell_number, hlinkCuts.join_eq]
    intro m hit hm
    rw [Nat.zero_add]
    apply sourceAt_tokensFrom
    exact (List.getElem?_append_left (List.getElem?_eq_some_iff.mp hm).1).trans hm
  have hapart : Apart (number 0 links) := by
    intro marker line i hmarker hline hpart
    obtain ⟨link, hlink⟩ := infix_hit_of_number hpart
    exact h.apart marker line link hmarker hline hlink
  have hfound : ∀ m hit, (hits found)[m]? = some hit → src ((hits links).length + m) = hit := by
    intro m hit hm
    apply sourceAt_tokensFrom
    rw [List.getElem?_append_right (Nat.le_add_right _ _), Nat.add_sub_cancel_left]
    exact hm
  obtain ⟨xs, hspell, hsource, hmem, hpart⟩ := callout_pass src hcalloutCuts [] (number 0 links)
    (hits links).length List.not_mem_nil rfl hapart hfound
  refine ⟨sources, xs, by rw [hprotected], by rw [hprotected]; exact hspell,
    hsource.trans hlinks, fun j => ?_, fun s hs => ?_⟩
  · have hlength : (hits (callout.pieces marked)).length = (hits found).length := rfl
    rw [hmem, mem_number, hlength, List.length_append]
    omega
  · rcases List.mem_append.mp hs with hs | hs
    · have hlink := mem_hits.mp hs
      obtain ⟨hspells, hne, -⟩ := hlinkCuts.spells hlink
      exact ⟨h.links s hlink, wikilink_line hspells, hne⟩
    · obtain ⟨hspells, hne, -⟩ := hcalloutCuts.spells (mem_hits.mp hs)
      obtain ⟨marker, line, hmarker, hline, rfl⟩ := callout_line hspells
      have hbody := infix_of_number (hpart _ hs)
      refine ⟨h.callouts marker line hmarker hline hbody, ?_, hne⟩
      have hmarker' : lineFeed ∉ marker :=
        hmarker.not_mem (by decide) (by decide)
      simp only [List.mem_append, not_or]
      exact ⟨hmarker', hline⟩

end RaytSystem.Markdown
