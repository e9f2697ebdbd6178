import RaytSystem.ExceptRules
import RaytSystem.MarkdownMetadata

/-! Which lines of a Markdown text belong to its metadata, and which to its fenced blocks. -/
namespace RaytSystem.Extraction
open List

theorem findFrom_some {pattern text : Text} {position i : ℕ}
    (h : findFrom pattern position text = some i) : position ≤ i ∧ pattern <+: text.drop i ∧
      ∀ j, position ≤ j → j < i → ¬pattern <+: text.drop j := by
  unfold findFrom at h
  obtain ⟨hi, hmem, hfirst⟩ := find?_range_eq_some.mp h
  simp only [Bool.and_eq_true, decide_eq_true_eq, isPrefixOf_iff_prefix] at hi
  refine ⟨hi.1, hi.2, fun j hj hlt hstarts => ?_⟩
  have hnone := hfirst j hlt
  simp [hj, isPrefixOf_iff_prefix.mpr hstarts] at hnone

theorem findFrom_none {pattern text : Text} {position : ℕ} (hpattern : pattern ≠ [])
    (h : findFrom pattern position text = none) {j : ℕ} (hj : position ≤ j) :
    ¬pattern <+: text.drop j := by
  intro hstarts
  have hlength : j < text.length := by
    by_contra hout
    rw [drop_eq_nil_of_le (by omega)] at hstarts
    exact hpattern (prefix_nil.mp hstarts)
  unfold findFrom at h
  have hnone := find?_eq_none.mp h j (mem_range.mpr (by omega))
  simp [hj, isPrefixOf_iff_prefix.mpr hstarts] at hnone

theorem prefix_drop_append {before pattern after : Text} :
    pattern <+: (before ++ (pattern ++ after)).drop before.length := by
  rw [drop_left]
  exact prefix_append _ _

section
variable (env : ExtractionEnv)

def lineFeed : Text := [0x0a]

def carriageReturnLineFeed : Text := [0x0d, 0x0a]

def lineEndings : List Text := [lineFeed, carriageReturnLineFeed]

def closingMarks : List Text := [chars "---", chars "..."]

def IsTerminator (line : Text) : Prop :=
  ∃ mark ∈ closingMarks, ∃ ending ∈ lineEndings, line = mark ++ ending

def AtLineStart (before : Text) : Prop := before = [] ∨ lineFeed <:+ before

def HoldsTerminator (text : Text) : Prop :=
  ∃ before line after, text = before ++ (line ++ after) ∧ AtLineStart before ∧ IsTerminator line

def Opened (text : Text) : Prop := ∃ ending ∈ lineEndings, chars "---" ++ ending <+: text

def Framed (text : Text) (payload : List (Text × Value)) (body : Text) : Prop :=
  ∃ opening ∈ lineEndings, ∃ block closing data,
    text = chars "---" ++ opening ++ (block ++ (closing ++ body)) ∧
    AtLineStart block ∧ ¬HoldsTerminator block ∧ IsTerminator closing ∧
    (block = [] ∧ data = [] ∨ ∃ ending ∈ lineEndings, block = data ++ ending) ∧
    loadPayload env data = .ok (some payload)

def ClosedFirst (text : Text) : Prop :=
  ∃ ending ∈ lineEndings, ∃ block after mark,
    text = chars "---" ++ ending ++ (block ++ (mark ++ ending ++ after)) ∧
    ¬HoldsTerminator block ∧ (block = [] ∨ ending <:+ block) ∧
    (mark = chars "---" ∨ mark = chars "..." ∧
      ¬ending ++ chars "---" ++ ending <:+: ending ++ (block ++ (mark ++ ending ++ after)))

variable {env}

theorem lineEndings_cases {ending : Text} (h : ending ∈ lineEndings) :
    ending = [0x0a] ∨ ending = [0x0d, 0x0a] := by
  simpa [lineEndings, lineFeed, carriageReturnLineFeed] using h

theorem closingMarks_cases {mark : Text} (h : mark ∈ closingMarks) :
    mark = [0x2d, 0x2d, 0x2d] ∨ mark = [0x2e, 0x2e, 0x2e] := by
  have hdashes : chars "---" = [0x2d, 0x2d, 0x2d] := by decide
  have hdots : chars "..." = [0x2e, 0x2e, 0x2e] := by decide
  rw [closingMarks, hdashes, hdots] at h
  simpa using h

theorem cut_at_ending {ending rest front back : Text} (he : ending ∈ lineEndings)
    (h : ending ++ rest = front ++ (ending ++ back)) :
    front = [] ∧ rest = back ∨ ∃ data, front = ending ++ data ∧ rest = data ++ ending ++ back := by
  rcases lineEndings_cases he with rfl | rfl
  · cases front with
    | nil => exact Or.inl ⟨rfl, by simpa using h⟩
    | cons c front =>
      obtain ⟨rfl, hrest⟩ := cons.inj h
      exact Or.inr ⟨front, rfl, by simpa using hrest⟩
  · cases front with
    | nil => exact Or.inl ⟨rfl, by simpa using h⟩
    | cons c front =>
      obtain ⟨rfl, hrest⟩ := cons.inj h
      cases front with
      | nil => simp at hrest
      | cons c front =>
        obtain ⟨rfl, hrest⟩ := cons.inj hrest
        exact Or.inr ⟨front, rfl, by simpa using hrest⟩

theorem ending_before {ending block : Text} (h : block = [] ∨ ending <:+ block) :
    ∃ front, ending ++ block = front ++ ending ∧ front.length = block.length := by
  rcases h with rfl | ⟨data, rfl⟩
  · exact ⟨[], by simp, rfl⟩
  · exact ⟨ending ++ data, by simp, by simp [Nat.add_comm]⟩

theorem atLineStart_of_ending {ending block : Text} (he : ending ∈ lineEndings)
    (h : block = [] ∨ ending <:+ block) : AtLineStart block := by
  refine h.imp id fun hsuffix => ?_
  have hfeed : lineFeed <:+ ending := by
    rcases lineEndings_cases he with rfl | rfl
    · exact suffix_refl _
    · exact ⟨[0x0d], rfl⟩
  exact hfeed.trans hsuffix

theorem line_inside {content block block' back back' : Text} (hcontent : 0x0a ∉ content)
    (hlines : AtLineStart block') (hlength : block.length < block'.length)
    (h : block ++ (content ++ lineFeed ++ back) = block' ++ back') :
    ∃ after, block' = block ++ (content ++ lineFeed ++ after) := by
  obtain ⟨rest, hrest, hback⟩ | ⟨rest, hrest, hback⟩ := append_eq_append_iff.mp h
  · subst hrest
    obtain ⟨inner, hinner, -⟩ | ⟨inner, hinner, -⟩ := append_eq_append_iff.mp hback
    · exact ⟨inner, by rw [hinner]⟩
    · rcases eq_nil_or_concat' inner with rfl | ⟨front, last, rfl⟩
      · exact ⟨[], by rw [hinner]; simp⟩
      · -- The end of the lines would fall into the content of this line.
        exfalso
        rw [← append_assoc] at hinner
        have hstarts : content = rest ++ front := (append_inj' hinner rfl).1
        have hne : rest ≠ [] := by
          rintro rfl
          simp at hlength
        have hlast : 0x0a ∈ rest := by
          obtain ⟨before, hbefore⟩ := hlines.resolve_left (by simp [hne])
          have hend := congrArg getLast? hbefore
          rw [getLast?_append_of_ne_nil _ (by simp [lineFeed]),
            getLast?_append_of_ne_nil _ hne] at hend
          exact mem_of_getLast? hend.symm
        exact hcontent (hstarts ▸ mem_append_left _ hlast)
  · have hshort := congrArg length hrest
    simp at hshort
    omega

theorem mark_content {mark ending : Text} (hmark : mark ∈ closingMarks)
    (he : ending ∈ lineEndings) :
    ∃ content, 0x0a ∉ content ∧ mark ++ ending = content ++ lineFeed := by
  rcases lineEndings_cases he with rfl | rfl
  · exact ⟨mark, by rcases closingMarks_cases hmark with rfl | rfl <;> decide, rfl⟩
  · refine ⟨mark ++ [0x0d], ?_, by simp [lineFeed]⟩
    rcases closingMarks_cases hmark with rfl | rfl <;> decide

theorem opening_unique {e e' : Text} (he : e ∈ lineEndings) (he' : e' ∈ lineEndings)
    {rest rest' : Text} (h : chars "---" ++ e ++ rest = chars "---" ++ e' ++ rest') :
    e = e' ∧ rest = rest' := by
  rw [append_assoc, append_assoc] at h
  have hrest := append_cancel_left h
  rcases lineEndings_cases he with rfl | rfl <;> rcases lineEndings_cases he' with rfl | rfl <;>
    simp_all

theorem closing_unique {e e' mark mark' block block' : Text} (he : e ∈ lineEndings)
    (he' : e' ∈ lineEndings) (hmark : mark ∈ closingMarks) (hmark' : mark' ∈ closingMarks)
    (h : block ++ (mark ++ e) = block' ++ (mark' ++ e')) :
    block = block' ∧ mark = mark' ∧ e = e' := by
  have hreverse := congrArg reverse h
  rcases lineEndings_cases he with rfl | rfl <;> rcases lineEndings_cases he' with rfl | rfl <;>
    rcases closingMarks_cases hmark with rfl | rfl <;>
    rcases closingMarks_cases hmark' with rfl | rfl <;> simp at hreverse <;>
    exact ⟨hreverse, rfl, rfl⟩

theorem drop_mark (ending rest : Text) (k : ℕ) :
    (chars "---" ++ ending ++ rest).drop (3 + k) = (ending ++ rest).drop k := by
  have hthree : (chars "---").length = 3 := by decide
  rw [append_assoc, ← drop_drop, ← hthree, drop_left]

theorem cut_of_find {ending mark rest : Text} {boundary : ℕ} (he : ending ∈ lineEndings)
    (h : findFrom (ending ++ mark ++ ending) 3 (chars "---" ++ ending ++ rest) = some boundary) :
    ∃ block data, rest = block ++ (mark ++ ending ++
        (chars "---" ++ ending ++ rest).drop (boundary + ending.length + mark.length + ending.length)) ∧
      (block = [] ∧ data = [] ∨ block = data ++ ending) ∧ boundary = 3 + block.length ∧
      data = ((chars "---" ++ ending ++ rest).take boundary).drop (3 + ending.length) := by
  obtain ⟨hposition, ⟨after, hafter⟩, -⟩ := findFrom_some h
  obtain ⟨k, rfl⟩ : ∃ k, boundary = 3 + k := ⟨boundary - 3, by omega⟩
  have hthree : (chars "---").length = 3 := by decide
  have hdrop := drop_mark ending rest k
  have hlength : ((ending ++ rest).take k).length = k := by
    have hne := congrArg length (hafter.trans hdrop)
    rcases lineEndings_cases he with rfl | rfl <;>
      simp only [length_append, length_drop, length_take, length_cons,
        length_nil] at hne ⊢ <;> omega
  have hcut : ending ++ rest = (ending ++ rest).take k ++ (ending ++ (mark ++ ending ++ after)) := by
    have hparts := take_append_drop k (ending ++ rest)
    rw [← hdrop, ← hafter] at hparts
    simpa using hparts.symm
  have hend : (chars "---" ++ ending ++ rest).drop
      (3 + k + ending.length + mark.length + ending.length) = after := by
    have hskip := congrArg (drop (ending ++ mark ++ ending).length) hafter
    rw [drop_left, drop_drop] at hskip
    rw [hskip]
    congr 1
    simp only [length_append]
    omega
  have hdata : ((chars "---" ++ ending ++ rest).take (3 + k)).drop (3 + ending.length) =
      ((ending ++ rest).take k).drop ending.length := by
    rw [← drop_drop, append_assoc]
    congr 1
    rw [show 3 + k = (chars "---").length + k by rw [hthree], take_length_add_append,
      ← hthree, drop_left]
  rw [hend, hdata]
  rcases cut_at_ending he hcut with ⟨hnil, hrest⟩ | ⟨data, hfront, hrest⟩
  · rw [hnil] at hlength ⊢
    obtain rfl : k = 0 := by simpa using hlength.symm
    exact ⟨[], [], hrest, Or.inl ⟨rfl, rfl⟩, rfl, by simp⟩
  · rw [hfront] at hlength ⊢
    rw [drop_left]
    refine ⟨data ++ ending, data, hrest, Or.inr rfl, ?_, rfl⟩
    rw [← hlength]
    simp [Nat.add_comm]

variable {ending mark rest block after : Text}

theorem closing_seen (hrest : rest = block ++ (mark ++ ending ++ after))
    (hline : block = [] ∨ ending <:+ block) :
    ∃ front, ending ++ rest = front ++ (ending ++ mark ++ ending ++ after) ∧
      front.length = block.length := by
  obtain ⟨front, hfront, hlength⟩ := ending_before hline
  refine ⟨front, ?_, hlength⟩
  calc ending ++ rest = (ending ++ block) ++ (mark ++ ending ++ after) := by rw [hrest]; simp
    _ = front ++ (ending ++ mark ++ ending ++ after) := by rw [hfront]; simp

theorem infix_of_closing (hrest : rest = block ++ (mark ++ ending ++ after))
    (hline : block = [] ∨ ending <:+ block) : ending ++ mark ++ ending <:+: ending ++ rest := by
  obtain ⟨front, hfront, -⟩ := closing_seen hrest hline
  exact ⟨front, after, by rw [hfront]; simp⟩

theorem find_earliest {ending mark rest block block' after : Text}
    (h : findFrom (ending ++ mark ++ ending) 3 (chars "---" ++ ending ++ rest) =
      some (3 + block.length))
    (hrest : rest = block' ++ (mark ++ ending ++ after))
    (hline : block' = [] ∨ ending <:+ block') : block.length ≤ block'.length := by
  obtain ⟨front, htext, hlength⟩ := closing_seen hrest hline
  by_contra hlt
  refine (findFrom_some h).2.2 (3 + front.length) (by omega) (by omega) ?_
  rw [drop_mark, htext]
  exact prefix_drop_append

theorem find_absent {ending mark rest : Text} (he : ending ∈ lineEndings)
    (h : findFrom (ending ++ mark ++ ending) 3 (chars "---" ++ ending ++ rest) = none) :
    ¬ending ++ mark ++ ending <:+: ending ++ rest := by
  rintro ⟨front, after, htext⟩
  have hne : ending ++ mark ++ ending ≠ [] := by
    rcases lineEndings_cases he with rfl | rfl <;> simp
  refine findFrom_none hne h (j := 3 + front.length) (by omega) ?_
  rw [drop_mark, ← htext, append_assoc front]
  exact prefix_drop_append

theorem opened_iff {ending ending' rest : Text} (he : ending ∈ lineEndings)
    (he' : ending' ∈ lineEndings) :
    (chars "---" ++ ending').isPrefixOf (chars "---" ++ ending ++ rest) = true ↔
      ending' = ending := by
  rw [List.isPrefixOf_iff_prefix]
  constructor
  · rintro ⟨after, hafter⟩
    exact (opening_unique he' he hafter).1
  · rintro rfl
    exact prefix_append _ _

theorem parseFrontmatter_opened {ending rest : Text} (he : ending ∈ lineEndings) :
    parseFrontmatter env (chars "---" ++ ending ++ rest) =
      match (findFrom (ending ++ chars "---" ++ ending) 3 (chars "---" ++ ending ++ rest)).or
        (findFrom (ending ++ chars "..." ++ ending) 3 (chars "---" ++ ending ++ rest)) with
      | none => .ok ([], chars "---" ++ ending ++ rest, [chars "frontmatter_unterminated"])
      | some boundary =>
        let data := ((chars "---" ++ ending ++ rest).take boundary).drop (3 + ending.length)
        if maxFrontmatterBytes < utf8Length data then
          .ok ([], chars "---" ++ ending ++ rest, [chars "frontmatter_too_large"])
        else
          match loadPayload env data with
          | .error fault => .error fault
          | .ok none => .ok ([], chars "---" ++ ending ++ rest, [chars "frontmatter_invalid"])
          | .ok (some payload) => .ok (payload, (chars "---" ++ ending ++ rest).drop
              (boundary + ending.length + 3 + ending.length), []) := by
  have hfeed := @opened_iff ending [0x0a] rest he (by decide)
  have hreturn := @opened_iff ending [0x0d, 0x0a] rest he (by decide)
  unfold parseFrontmatter
  dsimp only
  rcases lineEndings_cases he with rfl | rfl
  · have hno : (chars "---" ++ [0x0d, 0x0a]).isPrefixOf (chars "---" ++ [0x0a] ++ rest) = false :=
      Bool.eq_false_iff.mpr fun h => absurd (hreturn.mp h) (by decide)
    simp only [hfeed.mpr rfl, hno, Bool.true_or, if_true, Bool.false_eq_true, if_false] <;> rfl
  · simp only [hreturn.mpr rfl, Bool.or_true, if_true] <;> rfl

variable {payload : List (Text × Value)}

theorem parse_cut {ending rest body : Text} (he : ending ∈ lineEndings)
    (h : parseFrontmatter env (chars "---" ++ ending ++ rest) = .ok (payload, body, [])) :
    ∃ block data mark, mark ∈ closingMarks ∧ rest = block ++ (mark ++ ending ++ body) ∧
      (block = [] ∧ data = [] ∨ block = data ++ ending) ∧
      loadPayload env data = .ok (some payload) ∧
      findFrom (ending ++ mark ++ ending) 3 (chars "---" ++ ending ++ rest) =
        some (3 + block.length) ∧
      (mark = chars "---" ∨ mark = chars "..." ∧
        ¬ending ++ chars "---" ++ ending <:+: ending ++ rest) := by
  rw [parseFrontmatter_opened he] at h
  split at h
  next => simp at h
  next boundary hboundary =>
    dsimp only at h
    split at h
    next => simp at h
    next =>
      split at h
      next => cases h
      next => simp at h
      next payload' hload =>
        obtain ⟨hpayload, hbody⟩ := Prod.mk.inj (Except.ok.inj h)
        obtain ⟨hbody, -⟩ := Prod.mk.inj hbody
        subst hpayload
        have hfound : ∃ mark ∈ closingMarks,
            findFrom (ending ++ mark ++ ending) 3 (chars "---" ++ ending ++ rest) =
              some boundary ∧ (mark = chars "---" ∨ mark = chars "..." ∧
                ¬ending ++ chars "---" ++ ending <:+: ending ++ rest) := by
          rcases Option.or_eq_some_iff.mp hboundary with hdashes | ⟨hnone, hdots⟩
          · exact ⟨_, mem_cons_self, hdashes, Or.inl rfl⟩
          · exact ⟨chars "...", by simp [closingMarks], hdots,
              Or.inr ⟨rfl, find_absent he hnone⟩⟩
        obtain ⟨mark, hmark, hfind, hdots⟩ := hfound
        obtain ⟨block, data, hrest, hblock, hposition, hdata⟩ := cut_of_find he hfind
        have hthree : mark.length = 3 := by
          rcases closingMarks_cases hmark with rfl | rfl <;> rfl
        rw [hthree, hbody] at hrest
        rw [← hdata] at hload
        rw [hposition] at hfind
        exact ⟨block, data, mark, hmark, hrest, hblock, hload, hfind, hdots⟩

theorem holdsTerminator_of_lt {ending mark block block' after after' : Text}
    (he : ending ∈ lineEndings) (hmark : mark ∈ closingMarks)
    (hline : block = [] ∨ ending <:+ block) (hline' : block' = [] ∨ ending <:+ block')
    (hlength : block.length < block'.length)
    (h : block ++ (mark ++ ending ++ after) = block' ++ after') : HoldsTerminator block' := by
  obtain ⟨content, hcontent, hclosing⟩ := mark_content hmark he
  rw [hclosing] at h
  obtain ⟨inner, hinner⟩ := line_inside hcontent (atLineStart_of_ending he hline') hlength h
  rw [← hclosing] at hinner
  exact ⟨block, mark ++ ending, inner, hinner, atLineStart_of_ending he hline, mark, hmark,
    ending, he, rfl⟩

theorem framed_iff {ending rest body : Text} (he : ending ∈ lineEndings)
    (h : parseFrontmatter env (chars "---" ++ ending ++ rest) = .ok (payload, body, [])) :
    Framed env (chars "---" ++ ending ++ rest) payload body ↔
      ClosedFirst (chars "---" ++ ending ++ rest) := by
  obtain ⟨block, data, mark, hmark, hrest, hblock, hload, hfind, hdots⟩ := parse_cut he h
  have hline : block = [] ∨ ending <:+ block :=
    hblock.imp And.left fun hdata => ⟨data, hdata.symm⟩
  constructor
  · rintro ⟨opening, hopening, block', closing, data', htext, -, hfirst, hclosing, -, -⟩
    obtain ⟨rfl, hrest'⟩ := opening_unique he hopening htext
    obtain ⟨mark', hmark', e', he', rfl⟩ := hclosing
    have hlines : block ++ (mark ++ ending) = block' ++ (mark' ++ e') := by
      have hboth := hrest.symm.trans hrest'
      rw [← append_assoc, ← append_assoc block'] at hboth
      exact append_cancel_right hboth
    obtain ⟨rfl, rfl, rfl⟩ := closing_unique he he' hmark hmark' hlines
    refine ⟨ending, he, block, body, mark, by rw [hrest], hfirst, hline, ?_⟩
    rw [← hrest]
    exact hdots
  · rintro ⟨e', he', block', after', mark', htext, hfirst, hline', hmark'⟩
    obtain ⟨rfl, hrest'⟩ := opening_unique he he' htext
    rw [← hrest'] at hmark'
    have hsame : mark' = mark := by
      rcases hmark' with rfl | ⟨rfl, hnone⟩
      · rcases hdots with rfl | ⟨rfl, hnone⟩
        · rfl
        · exact absurd (infix_of_closing hrest' hline') hnone
      · rcases hdots with rfl | ⟨rfl, -⟩
        · exact absurd (infix_of_closing hrest hline) hnone
        · rfl
    subst hsame
    have hle := find_earliest hfind hrest' hline'
    have heq : block = block' := by
      rcases Nat.lt_or_eq_of_le hle with hlt | heq
      · exact absurd (holdsTerminator_of_lt he hmark hline hline' hlt (hrest.symm.trans hrest'))
          hfirst
      · exact (append_inj (hrest.symm.trans hrest') heq).1
    subst heq
    refine ⟨ending, he, block, mark' ++ ending, data, by rw [hrest], atLineStart_of_ending he hline,
      hfirst, ⟨mark', hmark, ending, he, rfl⟩, ?_, hload⟩
    exact hblock.imp id fun hdata => ⟨ending, he, hdata⟩

theorem parseFrontmatter_plain {text : Text} (h : ¬Opened text) :
    parseFrontmatter env text = .ok ([], text, []) := by
  have hclosed : ∀ ending ∈ lineEndings, (chars "---" ++ ending).isPrefixOf text = false := by
    intro ending he
    rw [Bool.eq_false_iff]
    exact fun hstarts => h ⟨ending, he, isPrefixOf_iff_prefix.mp hstarts⟩
  unfold parseFrontmatter
  simp only [hclosed [0x0a] (by decide), hclosed [0x0d, 0x0a] (by decide), Bool.or_self,
    Bool.false_eq_true, if_false]

theorem parseFrontmatter_unterminated {ending rest : Text} (he : ending ∈ lineEndings)
    (h : ¬HoldsTerminator rest) : parseFrontmatter env (chars "---" ++ ending ++ rest) =
      .ok ([], chars "---" ++ ending ++ rest, [chars "frontmatter_unterminated"]) := by
  have hnone : ∀ mark ∈ closingMarks,
      findFrom (ending ++ mark ++ ending) 3 (chars "---" ++ ending ++ rest) = none := by
    intro mark hmark
    by_contra hfind
    obtain ⟨boundary, hboundary⟩ := Option.ne_none_iff_exists'.mp hfind
    obtain ⟨block, data, hrest, hblock, -, -⟩ := cut_of_find he hboundary
    have hline : block = [] ∨ ending <:+ block :=
      hblock.imp And.left fun hdata => ⟨data, hdata.symm⟩
    exact h ⟨block, _, _, hrest, atLineStart_of_ending he hline, mark, hmark, ending, he, rfl⟩
  rw [parseFrontmatter_opened he, hnone _ mem_cons_self, hnone _ (by simp [closingMarks])]
  rfl

/-- The metadata end at the first line that can close them exactly when that line has the ending
of the opening line, as the line before it does, and dashes if a line with dashes follows. -/
theorem parse_frontmatter_iff (env : ExtractionEnv) :
    (∀ text, ¬Opened text → parseFrontmatter env text = .ok ([], text, [])) ∧
    (∀ ending ∈ lineEndings, ∀ rest, ¬HoldsTerminator rest →
      parseFrontmatter env (chars "---" ++ ending ++ rest) =
        .ok ([], chars "---" ++ ending ++ rest, [chars "frontmatter_unterminated"])) ∧
    ∀ text payload body, Opened text → parseFrontmatter env text = .ok (payload, body, []) →
      (Framed env text payload body ↔ ClosedFirst text) := by
  refine ⟨fun text => parseFrontmatter_plain, fun ending he rest => parseFrontmatter_unterminated he,
    ?_⟩
  rintro text payload body ⟨ending, he, rest, rfl⟩ h
  exact framed_iff he h

def dottedBlock : Text := chars "title: x\n...\n# Heading\n"

def dottedText : Text :=
  chars "---" ++ lineFeed ++ (dottedBlock ++ (chars "---" ++ lineFeed ++ chars "rest"))

def titleEnv : ExtractionEnv where
  foldChar c := [c]
  isWord _ := false
  reprOf _ := none
  scanAliases _ := .ok false
  compose data :=
    if data ++ lineFeed = dottedBlock then
      .ok (some (.mapping [(.scalar (chars "str") (chars "title"), .scalar (chars "str") (chars "x"))]))
    else .error .yamlError
  safeLoad data :=
    if data ++ lineFeed = dottedBlock then .ok (.dict [(.str (chars "title"), .str (chars "x"))])
    else .error .yamlError
  fold_dot := rfl
  fold_slash := rfl
  fold_other c hdot hslash := by simp [Ne.symm hdot, Ne.symm hslash]

/-- The heading after the line of dots goes to the metadata. -/
theorem heading_taken_for_metadata :
    ∃ payload body, parseFrontmatter titleEnv dottedText = .ok (payload, body, []) ∧
      ¬Framed titleEnv dottedText payload body := by
  refine ⟨[(chars "title", .str (chars "x"))], chars "rest", by rfl, ?_⟩
  rintro ⟨opening, hopening, block, closing, data, htext, -, hfirst, hclosing, -, -⟩
  have he : lineFeed ∈ lineEndings := by decide
  obtain ⟨rfl, hrest⟩ := opening_unique he hopening htext
  obtain ⟨mark, hmark, ending, hending, rfl⟩ := hclosing
  have hlines : dottedBlock ++ (chars "---" ++ lineFeed) = block ++ (mark ++ ending) := by
    rw [← List.append_assoc, ← List.append_assoc block] at hrest
    exact List.append_cancel_right hrest
  obtain ⟨rfl, -, -⟩ := closing_unique he hending (by decide) hmark hlines
  exact hfirst ⟨chars "title: x\n", chars "...\n", chars "# Heading\n", by decide,
    Or.inr ⟨chars "title: x", by decide⟩, chars "...", by decide, lineFeed, he, by decide⟩
end

section
variable (env : ExtractionEnv)

def commonMarkLinesFrom : Text → Text → List Text
  | [], [] => []
  | [], line => [line.reverse]
  | 0x0d :: 0x0a :: rest, line => line.reverse :: commonMarkLinesFrom rest []
  | c :: rest, line =>
    if c = 0x0a ∨ c = 0x0d then line.reverse :: commonMarkLinesFrom rest []
    else commonMarkLinesFrom rest (c :: line)

def commonMarkLines (body : Text) : List Text := commonMarkLinesFrom body []

def codeFence (line : Text) : Option (CodePoint × ℕ × Text) :=
  let rest := line.dropWhile (· = 0x20)
  if line.length ≤ rest.length + 3 then
    match rest with
    | [] => none
    | c :: _ =>
      let run := rest.takeWhile (· = c)
      if (c = 0x60 ∨ c = 0x7e) ∧ 3 ≤ run.length then some (c, run.length, rest.drop run.length)
      else none
  else none

def openingFence (line : Text) : Option (CodePoint × ℕ) :=
  match codeFence line with
  | none => none
  | some (c, length, info) => if c = 0x60 ∧ 0x60 ∈ info then none else some (c, length)

def closesFence (block : CodePoint × ℕ) (line : Text) : Bool :=
  match codeFence line with
  | none => false
  | some (c, length, info) => c = block.1 && block.2 ≤ length && info.all isBlank

def outsideLines : Option (CodePoint × ℕ) → List Text → List Text
  | _, [] => []
  | none, line :: lines =>
    match openingFence line with
    | none => line :: outsideLines none lines
    | some block => outsideLines (some block) lines
  | some block, line :: lines =>
    outsideLines (if closesFence block line then none else some block) lines

def PlainFences : Option (CodePoint × ℕ) → List Text → Prop
  | _, [] => True
  | none, line :: lines =>
    (fenceMarker line ≠ none → openingFence line ≠ none) ∧ PlainFences (openingFence line) lines
  | some block, line :: lines =>
    (fenceMarker line = some block.1 → closesFence block line = true) ∧
      PlainFences (if closesFence block line then none else some block) lines

instance decidablePlainFences : ∀ (block : Option (CodePoint × ℕ)) (lines : List Text),
    Decidable (PlainFences block lines)
  | none, [] => .isTrue trivial
  | some _, [] => .isTrue trivial
  | none, line :: lines =>
    have := decidablePlainFences (openingFence line) lines
    inferInstanceAs (Decidable (_ ∧ _))
  | some block, line :: lines =>
    have := decidablePlainFences (if closesFence block line then none else some block) lines
    inferInstanceAs (Decidable (_ ∧ _))

def readLine (s : ScanState) (line : Text) : ScanState :=
  let wikilinks := (findAll wikilinkPattern line).map (wikilinkOf line)
  let images := (findAll markdownImagePattern line).map
    (bracketLinkOf .markdownImage true ["data:", "javascript:"] line)
  let markdownLinks := (findAll markdownLinkPattern line).map
    (bracketLinkOf .markdown false ["mailto:", "tel:", "data:", "javascript:"] line)
  { s with
    headings := s.headings ++ (headingText line).toList.map strip
    tags := s.tags ++ (findAll (inlineTagPattern env) line).map tail
    links := addLinks (addLinks (addLinks s.links wikilinks) images) markdownLinks }

def CommonBreaks (body : Text) : Prop := ∀ c ∈ body, isLineBreak c = true → c = 0x0a ∨ c = 0x0d

variable {env}

theorem splitLinesFrom_common (body line : Text) (h : CommonBreaks body) :
    splitLinesFrom body line = commonMarkLinesFrom body line := by
  fun_induction splitLinesFrom body line with
  | case1 => rfl
  | case2 line hline =>
    cases line with
    | nil => exact absurd rfl hline
    | cons c line => rfl
  | case3 rest line ih =>
    have hrest : CommonBreaks rest := fun c hc =>
      h c (mem_cons_of_mem _ (mem_cons_of_mem _ hc))
    rw [commonMarkLinesFrom, ih hrest]
  | case4 c rest line hpair hbreak ih =>
    have hrest : CommonBreaks rest := fun c hc => h c (mem_cons_of_mem _ hc)
    have hc := h c mem_cons_self hbreak
    rw [commonMarkLinesFrom, if_pos hc, ih hrest]
    exact hpair
  | case5 c rest line hpair hbreak ih =>
    have hrest : CommonBreaks rest := fun c hc => h c (mem_cons_of_mem _ hc)
    have hc : ¬(c = 0x0a ∨ c = 0x0d) := by
      rintro (rfl | rfl) <;> exact hbreak rfl
    rw [commonMarkLinesFrom, if_neg hc, ih hrest]
    exact hpair

variable {c : CodePoint}

theorem dropWhile_isBlank {line rest : Text} (h : line.dropWhile (· = 0x20) = c :: rest)
    (hc : isBlank c = false) : line.dropWhile isBlank = c :: rest := by
  induction line with
  | nil => cases h
  | cons x line ih =>
    rw [dropWhile_cons] at h ⊢
    by_cases hx : x = 0x20
    · rw [if_pos (by simpa using hx)] at h
      rw [if_pos (by simp [isBlank, hx])]
      exact ih h
    · rw [if_neg (by simpa using hx)] at h
      obtain ⟨rfl, rfl⟩ := cons.inj h
      rw [if_neg (by simp [hc])]

theorem three_of_takeWhile {rest : Text} (h : 3 ≤ (rest.takeWhile (· = c)).length) :
    ∃ tail, rest = c :: c :: c :: tail := by
  obtain ⟨x, y, z, tail, hrun⟩ : ∃ x y z tail, rest.takeWhile (· = c) = x :: y :: z :: tail := by
    match hrun : rest.takeWhile (· = c), h with
    | x :: y :: z :: tail, _ => exact ⟨x, y, z, tail, rfl⟩
  have hall : ∀ d ∈ rest.takeWhile (· = c), d = c := fun d hd => by
    simpa using mem_takeWhile_imp hd
  have hx := hall x (by simp [hrun])
  have hy := hall y (by simp [hrun])
  have hz := hall z (by simp [hrun])
  have hparts := takeWhile_append_dropWhile (p := (· = c)) (l := rest)
  rw [hrun, hx, hy, hz] at hparts
  exact ⟨tail ++ rest.dropWhile (· = c), by simpa using hparts.symm⟩

variable {line : Text}

theorem fenceMarker_of_codeFence {length : ℕ} {info : Text}
    (h : codeFence line = some (c, length, info)) : fenceMarker line = some c := by
  unfold codeFence at h
  dsimp only at h
  split at h
  next hindent =>
    split at h
    next => cases h
    next first tail hrest =>
      split at h
      next hrun =>
        obtain rfl : first = c := congrArg Prod.fst (Option.some.inj h)
        have hblank : isBlank first = false := by
          rcases hrun.1 with rfl | rfl <;> rfl
        have hmark : among "`~" first = true := by
          rcases hrun.1 with rfl | rfl <;> decide
        have hdrop := dropWhile_isBlank hrest hblank
        obtain ⟨tail', htail⟩ := three_of_takeWhile hrun.2
        rw [hrest] at hindent
        rw [hrest] at htail
        unfold fenceMarker
        rw [hdrop]
        dsimp only
        rw [if_pos hindent, htail]
        simp [hmark]
      next => cases h
  next => cases h

variable {block : CodePoint × ℕ}

theorem fenceMarker_of_opening (h : openingFence line = some block) :
    fenceMarker line = some block.1 := by
  unfold openingFence at h
  split at h
  next => cases h
  next c length info hfence =>
    split at h
    · cases h
    · obtain rfl := Option.some.inj h
      exact fenceMarker_of_codeFence hfence

theorem fenceMarker_of_closing (h : closesFence block line = true) :
    fenceMarker line = some block.1 := by
  unfold closesFence at h
  split at h
  next => cases h
  next c length info hfence =>
    simp only [Bool.and_eq_true, decide_eq_true_eq] at h
    rw [← h.1.1]
    exact fenceMarker_of_codeFence hfence

theorem scanLine_outside {s : ScanState} (hline : fenceMarker line = none) (hs : s.fence = none) :
    scanLine env s line = readLine env s line := by
  obtain ⟨headings, tags, links, fence⟩ := s
  obtain rfl : fence = none := hs
  unfold scanLine
  rw [hline]
  rfl

theorem scan_outside (lines : List Text) (block : Option (CodePoint × ℕ)) (s : ScanState)
    (hplain : PlainFences block lines) (hs : s.fence = block.map Prod.fst) :
    ∃ fence, lines.foldl (scanLine env) s =
      {(outsideLines block lines).foldl (readLine env) {s with fence := none} with fence} := by
  induction lines generalizing block s with
  | nil => exact ⟨s.fence, by cases block <;> rfl⟩
  | cons line lines ih =>
    cases block with
    | none =>
      obtain ⟨hmarker, hrest⟩ := hplain
      change s.fence = none at hs
      cases hopening : openingFence line with
      | none =>
        have hline : fenceMarker line = none := by
          by_contra hsome
          exact hmarker hsome hopening
        rw [hopening] at hrest
        obtain ⟨fence, hfold⟩ := ih none (readLine env s line) hrest hs
        refine ⟨fence, ?_⟩
        have hsame : {s with fence := none} = s := by rw [← hs]
        have hread : {readLine env s line with fence := none} = readLine env s line := by
          rw [← (show (readLine env s line).fence = none from hs)]
        rw [foldl_cons, scanLine_outside hline hs, hfold, outsideLines, hopening, hread,
          foldl_cons, hsame]
      | some block =>
        have hline := fenceMarker_of_opening hopening
        have hscan : scanLine env s line = {s with fence := some block.1} := by
          unfold scanLine
          rw [hline, hs]
        rw [hopening] at hrest
        obtain ⟨fence, hfold⟩ := ih (some block) {s with fence := some block.1} hrest rfl
        exact ⟨fence, by rw [foldl_cons, hscan, hfold, outsideLines, hopening]⟩
    | some block =>
      obtain ⟨hmarker, hrest⟩ := hplain
      change s.fence = some block.1 at hs
      cases hclosing : closesFence block line with
      | false =>
        have hscan : scanLine env s line = s := by
          unfold scanLine
          rw [hs]
          cases hline : fenceMarker line with
          | none => rfl
          | some c =>
            have hother : c ≠ block.1 := by
              rintro rfl
              rw [hmarker hline] at hclosing
              cases hclosing
            simp [hother]
        rw [hclosing] at hrest
        obtain ⟨fence, hfold⟩ := ih (some block) s hrest hs
        exact ⟨fence, by rw [foldl_cons, hscan, hfold, outsideLines, hclosing]; rfl⟩
      | true =>
        have hline := fenceMarker_of_closing hclosing
        have hscan : scanLine env s line = {s with fence := none} := by
          unfold scanLine
          rw [hline, hs]
          simp
        rw [hclosing] at hrest
        obtain ⟨fence, hfold⟩ := ih none {s with fence := none} hrest rfl
        exact ⟨fence, by rw [foldl_cons, hscan, hfold, outsideLines, hclosing]; rfl⟩

def linksIn (line : Text) : List ExtractedLink :=
  ((findAll wikilinkPattern line).map (wikilinkOf line)).reduceOption ++
    ((findAll markdownImagePattern line).map
      (bracketLinkOf .markdownImage true ["data:", "javascript:"] line)).reduceOption ++
    ((findAll markdownLinkPattern line).map
      (bracketLinkOf .markdown false ["mailto:", "tel:", "data:", "javascript:"] line)).reduceOption

theorem addLinks_eq {links : List ExtractedLink} (h : links.length ≤ maxLinks)
    (found : List (Option ExtractedLink)) :
    addLinks links found = (links ++ found.reduceOption).take maxLinks := by
  induction found generalizing links with
  | nil =>
    rw [addLinks, reduceOption_nil, append_nil, take_of_length_le h]
  | cons link found ih =>
    rw [addLinks]
    split
    next hfull =>
      rw [take_append_of_le_length (by omega), take_of_length_le h]
    next hroom =>
      have hlength : (links ++ link.toList).length ≤ maxLinks := by
        cases link <;> simp <;> omega
      rw [ih hlength]
      cases link <;> simp

theorem take_take_append {α : Type} (n : ℕ) (xs ys : List α) :
    (xs.take n ++ ys).take n = (xs ++ ys).take n := by
  rcases Nat.lt_or_ge xs.length n with hshort | hlong
  · rw [take_of_length_le hshort.le]
  · rw [take_append_of_le_length hlong, take_append_of_le_length (by simp [hlong]),
      take_take, Nat.min_self]

theorem readLine_links {s : ScanState} (h : s.links.length ≤ maxLinks) (line : Text) :
    (readLine env s line).links = (s.links ++ linksIn line).take maxLinks := by
  have hcut : ∀ (links : List ExtractedLink) (found : List (Option ExtractedLink)),
      addLinks (links.take maxLinks) found = (links ++ found.reduceOption).take maxLinks := by
    intro links found
    rw [addLinks_eq (length_take_le _ _), take_take_append]
  change addLinks (addLinks (addLinks _ _) _) _ = _
  rw [addLinks_eq h, hcut, hcut, linksIn]
  simp

theorem foldl_readLine (lines : List Text) {s : ScanState} (h : s.links.length ≤ maxLinks) :
    (lines.foldl (readLine env) s).headings =
        s.headings ++ (lines.filterMap headingText).map strip ∧
      (lines.foldl (readLine env) s).tags =
        s.tags ++ lines.flatMap (fun line => (findAll (inlineTagPattern env) line).map tail) ∧
      (lines.foldl (readLine env) s).links = (s.links ++ lines.flatMap linksIn).take maxLinks := by
  induction lines generalizing s with
  | nil => simp [take_of_length_le h]
  | cons line lines ih =>
    have hlinks := @readLine_links env s h line
    have hlength : (readLine env s line).links.length ≤ maxLinks := by
      rw [hlinks]
      exact length_take_le _ _
    obtain ⟨hheadings, htags, hrest⟩ := ih hlength
    rw [foldl_cons, hheadings, htags, hrest, hlinks, take_take_append]
    refine ⟨?_, ?_, by simp⟩
    · cases hline : headingText line <;> simp [readLine, hline]
    · simp [readLine]

/-- In a body whose fences are all plain, headings, tags and links are those of the lines outside
the fenced blocks, in their order and up to the bounds. -/
theorem fences_respected (env : ExtractionEnv) {text stem body : Text}
    {payload : List (Text × Value)} {warnings : List Text} {m : MarkdownMetadata}
    (hparse : parseFrontmatter env text = .ok (payload, body, warnings))
    (hmetadata : extractMarkdownMetadata env text stem = .ok m) (hbreaks : CommonBreaks body)
    (hplain : PlainFences none (commonMarkLines body)) :
    ∃ tags, strings env (getValue payload "tags") = .ok tags ∧
      let outside := outsideLines none (commonMarkLines body)
      m.headings = ((outside.filterMap headingText).map strip).take maxHeadings ∧
      m.tags = sortedFolded env (tags ++
        outside.flatMap fun line => (findAll (inlineTagPattern env) line).map List.tail).dedup ∧
      m.links = (outside.flatMap linksIn).take maxLinks := by
  have hlines : splitLines body = commonMarkLines body := splitLinesFrom_common body [] hbreaks
  unfold extractMarkdownMetadata at hmetadata
  obtain ⟨parsed, hparsed, hmetadata⟩ := bind_eq_ok.mp hmetadata
  obtain rfl := Except.ok.inj (hparse.symm.trans hparsed)
  obtain ⟨tags, htags, hmetadata⟩ := bind_eq_ok.mp hmetadata
  obtain ⟨aliases, -, hmetadata⟩ := bind_eq_ok.mp hmetadata
  obtain rfl := Except.ok.inj hmetadata
  obtain ⟨fence, hscan⟩ := @scan_outside env (commonMarkLines body) none { tags } hplain rfl
  obtain ⟨hheadings, hread, hlinks⟩ := @foldl_readLine env
    (outsideLines none (commonMarkLines body)) { tags } (Nat.zero_le _)
  refine ⟨tags, htags, ?_, ?_, ?_⟩
  · dsimp only
    rw [hlines, hscan, hheadings, List.nil_append]
  · dsimp only
    rw [hlines, hscan, hread]
  · dsimp only
    rw [hlines, hscan, hlinks, List.nil_append]

def nestedText : Text := chars "````\n```\n# Inside\n````\n"

def plainText : Text := chars "~~~\n# Inside\n~~~\n# After\n"

/-- A heading within a fenced block is extracted, and no heading has its line number: the same
heading on another line leaves the same metadata. -/
theorem fenced_heading_extracted :
    openingFence (chars "````") = some (0x60, 4) ∧
    closesFence (0x60, 4) (chars "```") = false ∧
    (∃ m, extractMarkdownMetadata titleEnv nestedText [] = .ok m ∧
      m.headings = [chars "Inside"]) ∧
    ∃ m, extractMarkdownMetadata titleEnv (chars "# A") [] = .ok m ∧
      extractMarkdownMetadata titleEnv (chars "\n# A") [] = .ok m :=
  ⟨by decide, by decide, ⟨_, rfl, by decide⟩, ⟨_, rfl, rfl⟩⟩

/-- Around a plain block the headings are those of the lines outside. -/
theorem plain_block_respected : ∃ m, extractMarkdownMetadata titleEnv plainText [] = .ok m ∧
    ∃ tags, strings titleEnv (getValue [] "tags") = .ok tags ∧
      let outside := outsideLines none (commonMarkLines plainText)
      m.headings = ((outside.filterMap headingText).map strip).take maxHeadings ∧
      m.tags = sortedFolded titleEnv (tags ++ outside.flatMap fun line =>
        (findAll (inlineTagPattern titleEnv) line).map List.tail).dedup ∧
      m.links = (outside.flatMap linksIn).take maxLinks :=
  ⟨_, rfl, @fences_respected titleEnv plainText [] plainText _ _ _ rfl rfl
    (by unfold CommonBreaks; decide) (by decide)⟩
end

end RaytSystem.Extraction
