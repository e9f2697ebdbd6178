import RaytSystem.IngestValidate

/-! The spans of the text extractor against the line check of ingestion: when every span names
the line that it holds. -/
namespace RaytSystem.Ingestion
open PyText List

def keptLinesList : List Char → List Char → List (List Char)
  | [], [] => []
  | [], line => [line.reverse]
  | '\r' :: '\n' :: rest, line => ('\n' :: '\r' :: line).reverse :: keptLinesList rest []
  | c :: rest, line =>
    if isLineBreak c then (c :: line).reverse :: keptLinesList rest []
    else keptLinesList rest (c :: line)

def keptLines (text : List Char) : List (List Char) := keptLinesList text []

def stripFeeds (line : List Char) : List Char := line.rdropWhile fun c => c = '\n'

def feedLines : List Char → List Char
  | [] => []
  | '\r' :: '\n' :: rest => '\n' :: feedLines rest
  | c :: rest => (if c = '\r' then '\n' else c) :: feedLines rest

section

inductive ExtractionError
  | encoding | emptyText
  deriving DecidableEq, Repr

-- `nfc` is `unicodedata.normalize("NFC", ·)`
variable (nfc : String → String)

def normalizedText (data : ByteArray) : Except ExtractionError String :=
  match String.fromUTF8? data with
  | none => .error .encoding
  | some decoded => .ok (nfc (String.ofList (feedLines decoded.toList)))

def Marked (line : List Char) : Prop := stripList isSpace line ≠ []

instance (line : List Char) : Decidable (Marked line) := inferInstanceAs (Decidable (_ ≠ _))

def lineSpan (line : List Char) (lineNumber characterOffset : ℕ) : ExtractedSpan where
  excerpt := String.ofList (stripFeeds line)
  locator := .text (some lineNumber) (some lineNumber) (some characterOffset)
    (some (characterOffset + (stripFeeds line).length))
  modality := "text"

def lineSpans : List (List Char) → ℕ → ℕ → List ExtractedSpan
  | [], _, _ => []
  | line :: lines, lineNumber, characterOffset =>
    let spans := lineSpans lines (lineNumber + 1) (characterOffset + line.length)
    if Marked (stripFeeds line) then lineSpan line lineNumber characterOffset :: spans else spans

def extractText (data : ByteArray) : Except ExtractionError Extraction := do
  let text ← normalizedText nfc data
  let spans := lineSpans (keptLines text.toList) 1 0
  if spans = [] then .error .emptyText else pure ⟨text, spans⟩
end

def ExtractedSpan.covers (lineNumber : ℕ) (span : ExtractedSpan) : Bool :=
  match span.locator with
  | .text (some lineStart) (some lineEnd) _ _ => lineStart ≤ lineNumber && lineNumber ≤ lineEnd
  | _ => false

def ExtractedSpan.Precedes (a b : ExtractedSpan) : Prop :=
  ∃ lineStart lineEnd charStart charEnd lineStart' lineEnd' charStart' charEnd',
    a.locator = .text (some lineStart) (some lineEnd) (some charStart) (some charEnd) ∧
    b.locator = .text (some lineStart') (some lineEnd') (some charStart') (some charEnd') ∧
    lineEnd < lineStart' ∧ charEnd ≤ charStart'

structure Extraction.Checked (e : Extraction) : Prop where
  sliced : ∀ span ∈ e.spans, ∃ lineStart lineEnd charStart charEnd,
    span.locator = .text (some lineStart) (some lineEnd) (some charStart) (some charEnd) ∧
      lineStart = lineEnd ∧ charStart ≤ charEnd ∧ charEnd ≤ e.document.toList.length ∧
      span.excerpt.toList = (e.document.toList.drop charStart).take (charEnd - charStart)
  resolved : ∀ span ∈ e.spans, ∀ segment : Segment, segment.locator = span.locator →
    locatorInside (splitLines e.document) segment = true ∧
      locatorResolves (splitLines e.document) segment span.excerpt = true
  ordered : e.spans.Pairwise ExtractedSpan.Precedes
  covered : ∀ line ∈ (splitLines e.document).zipIdx 1, strip line.1 ≠ "" →
    e.spans.countP (·.covers line.2) = 1

def FeedsOnly (text : List Char) : Prop :=
  ∀ line ∈ keptLines text, Marked line → ∀ c ∈ line, isLineBreak c = true → c = '\n'

section

theorem isSpace_of_isLineBreak {c : Char} (h : isLineBreak c = true) : isSpace c = true := by
  simp only [isLineBreak, isSpace, Bool.or_eq_true, Bool.and_eq_true, decide_eq_true_eq,
    beq_iff_eq] at h ⊢
  omega

variable {line : List Char}

theorem marked_iff : Marked line ↔ ∃ c ∈ line, isSpace c = false := by
  unfold Marked stripList
  rw [Ne, reverse_eq_nil_iff, dropWhile_eq_nil_iff]
  constructor
  · intro h
    by_contra hall
    apply h
    intro c hc
    have hmem : c ∈ line := (dropWhile_sublist _).subset (mem_reverse.mp hc)
    by_contra hspace
    exact hall ⟨c, hmem, by simpa using hspace⟩
  · rintro ⟨c, hc, hspace⟩ hall
    have hdrop : c ∈ line.dropWhile isSpace := by
      rw [← takeWhile_append_dropWhile (p := isSpace) (l := line), mem_append] at hc
      rcases hc with htake | hdrop
      · rw [mem_takeWhile_imp htake] at hspace
        cases hspace
      · exact hdrop
    have hyes := hall c (mem_reverse.mpr hdrop)
    rw [hspace] at hyes
    cases hyes

def LineShape (line : List Char) : Prop :=
  ∃ body ending, line = body ++ ending ∧ (∀ c ∈ body, isLineBreak c = false) ∧
    (ending = [] ∨ (∃ c, ending = [c] ∧ isLineBreak c = true) ∨ ending = ['\r', '\n'])

theorem keptLines_shape (cs line : List Char) (h : ∀ c ∈ line, isLineBreak c = false) :
    ∀ kept ∈ keptLinesList cs line, LineShape kept := by
  induction cs, line using keptLinesList.induct with
  | case1 => simp [keptLinesList]
  | case2 line hne =>
    intro kept hkept
    rw [keptLinesList.eq_2 _ hne, mem_singleton] at hkept
    exact ⟨line.reverse, [], by simp [hkept], by simpa using h, Or.inl rfl⟩
  | case3 rest line ih =>
    intro kept hkept
    rw [keptLinesList, mem_cons] at hkept
    rcases hkept with rfl | hlater
    · exact ⟨line.reverse, ['\r', '\n'], by simp, by simpa using h, Or.inr (Or.inr rfl)⟩
    · exact ih (by simp) kept hlater
  | case4 c rest line hreturn hbreak ih =>
    intro kept hkept
    rw [keptLinesList.eq_4 _ _ _ hreturn, if_pos hbreak, mem_cons] at hkept
    rcases hkept with rfl | hlater
    · exact ⟨line.reverse, [c], by simp, by simpa using h, Or.inr (Or.inl ⟨c, rfl, hbreak⟩)⟩
    · exact ih (by simp) kept hlater
  | case5 c rest line hreturn hbreak ih =>
    intro kept hkept
    rw [keptLinesList.eq_4 _ _ _ hreturn, if_neg hbreak] at hkept
    exact ih (by simpa using ⟨by simpa using hbreak, h⟩) kept hkept

def withoutEnd (line : List Char) : List Char := line.takeWhile fun c => !isLineBreak c

theorem takeWhile_unbroken {body rest : List Char} (h : ∀ c ∈ body, isLineBreak c = false) :
    withoutEnd (body ++ rest) = body ++ withoutEnd rest := by
  apply takeWhile_append_of_pos
  intro c hc
  rw [h c hc]
  rfl

theorem splitLinesList_kept (cs line : List Char) (h : ∀ c ∈ line, isLineBreak c = false) :
    splitLinesList cs line = (keptLinesList cs line).map withoutEnd := by
  have hline : ∀ rest : List Char, withoutEnd (line.reverse ++ rest) =
      line.reverse ++ withoutEnd rest := fun rest => takeWhile_unbroken (by simpa using h)
  induction cs, line using keptLinesList.induct with
  | case1 => rfl
  | case2 line hne =>
    have hall := hline []
    rw [append_nil] at hall
    rw [keptLinesList.eq_2 _ hne, splitLinesList.eq_2 _ hne, map_singleton, hall]
    simp [withoutEnd]
  | case3 rest line ih =>
    rw [keptLinesList, splitLinesList, map_cons, ih (by simp) (by simp)]
    have hend := hline ['\r', '\n']
    simp only [reverse_cons, append_assoc, cons_append, nil_append]
    rw [hend]
    simp [withoutEnd, isLineBreak]
  | case4 c rest line hreturn hbreak ih =>
    rw [keptLinesList.eq_4 _ _ _ hreturn, splitLinesList.eq_4 _ _ _ hreturn, if_pos hbreak,
      if_pos hbreak, map_cons, ih (by simp) (by simp), reverse_cons, hline]
    simp [withoutEnd, hbreak]
  | case5 c rest line hreturn hbreak ih =>
    have hunbroken : ∀ d ∈ c :: line, isLineBreak d = false := by
      simpa using ⟨by simpa using hbreak, h⟩
    rw [keptLinesList.eq_4 _ _ _ hreturn, splitLinesList.eq_4 _ _ _ hreturn, if_neg hbreak,
      if_neg hbreak]
    exact ih hunbroken fun rest =>
      takeWhile_unbroken fun d hd => hunbroken d (mem_reverse.mp hd)

theorem keptLinesList_flatten (cs line : List Char) :
    (keptLinesList cs line).flatten = line.reverse ++ cs := by
  induction cs, line using keptLinesList.induct with
  | case1 => rfl
  | case2 line hne => simp [keptLinesList.eq_2 _ hne]
  | case3 rest line ih => simp [keptLinesList, ih]
  | case4 c rest line hreturn hbreak ih =>
    simp [keptLinesList.eq_4 _ _ _ hreturn, hbreak, ih]
  | case5 c rest line hreturn hbreak ih =>
    simp [keptLinesList.eq_4 _ _ _ hreturn, hbreak, ih]

theorem keptLines_flatten (text : List Char) : (keptLines text).flatten = text :=
  keptLinesList_flatten text []

theorem splitLines_kept (text : String) :
    splitLines text = (keptLines text.toList).map fun line => String.ofList (withoutEnd line) := by
  rw [splitLines, splitLinesList_kept _ _ (by simp), map_map]
  rfl

theorem stripFeeds_unbroken {body : List Char} (h : ∀ c ∈ body, isLineBreak c = false) :
    stripFeeds body = body := by
  unfold stripFeeds
  rw [rdropWhile_eq_self_iff]
  intro hne hlast
  have hfeed : body.getLast hne = '\n' := by simpa using hlast
  have hno := h _ (getLast_mem hne)
  rw [hfeed] at hno
  cases hno

theorem stripFeeds_iff (h : LineShape line) :
    withoutEnd line = stripFeeds line ↔ ∀ c ∈ line, isLineBreak c = true → c = '\n' := by
  obtain ⟨body, ending, rfl, hbody, rfl | ⟨b, rfl, hb⟩ | rfl⟩ := h
  · rw [takeWhile_unbroken hbody, append_nil, stripFeeds_unbroken hbody]
    constructor
    · intro _ c hc hbreak
      rw [hbody c hc] at hbreak
      cases hbreak
    · intro _
      simp [withoutEnd]
  · have hwithout : withoutEnd (body ++ [b]) = body := by
      rw [takeWhile_unbroken hbody]
      simp [withoutEnd, hb]
    rw [hwithout]
    by_cases hfeed : b = '\n'
    · apply iff_of_true
      · rw [stripFeeds, hfeed, rdropWhile_concat_pos _ _ _ (by simp)]
        exact (stripFeeds_unbroken hbody).symm
      · intro c hc hbreak
        rcases mem_append.mp hc with hc | hc
        · rw [hbody c hc] at hbreak
          cases hbreak
        · rw [mem_singleton.mp hc, hfeed]
    · apply iff_of_false
      · rw [stripFeeds, rdropWhile_concat_neg _ _ _ (by simpa using hfeed)]
        intro heq
        have hlength := congrArg length heq
        simp at hlength
      · intro hall
        exact hfeed (hall b (by simp) hb)
  · apply iff_of_false
    · have hwithout : withoutEnd (body ++ ['\r', '\n']) = body := by
        rw [takeWhile_unbroken hbody]
        simp [withoutEnd, isLineBreak]
      have hstrip : stripFeeds (body ++ ['\r', '\n']) = body ++ ['\r'] := by
        have hsplit : body ++ ['\r', '\n'] = (body ++ ['\r']) ++ ['\n'] := by simp
        rw [stripFeeds, hsplit, rdropWhile_concat_pos _ _ _ (by simp),
          rdropWhile_concat_neg _ _ _ (by simp)]
      rw [hwithout, hstrip]
      intro heq
      have hlength := congrArg length heq
      simp at hlength
    · intro hall
      have hreturn := hall '\r' (by simp) (by decide)
      cases hreturn

theorem stripFeeds_starts (line : List Char) : stripFeeds line <+: line :=
  rdropWhile_prefix _ line

theorem marked_stripFeeds : Marked (stripFeeds line) ↔ Marked line := by
  rw [marked_iff, marked_iff]
  constructor
  · rintro ⟨c, hc, hspace⟩
    exact ⟨c, (stripFeeds_starts line).subset hc, hspace⟩
  · rintro ⟨c, hc, hspace⟩
    refine ⟨c, ?_, hspace⟩
    have hdrop : c ∈ line.reverse.dropWhile fun d => decide (d = '\n') := by
      have hmem := mem_reverse.mpr hc
      rw [← takeWhile_append_dropWhile (p := fun d => decide (d = '\n')) (l := line.reverse),
        mem_append] at hmem
      rcases hmem with htake | hdrop
      · have hfeed := mem_takeWhile_imp htake
        rw [of_decide_eq_true hfeed] at hspace
        cases hspace
      · exact hdrop
    exact mem_reverse.mpr hdrop

theorem marked_withoutEnd (h : LineShape line) : Marked (withoutEnd line) ↔ Marked line := by
  rw [marked_iff, marked_iff]
  obtain ⟨body, ending, rfl, hbody, hending⟩ := h
  have hspaces : ∀ c ∈ ending, isSpace c = true := by
    rcases hending with rfl | ⟨b, rfl, hb⟩ | rfl
    · simp
    · simpa using isSpace_of_isLineBreak hb
    · simp [isSpace]
  constructor
  · rintro ⟨c, hc, hspace⟩
    exact ⟨c, (List.takeWhile_prefix _).subset hc, hspace⟩
  · rintro ⟨c, hc, hspace⟩
    refine ⟨c, ?_, hspace⟩
    rw [takeWhile_unbroken hbody]
    rcases mem_append.mp hc with hc | hc
    · exact mem_append_left _ hc
    · rw [hspaces c hc] at hspace
      cases hspace
end

section

theorem mem_lineSpans {lines : List (List Char)} {n offset : ℕ} {span : ExtractedSpan} :
    span ∈ lineSpans lines n offset ↔ ∃ before line after, lines = before ++ line :: after ∧
      Marked line ∧ span = lineSpan line (n + before.length) (offset + before.flatten.length) := by
  induction lines generalizing n offset with
  | nil => simp [lineSpans]
  | cons first lines ih =>
    have hlater : span ∈ lineSpans lines (n + 1) (offset + first.length) ↔
        ∃ before line after, first :: lines = first :: before ++ line :: after ∧ Marked line ∧
          span = lineSpan line (n + (first :: before).length)
            (offset + (first :: before).flatten.length) := by
      rw [ih]
      simp only [cons_append, cons.injEq, true_and, length_cons, flatten_cons,
        length_append, Nat.add_assoc, Nat.add_comm 1]
    have hfirst : (∃ before line after, first :: lines = before ++ line :: after ∧ Marked line ∧
        span = lineSpan line (n + before.length) (offset + before.flatten.length)) ↔
        (Marked first ∧ span = lineSpan first n offset) ∨
          span ∈ lineSpans lines (n + 1) (offset + first.length) := by
      rw [hlater]
      constructor
      · rintro ⟨before, line, after, hlines, hmarked, hspan⟩
        cases before with
        | nil =>
          obtain ⟨rfl, rfl⟩ := cons.inj hlines
          exact Or.inl ⟨hmarked, hspan⟩
        | cons other before =>
          obtain ⟨rfl, -⟩ := cons.inj hlines
          exact Or.inr ⟨before, line, after, hlines, hmarked, hspan⟩
      · rintro (⟨hmarked, hspan⟩ | ⟨before, line, after, hlines, hmarked, hspan⟩)
        · exact ⟨[], first, lines, rfl, hmarked, hspan⟩
        · exact ⟨first :: before, line, after, hlines, hmarked, hspan⟩
    rw [hfirst, lineSpans]
    split
    next hmarked =>
      rw [marked_stripFeeds] at hmarked
      simp [hmarked]
    next hblank =>
      rw [marked_stripFeeds] at hblank
      simp [hblank]

variable {line : List Char}

theorem covers_lineSpan {n offset k : ℕ} : (lineSpan line n offset).covers k = true ↔ k = n := by
  simp only [ExtractedSpan.covers, lineSpan, Bool.and_eq_true, decide_eq_true_eq]
  omega

theorem countP_lineSpans (lines : List (List Char)) (n offset k : ℕ) :
    (lineSpans lines n offset).countP (·.covers (n + k)) =
      if ∃ line, lines[k]? = some line ∧ Marked line then 1 else 0 := by
  induction lines generalizing n offset k with
  | nil => simp [lineSpans]
  | cons first lines ih =>
    cases k with
    | zero =>
      have hlater : (lineSpans lines (n + 1) (offset + first.length)).countP (·.covers n) = 0 := by
        rw [countP_eq_zero]
        intro span hspan hcovers
        obtain ⟨before, line, after, -, -, rfl⟩ := mem_lineSpans.mp hspan
        have hnumber := covers_lineSpan.mp hcovers
        omega
      have hown : (lineSpan first n offset).covers n = true := covers_lineSpan.mpr rfl
      rw [lineSpans]
      dsimp only [Nat.add_zero]
      by_cases hmarked : Marked first
      · rw [if_pos (marked_stripFeeds.mpr hmarked), countP_cons_of_pos hown, hlater]
        simp [hmarked]
      · rw [if_neg fun h => hmarked (marked_stripFeeds.mp h), hlater]
        simp [hmarked]
    | succ k =>
      have hother : ¬(lineSpan first n offset).covers (n + (k + 1)) = true := by
        rw [covers_lineSpan]
        omega
      have hnumber : n + (k + 1) = n + 1 + k := by omega
      have hrest := ih (n + 1) (offset + first.length) k
      rw [← hnumber] at hrest
      rw [lineSpans, getElem?_cons_succ]
      split
      · rw [countP_cons_of_neg hother, hrest]
      · exact hrest

theorem lineSpans_ordered (lines : List (List Char)) (n offset : ℕ) :
    (lineSpans lines n offset).Pairwise ExtractedSpan.Precedes := by
  induction lines generalizing n offset with
  | nil => exact List.Pairwise.nil
  | cons first lines ih =>
    rw [lineSpans]
    split
    · refine List.Pairwise.cons ?_ (ih _ _)
      intro span hspan
      obtain ⟨before, line, after, -, -, rfl⟩ := mem_lineSpans.mp hspan
      have hlength : (stripFeeds first).length ≤ first.length := (stripFeeds_starts first).length_le
      refine ⟨_, _, _, _, _, _, _, _, rfl, rfl, ?_, ?_⟩ <;> omega
    · exact ih _ _

theorem lineSpan_slice {before after : List (List Char)} {line : List Char} :
    (((before ++ line :: after).flatten.drop before.flatten.length).take
      (stripFeeds line).length) = stripFeeds line := by
  obtain ⟨feeds, hfeeds⟩ := stripFeeds_starts line
  rw [flatten_append, drop_left, flatten_cons]
  nth_rewrite 2 [← hfeeds]
  rw [append_assoc, take_left]

variable {nfc : String → String}

theorem extractText_ok {data : ByteArray} {e : Extraction} {text : String}
    (h : extractText nfc data = .ok e) (htext : normalizedText nfc data = .ok text) :
    e = ⟨text, lineSpans (keptLines text.toList) 1 0⟩ := by
  rw [extractText, htext] at h
  simp only [bind, Except.bind, pure, Except.pure] at h
  split at h
  · cases h
  · exact (Except.ok.inj h).symm

theorem strip_ne_empty : strip (String.ofList line) ≠ "" ↔ Marked line := by
  unfold strip Marked
  rw [String.toList_ofList, Ne, Ne, not_iff_not]
  constructor
  · intro h
    simpa using congrArg String.toList h
  · intro h
    rw [h]

theorem lineSpan_resolves {text : String} {before after : List (List Char)}
    (hlines : keptLines text.toList = before ++ line :: after) (segment : Segment) {offset : ℕ}
    (hlocator : segment.locator = (lineSpan line (1 + before.length) offset).locator) :
    locatorInside (splitLines text) segment = true ∧
      (locatorResolves (splitLines text) segment (lineSpan line (1 + before.length) offset).excerpt =
        true ↔ withoutEnd line = stripFeeds line) := by
  have hsplit := splitLines_kept text
  rw [hlines] at hsplit
  have hinside : 1 + before.length ≤ (splitLines text).length := by
    rw [hsplit, length_map, length_append, length_cons]
    omega
  have hindex : 1 + before.length - 1 = before.length := by omega
  have hline : (splitLines text)[1 + before.length - 1]? = some (String.ofList (withoutEnd line)) := by
    rw [hindex, hsplit, getElem?_map, getElem?_append_right le_rfl, Nat.sub_self]
    rfl
  constructor
  · simp [locatorInside, hlocator, lineSpan, hinside]
  · simp only [locatorResolves, hlocator, lineSpan, hline, hinside, decide_true, Bool.true_and,
      beq_iff_eq, Option.some.injEq]
    constructor
    · intro h
      simpa using congrArg String.toList h
    · intro h
      rw [h]

/-- Every check but the one of the lines holds of every text extraction, and that one exactly
where the only line break of the lines that are not blank is the line feed. -/
theorem text_checked_iff {data : ByteArray} {e : Extraction} {text : String}
    (h : extractText nfc data = .ok e) (htext : normalizedText nfc data = .ok text) :
    e.Checked ↔ FeedsOnly text.toList := by
  obtain rfl := extractText_ok h htext
  have hshape := keptLines_shape text.toList [] (by simp)
  constructor
  · intro hchecked line hline hmarked
    obtain ⟨before, after, hlines⟩ := List.append_of_mem hline
    let span := lineSpan line (1 + before.length) (0 + before.flatten.length)
    have hspan : span ∈ lineSpans (keptLines text.toList) 1 0 :=
      mem_lineSpans.mpr ⟨before, line, after, hlines, hmarked, rfl⟩
    let segment : Segment := ⟨0, 0, 0, 0, span.locator, 0, span.modality⟩
    have hresolves := (hchecked.resolved span hspan segment rfl).2
    have hline' := (lineSpan_resolves hlines segment rfl).2.mp hresolves
    exact (stripFeeds_iff (hshape line hline)).mp hline'
  · intro hfeeds
    constructor
    · intro span hspan
      obtain ⟨before, line, after, hlines, -, rfl⟩ := mem_lineSpans.mp hspan
      have htotal := keptLines_flatten text.toList
      rw [hlines] at htotal
      have hlength := congrArg List.length htotal
      have hprefix := (stripFeeds_starts line).length_le
      rw [List.flatten_append, List.length_append, List.flatten_cons, List.length_append] at hlength
      refine ⟨_, _, _, _, rfl, rfl, Nat.le_add_right _ _, ?_, ?_⟩
      · dsimp only
        omega
      · have hslice := @lineSpan_slice before after line
        rw [htotal] at hslice
        simp only [lineSpan, String.toList_ofList, Nat.zero_add, Nat.add_sub_cancel_left]
        exact hslice.symm
    · intro span hspan segment hlocator
      obtain ⟨before, line, after, hlines, hmarked, rfl⟩ := mem_lineSpans.mp hspan
      have hline : line ∈ keptLines text.toList := by simp [hlines]
      obtain ⟨hinside, hresolves⟩ := lineSpan_resolves hlines segment hlocator
      exact ⟨hinside, hresolves.mpr ((stripFeeds_iff (hshape line hline)).mpr
        (hfeeds line hline hmarked))⟩
    · exact lineSpans_ordered _ _ _
    · rintro ⟨line, number⟩ hline hmarked
      obtain ⟨hfrom, hget⟩ := List.mem_zipIdx_iff_le_and_getElem?_sub.mp hline
      rw [splitLines_kept, List.getElem?_map, Option.map_eq_some_iff] at hget
      obtain ⟨kept, hkept, rfl⟩ := hget
      have hmem : kept ∈ keptLines text.toList := List.mem_of_getElem? hkept
      rw [strip_ne_empty, marked_withoutEnd (hshape kept hmem)] at hmarked
      have hcount := countP_lineSpans (keptLines text.toList) 1 0 (number - 1)
      have hnumber : 1 + (number - 1) = number := by omega
      rw [hnumber, if_pos ⟨kept, hkept, hmarked⟩] at hcount
      exact hcount
end

theorem normalizedText_encoded (nfc : String → String) (text : String) :
    normalizedText nfc text.toUTF8 = .ok (nfc (String.ofList (feedLines text.toList))) := by
  have hvalid : text.toUTF8.IsValidUTF8 := text.isValidUTF8
  rw [normalizedText, String.fromUTF8?, dif_pos hvalid]
  rfl

theorem normalizedText_toUTF8 (text : String) : normalizedText id text.toUTF8 =
    .ok (String.ofList (feedLines text.toList)) := normalizedText_encoded id text

theorem extractText_toUTF8 {text : String}
    (h : lineSpans (keptLines (feedLines text.toList)) 1 0 ≠ []) :
    ∃ e, extractText id text.toUTF8 = .ok e := by
  rw [extractText, normalizedText_toUTF8]
  simp only [bind, Except.bind, pure, Except.pure, String.toList_ofList, if_neg h]
  exact ⟨_, rfl⟩

def feedText : String := "a\nb"

def pageText : String := "a\x0cb"

/-- A text of two lines. -/
theorem feed_checked : ∃ e, extractText id feedText.toUTF8 = .ok e ∧ e.Checked := by
  obtain ⟨e, he⟩ := @extractText_toUTF8 feedText (by decide)
  refine ⟨e, he, (text_checked_iff he (normalizedText_toUTF8 feedText)).mpr ?_⟩
  have hlines : keptLines (String.ofList (feedLines feedText.toList)).toList =
      [['a', '\n'], ['b']] := by decide
  unfold FeedsOnly
  rw [hlines]
  simp [isLineBreak]

/-- The excerpt of the first line keeps the form feed, and the check does not find it. -/
theorem page_unresolved : ∃ e, extractText id pageText.toUTF8 = .ok e ∧ ¬e.Checked := by
  obtain ⟨e, he⟩ := @extractText_toUTF8 pageText (by decide)
  refine ⟨e, he, fun hchecked => ?_⟩
  obtain rfl := extractText_ok he (normalizedText_toUTF8 pageText)
  let span := lineSpan ['a', '\x0c'] 1 0
  have hspan : span ∈ lineSpans (keptLines (String.ofList (feedLines pageText.toList)).toList) 1 0 :=
    mem_lineSpans.mpr ⟨[], _, [['b']], by decide, by decide, rfl⟩
  have hresolves := (hchecked.resolved span hspan ⟨0, 0, 0, 0, span.locator, 0, "text"⟩ rfl).2
  revert hresolves
  decide

end RaytSystem.Ingestion
