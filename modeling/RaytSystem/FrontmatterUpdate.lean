import RaytSystem.FrontmatterFields

/-! Writing one field of a document's frontmatter: when the fields that are read afterwards are the
same with the new value. -/
namespace RaytSystem.Markdown
open JsText

section
variable {N : Type} (numbers : NumberText N)

def frontmatterLines (frontmatter : JsText) : List JsText :=
  (if frontmatter.getLast? = some lineFeed then frontmatter.dropLast else frontmatter).splitOn lineFeed

variable (content : JsText)

def deriveFrontmatterFields : List (FrontmatterField N) :=
  let split := splitFrontmatter (normalizeLf content)
  if split.frontmatter = [] then []
  else fieldsOf numbers (frontmatterLines split.frontmatter).tail.dropLast

structure FrontmatterUpdate where
  content : JsText
  warning : Option JsText

def startsKey (key line : JsText) : Bool := (key ++ [58]).isPrefixOf line

def fieldLine (key : JsText) (value : FieldValue N) : JsText :=
  key ++ 58 :: 32 :: yamlScalar numbers value

def joinLines (lines : List JsText) : JsText := [lineFeed].intercalate lines

def writeLines (lines : List JsText) (body : JsText) : FrontmatterUpdate :=
  let result := joinLines lines ++ lineFeed :: body
  match normalizedLineEnding content with
  | .crlf => ⟨toCrlf result, none⟩
  | .lf => ⟨result, none⟩

def updateFrontmatterField (field : FrontmatterField N) (value : FieldValue N) :
    FrontmatterUpdate :=
  if field.editable = false ∨ field.type = .complex then
    ⟨content, some (units "Сложное YAML-поле можно менять только в Source mode.")⟩
  else
    let split := splitFrontmatter (normalizeLf content)
    if split.frontmatter = [] then
      ⟨content, some (units "Документ не содержит YAML frontmatter.")⟩
    else
      let lines := frontmatterLines split.frontmatter
      match lines.findIdx? (startsKey field.key) with
      | none =>
        writeLines content (lines.take (lines.length - 1) ++
          fieldLine numbers field.key value :: lines.drop (lines.length - 1)) split.body
      | some index =>
        if hasComment (lines.getD index []) then
          ⟨content, some (units
            "Поле содержит YAML-комментарий; измените его в Source mode, чтобы не потерять комментарий.")⟩
        else if index + 1 < lines.length - 1 ∧ startsWithSpace (lines.getD (index + 1) []) = true then
          ⟨content, some (units "Многострочное YAML-поле можно менять только в Source mode.")⟩
        else writeLines content (lines.set index (fieldLine numbers field.key value)) split.body

def rawDrop : ℕ → JsText → JsText
  | 0, content => content
  | _ + 1, [] => []
  | n + 1, u :: content =>
    if u = carriageReturn ∧ content.head? = some lineFeed then rawDrop n content.tail
    else rawDrop n content

def rawBody : JsText :=
  rawDrop (splitFrontmatter (normalizeLf content)).frontmatter.length content

def LineStyle.write (style : LineStyle) (lines : JsText) : JsText :=
  lines.flatMap fun u => if u = lineFeed then style.ending else [u]
end

section

theorem write_cons (style : LineStyle) (u : CodeUnit) (s : JsText) :
    style.write (u :: s) = (if u = lineFeed then style.ending else [u]) ++ style.write s := rfl

theorem write_lf (s : JsText) : LineStyle.lf.write s = s := by
  induction s with
  | nil => rfl
  | cons u s ih =>
    rw [write_cons, ih]
    split
    next hu => rw [hu]; rfl
    next => rfl

variable {s : JsText}

theorem feed_notMem_cr : lineFeed ∉ LineStyle.cr.write s := by
  induction s with
  | nil => exact List.not_mem_nil
  | cons u s ih =>
    rw [write_cons, List.mem_append, not_or]
    refine ⟨?_, ih⟩
    split
    next => decide
    next hu => exact fun h => hu (List.mem_singleton.mp h).symm

theorem head_notFeed {t : JsText} (h : lineFeed ∉ t) : t.head? ≠ some lineFeed :=
  fun hhead => h (List.mem_of_mem_head? hhead)

theorem normalizeLf_bare {t : JsText} (h : lineFeed ∉ t) :
    normalizeLf (carriageReturn :: t) = lineFeed :: normalizeLf t := by
  cases t with
  | nil => rfl
  | cons v t =>
    have hv : v ≠ lineFeed := fun he => h (he ▸ List.mem_cons_self)
    rw [normalizeLf, if_pos rfl, if_neg hv]

variable {style : LineStyle}

theorem normalizeLf_write (h : carriageReturn ∉ s) : normalizeLf (style.write s) = s := by
  induction s with
  | nil => rfl
  | cons u s ih =>
    obtain ⟨hu, hs⟩ := not_or.mp (mt List.mem_cons.mpr h)
    have ih := ih hs
    rw [write_cons]
    split
    next hfeed =>
      subst hfeed
      cases style with
      | lf => rw [LineStyle.ending, List.singleton_append, normalizeLf_cons (by decide), ih]
      | crlf =>
        rw [LineStyle.ending, List.cons_append, List.singleton_append, normalizeLf, if_pos rfl,
          if_pos rfl, ih]
      | cr =>
        rw [LineStyle.ending, List.singleton_append, normalizeLf_bare feed_notMem_cr, ih]
    next =>
      rw [List.singleton_append, normalizeLf_cons fun he => hu he.symm, ih]

theorem rawDrop_write (h : carriageReturn ∉ s) (n : ℕ) :
    rawDrop n (style.write s) = style.write (s.drop n) := by
  induction n generalizing s with
  | zero => rfl
  | succ n ih =>
    cases s with
    | nil => rfl
    | cons u s =>
      obtain ⟨hu, hs⟩ := not_or.mp (mt List.mem_cons.mpr h)
      have ih := ih hs
      rw [write_cons, List.drop_succ_cons, ← ih]
      split
      next hfeed =>
        subst hfeed
        cases style with
        | lf =>
          rw [LineStyle.ending, List.singleton_append, rawDrop, if_neg]
          exact fun h => absurd h.1 (by decide)
        | crlf =>
          rw [LineStyle.ending, List.cons_append, List.singleton_append, rawDrop, if_pos ⟨rfl, rfl⟩]
          rfl
        | cr =>
          rw [LineStyle.ending, List.singleton_append, rawDrop, if_neg]
          exact fun h => head_notFeed feed_notMem_cr h.2
      next =>
        rw [List.singleton_append, rawDrop, if_neg]
        exact fun h => hu h.1.symm

theorem rawBody_write (h : carriageReturn ∉ s) :
    rawBody (style.write s) = style.write (splitFrontmatter s).body := by
  have hwhole := frontmatter_body s
  rw [rawBody, normalizeLf_write h, rawDrop_write h]
  congr 1
  conv_lhs => rw [← hwhole]
  rw [frontmatter_body s]
  nth_rewrite 2 [← hwhole]
  exact List.drop_left

def writtenStyle (content : JsText) : LineStyle :=
  match normalizedLineEnding content with
  | .crlf => .crlf
  | .lf => .lf

theorem writeLines_content (content : JsText) (lines : List JsText) (body : JsText) :
    (writeLines content lines body).content =
      (writtenStyle content).write (joinLines lines ++ lineFeed :: body) := by
  unfold writeLines writtenStyle
  cases normalizedLineEnding content with
  | crlf => rfl
  | lf => exact (write_lf _).symm

theorem writtenStyle_write (h : carriageReturn ∉ s) (hfeed : lineFeed ∈ s) :
    writtenStyle (style.write s) = if style = .crlf then .crlf else .lf := by
  cases style with
  | lf =>
    rw [write_lf, writtenStyle, StyledContent.lineEnding_of_not_mem h]
    rfl
  | crlf =>
    obtain ⟨a, b, rfl⟩ := List.append_of_mem hfeed
    have hpart : [carriageReturn, lineFeed] <:+: LineStyle.crlf.write (a ++ lineFeed :: b) := by
      refine ⟨LineStyle.crlf.write a, LineStyle.crlf.write b, ?_⟩
      simp [LineStyle.write, LineStyle.ending]
    rw [writtenStyle, normalizedLineEnding, if_pos hpart]
    rfl
  | cr =>
    have hpart : ¬[carriageReturn, lineFeed] <:+: LineStyle.cr.write s :=
      fun hpart => feed_notMem_cr (hpart.subset (by simp))
    rw [writtenStyle, normalizedLineEnding, if_neg hpart]
    rfl

theorem write_kept {s body body' : JsText} (h : carriageReturn ∉ s) (hfeed : lineFeed ∈ s)
    (hbody : carriageReturn ∉ body) (hbody' : carriageReturn ∉ body') :
    (writtenStyle (style.write s)).write body' = style.write body ↔
      body' = body ∧ (style ≠ .cr ∨ lineFeed ∉ body) := by
  rw [writtenStyle_write h hfeed]
  constructor
  · intro hsame
    have hlines := congrArg normalizeLf hsame
    rw [normalizeLf_write hbody, normalizeLf_write hbody'] at hlines
    refine ⟨hlines, ?_⟩
    by_cases hcr : style = .cr
    · right
      subst hcr hlines
      rw [if_neg (by decide), write_lf] at hsame
      intro hmem
      rw [hsame] at hmem
      exact feed_notMem_cr hmem
    · exact Or.inl hcr
  · rintro ⟨rfl, hstyle⟩
    cases style with
    | lf => rw [if_neg (by decide)]
    | crlf => rw [if_pos rfl]
    | cr =>
      have hno := hstyle.resolve_left fun hne => hne rfl
      have hself : ∀ t : JsText, lineFeed ∉ t → LineStyle.cr.write t = t := by
        intro t ht
        induction t with
        | nil => rfl
        | cons u t ih =>
          obtain ⟨hu, ht⟩ := not_or.mp (mt List.mem_cons.mpr ht)
          rw [write_cons, if_neg fun he => hu he.symm, ih ht]
          rfl
      rw [if_neg (by decide), write_lf, hself _ hno]
end

section

abbrev dashes : JsText := [45, 45, 45]

structure Inner (lines : List JsText) : Prop where
  ne : lines ≠ []
  oneLine : ∀ line ∈ lines, lineFeed ∉ line
  unclosed : ∀ line ∈ lines.tail, ¬dashes <+: line

variable {lines : List JsText}

theorem joinLines_cons {line : JsText} (h : lines ≠ []) :
    joinLines (line :: lines) = line ++ lineFeed :: joinLines lines := by
  obtain ⟨next, more, rfl⟩ := List.exists_cons_of_ne_nil h
  rw [joinLines, List.intercalate_cons_cons, joinLines, List.append_assoc]
  rfl

theorem joinLines_concat (h : lines ≠ []) (line : JsText) :
    joinLines (lines ++ [line]) = joinLines lines ++ lineFeed :: line := by
  induction lines with
  | nil => exact absurd rfl h
  | cons first lines ih =>
    by_cases hlines : lines = []
    · subst hlines
      rw [List.cons_append, List.nil_append, joinLines_cons (List.cons_ne_nil _ _)]
      simp [joinLines]
    · rw [List.cons_append, joinLines_cons (by simp), ih hlines, joinLines_cons hlines,
        List.append_assoc, List.cons_append]

theorem mem_joinLines {u : CodeUnit} (hu : u ≠ lineFeed) :
    u ∈ joinLines lines ↔ ∃ line ∈ lines, u ∈ line := by
  induction lines with
  | nil => simp [joinLines]
  | cons first lines ih =>
    by_cases hlines : lines = []
    · subst hlines
      simp [joinLines]
    · rw [joinLines_cons hlines, List.mem_append, List.mem_cons, ih]
      simp [hu]

def frontOf (lines : List JsText) : JsText :=
  dashes ++ lineFeed :: (joinLines lines ++ lineFeed :: dashes)

theorem joinLines_front (h : lines ≠ []) :
    joinLines (dashes :: (lines ++ [dashes])) = frontOf lines := by
  rw [joinLines_cons (by simp), joinLines_concat h, frontOf]

theorem range_shift (k n : ℕ) : List.range' k n = (List.range' 0 n).map (· + k) := by
  have hshift : (List.range' 0 n).map (k + ·) = List.range' (k + 0) n := List.map_add_range' 0 n 1
  rw [Nat.add_zero] at hshift
  rw [← hshift]
  apply List.map_congr_left
  intro i _
  exact Nat.add_comm k i

theorem indexOf_cons (pattern : JsText) (u : CodeUnit) (s : JsText) : indexOf pattern 0 (u :: s) =
      if pattern <+: u :: s then some 0 else (indexOf pattern 0 s).map (· + 1) := by
  have hrange : List.range' 0 ((u :: s).length + 1 - 0) =
      0 :: (List.range' 0 (s.length + 1 - 0)).map (· + 1) := by
    rw [List.length_cons, Nat.sub_zero, Nat.sub_zero, List.range'_succ, range_shift (0 + 1)]
  rw [indexOf, indexOf, hrange, List.find?_cons, List.find?_map, List.drop_zero]
  by_cases h : pattern <+: u :: s
  · have hb : pattern.isPrefixOf (u :: s) = true := List.isPrefixOf_iff_prefix.mpr h
    rw [hb, if_pos h]
  · have hb : pattern.isPrefixOf (u :: s) = false := by
      rw [Bool.eq_false_iff]
      exact fun hb => h (List.isPrefixOf_iff_prefix.mp hb)
    rw [hb, if_neg h]
    rfl

theorem indexOf_four (pattern : JsText) (a b c d : CodeUnit) (s : JsText) :
    indexOf pattern 4 (a :: b :: c :: d :: s) = (indexOf pattern 0 s).map (· + 4) := by
  have hrange : List.range' 4 ((a :: b :: c :: d :: s).length + 1 - 4) =
      (List.range' 0 (s.length + 1 - 0)).map (· + 4) := by
    have hlength : (a :: b :: c :: d :: s).length + 1 - 4 = s.length + 1 - 0 := by
      simp only [List.length_cons]
      omega
    rw [hlength, range_shift 4]
  rw [indexOf, indexOf, hrange, List.find?_map]
  rfl

theorem indexOf_skip {q line : JsText} (h : lineFeed ∉ line) (s : JsText) :
    indexOf (lineFeed :: q) 0 (line ++ s) = (indexOf (lineFeed :: q) 0 s).map (· + line.length) := by
  induction line with
  | nil => simp
  | cons u line ih =>
    obtain ⟨hu, hline⟩ := not_or.mp (mt List.mem_cons.mpr h)
    have hno : ¬lineFeed :: q <+: u :: (line ++ s) := by
      intro hpre
      exact hu (List.cons_prefix_cons.mp hpre).1
    rw [List.cons_append, indexOf_cons, if_neg hno, ih hline, Option.map_map]
    congr 1

theorem dashes_cut {c : CodeUnit} (hc : c ≠ 45) {line : JsText} (s : JsText) :
    dashes <+: line ++ c :: s ↔ dashes <+: line := by
  constructor
  · intro h
    match line, h with
    | [], h => exact absurd (List.cons_prefix_cons.mp h).1.symm hc
    | [_], h =>
      have hsecond := (List.cons_prefix_cons.mp (List.cons_prefix_cons.mp h).2).1
      exact absurd hsecond.symm hc
    | [_, _], h =>
      have hthird := (List.cons_prefix_cons.mp
        (List.cons_prefix_cons.mp (List.cons_prefix_cons.mp h).2).2).1
      exact absurd hthird.symm hc
    | a :: b :: c :: line, h =>
      have hfirst := List.cons_prefix_cons.mp h
      have hsecond := List.cons_prefix_cons.mp hfirst.2
      have hthird := List.cons_prefix_cons.mp hsecond.2
      rw [← hfirst.1, ← hsecond.1, ← hthird.1]
      exact ⟨line, rfl⟩
  · exact fun h => h.trans (List.prefix_append _ _)

theorem close_iff (first : JsText) (lines : List JsText)
    (h : ∀ line ∈ first :: lines, lineFeed ∉ line) (s : JsText) :
    indexOf (lineFeed :: dashes) 0 (joinLines (first :: lines) ++ lineFeed :: (dashes ++ s)) =
        some (joinLines (first :: lines)).length ↔
      ∀ line ∈ lines, ¬dashes <+: line := by
  have hfeed : ∀ t : JsText, indexOf (lineFeed :: dashes) 0 (lineFeed :: t) =
      if dashes <+: t then some 0 else (indexOf (lineFeed :: dashes) 0 t).map (· + 1) := by
    intro t
    rw [indexOf_cons]
    simp only [List.cons_prefix_cons, true_and]
  induction lines generalizing first with
  | nil =>
    have hone : joinLines [first] = first := by simp [joinLines]
    rw [hone, indexOf_skip (h first List.mem_cons_self), hfeed, if_pos ⟨s, rfl⟩]
    simp
  | cons second lines ih =>
    have hfirst := h first List.mem_cons_self
    have ih := ih second fun line hline => h line (List.mem_cons_of_mem _ hline)
    have hnext : dashes <+: joinLines (second :: lines) ++ lineFeed :: (dashes ++ s) ↔
        dashes <+: second := by
      by_cases hlines : lines = []
      · subst hlines
        have hone : joinLines [second] = second := by simp [joinLines]
        rw [hone, dashes_cut (by decide)]
      · rw [joinLines_cons hlines, List.append_assoc, List.cons_append, dashes_cut (by decide)]
    rw [joinLines_cons (List.cons_ne_nil _ _), List.append_assoc, List.cons_append,
      indexOf_skip hfirst, hfeed, List.forall_mem_cons]
    by_cases hclosed : dashes <+: second
    · rw [if_pos (hnext.mpr hclosed)]
      simp [hclosed]
    · rw [if_neg (mt hnext.mp hclosed)]
      simp only [hclosed, not_false_eq_true, true_and, Option.map_map, List.length_append,
        List.length_cons]
      apply Iff.trans _ ih
      cases indexOf (lineFeed :: dashes) 0
          (joinLines (second :: lines) ++ lineFeed :: (dashes ++ s)) with
      | none => simp
      | some n =>
        simp only [Option.map_some, Function.comp_apply, Option.some.injEq]
        omega

theorem split_front (h : Inner lines) (rest : JsText) : splitFrontmatter (frontOf lines ++ rest) =
      if rest.head? = some lineFeed then ⟨frontOf lines ++ [lineFeed], rest.tail⟩
      else ⟨frontOf lines, rest⟩ := by
  obtain ⟨first, more, rfl⟩ := List.exists_cons_of_ne_nil h.ne
  have hclose := (close_iff first more h.oneLine rest).mpr h.unclosed
  have hstart : units "---\n" <+: frontOf (first :: more) ++ rest := ⟨_, rfl⟩
  have hindex : indexOf (units "\n---") 4 (frontOf (first :: more) ++ rest) =
      some ((joinLines (first :: more)).length + 4) := by
    have hfront : frontOf (first :: more) ++ rest = 45 :: 45 :: 45 :: 10 ::
        (joinLines (first :: more) ++ lineFeed :: (dashes ++ rest)) := by
      simp [frontOf]
    rw [hfront, indexOf_four]
    exact congrArg (Option.map (· + 4)) hclose
  have hlength : (joinLines (first :: more)).length + 4 + 4 = (frontOf (first :: more)).length := by
    simp [frontOf]
  rw [splitFrontmatter, if_pos hstart, hindex]
  simp only [hlength]
  have hget : (frontOf (first :: more) ++ rest)[(frontOf (first :: more)).length]? = rest.head? := by
    rw [List.getElem?_append_right le_rfl, Nat.sub_self, List.head?_eq_getElem?]
  rw [hget]
  split
  · rw [List.take_left, ← List.drop_drop, List.drop_left, List.drop_one]
  · rw [List.take_left, List.drop_left]

theorem exists_front {s : JsText} (h : (splitFrontmatter s).frontmatter ≠ []) :
    ∃ lines rest, Inner lines ∧ s = frontOf lines ++ rest := by
  by_cases hstart : units "---\n" <+: s
  · obtain ⟨t, rfl⟩ := hstart
    have hfront : units "---\n" ++ t = 45 :: 45 :: 45 :: 10 :: t := rfl
    cases hindex : indexOf (lineFeed :: dashes) 0 t with
    | none =>
      have hnone : indexOf (units "\n---") 4 (units "---\n" ++ t) = none := by
        rw [hfront, indexOf_four]
        exact congrArg (Option.map (· + 4)) hindex
      rw [splitFrontmatter, if_pos (List.prefix_append _ _), hnone] at h
      exact absurd rfl h
    | some i =>
      have hfound := hindex
      unfold indexOf at hfound
      have hrange := List.mem_of_find?_eq_some hfound
      have hpattern := List.find?_some hfound
      obtain ⟨rest, hrest⟩ := List.isPrefixOf_iff_prefix.mp hpattern
      have hi : i ≤ t.length := by
        rw [List.mem_range'] at hrange
        obtain ⟨j, hj, rfl⟩ := hrange
        omega
      obtain ⟨first, more, hsplit⟩ :=
        List.exists_cons_of_ne_nil (List.splitOn_ne_nil lineFeed (t.take i))
      have hjoin : joinLines (first :: more) = t.take i := by
        rw [← hsplit, joinLines, List.intercalate_splitOn]
      have hlines : ∀ line ∈ first :: more, lineFeed ∉ line := by
        intro line hline
        rw [← hsplit] at hline
        exact splitOn_notMem hline
      have hwhole : t = joinLines (first :: more) ++ lineFeed :: (dashes ++ rest) := by
        calc t = t.take i ++ t.drop i := (List.take_append_drop i t).symm
          _ = joinLines (first :: more) ++ lineFeed :: (dashes ++ rest) := by
            rw [hjoin, ← hrest]
            rfl
      have hlength : (joinLines (first :: more)).length = i := by
        rw [hjoin, List.length_take]
        omega
      have hclose := (close_iff first more hlines rest).mp (by rw [← hwhole, hindex, hlength])
      refine ⟨first :: more, rest, ⟨List.cons_ne_nil _ _, hlines, hclose⟩, ?_⟩
      calc units "---\n" ++ t
          = units "---\n" ++ (joinLines (first :: more) ++ lineFeed :: (dashes ++ rest)) :=
            congrArg (units "---\n" ++ ·) hwhole
        _ = frontOf (first :: more) ++ rest := by
            simp [frontOf, units, JsText.utf16]
  · rw [splitFrontmatter, if_neg hstart] at h
    exact absurd rfl h

theorem mem_frontOf {u : CodeUnit} (hu : u ≠ lineFeed) (hdash : u ≠ 45) :
    u ∈ frontOf lines ↔ ∃ line ∈ lines, u ∈ line := by
  rw [← mem_joinLines hu]
  simp [frontOf, hu, hdash]

theorem front_ne (lines : List JsText) : frontOf lines ≠ [] := List.cons_ne_nil _ _

theorem frontmatterLines_front (h : Inner lines) :
    frontmatterLines (frontOf lines) = dashes :: (lines ++ [dashes]) ∧
      frontmatterLines (frontOf lines ++ [lineFeed]) = dashes :: (lines ++ [dashes]) := by
  have hlines : ∀ line ∈ dashes :: (lines ++ [dashes]), lineFeed ∉ line := by
    intro line hline
    rcases List.mem_cons.mp hline with rfl | hline
    · decide
    · rcases List.mem_append.mp hline with hline | hline
      · exact h.oneLine line hline
      · obtain rfl := List.mem_singleton.mp hline
        decide
  have hsplit : (frontOf lines).splitOn lineFeed = dashes :: (lines ++ [dashes]) := by
    rw [← joinLines_front h.ne]
    exact List.splitOn_intercalate lineFeed hlines (List.cons_ne_nil _ _)
  have hlast : (frontOf lines).getLast? = some 45 := by
    have hconcat : frontOf lines =
        (dashes ++ lineFeed :: (joinLines lines ++ lineFeed :: [45, 45])) ++ [45] := by
      simp [frontOf]
    rw [hconcat, List.getLast?_concat]
  constructor
  · rw [frontmatterLines, hlast, if_neg (by decide), hsplit]
  · rw [frontmatterLines, List.getLast?_concat, if_pos rfl, List.dropLast_concat, hsplit]
end

section
variable {N : Type} {numbers : NumberText N}

def fieldsUpTo (numbers : NumberText N) (next : Bool) : List JsText → List (FrontmatterField N)
  | [] => []
  | line :: lines =>
    (fieldOf numbers line ((lines.head?.map startsWithSpace).getD next)).toList ++
      fieldsUpTo numbers next lines

def isField (numbers : NumberText N) (line : JsText) : Bool := (fieldOf numbers line false).isSome

theorem fieldOf_isSome (line : JsText) (next : Bool) :
    (fieldOf numbers line next).isSome = isField numbers line := by
  unfold isField fieldOf
  split
  · rfl
  · cases line.idxOf? 58 with
    | none => rfl
    | some separator =>
      dsimp only
      split
      · rfl
      · split <;> split <;> rfl

theorem fieldsOf_upTo (lines : List JsText) :
    fieldsOf numbers lines = fieldsUpTo numbers false lines := by
  induction lines with
  | nil => rfl
  | cons line lines ih =>
    have hnext : lines.head?.any startsWithSpace = (lines.head?.map startsWithSpace).getD false := by
      cases lines <;> rfl
    rw [fieldsOf, fieldsUpTo, ih, hnext]

theorem fieldsUpTo_append (next : Bool) (before after : List JsText) :
    fieldsUpTo numbers next (before ++ after) =
      fieldsUpTo numbers ((after.head?.map startsWithSpace).getD next) before ++
        fieldsUpTo numbers next after := by
  induction before with
  | nil => rfl
  | cons line before ih =>
    have hnext : (((before ++ after).head?.map startsWithSpace).getD next) =
        (before.head?.map startsWithSpace).getD ((after.head?.map startsWithSpace).getD next) := by
      cases before <;> rfl
    rw [List.cons_append, fieldsUpTo, ih, hnext, fieldsUpTo, List.append_assoc]

theorem length_fieldsUpTo (next : Bool) (lines : List JsText) :
    (fieldsUpTo numbers next lines).length = lines.countP (isField numbers) := by
  induction lines with
  | nil => rfl
  | cons line lines ih =>
    rw [fieldsUpTo, List.length_append, ih, List.countP_cons, ← fieldOf_isSome line]
    cases fieldOf numbers line ((lines.head?.map startsWithSpace).getD next) with
    | none => simp
    | some field => simp [Nat.add_comm]

theorem fieldsOf_line (before : List JsText) (line : JsText) (after : List JsText) :
    fieldsOf numbers (before ++ line :: after) =
      fieldsUpTo numbers (startsWithSpace line) before ++
        ((fieldOf numbers line (after.head?.any startsWithSpace)).toList ++
          fieldsOf numbers after) := by
  have hnext : after.head?.any startsWithSpace = (after.head?.map startsWithSpace).getD false := by
    cases after <;> rfl
  rw [fieldsOf_upTo, fieldsUpTo_append, fieldsUpTo, fieldsOf_upTo, hnext]
  rfl

variable {field : FrontmatterField N}

theorem exists_line {lines : List JsText} {i : ℕ} (h : (fieldsOf numbers lines)[i]? = some field) :
    ∃ before line after, lines = before ++ line :: after ∧
      before.countP (isField numbers) = i ∧
      fieldOf numbers line (after.head?.any startsWithSpace) = some field := by
  induction lines generalizing i with
  | nil => simp [fieldsOf] at h
  | cons first lines ih =>
    rw [fieldsOf] at h
    have hsome := @fieldOf_isSome N numbers first (lines.head?.any startsWithSpace)
    cases hfirst : fieldOf numbers first (lines.head?.any startsWithSpace) with
    | none =>
      rw [hfirst] at h hsome
      obtain ⟨before, line, after, rfl, hcount, hfield⟩ := ih h
      refine ⟨first :: before, line, after, rfl, ?_, hfield⟩
      rw [List.countP_cons_of_neg, hcount]
      simp [← hsome]
    | some own =>
      rw [hfirst] at h hsome
      cases i with
      | zero =>
        obtain rfl : own = field := Option.some.inj h
        exact ⟨[], first, lines, rfl, rfl, hfirst⟩
      | succ i =>
        obtain ⟨before, line, after, rfl, hcount, hfield⟩ := ih (by simpa using h)
        refine ⟨first :: before, line, after, rfl, ?_, hfield⟩
        rw [List.countP_cons_of_pos, hcount]
        simp [← hsome]

structure IsKey (key : JsText) : Prop where
  head : ∃ u rest, key = u :: rest ∧ isSpace u = false ∧ u ≠ 35
  noColon : 58 ∉ key
  trimmed : trim key = key

theorem trim_head {u : CodeUnit} (hu : isSpace u = false) (t : JsText) :
    ∃ rest, trim (u :: t) = u :: rest := by
  have hu' : ¬isSpace u = true := by simp [hu]
  rw [trim, List.dropWhile_cons_of_neg hu']
  have hpre := List.rdropWhile_prefix isSpace (u :: t)
  cases hdrop : (u :: t).rdropWhile isSpace with
  | nil =>
    have hall := List.rdropWhile_eq_nil_iff.mp hdrop u List.mem_cons_self
    rw [hu] at hall
    cases hall
  | cons v rest =>
    rw [hdrop] at hpre
    rw [(List.cons_prefix_cons.mp hpre).1]
    exact ⟨rest, rfl⟩

theorem trim_idempotent (t : JsText) : trim (trim t) = trim t := by
  cases hfront : t.dropWhile isSpace with
  | nil =>
    rw [trim, trim, hfront]
    rfl
  | cons u rest =>
    have hu : isSpace u = false := by
      have hhead := List.head?_dropWhile_not isSpace t
      rw [hfront] at hhead
      simpa using hhead
    have htrim : trim t = trim (u :: rest) := by
      rw [trim, hfront, trim, List.dropWhile_cons_of_neg (by simp [hu])]
    obtain ⟨more, hmore⟩ := trim_head hu rest
    have hlast : (u :: more).rdropWhile isSpace = u :: more := by
      rw [← hmore, trim]
      exact List.rdropWhile_idempotent _ _
    rw [htrim, hmore, trim, List.dropWhile_cons_of_neg (by simp [hu]), hlast]

theorem idxOf_colon {front : JsText} (h : 58 ∉ front) (raw : JsText) :
    (front ++ 58 :: raw).idxOf? 58 = some front.length := by
  have hnone : front.findIdx? (· == 58) = none := by
    rw [List.findIdx?_eq_none_iff]
    intro u hu
    rw [beq_eq_false_iff_ne]
    rintro rfl
    exact h hu
  rw [List.idxOf?, List.findIdx?_append, hnone]
  simp [List.findIdx?_cons]

theorem exists_colon {line : JsText} {n : ℕ} (h : line.idxOf? 58 = some n) :
    58 ∉ line.take n ∧ line = line.take n ++ 58 :: line.drop (n + 1) := by
  rw [List.idxOf?, List.findIdx?_eq_some_iff_getElem] at h
  obtain ⟨hn, hcolon, hbefore⟩ := h
  constructor
  · intro hmem
    obtain ⟨j, hj, hget⟩ := List.mem_iff_getElem.mp hmem
    rw [List.length_take] at hj
    rw [List.getElem_take] at hget
    exact hbefore j (by omega) (by simp [hget])
  · have hdrop := List.drop_eq_getElem_cons hn
    rw [beq_iff_eq.mp hcolon] at hdrop
    rw [← hdrop, List.take_append_drop]

theorem fieldOf_some {line : JsText} {next : Bool} (h : fieldOf numbers line next = some field) :
    startsWithSpace line = false ∧ IsKey field.key ∧ ∀ u ∈ field.key, u ∈ line := by
  unfold fieldOf at h
  split at h
  · cases h
  next hskip =>
    simp only [not_or, Bool.not_eq_true] at hskip
    obtain ⟨-, hhash, hspace⟩ := hskip
    cases hcolon : line.idxOf? 58 with
    | none => simp [hcolon] at h
    | some separator =>
      simp only [hcolon] at h
      split at h
      · cases h
      next hzero =>
        obtain ⟨hfront, hline⟩ := exists_colon hcolon
        have hkey : IsKey (trim (line.take separator)) := by
          cases line with
          | nil => simp [List.idxOf?] at hcolon
          | cons u line =>
            have hu : isSpace u = false := hspace
            have htake : (u :: line).take separator = u :: line.take (separator - 1) := by
              cases separator with
              | zero => exact absurd rfl hzero
              | succ separator => rfl
            obtain ⟨rest, hrest⟩ := trim_head hu (line.take (separator - 1))
            have hfirst : u ≠ 35 := by
              rw [List.dropWhile_cons_of_neg (by simp [hu])] at hhash
              exact fun he => hhash (congrArg some he)
            refine ⟨⟨u, rest, by rw [htake, hrest], hu, hfirst⟩, ?_, trim_idempotent _⟩
            exact fun hmem => hfront ((trim_sublist _).subset hmem)
        have hmem : ∀ u ∈ trim (line.take separator), u ∈ line :=
          fun u hu => List.mem_of_mem_take ((trim_sublist _).subset hu)
        split at h
        · obtain rfl := Option.some.inj h
          exact ⟨hspace, hkey, hmem⟩
        · obtain rfl := Option.some.inj h
          exact ⟨hspace, hkey, hmem⟩

theorem fieldOf_key {key : JsText} (hkey : IsKey key) (raw : JsText) (next : Bool) :
    ∃ field, fieldOf numbers (key ++ 58 :: raw) next = some field ∧ field.key = key ∧
      field.source = key ++ 58 :: raw ∧ (next = false → field.value = readRaw numbers raw) := by
  obtain ⟨u, rest, hhead, hu, hhash⟩ := hkey.head
  have hcolon := idxOf_colon hkey.noColon raw
  have hlength : key.length ≠ 0 := by
    rw [hhead]
    exact Nat.succ_ne_zero _
  have hline : key ++ 58 :: raw = u :: (rest ++ 58 :: raw) := by
    rw [hhead]
    rfl
  obtain ⟨more, hmore⟩ := trim_head hu (rest ++ 58 :: raw)
  have hskip : ¬(trim (key ++ 58 :: raw) = [] ∨
      ((key ++ 58 :: raw).dropWhile isSpace).head? = some 35 ∨
      startsWithSpace (key ++ 58 :: raw) = true) := by
    rw [hline, hmore, List.dropWhile_cons_of_neg (by simp [hu])]
    simp [startsWithSpace, hu, hhash]
  have htake : (key ++ 58 :: raw).take key.length = key := List.take_left
  have hdrop : (key ++ 58 :: raw).drop (key.length + 1) = raw := by
    rw [← List.drop_drop, List.drop_left]
    rfl
  unfold fieldOf
  rw [if_neg hskip, hcolon]
  simp only [if_neg hlength, htake, hdrop, hkey.trimmed]
  split
  next hmarked =>
    refine ⟨_, rfl, rfl, rfl, fun hnext => ?_⟩
    rw [hnext, Bool.false_or] at hmarked
    rw [readRaw, if_pos hmarked]
  next hmarked =>
    refine ⟨_, rfl, rfl, rfl, fun hnext => ?_⟩
    rw [hnext, Bool.false_or] at hmarked
    rw [readRaw, if_neg hmarked]
end

section
variable {N : Type} {numbers : NumberText N}

def FieldValue.Entered : FieldValue N → Prop
  | .null => False
  | .record _ => False
  | _ => True

theorem yamlScalar_line (hlawful : numbers.Lawful) {value : FieldValue N} (h : value.Entered)
    {u : CodeUnit} (hu : u = lineFeed ∨ u = carriageReturn) : u ∉ yamlScalar numbers value := by
  have hquoted : ∀ t : JsText, u ∉ quoteUnits t := by
    intro t hmem
    rcases mem_quoteUnits hmem with hescape | ⟨-, hself⟩
    · rcases hu with rfl | rfl <;> exact absurd hescape (by decide)
    · rcases hu with rfl | rfl <;> exact absurd hself (by decide)
  have hquote : u ≠ 34 ∧ u ≠ 44 ∧ u ≠ 32 ∧ u ≠ 91 ∧ u ≠ 93 := by
    rcases hu with rfl | rfl <;> decide
  cases value with
  | string t =>
    by_cases hplain : isPlain t = true
    · simp only [yamlScalar, if_pos hplain]
      apply plain_ne _ hplain
      rcases hu with rfl | rfl <;> decide
    · simp [yamlScalar, if_neg hplain, jsonString, hquoted, hquote.1]
  | number n =>
    intro hmem
    have hspace := hlawful.unspaced n u hmem
    rcases hu with rfl | rfl <;> exact absurd hspace (by decide)
  | boolean b =>
    have htexts : u ∉ units "true" ∧ u ∉ units "false" := by
      rcases hu with rfl | rfl <;> decide
    cases b with
    | true => exact htexts.1
    | false => exact htexts.2
  | list items =>
    have hnone : (items.any fun item => (quoteUnits item).any fun v => v == u) = false := by
      rw [List.any_eq_false]
      intro item _
      simp only [List.any_eq_true, not_exists, not_and]
      intro v hv hvu
      rw [beq_iff_eq.mp hvu] at hv
      exact hquoted item hv
    have hjoin := any_join (fun v => v == u) (beq_eq_false_iff_ne.mpr hquote.1.symm)
      (beq_eq_false_iff_ne.mpr hquote.2.1.symm) (beq_eq_false_iff_ne.mpr hquote.2.2.1.symm) items
    rw [hnone, List.any_eq_false] at hjoin
    have hinside : u ∉ [44, 32].intercalate (items.map jsonString) :=
      fun hmem => hjoin u hmem (beq_self_eq_true u)
    simp [yamlScalar, hinside, hquote.2.2.2.1, hquote.2.2.2.2]
  | null => exact h.elim
  | record json => exact h.elim

theorem startsKey_iff {key line : JsText} :
    startsKey key line = true ↔ ∃ raw, line = key ++ 58 :: raw := by
  rw [startsKey, List.isPrefixOf_iff_prefix]
  constructor
  · rintro ⟨raw, rfl⟩
    exact ⟨raw, by simp⟩
  · rintro ⟨raw, rfl⟩
    exact ⟨raw, by simp⟩

def innerLines (content : JsText) : List JsText :=
  (frontmatterLines (splitFrontmatter (normalizeLf content)).frontmatter).tail.dropLast

section
variable {content : JsText} {lines : List JsText} {rest : JsText}

theorem front_lines (h : Inner lines) (hcontent : normalizeLf content = frontOf lines ++ rest) :
    (splitFrontmatter (normalizeLf content)).frontmatter ≠ [] ∧
      frontmatterLines (splitFrontmatter (normalizeLf content)).frontmatter =
        dashes :: (lines ++ [dashes]) := by
  have hlines := frontmatterLines_front h
  rw [hcontent, split_front h]
  split
  · exact ⟨by simp [front_ne], hlines.2⟩
  · exact ⟨front_ne lines, hlines.1⟩

theorem innerLines_front (h : Inner lines)
    (hcontent : normalizeLf content = frontOf lines ++ rest) : innerLines content = lines := by
  rw [innerLines, (front_lines h hcontent).2, List.tail_cons, List.dropLast_concat]

theorem derive_front (h : Inner lines) (hcontent : normalizeLf content = frontOf lines ++ rest) :
    deriveFrontmatterFields numbers content = fieldsOf numbers lines := by
  have hfront := front_lines h hcontent
  unfold deriveFrontmatterFields
  dsimp only
  rw [if_neg hfront.1, hfront.2, List.tail_cons, List.dropLast_concat]

theorem findIdx_split {p : JsText → Bool} {xs : List JsText} {n : ℕ} (h : xs.findIdx? p = some n) :
    ∃ before a after, xs = before ++ a :: after ∧ before.length = n ∧ p a = true := by
  rw [List.findIdx?_eq_some_iff_getElem] at h
  obtain ⟨hn, ha, -⟩ := h
  refine ⟨xs.take n, xs[n], xs.drop (n + 1), ?_, ?_, ha⟩
  · rw [← List.drop_eq_getElem_cons hn, List.take_append_drop]
  · rw [List.length_take]
    omega

theorem update_cases (h : Inner lines) (hcontent : normalizeLf content = frontOf lines ++ rest)
    {field : FrontmatterField N} {value : FieldValue N}
    (hwarning : (updateFrontmatterField numbers content field value).warning = none) :
    ∃ written : List JsText,
      (updateFrontmatterField numbers content field value).content = (writtenStyle content).write
        (frontOf written ++ lineFeed :: (splitFrontmatter (normalizeLf content)).body) ∧
      ((lines.findIdx? (startsKey field.key) = none ∧
          written = lines ++ [fieldLine numbers field.key value]) ∨
        ∃ before line after, lines = before ++ line :: after ∧
          lines.findIdx? (startsKey field.key) = some before.length ∧
          startsKey field.key line = true ∧ after.head?.any startsWithSpace = false ∧
          written = before ++ fieldLine numbers field.key value :: after) := by
  obtain ⟨hne, hsplit⟩ := front_lines h hcontent
  have hdashes : startsKey field.key dashes = false := by
    rw [Bool.eq_false_iff]
    intro hstart
    obtain ⟨raw, hraw⟩ := startsKey_iff.mp hstart
    have hmem : (58 : CodeUnit) ∈ dashes := by
      rw [hraw]
      simp
    exact absurd hmem (by decide)
  have hfind : (dashes :: (lines ++ [dashes])).findIdx? (startsKey field.key) =
      (lines.findIdx? (startsKey field.key)).map (· + 1) := by
    rw [List.findIdx?_cons, hdashes, List.findIdx?_append, List.findIdx?_singleton, hdashes]
    simp
  unfold updateFrontmatterField at hwarning ⊢
  split at hwarning
  · cases hwarning
  next heditable =>
    rw [if_neg heditable]
    dsimp only at hwarning ⊢
    rw [if_neg hne, hsplit, hfind] at hwarning ⊢
    cases hindex : lines.findIdx? (startsKey field.key) with
    | none =>
      refine ⟨lines ++ [fieldLine numbers field.key value], ?_, Or.inl ⟨rfl, rfl⟩⟩
      have hlength : (dashes :: (lines ++ [dashes])).length - 1 = (dashes :: lines).length := by
        simp
      have hwritten : (dashes :: (lines ++ [dashes])).take (dashes :: lines).length ++
          fieldLine numbers field.key value ::
            (dashes :: (lines ++ [dashes])).drop (dashes :: lines).length =
          dashes :: ((lines ++ [fieldLine numbers field.key value]) ++ [dashes]) := by
        rw [← List.cons_append, List.take_left, List.drop_left]
        simp
      simp only [Option.map_none, hlength]
      rw [hwritten, writeLines_content, joinLines_front (by simp)]
    | some n =>
      obtain ⟨before, line, after, rfl, rfl, hline⟩ := findIdx_split hindex
      refine ⟨before ++ fieldLine numbers field.key value :: after, ?_, ?_⟩
      · simp only [hindex, Option.map_some] at hwarning ⊢
        split at hwarning
        · cases hwarning
        next hcomment =>
          split at hwarning
          · cases hwarning
          next hmulti =>
            have hset : (dashes :: ((before ++ line :: after) ++ [dashes])).set (before.length + 1)
                (fieldLine numbers field.key value) =
                dashes :: ((before ++ fieldLine numbers field.key value :: after) ++ [dashes]) := by
              simp
            rw [if_neg hcomment, if_neg hmulti, hset, writeLines_content, joinLines_front (by simp)]
      · right
        refine ⟨before, line, after, rfl, rfl, hline, ?_, rfl⟩
        simp only [hindex, Option.map_some] at hwarning
        split at hwarning
        · cases hwarning
        next =>
          split at hwarning
          · cases hwarning
          next hmulti =>
            cases after with
            | nil => rfl
            | cons next after =>
              rw [Bool.eq_false_iff]
              intro hspace
              apply hmulti
              constructor
              · simp
                omega
              · have hget : (dashes :: ((before ++ line :: next :: after) ++ [dashes])).getD
                    (before.length + 1 + 1) [] = next := by
                  rw [List.getD_cons_succ, List.getD_eq_getElem?_getD, List.append_assoc,
                    List.getElem?_append_right (Nat.le_succ _)]
                  simp
                rw [hget]
                exact hspace
end

def FieldUpdated (numbers : NumberText N) (content content' : JsText) (i : ℕ)
    (field : FrontmatterField N) (value : FieldValue N) : Prop :=
  (∃ updated : FrontmatterField N, updated.key = field.key ∧ updated.value = value ∧
    deriveFrontmatterFields numbers content' =
      (deriveFrontmatterFields numbers content).set i updated) ∧
    rawBody content' = rawBody content

/-- The first line that begins with the key and a colon is the line of the `i`-th field and the
value can be read back, or that line is another one that holds the value already. -/
def WritesField (numbers : NumberText N) (lines : List JsText) (i : ℕ)
    (field : FrontmatterField N) (value : FieldValue N) : Prop :=
  match lines.findIdx? (startsKey field.key) with
  | none => False
  | some n =>
    if (fieldsOf numbers (lines.take n)).length = i then Representable numbers value
    else lines[n]? = some (fieldLine numbers field.key value) ∧ field.value = value

section
variable {before after : List JsText} {line : JsText}

theorem inner_replace (h : Inner (before ++ line :: after)) {key raw raw' : JsText}
    (hline : line = key ++ 58 :: raw) (hfeed : lineFeed ∉ key ++ 58 :: raw') :
    Inner (before ++ (key ++ 58 :: raw') :: after) := by
  refine ⟨by simp, ?_, ?_⟩
  · intro other hother
    rcases List.mem_append.mp hother with hother | hother
    · exact h.oneLine other (List.mem_append_left _ hother)
    · rcases List.mem_cons.mp hother with rfl | hother
      · exact hfeed
      · exact h.oneLine other (List.mem_append_right _ (List.mem_cons_of_mem _ hother))
  · cases before with
    | nil => exact h.unclosed
    | cons first before =>
      intro other hother
      rw [List.cons_append, List.tail_cons] at hother
      rcases List.mem_append.mp hother with hother | hother
      · exact h.unclosed other (List.mem_append_left _ hother)
      · rcases List.mem_cons.mp hother with rfl | hother
        · have hclosed := h.unclosed line (List.mem_append_right _ List.mem_cons_self)
          rw [hline, dashes_cut (by decide)] at hclosed
          rw [dashes_cut (by decide)]
          exact hclosed
        · exact h.unclosed other (List.mem_append_right _ (List.mem_cons_of_mem _ hother))

variable {key : JsText}

theorem startsWithSpace_key (hkey : IsKey key) (raw : JsText) :
    startsWithSpace (key ++ 58 :: raw) = false := by
  obtain ⟨u, rest, rfl, hu, -⟩ := hkey.head
  exact hu

theorem isField_key (hkey : IsKey key) (raw : JsText) :
    isField numbers (key ++ 58 :: raw) = true := by
  obtain ⟨field, hfield, -⟩ := @fieldOf_key N numbers key hkey raw false
  rw [isField, hfield]
  rfl

theorem fields_around (hkey : IsKey key) (raw : JsText)
    (hnext : after.head?.any startsWithSpace = false) :
    ∃ own : FrontmatterField N, own.key = key ∧ own.source = key ++ 58 :: raw ∧
      own.value = readRaw numbers raw ∧
      fieldsOf numbers (before ++ (key ++ 58 :: raw) :: after) =
        fieldsUpTo numbers false before ++ own :: fieldsOf numbers after := by
  obtain ⟨own, hown, hownKey, hsource, hvalue⟩ := @fieldOf_key N numbers key hkey raw false
  refine ⟨own, hownKey, hsource, hvalue rfl, ?_⟩
  rw [fieldsOf_line, startsWithSpace_key hkey, hnext, hown]
  rfl
end

theorem set_middle {α : Type} (before : List α) (a b : α) (after : List α) :
    (before ++ a :: after).set before.length b = before ++ b :: after := by
  simp

theorem set_self {α : Type} {xs : List α} {i : ℕ} {a : α} (h : xs[i]? = some a) :
    xs.set i a = xs := by
  obtain ⟨hi, rfl⟩ := List.getElem?_eq_some_iff.mp h
  exact List.set_getElem_self hi

theorem fields_written (hlawful : numbers.Lawful) {before after : List JsText} {line : JsText}
    {field : FrontmatterField N} {value : FieldValue N} {i : ℕ} (hkey : IsKey field.key)
    (hentered : value.Entered) (hstarts : startsKey field.key line = true)
    (hnext : after.head?.any startsWithSpace = false)
    (hfield : (fieldsOf numbers (before ++ line :: after))[i]? = some field) :
    (∃ updated : FrontmatterField N, updated.key = field.key ∧ updated.value = value ∧
        fieldsOf numbers (before ++ fieldLine numbers field.key value :: after) =
          (fieldsOf numbers (before ++ line :: after)).set i updated) ↔
      if before.countP (isField numbers) = i then Representable numbers value
      else line = fieldLine numbers field.key value ∧ field.value = value := by
  have hnull : value ≠ .null := by
    rintro rfl
    exact hentered
  have hrecord : ∀ json, value ≠ .record json := by
    rintro json rfl
    exact hentered
  obtain ⟨raw, hline⟩ := startsKey_iff.mp hstarts
  obtain ⟨own, hownKey, hsource, -, hfields⟩ :=
    @fields_around N numbers before after field.key hkey raw hnext
  obtain ⟨new, hnewKey, hnewSource, hvalue, hnew⟩ :=
    @fields_around N numbers before after field.key hkey (32 :: yamlScalar numbers value) hnext
  have hcount : (fieldsUpTo numbers false before).length = before.countP (isField numbers) :=
    length_fieldsUpTo false before
  have hread := @readRaw_iff N numbers hlawful value hnull hrecord
  subst hline
  have hwritten : fieldLine numbers field.key value =
      field.key ++ 58 :: (32 :: yamlScalar numbers value) := rfl
  rw [hwritten, hfields, hnew]
  split
  next hown =>
    rw [← hread, ← hvalue]
    constructor
    · rintro ⟨updated, -, rfl, hsame⟩
      rw [← hown, ← hcount, set_middle] at hsame
      rw [(List.cons.inj (List.append_cancel_left hsame)).1]
    · intro hnewValue
      refine ⟨new, hnewKey, hnewValue, ?_⟩
      rw [← hown, ← hcount, set_middle]
  next hown =>
    have hplace : (fieldsUpTo numbers false before ++ own :: fieldsOf numbers after)[
        (fieldsUpTo numbers false before).length]? = some own := by
      rw [List.getElem?_append_right le_rfl, Nat.sub_self]
      rfl
    constructor
    · rintro ⟨updated, -, rfl, hsame⟩
      -- the line's own field keeps its source
      have hkept := congrArg (·[(fieldsUpTo numbers false before).length]?) hsame
      beta_reduce at hkept
      rw [List.getElem?_set_ne (by rw [hcount]; exact fun he => hown he.symm), hplace,
        List.getElem?_append_right le_rfl, Nat.sub_self] at hkept
      have hsameField : new = own := Option.some.inj hkept
      have hlines : field.key ++ 58 :: raw = field.key ++ 58 :: (32 :: yamlScalar numbers updated.value) := by
        rw [← hsource, ← hnewSource, hsameField]
      refine ⟨hlines, ?_⟩
      rw [hsameField, ← hfields] at hsame
      have hself := congrArg (·[i]?) hsame
      beta_reduce at hself
      obtain ⟨hi, -⟩ := List.getElem?_eq_some_iff.mp hfield
      rw [hfield, List.getElem?_set_self hi] at hself
      rw [Option.some.inj hself]
    · rintro ⟨hlines, hsame⟩
      refine ⟨field, rfl, hsame, ?_⟩
      rw [← hnew, ← hlines, ← hfields, set_self hfield]

theorem not_kept_closed {style : LineStyle} {lines body new : JsText} {inner : List JsText}
    (hinner : Inner inner) (hreturn : carriageReturn ∉ lines) (hfeed : lineFeed ∈ lines)
    (hbody : carriageReturn ∉ body)
    (hresult : carriageReturn ∉ frontOf (inner ++ [new]) ++ lineFeed :: body)
    (hclosed : dashes <+: new)
    (hkept : (writtenStyle (style.write lines)).write
      (splitFrontmatter (frontOf (inner ++ [new]) ++ lineFeed :: body)).body = style.write body) :
    False := by
  obtain ⟨more, rfl⟩ := hclosed
  have hfront : frontOf (inner ++ [dashes ++ more]) ++ lineFeed :: body =
      frontOf inner ++ (more ++ lineFeed :: (dashes ++ lineFeed :: body)) := by
    simp [frontOf, joinLines_concat hinner.ne]
  have hlonger : body.length < (splitFrontmatter (frontOf (inner ++ [dashes ++ more]) ++
      lineFeed :: body)).body.length := by
    rw [hfront, split_front hinner]
    split <;> simp <;> omega
  have hresultBody : carriageReturn ∉ (splitFrontmatter (frontOf (inner ++ [dashes ++ more]) ++
      lineFeed :: body)).body := by
    intro hin
    apply hresult
    rw [← frontmatter_body (frontOf (inner ++ [dashes ++ more]) ++ lineFeed :: body)]
    exact List.mem_append_right _ hin
  have hsame := ((write_kept hreturn hfeed hbody hresultBody).mp hkept).1
  rw [hsame] at hlonger
  exact absurd hlonger (lt_irrefl _)

/-- A field is updated when its line is the first that begins with its key, the value is one that
the reader gives back, and the body has no line that ends with a carriage return alone. -/
theorem field_update_iff (hlawful : numbers.Lawful) {style : LineStyle} {lines : JsText}
    (hreturn : carriageReturn ∉ lines) {i : ℕ} {field : FrontmatterField N} {value : FieldValue N}
    (hfield : (deriveFrontmatterFields numbers (style.write lines))[i]? = some field)
    (hentered : value.Entered)
    (hwarning : (updateFrontmatterField numbers (style.write lines) field value).warning = none) :
    FieldUpdated numbers (style.write lines)
        (updateFrontmatterField numbers (style.write lines) field value).content i field value ↔
      WritesField numbers (innerLines (style.write lines)) i field value ∧
        (style ≠ .cr ∨ lineFeed ∉ (splitFrontmatter lines).body) := by
  have hnormal : normalizeLf (style.write lines) = lines := normalizeLf_write hreturn
  have hfront : (splitFrontmatter lines).frontmatter ≠ [] := by
    intro hnone
    simp [deriveFrontmatterFields, hnormal, hnone] at hfield
  obtain ⟨inner, rest, hinner, hlines⟩ := exists_front hfront
  have hcontent : normalizeLf (style.write lines) = frontOf inner ++ rest := by
    rw [hnormal, hlines]
  have hderive : deriveFrontmatterFields numbers (style.write lines) = fieldsOf numbers inner :=
    derive_front hinner hcontent
  rw [hderive] at hfield
  obtain ⟨own, line, others, hsplit, -, hline⟩ := exists_line hfield
  obtain ⟨-, hkey, hmem⟩ := fieldOf_some hline
  have hlineIn : line ∈ inner := by
    rw [hsplit]
    simp
  have hwhole := frontmatter_body lines
  generalize hbodyEq : (splitFrontmatter lines).body = body at hwhole
  have hbody : carriageReturn ∉ body := by
    intro hin
    apply hreturn
    rw [← hwhole]
    exact List.mem_append_right _ hin
  have hfeed : lineFeed ∈ lines := by
    rw [hlines]
    simp [frontOf]
  have hinnerReturn : ∀ other ∈ inner, carriageReturn ∉ other := by
    intro other hother hu
    apply hreturn
    rw [hlines]
    exact List.mem_append_left _ ((mem_frontOf (by decide) (by decide)).mpr ⟨other, hother, hu⟩)
  have hnewFeed : ∀ u, u = lineFeed ∨ u = carriageReturn →
      u ∉ fieldLine numbers field.key value := by
    intro u hu hin
    rcases List.mem_append.mp hin with hin | hin
    · have hown := hmem u hin
      rcases hu with rfl | rfl
      · exact hinner.oneLine line hlineIn hown
      · exact hinnerReturn line hlineIn hown
    · simp only [List.mem_cons] at hin
      rcases hin with hin | hin | hin
      · subst hin
        rcases hu with h | h <;> exact absurd h (by decide)
      · subst hin
        rcases hu with h | h <;> exact absurd h (by decide)
      · exact yamlScalar_line hlawful hentered hu hin
  obtain ⟨written, hwrite, hcases⟩ := update_cases hinner hcontent hwarning
  rw [hnormal, hbodyEq] at hwrite
  have hwrittenIn : ∀ other ∈ written, other ∈ inner ∨ other = fieldLine numbers field.key value := by
    intro other hother
    rcases hcases with ⟨-, rfl⟩ | ⟨before, first, after, hinnerEq, -, -, -, rfl⟩
    · simpa using hother
    · rw [hinnerEq]
      simp only [List.mem_append, List.mem_cons] at hother ⊢
      tauto
  have hresult : carriageReturn ∉ frontOf written ++ lineFeed :: body := by
    rw [List.mem_append, mem_frontOf (by decide) (by decide), List.mem_cons, not_or, not_or]
    refine ⟨?_, by decide, hbody⟩
    rintro ⟨other, hother, hu⟩
    rcases hwrittenIn other hother with hin | rfl
    · exact hinnerReturn other hin hu
    · exact hnewFeed _ (Or.inr rfl) hu
  have hresultNormal : normalizeLf (updateFrontmatterField numbers (style.write lines) field
      value).content = frontOf written ++ lineFeed :: body := by
    rw [hwrite, normalizeLf_write hresult]
  have hraw : rawBody (style.write lines) = style.write body := by
    rw [rawBody_write hreturn, hbodyEq]
  have hrawResult : rawBody (updateFrontmatterField numbers (style.write lines) field value).content =
      (writtenStyle (style.write lines)).write
        (splitFrontmatter (frontOf written ++ lineFeed :: body)).body := by
    rw [hwrite, rawBody_write hresult]
  have hderiveResult : Inner written → deriveFrontmatterFields numbers
      (updateFrontmatterField numbers (style.write lines) field value).content =
        fieldsOf numbers written := fun h => derive_front h hresultNormal
  rw [innerLines_front hinner hcontent, FieldUpdated, hderive, hraw, hrawResult]
  rcases hcases with ⟨hnone, rfl⟩ | ⟨before, first, after, rfl, hfind, hstarts, hnext, rfl⟩
  · -- a line is added: there is another field, or another body
    apply iff_of_false
    · rintro ⟨⟨updated, -, -, hsame⟩, hkept⟩
      by_cases hclosed : dashes <+: fieldLine numbers field.key value
      · exact not_kept_closed hinner hreturn hfeed hbody hresult
          hclosed hkept
      · have hwritten : Inner (inner ++ [fieldLine numbers field.key value]) := by
          refine ⟨by simp, ?_, ?_⟩
          · intro other hother
            rcases hwrittenIn other hother with hin | rfl
            · exact hinner.oneLine other hin
            · exact hnewFeed _ (Or.inl rfl)
          · intro other hother
            rw [List.tail_append_of_ne_nil hinner.ne, List.mem_append, List.mem_singleton] at hother
            rcases hother with hin | rfl
            · exact hinner.unclosed other hin
            · exact hclosed
        rw [hderiveResult hwritten] at hsame
        have hlength := congrArg List.length hsame
        have hnewField := @isField_key N numbers field.key hkey (32 :: yamlScalar numbers value)
        rw [List.length_set, fieldsOf_upTo, fieldsOf_upTo, length_fieldsUpTo, length_fieldsUpTo,
          List.countP_append, List.countP_singleton, fieldLine, if_pos hnewField] at hlength
        omega
    · rw [WritesField, hnone]
      exact fun h => h.1
  · obtain ⟨raw, hfirst⟩ := startsKey_iff.mp hstarts
    have hwritten : Inner (before ++ fieldLine numbers field.key value :: after) :=
      inner_replace hinner hfirst (hnewFeed _ (Or.inl rfl))
    have hsplitResult := split_front hwritten (lineFeed :: body)
    rw [List.head?_cons, if_pos rfl] at hsplitResult
    have hcount : (fieldsOf numbers ((before ++ first :: after).take before.length)).length =
        before.countP (isField numbers) := by
      rw [List.take_left, fieldsOf_upTo, length_fieldsUpTo]
    have hget : (before ++ first :: after)[before.length]? = some first := by
      rw [List.getElem?_append_right le_rfl, Nat.sub_self]
      rfl
    rw [hderiveResult hwritten, hsplitResult, List.tail_cons,
      fields_written hlawful hkey hentered hstarts hnext hfield,
      write_kept hreturn hfeed hbody hbody]
    simp only [WritesField, hfind, hcount, hget, Option.some.injEq, true_and]
end

def naturals : NumberText ℕ where
  toText n := ((if n = 0 then [0] else Nat.digits 10 n).map fun d => (48 + d).toUInt16).reverse
  ofText t := Nat.ofDigits 10 (t.reverse.map fun u => u.toNat - 48)

theorem naturals_lawful : naturals.Lawful := by
  have hdigit : ∀ n, ∀ d ∈ (if n = 0 then [0] else Nat.digits 10 n), d < 10 := by
    intro n d hd
    split at hd
    · rw [List.mem_singleton.mp hd]
      decide
    · exact Nat.digits_lt_base (by decide) hd
  have hunit : ∀ d < 10, isSpace (48 + d).toUInt16 = false ∧
      (48 + d).toUInt16.toNat - 48 = d := by decide
  constructor
  · intro n u hu
    obtain ⟨d, hd, rfl⟩ := List.mem_map.mp (List.mem_reverse.mp hu)
    exact (hunit d (hdigit n d hd)).1
  · intro n _
    have hmap : ((if n = 0 then [0] else Nat.digits 10 n).map fun d => (48 + d).toUInt16).map
        (fun u => u.toNat - 48) = if n = 0 then [0] else Nat.digits 10 n := by
      rw [List.map_map]
      conv_rhs => rw [← List.map_id (if n = 0 then [0] else Nat.digits 10 n)]
      exact List.map_congr_left fun d hd => (hunit d (hdigit n d hd)).2
    simp only [naturals, List.reverse_reverse]
    rw [hmap]
    split
    next hzero => rw [hzero]; rfl
    next => exact Nat.ofDigits_digits 10 n

def titled : JsText := units "---\ntitle: Old\n---\nBody\n"

def titleField : FrontmatterField ℕ :=
  ⟨units "title", .string (units "Old"), .string, true, units "title: Old"⟩

/-- A field of a document with Windows line ends. -/
theorem title_updated :
    FieldUpdated naturals (LineStyle.crlf.write titled)
      (updateFrontmatterField naturals (LineStyle.crlf.write titled) titleField
        (.string (units "New"))).content 0 titleField (.string (units "New")) := by
  have hfind : (innerLines (LineStyle.crlf.write titled)).findIdx? (startsKey titleField.key) =
      some 0 := by decide +kernel
  have hentered : (FieldValue.string (units "New") : FieldValue ℕ).Entered := trivial
  have hplain : isPlain (units "New") = true := by decide
  apply (field_update_iff naturals_lawful (by decide) (by decide +kernel) hentered
    (by decide +kernel)).mpr
  constructor
  · rw [WritesField, hfind]
    simp only [List.take_zero, fieldsOf, List.length_nil, if_true, Representable, if_pos hplain]
    decide
  · exact Or.inl (by decide)

/-- A mark inside the quotes makes the field one that is not read. -/
theorem ampersand_not_updated :
    (deriveFrontmatterFields naturals titled)[0]? = some titleField ∧
      (updateFrontmatterField naturals titled titleField (.string (units "R&D"))).warning = none ∧
      ¬FieldUpdated naturals titled
        (updateFrontmatterField naturals titled titleField (.string (units "R&D"))).content 0
        titleField (.string (units "R&D")) := by
  refine ⟨by decide +kernel, by decide +kernel, ?_⟩
  rintro ⟨⟨updated, -, hvalue, hsame⟩, -⟩
  have hread : ((deriveFrontmatterFields naturals
      (updateFrontmatterField naturals titled titleField (.string (units "R&D"))).content)[0]?).map
        FrontmatterField.value = some (.string (units "\"R&D\"")) := by decide +kernel
  have hfields : (deriveFrontmatterFields naturals titled).length = 1 := by decide +kernel
  rw [hsame, List.getElem?_set_self (by rw [hfields]; decide), Option.map_some, hvalue] at hread
  exact absurd hread (by decide)

end RaytSystem.Markdown
