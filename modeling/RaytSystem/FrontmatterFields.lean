import RaytSystem.VisualRoundTrip

/-! The fields of a document's frontmatter, as the editor reads them and as it writes one: which
values are read back. -/
namespace RaytSystem.Markdown
open JsText List

section

inductive FieldValue (N : Type)
  | string (t : JsText)
  | number (n : N)
  | boolean (b : Bool)
  | list (items : List JsText)
  | null
  /-- Another object, by its JSON text. -/
  | record (json : JsText)
  deriving DecidableEq

inductive FieldType
  | string | number | boolean | date | list | tags | aliases | complex
  deriving DecidableEq, Repr

structure FrontmatterField (N : Type) where
  key : JsText
  value : FieldValue N
  type : FieldType
  editable : Bool
  source : JsText
  deriving DecidableEq

structure NumberText (N : Type) where
  toText : N → JsText
  ofText : JsText → N

def trim (t : JsText) : JsText := (t.dropWhile isSpace).rdropWhile isSpace

def isUnsigned (t : JsText) : Bool :=
  let fraction := t.dropWhile isDigit
  t.takeWhile isDigit != [] &&
    (fraction == [] || (fraction.head? == some 46 && fraction.tail != [] && fraction.tail.all isDigit))

def isDecimal (t : JsText) : Bool := isUnsigned (if t.head? = some 45 then t.tail else t)

def isSignedDecimal (t : JsText) : Bool :=
  isUnsigned (if t.head? = some 45 ∨ t.head? = some 43 then t.tail else t)

def lowerUnit (u : CodeUnit) : CodeUnit := if 65 ≤ u ∧ u ≤ 90 then u + 32 else u

def isKeyword (t : JsText) : Bool :=
  [units "true", units "false", units "null", units "~"].contains (t.map lowerUnit) ||
    isSignedDecimal t

def isPlainUnit (u : CodeUnit) : Bool :=
  isLetter u || isDigit u || (0x410 ≤ u && u ≤ 0x44F) || u == 0x401 || u == 0x451 || u == 95 ||
    u == 46 || u == 32 || u == 47 || u == 45

def isPlain (t : JsText) : Bool := t != [] && t.all isPlainUnit && !isKeyword t

def hexUnit (n : ℕ) : CodeUnit := if n < 10 then (48 + n).toUInt16 else (87 + n).toUInt16

def unicodeEscape (u : CodeUnit) : JsText :=
  let n := u.toNat
  [92, 117, hexUnit (n / 4096), hexUnit (n / 256 % 16), hexUnit (n / 16 % 16), hexUnit (n % 16)]

def escapeUnit (u : CodeUnit) : JsText :=
  if u = 34 then [92, 34]
  else if u = 92 then [92, 92]
  else if u = 8 then [92, 98]
  else if u = 12 then [92, 102]
  else if u = 10 then [92, 110]
  else if u = 13 then [92, 114]
  else if u = 9 then [92, 116]
  else if u < 0x20 then unicodeEscape u
  else [u]

def isHighSurrogate (u : CodeUnit) : Bool := 0xD800 ≤ u && u ≤ 0xDBFF

def isLowSurrogate (u : CodeUnit) : Bool := 0xDC00 ≤ u && u ≤ 0xDFFF

def isSurrogate (u : CodeUnit) : Bool := isHighSurrogate u || isLowSurrogate u

def quoteUnit (u : CodeUnit) : JsText := if isSurrogate u then unicodeEscape u else escapeUnit u

def quoteUnits : JsText → JsText
  | [] => []
  | [u] => quoteUnit u
  | u :: v :: rest =>
    if isHighSurrogate u && isLowSurrogate v then u :: v :: quoteUnits rest
    else quoteUnit u ++ quoteUnits (v :: rest)

def jsonString (t : JsText) : JsText := 34 :: (quoteUnits t ++ [34])

variable {N : Type} (numbers : NumberText N)

def yamlScalar : FieldValue N → JsText
  | .list items => 91 :: ([44, 32].intercalate (items.map jsonString) ++ [93])
  | .null => units "null"
  | .record json => json
  | .string t => if isPlain t then t else jsonString t
  | .number n => numbers.toText n
  | .boolean b => if b then units "true" else units "false"

def isDate (t : JsText) : Bool :=
  match t with
  | [a, b, c, d, h, e, f, i, g, j] =>
    isDigit a && isDigit b && isDigit c && isDigit d && h == 45 && isDigit e && isDigit f &&
      i == 45 && isDigit g && isDigit j
  | _ => false

def isQuote (u : CodeUnit) : Bool := u == 34 || u == 39

def isLineTerminator (u : CodeUnit) : Bool := u == 10 || u == 13 || u == 0x2028 || u == 0x2029

def stripQuotes (t : JsText) : JsText :=
  let rest := if t.head?.any isQuote then t.tail else t
  if rest.getLast?.any isQuote then rest.dropLast else rest

def unquote (t : JsText) : JsText :=
  match t with
  | [] => []
  | u :: rest =>
    if isQuote u && rest.getLast? == some u && !rest.dropLast.any isLineTerminator then rest.dropLast
    else t

def parseFrontmatterScalar (source : JsText) : FieldValue N × FieldType :=
  let trimmed := trim source
  if trimmed = units "true" ∨ trimmed = units "false" then
    (.boolean (trimmed == units "true"), .boolean)
  else if isDecimal trimmed then (.number (numbers.ofText trimmed), .number)
  else if isDate trimmed then (.string trimmed, .date)
  else if trimmed.head? = some 91 ∧ trimmed.getLast? = some 93 then
    let items := (trimmed.tail.dropLast.splitOn 44).map fun item => stripQuotes (trim item)
    (.list (items.filter (· ≠ [])), .list)
  else (.string (unquote trimmed), .string)

def hasComment : JsText → Bool
  | u :: v :: rest => (isSpace u && v == 35) || hasComment (v :: rest)
  | _ => false

def hasMark (t : JsText) : Bool :=
  t.any (fun u => u == 38 || u == 42 || u == 33) || t.getLast?.any fun u => u == 62 || u == 124

def startsWithSpace (line : JsText) : Bool := line.head?.any isSpace

def fieldType (key : JsText) (parsed : FieldValue N × FieldType) : FieldType :=
  match parsed.1 with
  | .list _ => if key = units "tags" then .tags else if key = units "aliases" then .aliases else parsed.2
  | _ => parsed.2

def fieldOf (line : JsText) (hasContinuation : Bool) : Option (FrontmatterField N) :=
  if trim line = [] ∨ (line.dropWhile isSpace).head? = some 35 ∨ startsWithSpace line = true then none
  else
    match line.idxOf? 58 with
    | none => none
    | some separator =>
      if separator = 0 then none
      else
        let key := trim (line.take separator)
        let raw := line.drop (separator + 1)
        if hasContinuation || hasComment raw || hasMark (trim raw) then
          some ⟨key, .string (trim raw), .complex, false, line⟩
        else
          let parsed := parseFrontmatterScalar numbers raw
          some ⟨key, parsed.1, fieldType key parsed, true, line⟩

def fieldsOf : List JsText → List (FrontmatterField N)
  | [] => []
  | line :: lines =>
    (fieldOf numbers line (lines.head?.any startsWithSpace)).toList ++ fieldsOf lines
end

def unescaped : JsText → Bool
  | [] => true
  | [u] => !isSurrogate u && (escapeUnit u == [u])
  | u :: v :: rest =>
    if isHighSurrogate u && isLowSurrogate v then unescaped rest
    else !isSurrogate u && (escapeUnit u == [u]) && unescaped (v :: rest)

def escapeUnits : JsText := units "\\\"bfnrtu0123456789abcdef"

theorem hexUnit_mem : ∀ n < 16, hexUnit n ∈ escapeUnits := by decide

theorem mem_unicodeEscape {u x : CodeUnit} (h : x ∈ unicodeEscape u) : x ∈ escapeUnits := by
  have hn : u.toNat < 65536 := u.toNat_lt
  simp only [unicodeEscape, mem_cons, not_mem_nil, or_false] at h
  rcases h with rfl | rfl | rfl | rfl | rfl | rfl
  · decide
  · decide
  · exact hexUnit_mem _ (by omega)
  · exact hexUnit_mem _ (by omega)
  · exact hexUnit_mem _ (by omega)
  · exact hexUnit_mem _ (by omega)

theorem escapeUnit_cases (u : CodeUnit) : escapeUnit u = [u] ∨
    (∃ v ∈ escapeUnits, escapeUnit u = [92, v]) ∨ escapeUnit u = unicodeEscape u := by
  unfold escapeUnit
  split
  · exact Or.inr (Or.inl ⟨34, by decide, rfl⟩)
  · split
    · exact Or.inr (Or.inl ⟨92, by decide, rfl⟩)
    · split
      · exact Or.inr (Or.inl ⟨98, by decide, rfl⟩)
      · split
        · exact Or.inr (Or.inl ⟨102, by decide, rfl⟩)
        · split
          · exact Or.inr (Or.inl ⟨110, by decide, rfl⟩)
          · split
            · exact Or.inr (Or.inl ⟨114, by decide, rfl⟩)
            · split
              · exact Or.inr (Or.inl ⟨116, by decide, rfl⟩)
              · split
                · exact Or.inr (Or.inr rfl)
                · exact Or.inl rfl

theorem mem_escapeUnit {u x : CodeUnit} (h : x ∈ escapeUnit u) :
    x ∈ escapeUnits ∨ (x = u ∧ escapeUnit u = [u]) := by
  rcases escapeUnit_cases u with hself | ⟨v, hv, hpair⟩ | hunicode
  · rw [hself] at h
    exact Or.inr ⟨mem_singleton.mp h, hself⟩
  · rw [hpair] at h
    rcases mem_cons.mp h with rfl | h
    · exact Or.inl (by decide)
    · rw [mem_singleton.mp h]
      exact Or.inl hv
  · rw [hunicode] at h
    exact Or.inl (mem_unicodeEscape h)

theorem quoteUnit_cases (u : CodeUnit) :
    quoteUnit u = [u] ∨ ∃ v rest, quoteUnit u = 92 :: v :: rest := by
  unfold quoteUnit
  split
  · exact Or.inr ⟨_, _, rfl⟩
  · rcases escapeUnit_cases u with hself | ⟨v, -, hpair⟩ | hunicode
    · exact Or.inl hself
    · exact Or.inr ⟨v, [], hpair⟩
    · exact Or.inr ⟨_, _, hunicode⟩

theorem mem_quoteUnits {t : JsText} {x : CodeUnit} (h : x ∈ quoteUnits t) :
    x ∈ escapeUnits ∨ (x ∈ t ∧ (isSurrogate x = true ∨ escapeUnit x = [x])) := by
  have hunit : ∀ u : CodeUnit, x ∈ quoteUnit u →
      x ∈ escapeUnits ∨ (x = u ∧ escapeUnit x = [x]) := by
    intro u hx
    unfold quoteUnit at hx
    split at hx
    · exact Or.inl (mem_unicodeEscape hx)
    · rcases mem_escapeUnit hx with hx | ⟨rfl, hself⟩
      · exact Or.inl hx
      · exact Or.inr ⟨rfl, hself⟩
  induction t using quoteUnits.induct with
  | case1 => cases h
  | case2 u =>
    rcases hunit u h with hx | ⟨rfl, hself⟩
    · exact Or.inl hx
    · exact Or.inr ⟨mem_cons_self, Or.inr hself⟩
  | case3 u v rest hpair ih =>
    rw [quoteUnits, if_pos hpair] at h
    rw [Bool.and_eq_true] at hpair
    rcases mem_cons.mp h with rfl | h
    · exact Or.inr ⟨mem_cons_self, Or.inl (by simp [isSurrogate, hpair.1])⟩
    · rcases mem_cons.mp h with rfl | h
      · exact Or.inr ⟨by simp, Or.inl (by simp [isSurrogate, hpair.2])⟩
      · rcases ih h with hx | ⟨hx, hself⟩
        · exact Or.inl hx
        · exact Or.inr ⟨by simp [hx], hself⟩
  | case4 u v rest hpair ih =>
    rw [quoteUnits, if_neg hpair, mem_append] at h
    rcases h with h | h
    · rcases hunit u h with hx | ⟨rfl, hself⟩
      · exact Or.inl hx
      · exact Or.inr ⟨mem_cons_self, Or.inr hself⟩
    · rcases ih h with hx | ⟨hx, hself⟩
      · exact Or.inl hx
      · exact Or.inr ⟨mem_cons_of_mem _ hx, hself⟩

theorem length_quoteUnits (t : JsText) : t.length ≤ (quoteUnits t).length := by
  have hunit : ∀ u, 1 ≤ (quoteUnit u).length := by
    intro u
    rcases quoteUnit_cases u with h | ⟨v, rest, h⟩ <;> simp [h]
  induction t using quoteUnits.induct with
  | case1 => simp
  | case2 u => exact hunit u
  | case3 u v rest hpair ih =>
    rw [quoteUnits, if_pos hpair]
    simpa using ih
  | case4 u v rest hpair ih =>
    rw [quoteUnits, if_neg hpair, length_append, length_cons]
    have hone := hunit u
    omega

theorem quoteUnit_self {u : CodeUnit} :
    quoteUnit u = [u] ↔ isSurrogate u = false ∧ escapeUnit u = [u] := by
  unfold quoteUnit
  cases hsurrogate : isSurrogate u with
  | true => simp [unicodeEscape]
  | false => simp

theorem quoteUnits_eq_self (t : JsText) : quoteUnits t = t ↔ unescaped t = true := by
  -- an escape is longer than what it stands for
  have hcons : ∀ (u : CodeUnit) (rest : JsText), quoteUnit u ++ quoteUnits rest = u :: rest ↔
      quoteUnit u = [u] ∧ quoteUnits rest = rest := by
    intro u rest
    constructor
    · intro h
      rcases quoteUnit_cases u with hself | ⟨v, more, hescape⟩
      · rw [hself] at h
        exact ⟨hself, (cons.inj h).2⟩
      · have hlength := congrArg length h
        have hle := length_quoteUnits rest
        rw [hescape] at hlength
        simp only [length_append, length_cons] at hlength
        omega
    · rintro ⟨hself, hrest⟩
      rw [hself, hrest]
      rfl
  induction t using quoteUnits.induct with
  | case1 => simp [quoteUnits, unescaped]
  | case2 u => simp [quoteUnits, unescaped, quoteUnit_self]
  | case3 u v rest hpair ih =>
    rw [quoteUnits, unescaped, if_pos hpair, if_pos hpair]
    simpa using ih
  | case4 u v rest hpair ih =>
    have hrest : quoteUnits (v :: rest) = v :: rest ↔ unescaped (v :: rest) = true := ih
    rw [quoteUnits, unescaped, if_neg hpair, if_neg hpair, hcons, hrest, quoteUnit_self]
    simp

section

theorem hasComment_cut {c : CodeUnit} (hspace : isSpace c = false) (hhash : c ≠ 35) (a b : JsText) :
    hasComment (a ++ c :: b) = (hasComment a || hasComment b) := by
  have hstart : hasComment (c :: b) = hasComment b := by
    cases b with
    | nil => rfl
    | cons v b => simp [hasComment, hspace]
  induction a with
  | nil => simpa [hasComment] using hstart
  | cons x a ih =>
    cases a with
    | nil => simp [hasComment, hhash, hstart]
    | cons y a =>
      simp only [cons_append, hasComment] at ih ⊢
      rw [ih, Bool.or_assoc]

variable {t : JsText}

theorem hasComment_of_notMem (h : 35 ∉ t) : hasComment t = false := by
  induction t with
  | nil => rfl
  | cons u t ih =>
    cases t with
    | nil => rfl
    | cons v t =>
      have hv : v ≠ 35 := by
        rintro rfl
        exact h (by simp)
      have hrest := ih fun hmem => h (mem_cons_of_mem _ hmem)
      simp [hasComment, hv, hrest]

theorem trim_blank (t : JsText) : trim (32 :: t) = trim t := by
  have hblank : isSpace 32 = true := by decide
  rw [trim, dropWhile_cons_of_pos hblank, trim]

theorem trim_ends {u v : CodeUnit} (hu : isSpace u = false) (hv : isSpace v = false) :
    trim (u :: (t ++ [v])) = u :: (t ++ [v]) := by
  have hu' : ¬isSpace u = true := by simp [hu]
  have hv' : ¬isSpace v = true := by simp [hv]
  rw [trim, dropWhile_cons_of_neg hu', ← cons_append, rdropWhile_concat_neg _ _ _ hv']

theorem trim_sublist (t : JsText) : (trim t).Sublist t :=
  (List.rdropWhile_prefix _ _).sublist.trans (dropWhile_sublist _)

theorem trim_unspaced (h : ∀ u ∈ t, isSpace u = false) : trim t = t := by
  have hfront : t.dropWhile isSpace = t := by
    cases t with
    | nil => rfl
    | cons u t => exact dropWhile_cons_of_neg (by simp [h u mem_cons_self])
  rw [trim, hfront, rdropWhile_eq_self_iff]
  intro hne
  simp [h _ (getLast_mem hne)]
end

section
variable {N : Type} {numbers : NumberText N}

structure NumberText.Lawful (numbers : NumberText N) : Prop where
  unspaced : ∀ n, ∀ u ∈ numbers.toText n, isSpace u = false
  roundTrip : ∀ n, isDecimal (numbers.toText n) = true → numbers.ofText (numbers.toText n) = n

def readRaw (numbers : NumberText N) (raw : JsText) : FieldValue N :=
  if hasComment raw || hasMark (trim raw) then .string (trim raw)
  else (parseFrontmatterScalar numbers raw).1

structure Writable (t : JsText) : Prop where
  unescaped : unescaped t = true
  noComment : hasComment t = false
  noMark : t.any (fun u => u == 38 || u == 42 || u == 33) = false

def Representable (numbers : NumberText N) : FieldValue N → Prop
  | .string t =>
    if isPlain t = true then trim t = t else Writable t ∧ t.any isLineTerminator = false
  | .number n => isDecimal (numbers.toText n) = true
  | .boolean _ => True
  | .list items => ∀ item ∈ items, item ≠ [] ∧ 44 ∉ item ∧ Writable item
  | .null => False
  | .record _ => False

variable {t : JsText} {u : CodeUnit}

theorem mem_unsigned (h : isUnsigned t = true) (hu : u ∈ t) : isDigit u = true ∨ u = 46 := by
  rw [← takeWhile_append_dropWhile (p := isDigit) (l := t), mem_append] at hu
  rcases hu with hwhole | hfraction
  · exact Or.inl (mem_takeWhile_imp hwhole)
  · simp only [isUnsigned, Bool.and_eq_true, Bool.or_eq_true, beq_iff_eq] at h
    rcases h.2 with hnone | ⟨⟨hdot, -⟩, hdigits⟩
    · rw [hnone] at hfraction
      cases hfraction
    · generalize t.dropWhile isDigit = fraction at hfraction hdot hdigits
      cases fraction with
      | nil => cases hfraction
      | cons v fraction =>
        rcases mem_cons.mp hfraction with rfl | hmem
        · exact Or.inr (Option.some.inj hdot)
        · exact Or.inl (all_eq_true.mp hdigits u hmem)

theorem mem_decimal (h : isDecimal t = true) (hu : u ∈ t) : isDigit u = true ∨ u = 46 ∨ u = 45 := by
  unfold isDecimal at h
  split at h
  next hminus =>
    cases t with
    | nil => cases hu
    | cons v t =>
      rcases mem_cons.mp hu with rfl | hmem
      · exact Or.inr (Or.inr (Option.some.inj hminus))
      · rcases mem_unsigned h hmem with hdigit | hdot
        · exact Or.inl hdigit
        · exact Or.inr (Or.inl hdot)
  next =>
    rcases mem_unsigned h hu with hdigit | hdot
    · exact Or.inl hdigit
    · exact Or.inr (Or.inl hdot)

theorem isUnsigned_head (hu : isDigit u = false) (t : JsText) : isUnsigned (u :: t) = false := by
  simp [isUnsigned, hu]

theorem isDecimal_head (hu : isDigit u = false) (hminus : u ≠ 45) (t : JsText) :
    isDecimal (u :: t) = false := by
  unfold isDecimal
  rw [if_neg (by simpa using hminus), isUnsigned_head hu]

theorem isDate_head (hu : isDigit u = false) (t : JsText) : isDate (u :: t) = false := by
  unfold isDate
  split
  next h =>
    obtain ⟨rfl, -⟩ := cons.inj h
    simp [hu]
  next => rfl

theorem keyword_of_decimal (h : isDecimal t = true) : isKeyword t = true := by
  have hsigned : isSignedDecimal t = true := by
    unfold isDecimal at h
    unfold isSignedDecimal
    split at h
    next hminus => rwa [if_pos (Or.inl hminus)]
    next hminus =>
      by_cases hplus : t.head? = some 43
      · cases t with
        | nil => cases hplus
        | cons u t =>
          obtain rfl : u = 43 := Option.some.inj hplus
          rw [isUnsigned_head (by decide)] at h
          cases h
      · rwa [if_neg (not_or.mpr ⟨hminus, hplus⟩)]
  simp [isKeyword, hsigned]

section
variable {t : JsText}

theorem plain_unit (h : isPlain t = true) {u : CodeUnit} (hu : u ∈ t) : isPlainUnit u = true := by
  simp only [isPlain, Bool.and_eq_true] at h
  exact all_eq_true.mp h.1.2 u hu

theorem plain_ne {u : CodeUnit} (hu : isPlainUnit u = false) (h : isPlain t = true) : u ∉ t := by
  intro hmem
  rw [plain_unit h hmem] at hu
  cases hu

theorem not_keyword (h : isPlain t = true) : isKeyword t = false := by
  simp only [isPlain, Bool.and_eq_true] at h
  simpa using h.2

theorem unquote_plain {s : JsText} (h : ∀ u ∈ s, isQuote u = false) : unquote s = s := by
  cases s with
  | nil => rfl
  | cons u s => simp [unquote, h u mem_cons_self]

theorem readRaw_plain (h : isPlain t = true) :
    readRaw numbers (32 :: t) = .string t ↔ trim t = t := by
  have hsub := (trim_sublist t).subset
  have hcomment : hasComment (32 :: t) = false := by
    apply hasComment_of_notMem
    rw [mem_cons, not_or]
    exact ⟨by decide, plain_ne (by decide) h⟩
  have hmark : hasMark (trim t) = false := by
    have hany : (trim t).any (fun u => u == 38 || u == 42 || u == 33) = false := by
      rw [any_eq_false]
      intro u hu hin
      have hplain := plain_unit h (hsub hu)
      simp only [Bool.or_eq_true, beq_iff_eq] at hin
      rcases hin with (rfl | rfl) | rfl <;> exact absurd hplain (by decide)
    have hlast : ((trim t).getLast?.any fun u => u == 62 || u == 124) = false := by
      cases hl : (trim t).getLast? with
      | none => rfl
      | some u =>
        have hplain := plain_unit h (hsub (mem_of_getLast? hl))
        rw [Option.any_some, Bool.eq_false_iff]
        intro hin
        simp only [Bool.or_eq_true, beq_iff_eq] at hin
        rcases hin with rfl | rfl <;> exact absurd hplain (by decide)
    rw [hasMark, hany, hlast]
    rfl
  have hquotes : ∀ u ∈ trim t, isQuote u = false := by
    intro u hu
    have hplain := plain_unit h (hsub hu)
    rw [Bool.eq_false_iff]
    intro hin
    simp only [isQuote, Bool.or_eq_true, beq_iff_eq] at hin
    rcases hin with rfl | rfl <;> exact absurd hplain (by decide)
  have hbracket : ¬((trim t).head? = some 91 ∧ (trim t).getLast? = some 93) := by
    rintro ⟨hhead, -⟩
    exact absurd (plain_unit h (hsub (mem_of_mem_head? hhead))) (by decide)
  have hkeyword := not_keyword h
  rw [readRaw, trim_blank, hcomment, hmark]
  simp only [Bool.or_false, Bool.false_eq_true, if_false, parseFrontmatterScalar, trim_blank,
    if_neg hbracket, unquote_plain hquotes]
  constructor
  · intro hread
    split at hread
    · cases hread
    · split at hread
      · cases hread
      · split at hread
        · exact FieldValue.string.inj hread
        · exact FieldValue.string.inj hread
  · intro htrim
    rw [htrim]
    have hbool : ¬(t = units "true" ∨ t = units "false") := by
      rintro (rfl | rfl) <;> exact absurd hkeyword (by decide)
    have hdecimal : ¬isDecimal t = true := by
      intro hdecimal
      rw [keyword_of_decimal hdecimal] at hkeyword
      cases hkeyword
    rw [if_neg hbool, if_neg hdecimal]
    split <;> rfl
end

theorem hasMark_end {t : JsText} {v : CodeUnit} (hv : (v == 62 || v == 124) = false)
    (hown : (v == 38 || v == 42 || v == 33) = false) :
    hasMark (t ++ [v]) = t.any fun u => u == 38 || u == 42 || u == 33 := by
  rw [hasMark, any_append, getLast?_concat]
  simp [hv, hown]

theorem readRaw_quoted (t : JsText) : readRaw numbers (32 :: jsonString t) = .string t ↔
      Writable t ∧ t.any isLineTerminator = false := by
  have htrim : trim (jsonString t) = jsonString t := trim_ends (by decide) (by decide)
  have hcomment : hasComment (32 :: jsonString t) = hasComment (quoteUnits t) := by
    have hfirst := @hasComment_cut 34 (by decide) (by decide) [32] (quoteUnits t ++ [34])
    have hsecond := @hasComment_cut 34 (by decide) (by decide) (quoteUnits t) []
    have hsame : 32 :: jsonString t = [32] ++ 34 :: (quoteUnits t ++ [34]) := rfl
    rw [hsame, hfirst, hsecond]
    simp [hasComment]
  have hmark : hasMark (jsonString t) =
      (quoteUnits t).any fun u => u == 38 || u == 42 || u == 33 := by
    rw [jsonString, ← cons_append, hasMark_end (by decide) (by decide)]
    rfl
  have hparse : (parseFrontmatterScalar numbers (32 :: jsonString t)).1 =
      .string (if (quoteUnits t).any isLineTerminator then jsonString t else quoteUnits t) := by
    have hbool : ¬(jsonString t = units "true" ∨ jsonString t = units "false") := by
      rintro (h | h) <;> exact absurd (cons.inj h).1 (by decide)
    have hbracket : ¬((jsonString t).head? = some 91 ∧ (jsonString t).getLast? = some 93) := by
      rintro ⟨hhead, -⟩
      exact absurd (Option.some.inj hhead) (by decide)
    have hdecimal : isDecimal (jsonString t) = false :=
      isDecimal_head (by decide) (by decide) _
    have hdate : isDate (jsonString t) = false := isDate_head (by decide) _
    simp only [parseFrontmatterScalar, trim_blank, htrim, if_neg hbool, hdecimal, hdate,
      Bool.false_eq_true, if_false, if_neg hbracket]
    rw [jsonString, unquote]
    have hlast : (quoteUnits t ++ [34]).getLast? = some 34 := getLast?_concat
    rw [hlast, dropLast_concat]
    cases hline : (quoteUnits t).any isLineTerminator with
    | true => rfl
    | false => rfl
  have hlonger : jsonString t ≠ t := by
    intro h
    have hlength := congrArg length h
    have hle := length_quoteUnits t
    simp only [jsonString, length_cons, length_append, length_nil] at hlength
    omega
  rw [readRaw, trim_blank, htrim, hcomment, hmark, hparse]
  constructor
  · intro h
    split at h
    · exact absurd (FieldValue.string.inj h) hlonger
    next hclear =>
      split at h
      · exact absurd (FieldValue.string.inj h) hlonger
      next hline =>
        have hself : quoteUnits t = t := FieldValue.string.inj h
        rw [hself] at hclear hline
        simp only [Bool.or_eq_true, not_or, Bool.not_eq_true] at hclear
        exact ⟨⟨(quoteUnits_eq_self t).mp hself, hclear.1, hclear.2⟩, by simpa using hline⟩
  · rintro ⟨hwritable, hline⟩
    have hself : quoteUnits t = t := (quoteUnits_eq_self t).mpr hwritable.unescaped
    rw [hself, hwritable.noComment, hwritable.noMark, hline]
    rfl

theorem join_split (first : JsText) (rest : List JsText) :
    [44, 32].intercalate (first :: rest) = [44].intercalate (first :: rest.map (32 :: ·)) := by
  induction rest generalizing first with
  | nil => rfl
  | cons second rest ih =>
    have hfront : ∀ (sep : JsText) (second : JsText) (rest : List JsText),
        sep.intercalate (first :: second :: rest) = first ++ (sep ++ sep.intercalate (second :: rest)) := by
      intro sep second rest
      simp [intercalate]
    rw [hfront, ih, map_cons, hfront]
    cases rest with
    | nil => simp [intercalate]
    | cons third rest => simp [intercalate]

theorem hasComment_join (items : List JsText) :
    hasComment ([44, 32].intercalate (items.map jsonString)) =
      items.any fun item => hasComment (quoteUnits item) := by
  have hquoted : ∀ (t rest : JsText), hasComment (34 :: (quoteUnits t ++ 34 :: rest)) =
      (hasComment (quoteUnits t) || hasComment rest) := by
    intro t rest
    have hfirst := @hasComment_cut 34 (by decide) (by decide) [] (quoteUnits t ++ 34 :: rest)
    rw [nil_append] at hfirst
    rw [hfirst, hasComment_cut (by decide) (by decide)]
    rfl
  induction items with
  | nil => rfl
  | cons first items ih =>
    cases items with
    | nil =>
      have hone := hquoted first []
      simpa [intercalate, jsonString, hasComment] using hone
    | cons second items =>
      have hjoin : [44, 32].intercalate ((first :: second :: items).map jsonString) =
          34 :: (quoteUnits first ++ 34 :: 44 :: 32 ::
            [44, 32].intercalate ((second :: items).map jsonString)) := by
        simp [intercalate, jsonString]
      obtain ⟨rest, hrest⟩ : ∃ rest, [44, 32].intercalate ((second :: items).map jsonString) =
          34 :: rest := by
        cases items <;> simp [intercalate, jsonString]
      have hcomma := @hasComment_cut 44 (by decide) (by decide) [] (32 :: 34 :: rest)
      have hblank := @hasComment_cut 34 (by decide) (by decide) [32] rest
      have hstart := @hasComment_cut 34 (by decide) (by decide) [] rest
      rw [hjoin, hquoted, any_cons, ← ih, hrest]
      simp only [nil_append, singleton_append] at hcomma hblank hstart
      rw [hcomma, hblank, hstart]
      rfl

theorem any_join (p : CodeUnit → Bool) (hquote : p 34 = false) (hcomma : p 44 = false)
    (hblank : p 32 = false) (items : List JsText) :
    ([44, 32].intercalate (items.map jsonString)).any p =
      items.any fun item => (quoteUnits item).any p := by
  induction items with
  | nil => rfl
  | cons first items ih =>
    cases items with
    | nil => simp [intercalate, jsonString, hquote]
    | cons second items =>
      have hjoin : [44, 32].intercalate ((first :: second :: items).map jsonString) =
          jsonString first ++ ([44, 32] ++ [44, 32].intercalate ((second :: items).map jsonString)) := by
        simp [intercalate]
      rw [hjoin, any_append, any_append, ih, any_cons]
      simp [jsonString, hquote, hcomma, hblank]

theorem comma_notMem {t : JsText} (h : 44 ∉ t) : 44 ∉ quoteUnits t := by
  intro hmem
  rcases mem_quoteUnits hmem with hescape | ⟨hin, -⟩
  · exact absurd hescape (by decide)
  · exact h hin

theorem stripQuotes_json (t : JsText) : stripQuotes (jsonString t) = quoteUnits t := by
  have hhead : ((jsonString t).head?.any isQuote) = true := rfl
  have hlast : ((quoteUnits t ++ [34]).getLast?.any isQuote) = true := by
    rw [getLast?_concat]
    rfl
  unfold stripQuotes
  simp only [hhead, if_true]
  change (if (quoteUnits t ++ [34]).getLast?.any isQuote = true then (quoteUnits t ++ [34]).dropLast
    else quoteUnits t ++ [34]) = quoteUnits t
  rw [if_pos hlast, dropLast_concat]

theorem stripQuotes_sublist (t : JsText) : (stripQuotes t).Sublist t := by
  have htail : (if t.head?.any isQuote then t.tail else t).Sublist t := by
    split
    · exact tail_sublist t
    · exact List.Sublist.refl t
  unfold stripQuotes
  generalize (if t.head?.any isQuote then t.tail else t) = rest at htail
  dsimp only
  split
  · exact (dropLast_sublist rest).trans htail
  · exact htail

theorem read_items {items : List JsText} (h : ∀ item ∈ items, item ≠ [] ∧ 44 ∉ item) :
    ((([44, 32].intercalate (items.map jsonString)).splitOn 44).map fun item =>
      stripQuotes (trim item)).filter (· ≠ []) = items.map quoteUnits := by
  cases items with
  | nil => rfl
  | cons first rest =>
    have htrim : ∀ t, trim (jsonString t) = jsonString t :=
      fun t => trim_ends (by decide) (by decide)
    have hpieces : ∀ piece ∈ jsonString first :: (rest.map jsonString).map (32 :: ·),
        44 ∉ piece := by
      have hquoted : ∀ item ∈ first :: rest, 44 ∉ jsonString item := by
        intro item hitem
        have hno := comma_notMem (h item hitem).2
        simp [jsonString, hno]
      intro piece hpiece
      rcases mem_cons.mp hpiece with rfl | hmem
      · exact hquoted first mem_cons_self
      · rw [map_map] at hmem
        obtain ⟨item, hitem, rfl⟩ := mem_map.mp hmem
        have hno := hquoted item (mem_cons_of_mem _ hitem)
        simp [hno]
    have hread : (jsonString first :: (rest.map jsonString).map (32 :: ·)).map
        (fun item => stripQuotes (trim item)) = (first :: rest).map quoteUnits := by
      rw [map_cons, map_map, map_map, htrim, stripQuotes_json, map_cons]
      congr 1
      apply map_congr_left
      intro item _
      simp only [Function.comp_apply, trim_blank, htrim, stripQuotes_json]
    rw [map_cons, join_split, splitOn_intercalate 44 hpieces (cons_ne_nil _ _), hread]
    apply filter_eq_self.mpr
    intro t ht
    obtain ⟨item, hitem, rfl⟩ := mem_map.mp ht
    have hle := length_quoteUnits item
    have hpos := length_pos_iff.mpr (h item hitem).1
    simpa using ne_nil_of_length_pos (by omega)

theorem splitOn_notMem {t piece : JsText} {c : CodeUnit} (h : piece ∈ t.splitOn c) : c ∉ piece := by
  induction t generalizing piece with
  | nil =>
    obtain rfl : piece = [] := by simpa using h
    exact not_mem_nil
  | cons u t ih =>
    obtain ⟨first, more, hsplit⟩ := exists_cons_of_ne_nil (splitOn_ne_nil c t)
    rw [splitOn_cons_eq_if_modifyHead] at h
    split at h
    next =>
      rcases mem_cons.mp h with rfl | h
      · exact not_mem_nil
      · exact ih h
    next hu =>
      rw [hsplit, modifyHead_cons] at h
      rcases mem_cons.mp h with rfl | h
      · have hfirst : c ∉ first := ih (hsplit ▸ mem_cons_self)
        intro hmem
        rcases mem_cons.mp hmem with rfl | hmem
        · simp at hu
        · exact hfirst hmem
      · exact ih (hsplit ▸ mem_cons_of_mem _ h)

theorem mem_readItems {t item : JsText}
    (h : item ∈ ((t.splitOn 44).map fun item => stripQuotes (trim item)).filter (· ≠ [])) :
    item ≠ [] ∧ 44 ∉ item := by
  obtain ⟨hmem, hne⟩ := mem_filter.mp h
  obtain ⟨piece, hpiece, rfl⟩ := mem_map.mp hmem
  have hsub := (stripQuotes_sublist (trim piece)).trans (trim_sublist piece)
  exact ⟨by simpa using hne, fun hcomma => splitOn_notMem hpiece (hsub.subset hcomma)⟩

theorem readRaw_list (items : List JsText) :
    readRaw numbers (32 :: yamlScalar numbers (.list items)) = .list items ↔
      Representable numbers (.list items) := by
  generalize hjoin : [44, 32].intercalate (items.map jsonString) = joined
  have htext : yamlScalar numbers (.list items) = 91 :: (joined ++ [93]) := by
    rw [yamlScalar, hjoin]
  have htrim : trim (91 :: (joined ++ [93])) = 91 :: (joined ++ [93]) :=
    trim_ends (by decide) (by decide)
  have hcomment : hasComment (32 :: 91 :: (joined ++ [93])) =
      items.any fun item => hasComment (quoteUnits item) := by
    have hfirst := @hasComment_cut 91 (by decide) (by decide) [32] (joined ++ [93])
    have hsecond := @hasComment_cut 93 (by decide) (by decide) joined []
    rw [singleton_append] at hfirst
    rw [hfirst, hsecond, ← hjoin, hasComment_join]
    simp [hasComment]
  have hmark : hasMark (91 :: (joined ++ [93])) =
      items.any fun item => (quoteUnits item).any fun u => u == 38 || u == 42 || u == 33 := by
    rw [← cons_append, hasMark_end (by decide) (by decide), any_cons, ← hjoin,
      any_join _ (by decide) (by decide) (by decide)]
    rfl
  have hparse : (parseFrontmatterScalar numbers (32 :: 91 :: (joined ++ [93]))).1 =
      .list (((joined.splitOn 44).map fun item => stripQuotes (trim item)).filter (· ≠ [])) := by
    have hbool : ¬(91 :: (joined ++ [93]) = units "true" ∨ 91 :: (joined ++ [93]) = units "false") := by
      rintro (h | h) <;> exact absurd (cons.inj h).1 (by decide)
    have hbracket : (91 :: (joined ++ [93])).head? = some 91 ∧
        (91 :: (joined ++ [93])).getLast? = some 93 :=
      ⟨rfl, by rw [← cons_append, getLast?_concat]⟩
    have hdecimal : isDecimal (91 :: (joined ++ [93])) = false :=
      isDecimal_head (by decide) (by decide) _
    have hdate : isDate (91 :: (joined ++ [93])) = false := isDate_head (by decide) _
    simp only [parseFrontmatterScalar, trim_blank, htrim, if_neg hbool, hdecimal, hdate,
      Bool.false_eq_true, if_false, if_pos hbracket, tail_cons, dropLast_concat]
  rw [htext, readRaw, trim_blank, htrim, hcomment, hmark, hparse]
  constructor
  · intro h
    split at h
    · cases h
    next hclear =>
      have hitems := FieldValue.list.inj h
      have hpieces : ∀ item ∈ items, item ≠ [] ∧ 44 ∉ item := by
        intro item hitem
        rw [← hitems] at hitem
        exact mem_readItems hitem
      have hread := read_items hpieces
      rw [hjoin, hitems] at hread
      simp only [Bool.or_eq_true, not_or, any_eq_true, not_exists, not_and] at hclear
      intro item hitem
      have hself : quoteUnits item = item := by
        have hpoint := map_inj_left.mp ((map_id items).trans hread)
        exact (hpoint item hitem).symm
      have hcomment := hclear.1 item hitem
      have hmark := hclear.2 item hitem
      rw [hself] at hcomment
      refine ⟨(hpieces item hitem).1, (hpieces item hitem).2,
        (quoteUnits_eq_self item).mp hself, by simpa using hcomment, ?_⟩
      rw [any_eq_false]
      intro u hu hin
      rw [hself] at hmark
      have hclean := hmark u hu
      simp only [Bool.or_eq_true] at hin
      rcases hin with (hin | hin) | hin
      · exact hclean.1.1 hin
      · exact hclean.1.2 hin
      · exact hclean.2 hin
  · intro h
    have hself : ∀ item ∈ items, quoteUnits item = item :=
      fun item hitem => (quoteUnits_eq_self item).mpr (h item hitem).2.2.unescaped
    have hcomment : (items.any fun item => hasComment (quoteUnits item)) = false := by
      rw [any_eq_false]
      intro item hitem
      simp [hself item hitem, (h item hitem).2.2.noComment]
    have hmark : (items.any fun item =>
        (quoteUnits item).any fun u => u == 38 || u == 42 || u == 33) = false := by
      rw [any_eq_false]
      intro item hitem
      simp only [hself item hitem, (h item hitem).2.2.noMark]
      simp
    have hread := read_items fun item hitem => ⟨(h item hitem).1, (h item hitem).2.1⟩
    have hsame : items.map quoteUnits = items := by
      calc items.map quoteUnits = items.map id := map_congr_left hself
        _ = items := map_id items
    rw [hjoin, hsame] at hread
    rw [hcomment, hmark, hread]
    rfl

theorem readRaw_unmarked (htrim : trim t = t) (hcomment : 35 ∉ t) (hmark : hasMark t = false) :
    readRaw numbers (32 :: t) = (parseFrontmatterScalar numbers t).1 := by
  have hblank : hasComment (32 :: t) = false := by
    apply hasComment_of_notMem
    rw [mem_cons, not_or]
    exact ⟨by decide, hcomment⟩
  rw [readRaw, trim_blank, htrim, hblank, hmark, parseFrontmatterScalar, parseFrontmatterScalar,
    trim_blank]
  rfl

theorem parse_number {n : N} (h : (parseFrontmatterScalar numbers t).1 = .number n) :
    isDecimal (trim t) = true := by
  simp only [parseFrontmatterScalar] at h
  split at h
  · cases h
  · split at h
    · assumption
    · split at h
      · cases h
      · split at h <;> cases h

theorem readRaw_number (hlawful : numbers.Lawful) (n : N) :
    readRaw numbers (32 :: numbers.toText n) = .number n ↔ isDecimal (numbers.toText n) = true := by
  have htrim := trim_unspaced (hlawful.unspaced n)
  constructor
  · intro h
    unfold readRaw at h
    split at h
    · cases h
    · have hdecimal := parse_number h
      rwa [trim_blank, htrim] at hdecimal
  · intro hdecimal
    have hunit : ∀ u ∈ numbers.toText n, isDigit u = true ∨ u = 46 ∨ u = 45 :=
      fun u hu => mem_decimal hdecimal hu
    have hnone : ∀ u : CodeUnit, isDigit u = false ∧ u ≠ 46 ∧ u ≠ 45 → u ∉ numbers.toText n := by
      intro u hu hmem
      rcases hunit u hmem with h | h | h
      · rw [hu.1] at h
        cases h
      · exact hu.2.1 h
      · exact hu.2.2 h
    have hmark : hasMark (numbers.toText n) = false := by
      have hany : ((numbers.toText n).any fun u => u == 38 || u == 42 || u == 33) = false := by
        rw [any_eq_false]
        intro u hu hin
        simp only [Bool.or_eq_true, beq_iff_eq] at hin
        rcases hin with (rfl | rfl) | rfl <;> exact hnone _ (by decide) hu
      have hlast : ((numbers.toText n).getLast?.any fun u => u == 62 || u == 124) = false := by
        cases hl : (numbers.toText n).getLast? with
        | none => rfl
        | some u =>
          rw [Option.any_some, Bool.eq_false_iff]
          intro hin
          simp only [Bool.or_eq_true, beq_iff_eq] at hin
          rcases hin with rfl | rfl <;> exact hnone _ (by decide) (mem_of_getLast? hl)
      rw [hasMark, hany, hlast]
      rfl
    have hbool : ¬(numbers.toText n = units "true" ∨ numbers.toText n = units "false") := by
      rintro (h | h) <;> rw [h] at hdecimal <;> exact absurd hdecimal (by decide)
    rw [readRaw_unmarked htrim (hnone _ (by decide)) hmark]
    simp only [parseFrontmatterScalar, htrim, if_neg hbool, hdecimal, if_true,
      hlawful.roundTrip n hdecimal]

theorem readRaw_iff (hlawful : numbers.Lawful) {v : FieldValue N} (hnull : v ≠ .null)
    (hrecord : ∀ json, v ≠ .record json) :
    readRaw numbers (32 :: yamlScalar numbers v) = v ↔ Representable numbers v := by
  cases v with
  | string t =>
    by_cases hplain : isPlain t = true
    · simp only [yamlScalar, Representable, if_pos hplain]
      exact readRaw_plain hplain
    · simp only [yamlScalar, Representable, if_neg hplain]
      exact readRaw_quoted t
  | number n => exact readRaw_number hlawful n
  | boolean b =>
    refine iff_of_true ?_ trivial
    cases b <;> rfl
  | list items => exact readRaw_list items
  | null => exact absurd rfl hnull
  | record json => exact absurd rfl (hrecord json)
end

end RaytSystem.Markdown
