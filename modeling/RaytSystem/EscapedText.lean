import RaytSystem.QueryModel

/-! What a reader of inline Markdown makes of escaped source text: the decoding pass resolves
backslash escapes and character references, and the escaped text is compared with its source. -/
namespace RaytSystem.Rendering

open Querying PyText List

variable (c : Char)

def isAsciiAlphanumeric : Bool :=
  ('0' ≤ c && c ≤ '9') || ('A' ≤ c && c ≤ 'Z') || ('a' ≤ c && c ≤ 'z')

def isAsciiPunctuation : Bool :=
  ('!' ≤ c && c ≤ '/') || (':' ≤ c && c ≤ '@') || ('[' ≤ c && c ≤ '`') || ('\x7b' ≤ c && c ≤ '~')

structure EntityTable where
  lookup : Text → Option Text
  alphanumeric : ∀ name text, lookup name = some text → name.all isAsciiAlphanumeric = true
  amp : lookup ['a', 'm', 'p'] = some ['&']
  lt : lookup ['l', 't'] = some ['<']
  gt : lookup ['g', 't'] = some ['>']
  quot : lookup ['q', 'u', 'o', 't'] = some ['"']

def digitValue : Option ℕ :=
  if '0' ≤ c ∧ c ≤ '9' then some (c.toNat - '0'.toNat)
  else if 'a' ≤ c ∧ c ≤ 'f' then some (c.toNat - 'a'.toNat + 10)
  else if 'A' ≤ c ∧ c ≤ 'F' then some (c.toNat - 'A'.toNat + 10)
  else none

def numeral (base limit : ℕ) (digits : Text) : Option ℕ :=
  if digits = [] ∨ limit < digits.length then none
  else digits.foldl (fun value c => do
    let n ← value
    let d ← digitValue c
    if d < base then some (n * base + d) else none) (some 0)

def numericText (n : ℕ) : Text :=
  if n = 0 ∨ ¬ n.isValidChar then ['\uFFFD'] else [Char.ofNat n]

variable (entities : EntityTable)

def referenceText : Text → Option Text
  | '#' :: 'x' :: digits => (numeral 16 6 digits).map numericText
  | '#' :: 'X' :: digits => (numeral 16 6 digits).map numericText
  | '#' :: digits => (numeral 10 7 digits).map numericText
  | name => entities.lookup name

def reference (rest : Text) : Option (Text × ℕ) :=
  let body := rest.takeWhile (· != ';')
  if body.length < rest.length then
    (referenceText entities body).map fun text => (text, body.length + 1)
  else none

inductive Inline where
  | plain (c : Char)
  | escaped (c : Char)
  | reference (text : Text)
  deriving DecidableEq, Repr

def Inline.text : Inline → Text
  | .plain c => [c]
  | .escaped c => [c]
  | .reference text => text

def inlines (entities : EntityTable) : ℕ → Text → List Inline
  | _, [] => []
  | skip + 1, _ :: rest => inlines entities skip rest
  | 0, c :: rest =>
    if c = '\\' then
      match rest.head?.filter isAsciiPunctuation with
      | some next => .escaped next :: inlines entities 1 rest
      | none => .plain c :: inlines entities 0 rest
    else if c = '&' then
      match reference entities rest with
      | some (text, taken) => .reference text :: inlines entities taken rest
      | none => .plain c :: inlines entities 0 rest
    else .plain c :: inlines entities 0 rest

def decode (markdown : Text) : Text :=
  (inlines entities 0 markdown).flatMap Inline.text

def isMeta : Bool :=
  ['\\', '`', '*', '_', '\x7b', '\x7d', '[', ']', '(', ')', '<', '>', '#', '+', '.', '!', '|', '~',
    '-', '&', '"', '\''].contains c

def Inert (markdown : Text) : Prop :=
  ∀ c, Inline.plain c ∈ inlines entities 0 markdown → isMeta c = false

def spaceLines : Text → Text
  | [] => []
  | '\r' :: '\n' :: rest => ' ' :: spaceLines rest
  | c :: rest => (if isLineBreak c then ' ' else c) :: spaceLines rest

def endsInBreak (value : Text) : Bool := value.getLast?.any isLineBreak

theorem splitLinesList_eq_nil {cs : Text} : splitLinesList cs [] = [] ↔ cs = [] := by
  constructor
  · intro h
    cases cs with
    | nil => rfl
    | cons c rest =>
      exfalso
      -- every line read so far is kept, so a text with a character has a line
      have hlines : ∀ (cs line : Text), cs ≠ [] ∨ line ≠ [] → splitLinesList cs line ≠ [] := by
        intro cs line
        fun_induction splitLinesList cs line with
        | case1 => simp
        | case2 => simp
        | case3 => simp
        | case4 => simp
        | case5 c rest line _ _ ih =>
          intro _
          exact ih (Or.inr (by simp))
      exact hlines (c :: rest) [] (Or.inl (by simp)) h
  · rintro rfl
    rfl

theorem join_cons (separator line : Text) {lines : List Text} (h : lines ≠ []) :
    join separator (line :: lines) = line ++ separator ++ join separator lines := by
  cases lines with
  | nil => exact absurd rfl h
  | cons next rest => rfl

theorem endsInBreak_cons {rest : Text} (h : rest ≠ []) :
    endsInBreak (c :: rest) = endsInBreak rest := by
  cases rest with
  | nil => exact absurd rfl h
  | cons next rest => simp only [endsInBreak, getLast?_cons_cons]

theorem join_splitLinesList (cs line : Text) :
    join [' '] (splitLinesList cs line) ++ (if endsInBreak cs then [' '] else []) =
      line.reverse ++ spaceLines cs := by
  -- the line read so far stands before what the rest of the text gives
  have hline : ∀ (c : Char) (line rest : Text), (rest = [] → isLineBreak c = true) →
      join [' '] (splitLinesList rest []) ++ (if endsInBreak rest then [' '] else []) =
        spaceLines rest →
      join [' '] (line.reverse :: splitLinesList rest []) ++
        (if endsInBreak (c :: rest) then [' '] else []) = line.reverse ++ ' ' :: spaceLines rest := by
    intro c line rest hlast ih
    by_cases hrest : rest = []
    · have hbreak := hlast hrest
      subst hrest
      simp [splitLinesList, join, spaceLines, endsInBreak, hbreak]
    · have hsplit : splitLinesList rest [] ≠ [] := fun h => hrest (splitLinesList_eq_nil.mp h)
      rw [join_cons _ _ hsplit, ← ih]
      simp only [endsInBreak_cons c hrest, append_assoc, cons_append, nil_append]
  fun_induction splitLinesList cs line with
  | case1 => simp [join, spaceLines, endsInBreak]
  | case2 line h => simp [join, spaceLines, endsInBreak]
  | case3 rest line ih =>
    have hstep := hline '\n' line rest (fun _ => by decide) (by simpa using ih)
    rw [endsInBreak_cons '\r' (by simp)]
    simpa [spaceLines] using hstep
  | case4 c rest line hpair hbreak ih =>
    have hstep := hline c line rest (fun _ => hbreak) (by simpa using ih)
    rw [hstep]
    have hspace : spaceLines (c :: rest) = ' ' :: spaceLines rest := by
      rw [spaceLines.eq_def]
      split
      · next h => cases h
      · next tail h =>
        cases h
        exact absurd rfl (hpair _ rfl)
      · next h =>
        cases h
        rw [if_pos hbreak]
    rw [hspace]
  | case5 c rest line hpair hbreak ih =>
    have hspace : spaceLines (c :: rest) = c :: spaceLines rest := by
      rw [spaceLines.eq_def]
      split
      · next h => cases h
      · next tail h =>
        cases h
        exact absurd rfl (hpair _ rfl)
      · next h =>
        cases h
        rw [if_neg hbreak]
    have hend : endsInBreak (c :: rest) = endsInBreak rest := by
      by_cases hrest : rest = []
      · subst hrest
        simp [endsInBreak, hbreak]
      · exact endsInBreak_cons c hrest
    rw [hspace]
    simpa [hend] using ih

section

variable (entities : EntityTable)

def escapeChar (c : Char) : Text :=
  (htmlEscape c).flatMap fun c => if markdownMeta.contains c then ['\\', c] else [c]

def singleLine (value : Text) : Text := join [' '] (splitLinesList value [])

theorem escapeUntrustedMarkdown_eq (value : Text) :
    escapeUntrustedMarkdown value = (singleLine value).flatMap escapeChar := by
  rw [escapeUntrustedMarkdown, flatMap_assoc]
  rfl

def inlinesOf (c : Char) : List Inline :=
  if c = '\'' then
    [.plain '&', .escaped '#', .plain 'x', .plain '2', .plain '7', .plain ';']
  else if ['&', '<', '>', '"'].contains c then [.reference [c]]
  else if markdownMeta.contains c then [.escaped c]
  else [.plain c]

theorem inlines_skip (taken rest : Text) :
    inlines entities taken.length (taken ++ rest) = inlines entities 0 rest := by
  induction taken with
  | nil => rfl
  | cons c taken ih => simpa [inlines] using ih

variable (rest : Text)

theorem inlines_reference {name text : Text} (hname : ';' ∉ name)
    (htext : referenceText entities name = some text) :
    inlines entities 0 ('&' :: (name ++ ';' :: rest)) =
      .reference text :: inlines entities 0 rest := by
  have hbody : (name ++ ';' :: rest).takeWhile (· != ';') = name := by
    rw [takeWhile_append_of_pos]
    · simp
    · intro c hc
      have hne : c ≠ ';' := by
        rintro rfl
        exact hname hc
      simpa using hne
  have hreference : reference entities (name ++ ';' :: rest) = some (text, name.length + 1) := by
    rw [reference, hbody, htext]
    simp
  have hskip := inlines_skip entities (name ++ [';']) rest
  rw [length_append, append_assoc] at hskip
  simpa [inlines, hreference] using hskip

theorem inlines_named {name text : Text} (hname : ';' ∉ name) (hsign : name.head? ≠ some '#')
    (htext : entities.lookup name = some text) : inlines entities 0 ('&' :: (name ++ ';' :: rest)) =
      .reference text :: inlines entities 0 rest := by
  apply inlines_reference entities rest hname
  rw [referenceText.eq_def]
  split
  · simp at hsign
  · simp at hsign
  · simp at hsign
  · exact htext

variable {c : Char}

theorem inlines_escaped (h : isAsciiPunctuation c = true) :
    inlines entities 0 ('\\' :: c :: rest) = .escaped c :: inlines entities 0 rest := by
  have hnext : (c :: rest).head?.filter isAsciiPunctuation = some c := by
    rw [head?_cons, Option.filter_some, if_pos h]
  rw [inlines, if_pos rfl, hnext]
  rfl

theorem inlines_plain (hslash : c ≠ '\\') (hamp : c ≠ '&') :
    inlines entities 0 (c :: rest) = .plain c :: inlines entities 0 rest := by
  simp [inlines, hslash, hamp]

theorem inlines_broken :
    inlines entities 0 ('&' :: '\\' :: rest) = .plain '&' :: inlines entities 0 ('\\' :: rest) := by
  have hreference : reference entities ('\\' :: rest) = none := by
    have hnone : referenceText entities (('\\' :: rest).takeWhile (· != ';')) = none := by
      rw [takeWhile_cons_of_pos (by decide)]
      cases hlookup : entities.lookup ('\\' :: rest.takeWhile (· != ';')) with
      | none => simpa [referenceText] using hlookup
      | some text =>
        have hname := entities.alphanumeric _ _ hlookup
        rw [all_cons, Bool.and_eq_true] at hname
        exact absurd hname.1 (by decide)
    rw [reference, hnone]
    simp
  conv_lhs => rw [inlines, if_neg (by decide), if_pos rfl, hreference]

theorem inlines_escapeChar (c : Char) (rest : Text) :
    inlines entities 0 (escapeChar c ++ rest) = inlinesOf c ++ inlines entities 0 rest := by
  by_cases hquote : c = '\''
  · subst hquote
    have htext : escapeChar '\'' = ['&', '\\', '#', 'x', '2', '7', ';'] := by decide
    rw [htext]
    simp only [cons_append, nil_append]
    rw [inlines_broken, inlines_escaped entities _ (by decide)]
    iterate 4 rw [inlines_plain entities _ (by decide) (by decide)]
    rfl
  by_cases hamp : c = '&'
  · subst hamp
    exact inlines_named entities rest (by decide) (by decide) entities.amp
  by_cases hlt : c = '<'
  · subst hlt
    exact inlines_named entities rest (by decide) (by decide) entities.lt
  by_cases hgt : c = '>'
  · subst hgt
    exact inlines_named entities rest (by decide) (by decide) entities.gt
  by_cases hdouble : c = '"'
  · subst hdouble
    exact inlines_named entities rest (by decide) (by decide) entities.quot
  -- the first layer leaves every other character alone
  have hhtml : htmlEscape c = [c] := by
    rw [htmlEscape.eq_def]
    split <;> first | rfl | contradiction
  have hentity : ['&', '<', '>', '"'].contains c = false := by
    simp [hamp, hlt, hgt, hdouble]
  by_cases hmeta : markdownMeta.contains c = true
  · have hpunctuation : isAsciiPunctuation c = true := by
      have hall : markdownMeta.all isAsciiPunctuation = true := by decide
      exact all_eq_true.mp hall c (by simpa using hmeta)
    simp only [escapeChar, inlinesOf, hhtml, hquote, hentity, hmeta, if_true, if_false,
      flatMap_cons, flatMap_nil, append_nil, cons_append, nil_append,
      Bool.false_eq_true]
    exact inlines_escaped entities rest hpunctuation
  · have hslash : c ≠ '\\' := by
      rintro rfl
      exact hmeta (by decide)
    simp only [escapeChar, inlinesOf, hhtml, hquote, hentity, hmeta, if_false,
      flatMap_cons, flatMap_nil, append_nil, cons_append, nil_append,
      Bool.false_eq_true]
    exact inlines_plain entities rest hslash hamp

theorem inlines_escape (line : Text) :
    inlines entities 0 (line.flatMap escapeChar) = line.flatMap inlinesOf := by
  induction line with
  | nil => rfl
  | cons c line ih => rw [flatMap_cons, flatMap_cons, inlines_escapeChar, ih]

theorem inlinesOf_text (h : c ≠ '\'') : (inlinesOf c).flatMap Inline.text = [c] := by
  rw [inlinesOf, if_neg h]
  split
  · rfl
  · split <;> rfl

theorem plain_mem_inlinesOf {c d : Char} (h : c ≠ '\'') (hd : Inline.plain d ∈ inlinesOf c) :
    isMeta d = false := by
  rw [inlinesOf, if_neg h] at hd
  split at hd
  · simp at hd
  · next hentity =>
    split at hd
    · simp at hd
    · next hmeta =>
      have hdc : d = c := by simpa using hd
      subst hdc
      simp [markdownMeta] at hmeta
      simp [isMeta] at hentity ⊢
      tauto

theorem decode_escape (value : Text) (h : '\'' ∉ singleLine value) :
    decode entities (escapeUntrustedMarkdown value) = singleLine value := by
  rw [decode, escapeUntrustedMarkdown_eq, inlines_escape, flatMap_assoc]
  have hchars : ∀ c ∈ singleLine value, (inlinesOf c).flatMap Inline.text = [c] :=
    fun c hc => inlinesOf_text fun heq => h (heq ▸ hc)
  rw [flatMap_congr hchars, flatMap_singleton']

theorem inert_escape_iff (value : Text) :
    Inert entities (escapeUntrustedMarkdown value) ↔ '\'' ∉ singleLine value := by
  rw [Inert, escapeUntrustedMarkdown_eq, inlines_escape]
  constructor
  · intro hinert hquote
    have hmem : Inline.plain '&' ∈ (singleLine value).flatMap inlinesOf :=
      mem_flatMap.mpr ⟨_, hquote, by decide⟩
    exact absurd (hinert _ hmem) (by decide)
  · intro hquote d hd
    obtain ⟨c, hc, hdc⟩ := mem_flatMap.mp hd
    exact plain_mem_inlinesOf (fun heq => hquote (heq ▸ hc)) hdc

theorem singleLine_append (value : Text) :
    singleLine value ++ (if endsInBreak value then [' '] else []) = spaceLines value := by
  have hjoin := join_splitLinesList value []
  rwa [reverse_nil, nil_append] at hjoin

theorem mem_spaceLines (hc : isLineBreak c = false) (hspace : c ≠ ' ') (value : Text) :
    c ∈ spaceLines value ↔ c ∈ value := by
  fun_induction spaceLines value with
  | case1 => rfl
  | case2 rest ih =>
    have hreturn : c ≠ '\r' := by rintro rfl; exact absurd hc (by decide)
    have hfeed : c ≠ '\n' := by rintro rfl; exact absurd hc (by decide)
    simp [hspace, hreturn, hfeed, ih]
  | case3 d rest _ ih =>
    by_cases hd : isLineBreak d = true
    · have hne : c ≠ d := by rintro rfl; simp [hc] at hd
      simp [hd, hspace, hne, ih]
    · simp [hd, ih]

theorem quote_mem_singleLine (value : Text) : '\'' ∈ singleLine value ↔ '\'' ∈ value := by
  rw [← mem_spaceLines (by decide) (by decide) value, ← singleLine_append value, mem_append]
  constructor
  · exact Or.inl
  · rintro (h | h)
    · exact h
    · split at h <;> simp at h

/-- Escaped text reads as its source with the line breaks replaced, and is inert, exactly when
the source has no apostrophe and does not end in a line break. -/
theorem escape_faithful_iff (value : Text) :
    (decode entities (escapeUntrustedMarkdown value) = spaceLines value ∧
        Inert entities (escapeUntrustedMarkdown value)) ↔
      '\'' ∉ value ∧ endsInBreak value = false := by
  rw [inert_escape_iff, quote_mem_singleLine]
  constructor
  · rintro ⟨hdecode, hquote⟩
    refine ⟨hquote, Bool.eq_false_iff.mpr fun hbreak => ?_⟩
    rw [decode_escape entities value (by rwa [quote_mem_singleLine]), ← singleLine_append value,
      if_pos hbreak] at hdecode
    have hlength := congrArg List.length hdecode
    simp at hlength
  · rintro ⟨hquote, hbreak⟩
    refine ⟨?_, hquote⟩
    rw [decode_escape entities value (by rwa [quote_mem_singleLine]), ← singleLine_append value,
      if_neg (Bool.eq_false_iff.mp hbreak), List.append_nil]

def escapeEntities : EntityTable where
  lookup name :=
    if name = ['a', 'm', 'p'] then some ['&']
    else if name = ['l', 't'] then some ['<']
    else if name = ['g', 't'] then some ['>']
    else if name = ['q', 'u', 'o', 't'] then some ['"']
    else none
  alphanumeric name text h := by
    split at h
    · next heq => subst heq; decide
    · split at h
      · next heq => subst heq; decide
      · split at h
        · next heq => subst heq; decide
        · split at h
          · next heq => subst heq; decide
          · cases h
  amp := rfl
  lt := rfl
  gt := rfl
  quot := rfl

/-- `it's` reads as the text of a reference, with its ampersand unescaped. -/
theorem apostrophe_not_faithful :
    ¬ (decode escapeEntities (escapeUntrustedMarkdown ['i', 't', '\'', 's']) =
          spaceLines ['i', 't', '\'', 's'] ∧
        Inert escapeEntities (escapeUntrustedMarkdown ['i', 't', '\'', 's'])) := by
  rintro ⟨hdecode, -⟩
  exact absurd hdecode (by decide)
end

end RaytSystem.Rendering
