import Mathlib.Data.List.Infix

/-! The pattern that finds the schema version in the configuration's bytes, and its replacement.
A byte is the character with its number. -/
namespace RaytSystem.ConfigVersion
open List Option

def isByteSpace (c : Char) : Bool := [' ', '\t', '\n', '\r', '\x0b', '\x0c'].contains c

def isDigit (c : Char) : Bool := '0' ≤ c && c ≤ '9'

variable (s : List Char)

def readNumber : Option (List Char × List Char) :=
  if s.takeWhile isDigit = [] then none else some (s.takeWhile isDigit, s.dropWhile isDigit)

def readVersion : Option (List Char × List Char) := do
  let major ← readNumber s
  let s ← isPrefixOf? ['.'] major.2
  let minor ← readNumber s
  let s ← isPrefixOf? ['.'] minor.2
  let patch ← readNumber s
  some (major.1 ++ '.' :: minor.1 ++ '.' :: patch.1, patch.2)

def readTrailing : List Char → Option (List Char)
  | [] => some []
  | c :: s =>
    if isByteSpace c then
      match readTrailing s with
      | some rest => some rest
      | none => if c = '\n' then some (c :: s) else none
    else none

def schemaName : List Char :=
  ['s', 'c', 'h', 'e', 'm', 'a', '_', 'v', 'e', 'r', 's', 'i', 'o', 'n']

def matchHere : Option (List Char × List Char) := do
  let s ← isPrefixOf? schemaName s
  let s ← isPrefixOf? ['='] (s.dropWhile isByteSpace)
  let s ← isPrefixOf? ['"'] (s.dropWhile isByteSpace)
  let version ← readVersion s
  let s ← isPrefixOf? ['"'] version.2
  let after ← readTrailing s
  some (version.1, after)

structure Found where
  before : List Char
  version : List Char
  after : List Char
  deriving DecidableEq

def search (lineStart : Bool) : List Char → Option Found
  | [] => none
  | c :: s =>
    match if lineStart then matchHere (c :: s) else none with
    | some m => some ⟨[], m.1, m.2⟩
    | none => (search (c == '\n') s).map fun m => {m with before := c :: m.before}

def schemaLine (version : List Char) : List Char :=
  schemaName ++ [' ', '=', ' ', '"'] ++ version ++ ['"']

def Found.write (m : Found) (version : List Char) : List Char :=
  m.before ++ (schemaLine version ++ m.after)

def bump (version data : List Char) : Option (List Char) :=
  (search true data).map fun m => m.write version

def readable (version : List Char) : Bool :=
  readVersion (version ++ ['"']) == some (version, ['"'])

section
variable {z : Char} {u u' : List Char}

inductive Alike (z : Char) : List Char → List Char → Prop
  | stop (x y : List Char) : Alike z (z :: x) (z :: y)
  | cons (c : Char) {u u' : List Char} (h : Alike z u u') : Alike z (c :: u) (c :: u')

theorem alike_append (b x y : List Char) : Alike z (b ++ z :: x) (b ++ z :: y) := by
  induction b with
  | nil => exact .stop x y
  | cons c b ih => exact .cons c ih

theorem alike_dropWhile {p : Char → Bool} (hz : p z = false) (h : Alike z u u') :
    Alike z (u.dropWhile p) (u'.dropWhile p) := by
  induction h with
  | stop x y =>
    rw [dropWhile_cons_of_neg (by simp [hz]), dropWhile_cons_of_neg (by simp [hz])]
    exact .stop x y
  | cons c h ih =>
    by_cases hc : p c = true
    · rwa [dropWhile_cons_of_pos hc, dropWhile_cons_of_pos hc]
    · rw [dropWhile_cons_of_neg hc, dropWhile_cons_of_neg hc]
      exact .cons c h

theorem alike_takeWhile {p : Char → Bool} (hz : p z = false) (h : Alike z u u') :
    u.takeWhile p = u'.takeWhile p := by
  induction h with
  | stop x y =>
    rw [takeWhile_cons_of_neg (by simp [hz]), takeWhile_cons_of_neg (by simp [hz])]
  | cons c h ih =>
    by_cases hc : p c = true
    · rw [takeWhile_cons_of_pos hc, takeWhile_cons_of_pos hc, ih]
    · rw [takeWhile_cons_of_neg hc, takeWhile_cons_of_neg hc]

theorem alike_expect {c : Char} {r : List Char} (hz : c ≠ z) (h : Alike z u u')
    (hr : isPrefixOf? [c] u = some r) :
    ∃ r', isPrefixOf? [c] u' = some r' ∧ Alike z r r' := by
  simp only [isPrefixOf?_eq_some_iff_append_eq, singleton_append] at hr ⊢
  cases h with
  | stop x y => exact absurd (cons.inj hr).1 hz
  | @cons d v v' h =>
    obtain ⟨rfl, rfl⟩ := cons.inj hr
    exact ⟨v', rfl, h⟩

variable {n : List Char × List Char}

theorem alike_readNumber (hz : isDigit z = false) (h : Alike z u u') (hn : readNumber u = some n) :
    ∃ r, readNumber u' = some (n.1, r) ∧ Alike z n.2 r := by
  unfold readNumber at hn ⊢
  rw [alike_takeWhile hz h] at hn
  split at hn
  · cases hn
  next hne =>
    obtain rfl := some.inj hn
    exact ⟨u'.dropWhile isDigit, if_neg hne, alike_dropWhile hz h⟩

theorem alike_readVersion (hz : isDigit z = false) (hdot : '.' ≠ z) (h : Alike z u u')
    (hn : readVersion u = some n) : ∃ r, readVersion u' = some (n.1, r) ∧ Alike z n.2 r := by
  obtain ⟨major, hmajor, hn⟩ := bind_eq_some_iff.mp hn
  obtain ⟨s₁, hs₁, hn⟩ := bind_eq_some_iff.mp hn
  obtain ⟨minor, hminor, hn⟩ := bind_eq_some_iff.mp hn
  obtain ⟨s₂, hs₂, hn⟩ := bind_eq_some_iff.mp hn
  obtain ⟨patch, hpatch, hn⟩ := bind_eq_some_iff.mp hn
  obtain rfl := some.inj hn
  obtain ⟨r₁, hr₁, h₁⟩ := alike_readNumber hz h hmajor
  obtain ⟨t₁, ht₁, h₁⟩ := alike_expect hdot h₁ hs₁
  obtain ⟨r₂, hr₂, h₂⟩ := alike_readNumber hz h₁ hminor
  obtain ⟨t₂, ht₂, h₂⟩ := alike_expect hdot h₂ hs₂
  obtain ⟨r₃, hr₃, h₃⟩ := alike_readNumber hz h₂ hpatch
  exact ⟨r₃, by simp [readVersion, hr₁, ht₁, hr₂, ht₂, hr₃], h₃⟩

theorem alike_readTrailing (hz : isByteSpace z = false) (h : Alike z u u') {r : List Char}
    (hr : readTrailing u = some r) : ∃ r', readTrailing u' = some r' := by
  induction h generalizing r with
  | stop x y => simp [readTrailing, hz] at hr
  | @cons c v v' h ih =>
    unfold readTrailing at hr ⊢
    split at hr
    next hc =>
      rw [if_pos hc]
      cases hv : readTrailing v with
      | some r₁ =>
        obtain ⟨r₂, hr₂⟩ := ih hv
        exact ⟨r₂, by rw [hr₂]⟩
      | none =>
        rw [hv] at hr
        have hc' : c = '\n' := by
          by_contra hne
          simp [hne] at hr
        cases hv' : readTrailing v' with
        | some r₂ => exact ⟨r₂, rfl⟩
        | none => exact ⟨c :: v', by simp [hc']⟩
    · cases hr
end

section

variable {s : List Char} {n : List Char × List Char}

theorem readNumber_append (h : readNumber s = some n) : n.1 ++ n.2 = s := by
  unfold readNumber at h
  split at h
  · cases h
  · obtain rfl := some.inj h
    exact takeWhile_append_dropWhile

theorem readVersion_append (h : readVersion s = some n) : n.1 ++ n.2 = s := by
  obtain ⟨major, hmajor, h⟩ := bind_eq_some_iff.mp h
  obtain ⟨s₁, hs₁, h⟩ := bind_eq_some_iff.mp h
  obtain ⟨minor, hminor, h⟩ := bind_eq_some_iff.mp h
  obtain ⟨s₂, hs₂, h⟩ := bind_eq_some_iff.mp h
  obtain ⟨patch, hpatch, h⟩ := bind_eq_some_iff.mp h
  obtain rfl := some.inj h
  simp only [isPrefixOf?_eq_some_iff_append_eq, singleton_append] at hs₁ hs₂
  rw [← readNumber_append hmajor, ← hs₁, ← readNumber_append hminor, ← hs₂,
    ← readNumber_append hpatch]
  simp

theorem readVersion_readable {version : List Char} (h : readable version = true) (t : List Char) :
    readVersion (version ++ '"' :: t) = some (version, '"' :: t) := by
  obtain ⟨r, hr, -⟩ := alike_readVersion (by decide) (by decide) (alike_append version [] t)
    (beq_iff_eq.mp h)
  have happend : version ++ r = version ++ '"' :: t := readVersion_append hr
  obtain rfl := append_cancel_left happend
  exact hr

theorem matchHere_version {m : List Char × List Char} (h : matchHere s = some m) :
    readable m.1 = true := by
  obtain ⟨s₁, -, h⟩ := bind_eq_some_iff.mp h
  obtain ⟨s₂, -, h⟩ := bind_eq_some_iff.mp h
  obtain ⟨s₃, -, h⟩ := bind_eq_some_iff.mp h
  obtain ⟨version, hversion, h⟩ := bind_eq_some_iff.mp h
  obtain ⟨s₄, hs₄, h⟩ := bind_eq_some_iff.mp h
  obtain ⟨after, -, h⟩ := bind_eq_some_iff.mp h
  obtain rfl := some.inj h
  rw [isPrefixOf?_eq_some_iff_append_eq, singleton_append] at hs₄
  have happend := readVersion_append hversion
  rw [← hs₄] at happend
  rw [← happend] at hversion
  obtain ⟨r, hr, -⟩ := alike_readVersion (by decide) (by decide)
    (alike_append version.1 s₄ []) hversion
  obtain rfl := append_cancel_left (readVersion_append hr : version.1 ++ r = _)
  exact beq_iff_eq.mpr hr

theorem matchHere_schemaLine (version after : List Char) :
    matchHere (schemaLine version ++ after) = (do
      let found ← readVersion (version ++ '"' :: after)
      let s ← isPrefixOf? ['"'] found.2
      let rest ← readTrailing s
      some (found.1, rest)) := by
  have hname : isPrefixOf? schemaName (schemaLine version ++ after) =
      some ([' ', '=', ' ', '"'] ++ (version ++ '"' :: after)) := by
    rw [isPrefixOf?_eq_some_iff_append_eq]
    simp [schemaLine]
  have hspace : ([' ', '=', ' ', '"'] ++ (version ++ '"' :: after)).dropWhile isByteSpace =
      '=' :: ' ' :: '"' :: (version ++ '"' :: after) := rfl
  have hspace' : (' ' :: '"' :: (version ++ '"' :: after)).dropWhile isByteSpace =
      '"' :: (version ++ '"' :: after) := rfl
  unfold matchHere
  rw [hname]
  simp only [bind_eq_bind, bind_some, hspace, isPrefixOf?, beq_self_eq_true,
    if_true, hspace']

variable {version after : List Char}

theorem matchHere_readable {version after : List Char} (h : readable version = true)
    (hafter : readTrailing after = some after) :
    matchHere (schemaLine version ++ after) = some (version, after) := by
  rw [matchHere_schemaLine, readVersion_readable h]
  simp [isPrefixOf?, hafter]

theorem matchHere_after (h : matchHere (schemaLine version ++ after) = some (version, after)) :
    readTrailing after = some after := by
  rw [matchHere_schemaLine] at h
  obtain ⟨found, hfound, h⟩ := bind_eq_some_iff.mp h
  obtain ⟨s, hs, h⟩ := bind_eq_some_iff.mp h
  obtain ⟨rest, hrest, h⟩ := bind_eq_some_iff.mp h
  obtain ⟨hversion, rfl⟩ := Prod.mk.inj (some.inj h)
  have happend := readVersion_append hfound
  rw [hversion] at happend
  rw [isPrefixOf?_eq_some_iff_append_eq, append_cancel_left happend] at hs
  obtain rfl : s = rest := (cons.inj hs).2
  exact hrest
end

section

def startsLine (lineStart : Bool) (before : List Char) : Bool :=
  match before.getLast? with
  | some c => c == '\n'
  | none => lineStart

theorem startsLine_cons (lineStart : Bool) (c : Char) (before : List Char) :
    startsLine lineStart (c :: before) = startsLine (c == '\n') before := by
  cases before with
  | nil => rfl
  | cons d before => simp [startsLine, getLast?_cons]

variable {lineStart : Bool} {s : List Char} {m : Found}

theorem search_cons {c : Char} (h : search lineStart (c :: s) = some m) :
    (lineStart = true ∧ m.before = [] ∧ matchHere (c :: s) = some (m.version, m.after)) ∨
      (lineStart = true → matchHere (c :: s) = none) ∧
        ∃ m', search (c == '\n') s = some m' ∧ m = {m' with before := c :: m'.before} := by
  unfold search at h
  split at h
  next found hfound =>
    obtain rfl := some.inj h
    cases lineStart with
    | true => exact Or.inl ⟨rfl, rfl, hfound⟩
    | false => cases hfound
  next hnone =>
    obtain ⟨m', hm', rfl⟩ := map_eq_some_iff.mp h
    refine Or.inr ⟨fun hstart => ?_, m', hm', rfl⟩
    simpa [hstart] using hnone

theorem search_startsLine (h : search lineStart s = some m) :
    startsLine lineStart m.before = true := by
  induction s generalizing lineStart m with
  | nil => cases h
  | cons c s ih =>
    rcases search_cons h with ⟨hstart, hbefore, -⟩ | ⟨-, m', hm', rfl⟩
    · rw [hbefore]
      exact hstart
    · rw [startsLine_cons]
      exact ih hm'

theorem search_readable (h : search lineStart s = some m) : readable m.version = true := by
  induction s generalizing lineStart m with
  | nil => cases h
  | cons c s ih =>
    rcases search_cons h with ⟨-, -, hmatch⟩ | ⟨-, m', hm', rfl⟩
    · exact matchHere_version hmatch
    · have hm : readable m'.version = true := ih hm'
      exact hm

theorem matchHere_before {b x y : List Char} (hb : b.getLast? = some '\n')
    {m : List Char × List Char} (h : matchHere (b ++ 's' :: x) = some m) :
    ∃ m', matchHere (b ++ 's' :: y) = some m' := by
  obtain ⟨s₁, hs₁, h⟩ := bind_eq_some_iff.mp h
  obtain ⟨s₂, hs₂, h⟩ := bind_eq_some_iff.mp h
  obtain ⟨s₃, hs₃, h⟩ := bind_eq_some_iff.mp h
  obtain ⟨version, hversion, h⟩ := bind_eq_some_iff.mp h
  obtain ⟨s₄, hs₄, h⟩ := bind_eq_some_iff.mp h
  obtain ⟨after, hafter, -⟩ := bind_eq_some_iff.mp h
  have hname : ∃ c, b = schemaName ++ c ∧ s₁ = c ++ 's' :: x := by
    rw [isPrefixOf?_eq_some_iff_append_eq] at hs₁
    rcases append_eq_append_iff.mp hs₁ with ⟨c, hc, hs⟩ | ⟨c, hc, -⟩
    · exact ⟨c, hc, hs⟩
    · -- the name has no line break in it
      have hmem : '\n' ∈ schemaName := by
        rw [hc]
        exact mem_append_left _ (mem_of_getLast? hb)
      exact absurd hmem (by decide)
  obtain ⟨c, rfl, rfl⟩ := hname
  obtain ⟨t₂, ht₂, h₂⟩ := alike_expect (by decide)
    (alike_dropWhile (p := isByteSpace) (by decide) (alike_append c x y)) hs₂
  obtain ⟨t₃, ht₃, h₃⟩ := alike_expect (by decide)
    (alike_dropWhile (p := isByteSpace) (by decide) h₂) hs₃
  obtain ⟨t, ht, h₄⟩ := alike_readVersion (by decide) (by decide) h₃ hversion
  obtain ⟨t₄, ht₄, h₅⟩ := alike_expect (by decide) h₄ hs₄
  obtain ⟨t₅, ht₅⟩ := alike_readTrailing (by decide) h₅ hafter
  have hname : isPrefixOf? schemaName (schemaName ++ c ++ 's' :: y) =
      some (c ++ 's' :: y) := by
    rw [isPrefixOf?_eq_some_iff_append_eq, append_assoc]
  refine ⟨(version.1, t₅), ?_⟩
  unfold matchHere
  rw [hname]
  simp only [bind_eq_bind, bind_some, ht₂, ht₃, ht, ht₄, ht₅]

theorem schemaLine_cons (version : List Char) : ∃ x, schemaLine version = 's' :: x := ⟨_, rfl⟩

theorem search_write {s version : List Char} (h : search lineStart s = some m)
    (hs : m.write m.version = s) (hversion : readable version = true) :
    search lineStart (m.write version) = some {m with version := version} := by
  induction s generalizing lineStart m with
  | nil => cases h
  | cons c s ih =>
    rcases search_cons h with ⟨rfl, hbefore, hmatch⟩ | ⟨hnone, m', hm', rfl⟩
    · obtain ⟨before, found, after⟩ := m
      obtain rfl : before = [] := hbefore
      replace hs : schemaLine found ++ after = c :: s := hs
      have hafter := matchHere_after (hs ▸ hmatch)
      have hfound := matchHere_readable hversion hafter
      change search true (schemaLine version ++ after) = _
      obtain ⟨x, hx⟩ := schemaLine_cons version
      rw [hx] at hfound ⊢
      rw [cons_append] at hfound ⊢
      simp [search, hfound]
    · replace hs : c :: m'.write m'.version = c :: s := hs
      have hrest := ih hm' (cons.inj hs).2
      have hlast : (c :: m'.before).getLast? = some '\n' := by
        have hstarts := search_startsLine hm'
        rw [← startsLine_cons lineStart] at hstarts
        unfold startsLine at hstarts
        split at hstarts
        next d hd => rw [hd, beq_iff_eq.mp hstarts]
        next hd => simp at hd
      have hhead : (if lineStart then matchHere (c :: m'.write version) else none) = none := by
        split
        next hstart =>
          rw [eq_none_iff_forall_ne_some]
          intro found hfound
          obtain ⟨x, hx⟩ := schemaLine_cons version
          obtain ⟨y, hy⟩ := schemaLine_cons m'.version
          have hwrite : c :: m'.write version = (c :: m'.before) ++ 's' :: (x ++ m'.after) := by
            simp [Found.write, hx]
          have hwas : c :: s = (c :: m'.before) ++ 's' :: (y ++ m'.after) := by
            rw [← hs]
            simp [Found.write, hy]
          rw [hwrite] at hfound
          obtain ⟨found', hfound'⟩ := matchHere_before (y := y ++ m'.after) hlast hfound
          rw [← hwas, hnone hstart] at hfound'
          cases hfound'
        next => rfl
      change search lineStart (c :: m'.write version) = _
      unfold search
      rw [hhead, hrest]
      rfl
end
end RaytSystem.ConfigVersion
