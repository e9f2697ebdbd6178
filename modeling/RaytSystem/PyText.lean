import Mathlib.Data.List.Dedup
import Mathlib.Data.List.DropRight
import Mathlib.Data.List.Sort

/-! Text functions of the source language and of its data models. -/
namespace RaytSystem.PyText

variable (c : Char)

def isSpace : Bool :=
  let n := c.toNat
  (0x09 ≤ n && n ≤ 0x0d) || (0x1c ≤ n && n ≤ 0x20) || n == 0x85 || n == 0xa0 || n == 0x1680 ||
    (0x2000 ≤ n && n ≤ 0x200a) || n == 0x2028 || n == 0x2029 || n == 0x202f || n == 0x205f ||
    n == 0x3000

def isWhiteSpace : Bool := isSpace c && !(0x1c ≤ c.toNat && c.toNat ≤ 0x1f)

def stripList (p : Char → Bool) (cs : List Char) : List Char :=
  ((cs.dropWhile p).reverse.dropWhile p).reverse

variable (s : String)

def strip : String := String.ofList (stripList isSpace s.toList)

def trim : String := String.ofList (stripList isWhiteSpace s.toList)

def isLineBreak : Bool :=
  let n := c.toNat
  (0x0a ≤ n && n ≤ 0x0d) || (0x1c ≤ n && n ≤ 0x1e) || n == 0x85 || n == 0x2028 || n == 0x2029

def splitLinesList : List Char → List Char → List (List Char)
  | [], [] => []
  | [], line => [line.reverse]
  | '\r' :: '\n' :: rest, line => line.reverse :: splitLinesList rest []
  | c :: rest, line =>
    if isLineBreak c then line.reverse :: splitLinesList rest []
    else splitLinesList rest (c :: line)

def splitLines : List String := (splitLinesList s.toList []).map String.ofList

def isToken (value : String) : Bool :=
  value != "" && value.length ≤ 256 && !value.toList.any isSpace

def startsWith (s pre : String) : Bool := pre.toList.isPrefixOf s.toList

def sorted (xs : List String) : List String := xs.insertionSort (· ≤ ·)

def sortedSet (xs : List String) : List String := sorted xs.dedup

variable {xs : List String}

theorem mem_sorted {x : String} : x ∈ sorted xs ↔ x ∈ xs :=
  (xs.perm_insertionSort (· ≤ ·)).mem_iff

theorem mem_sortedSet {x : String} : x ∈ sortedSet xs ↔ x ∈ xs := by
  rw [sortedSet, mem_sorted, List.mem_dedup]

theorem nodup_sorted (h : xs.Nodup) : (sorted xs).Nodup :=
  (xs.perm_insertionSort (· ≤ ·)).nodup_iff.mpr h

theorem nodup_sortedSet (xs : List String) : (sortedSet xs).Nodup := nodup_sorted xs.nodup_dedup

def isIdentifierChar : Bool :=
  ('a' ≤ c && c ≤ 'z') || ('0' ≤ c && c ≤ '9') || "_:.@/-".toList.contains c

def isIdentifier : Bool :=
  match s.toList with
  | [] => false
  | c :: cs => 'a' ≤ c && c ≤ 'z' && 1 ≤ cs.length && cs.length ≤ 255 &&
      cs.all isIdentifierChar

def isNonEmptyStr : Bool := 1 ≤ s.length && s.length ≤ 4096

def isHexDigit : Bool := ('0' ≤ c && c ≤ '9') || ('a' ≤ c && c ≤ 'f')

def isSha256 : Bool := s.length == 64 && s.toList.all isHexDigit

theorem dropWhile_none {p : Char → Bool} {cs : List Char} (h : ∀ c ∈ cs, p c = false) :
    cs.dropWhile p = cs := by
  cases cs with
  | nil => rfl
  | cons c rest => rw [List.dropWhile_cons_of_neg (by simp [h c List.mem_cons_self])]

theorem isWhiteSpace_of_isIdentifierChar {c : Char} (h : isIdentifierChar c = true) :
    isWhiteSpace c = false := by
  have hrange : (97 ≤ c.toNat ∧ c.toNat ≤ 122) ∨ (48 ≤ c.toNat ∧ c.toNat ≤ 57) ∨
      c.toNat ∈ [95, 58, 46, 64, 47, 45] := by
    simp only [isIdentifierChar, Bool.or_eq_true, Bool.and_eq_true, decide_eq_true_eq] at h
    rcases h with (h | h) | h
    · exact Or.inl h
    · exact Or.inr (Or.inl h)
    · refine Or.inr (Or.inr ?_)
      have hmem : c ∈ "_:.@/-".toList := by simpa using h
      exact List.mem_map_of_mem (f := Char.toNat) hmem
  have hspace : isSpace c = false := by
    simp [isSpace] at hrange ⊢
    omega
  rw [isWhiteSpace, hspace, Bool.false_and]

theorem trim_identifier {s : String} (h : isIdentifier s = true) : trim s = s := by
  have hchars : ∀ c ∈ s.toList, isWhiteSpace c = false := by
    intro c hc
    apply isWhiteSpace_of_isIdentifierChar
    unfold isIdentifier at h
    split at h
    next => cases h
    next first rest hs =>
      rw [hs] at hc
      simp only [Bool.and_eq_true, List.all_eq_true, decide_eq_true_eq] at h
      rcases List.mem_cons.mp hc with rfl | hc
      · simp [isIdentifierChar, h]
      · exact h.2 c hc
  rw [trim, stripList, dropWhile_none hchars, dropWhile_none (by simpa using hchars),
    List.reverse_reverse, String.ofList_toList]

theorem stripList_again (p : Char → Bool) (cs : List Char) :
    stripList p (stripList p cs) = stripList p cs := by
  let front := cs.dropWhile p
  have hfront : ∀ c rest, front = c :: rest → p c = false := by
    intro c rest h
    have hne : cs.dropWhile p ≠ [] := by
      change front ≠ []
      simp [h]
    have hhead := List.head_dropWhile_not p hne
    have hc : (cs.dropWhile p).head hne = c := by
      simp only [show cs.dropWhile p = c :: rest from h, List.head_cons]
    rwa [hc] at hhead
  have hdrop : (front.reverse.dropWhile p).reverse.dropWhile p =
      (front.reverse.dropWhile p).reverse := by
    have hprefix : (front.reverse.dropWhile p).reverse <+: front := by
      have hsuffix := List.dropWhile_suffix (l := front.reverse) p
      rw [← List.reverse_prefix, List.reverse_reverse] at hsuffix
      exact hsuffix
    cases hcase : (front.reverse.dropWhile p).reverse with
    | nil => rfl
    | cons c rest =>
      obtain ⟨tail, htail⟩ := hcase ▸ hprefix
      rw [List.dropWhile_cons_of_neg]
      simp [hfront c (rest ++ tail) htail.symm]
  change (((front.reverse.dropWhile p).reverse.dropWhile p).reverse.dropWhile p).reverse =
    (front.reverse.dropWhile p).reverse
  rw [hdrop, List.reverse_reverse, List.dropWhile_idempotent]

theorem trim_trim : trim (trim s) = trim s := by
  rw [trim, trim, String.toList_ofList, stripList_again]

section

def pathParts (value : String) : List (List Char) :=
  (value.toList.splitOn '/').filter fun part => part ≠ [] && part ≠ ['.']

def joinParts (parts : List (List Char)) : String := String.ofList (['/'].intercalate parts)

inductive PathFault
  | valueError (message : String)
  | indexError
  deriving DecidableEq, Repr

def relativePath : Except PathFault String :=
  let cs := s.toList
  let parts := (cs.splitOn '/').filter fun part => part != [] && part != ['.']
  if cs == [] || cs.contains '\x00' || cs.contains '\\' then
    .error (.valueError "Path must be a non-empty POSIX workspace-relative path")
  else if cs.head? == some '/' || parts.contains ['.', '.'] then
    .error (.valueError "Path must stay within the workspace")
  else match parts with
    | [] => .error .indexError
    | first :: _ =>
      if first.contains ':' then .error (.valueError "Windows drive paths are forbidden")
      else .ok (String.ofList (['/'].intercalate parts))

/-- Names the proof that a membership test of components carries. -/
theorem chars_lawful : LawfulBEq (List Char) := inferInstance

theorem mem_splitOn {cs part : List Char} {sep : Char} (h : part ∈ cs.splitOn sep) :
    sep ∉ part ∧ ∀ c ∈ part, c ∈ cs := by
  induction cs generalizing part with
  | nil =>
    obtain rfl : part = [] := by simpa using h
    exact ⟨by simp, by simp⟩
  | cons c rest ih =>
    rw [List.splitOn_cons_eq_if_modifyHead] at h
    split at h
    next =>
      rcases List.mem_cons.mp h with rfl | h
      · exact ⟨by simp, by simp⟩
      · exact ⟨(ih h).1, fun d hd => List.mem_cons_of_mem _ ((ih h).2 d hd)⟩
    next hc =>
      obtain ⟨first, more, hsplit⟩ := List.exists_cons_of_ne_nil (List.splitOn_ne_nil sep rest)
      rw [hsplit, List.modifyHead_cons] at h
      have hfirst := ih (hsplit ▸ List.mem_cons_self : first ∈ rest.splitOn sep)
      rcases List.mem_cons.mp h with rfl | h
      · refine ⟨?_, ?_⟩
        · rintro hmem
          rcases List.mem_cons.mp hmem with rfl | hmem
          · simp at hc
          · exact hfirst.1 hmem
        · intro d hd
          rcases List.mem_cons.mp hd with rfl | hd
          · exact List.mem_cons_self
          · exact List.mem_cons_of_mem _ (hfirst.2 d hd)
      · have hmem := ih (hsplit ▸ List.mem_cons_of_mem _ h : part ∈ rest.splitOn sep)
        exact ⟨hmem.1, fun d hd => List.mem_cons_of_mem _ (hmem.2 d hd)⟩

theorem mem_pathParts {value : String} {part : List Char} (h : part ∈ pathParts value) :
    '/' ∉ part ∧ (part ≠ [] ∧ part ≠ ['.']) ∧ ∀ c ∈ part, c ∈ value.toList := by
  obtain ⟨hsplit, hpart⟩ := List.mem_filter.mp h
  have hmem := mem_splitOn hsplit
  exact ⟨hmem.1, by simpa using hpart, hmem.2⟩

variable {parts : List (List Char)}

theorem pathParts_join (hne : parts ≠ [])
    (hparts : ∀ part ∈ parts, '/' ∉ part ∧ part ≠ [] ∧ part ≠ ['.']) :
    pathParts (joinParts parts) = parts := by
  have hsplit : (['/'].intercalate parts).splitOn '/' = parts :=
    List.splitOn_intercalate '/' (fun part hpart => (hparts part hpart).1) hne
  rw [pathParts, joinParts, String.toList_ofList, hsplit, List.filter_eq_self]
  intro part hpart
  simpa using (hparts part hpart).2

theorem mem_intercalate {sep c : Char} (h : c ∈ [sep].intercalate parts) :
    c = sep ∨ ∃ part ∈ parts, c ∈ part := by
  induction parts with
  | nil => cases h
  | cons part rest ih =>
    cases rest with
    | nil => exact Or.inr ⟨part, List.mem_cons_self, by simpa using h⟩
    | cons next rest =>
      simp only [List.intercalate_cons_cons, List.mem_append, List.mem_singleton] at h
      rcases h with (h | h) | h
      · exact Or.inr ⟨part, List.mem_cons_self, h⟩
      · exact Or.inl h
      · rcases ih h with h | ⟨p, hp, hc⟩
        · exact Or.inl h
        · exact Or.inr ⟨p, List.mem_cons_of_mem _ hp, hc⟩

theorem head_intercalate {sep : Char} {first : List Char} {rest : List (List Char)}
    (h : first ≠ []) : ([sep].intercalate (first :: rest)).head? = first.head? := by
  obtain ⟨c, cs, rfl⟩ := List.exists_cons_of_ne_nil h
  cases rest with
  | nil => simp
  | cons next rest => simp [List.intercalate_cons_cons]

def components (s : String) : List (List Char) := s.toList.splitOn '/'

structure NormalPath (s : String) : Prop where
  relative : s.toList.head? ≠ some '/'
  plain : ∀ part ∈ components s, part ≠ [] ∧ part ≠ ['.'] ∧ part ≠ ['.', '.']
  backslash : '\\' ∉ s.toList
  drive : ∀ part ∈ (components s).head?, ':' ∉ part

def Settled : Except PathFault String → Prop
  | .error (.valueError _) => True
  | .error .indexError => False
  | .ok r => NormalPath r ∧ relativePath r = .ok r

theorem parts_eq (s : String) :
    ((s.toList.splitOn '/').filter fun part => part != [] && part != ['.']) = pathParts s :=
  List.filter_congr fun part _ => by
    rw [Bool.eq_iff_iff, Bool.and_eq_true, bne_iff_ne, bne_iff_ne]
    simp

theorem relativePath_eq (s : String) :
    relativePath s =
      if s = "" ∨ '\x00' ∈ s.toList ∨ '\\' ∈ s.toList then
        .error (.valueError "Path must be a non-empty POSIX workspace-relative path")
      else if s.toList.head? = some '/' ∨ ['.', '.'] ∈ pathParts s then
        .error (.valueError "Path must stay within the workspace")
      else match pathParts s with
        | [] => .error .indexError
        | first :: _ =>
          if ':' ∈ first then .error (.valueError "Windows drive paths are forbidden")
          else .ok (joinParts (pathParts s)) := by
  unfold relativePath
  simp only [parts_eq, Bool.or_eq_true, beq_iff_eq, List.contains_iff_mem, or_assoc,
    String.toList_eq_nil_iff]
  rfl

variable {first : List Char} {rest : List (List Char)}

theorem relativePath_join (hparts : ∀ part ∈ first :: rest, '/' ∉ part ∧ part ≠ [] ∧
      part ≠ ['.'] ∧ part ≠ ['.', '.'] ∧ '\x00' ∉ part ∧ '\\' ∉ part) (hcolon : ':' ∉ first) :
    Settled (.ok (joinParts (first :: rest))) := by
  have htext : (joinParts (first :: rest)).toList = ['/'].intercalate (first :: rest) :=
    String.toList_ofList
  have hsplit : components (joinParts (first :: rest)) = first :: rest := by
    rw [components, htext]
    exact List.splitOn_intercalate '/' (fun part h => (hparts part h).1) (by simp)
  obtain ⟨hslash, hfirst, -⟩ := hparts first List.mem_cons_self
  have hhead : (joinParts (first :: rest)).toList.head? ≠ some '/' := by
    rw [htext, head_intercalate hfirst]
    exact fun h => hslash (List.mem_of_head? h)
  have hchar : ∀ c, c ≠ '/' → (∀ part ∈ first :: rest, c ∉ part) →
      c ∉ (joinParts (first :: rest)).toList := by
    intro c hc hall hmem
    rcases mem_intercalate (htext ▸ hmem) with h | ⟨part, hpart, h⟩
    · exact hc h
    · exact hall part hpart h
  have hnull := hchar '\x00' (by decide) fun part h => (hparts part h).2.2.2.2.1
  have hback := hchar '\\' (by decide) fun part h => (hparts part h).2.2.2.2.2
  have hagain : pathParts (joinParts (first :: rest)) = first :: rest :=
    pathParts_join (by simp) fun part h =>
      ⟨(hparts part h).1, (hparts part h).2.1, (hparts part h).2.2.1⟩
  have hdots : ['.', '.'] ∉ first :: rest := fun h => (hparts _ h).2.2.2.1 rfl
  have hne : (joinParts (first :: rest)).toList ≠ [] := by
    intro h
    rw [htext] at h
    have hnone : (['/'].intercalate (first :: rest)).head? = first.head? :=
      head_intercalate hfirst
    rw [h] at hnone
    exact hfirst (List.head?_eq_none_iff.mp hnone.symm)
  refine ⟨⟨hhead, fun part h => ?_, hback, fun part h => ?_⟩, ?_⟩
  · rw [hsplit] at h
    exact ⟨(hparts part h).2.1, (hparts part h).2.2.1, (hparts part h).2.2.2.1⟩
  · rw [hsplit] at h
    obtain rfl := Option.some.inj h
    exact hcolon
  · rw [relativePath_eq, if_neg, if_neg, hagain]
    · exact if_neg hcolon
    · rw [hagain, not_or]
      exact ⟨hhead, hdots⟩
    · rw [not_or, not_or]
      exact ⟨fun h => hne (by rw [h]; rfl), hnull, hback⟩

theorem relativePath_ok {s r : String} (h : relativePath s = .ok r) :
    ∃ first rest, r = joinParts (first :: rest) ∧ ':' ∉ first ∧ ∀ part ∈ first :: rest,
      '/' ∉ part ∧ part ≠ [] ∧ part ≠ ['.'] ∧ part ≠ ['.', '.'] ∧ '\x00' ∉ part ∧ '\\' ∉ part := by
  rw [relativePath_eq] at h
  split at h
  · cases h
  next hchar =>
    split at h
    · cases h
    next hstop =>
      cases hcase : pathParts s with
      | nil =>
        rw [hcase] at h
        cases h
      | cons first rest =>
        rw [hcase] at h hstop
        dsimp only at h
        split at h
        · cases h
        next hcolon =>
          refine ⟨first, rest, (Except.ok.inj h).symm, hcolon, fun part hpart => ?_⟩
          obtain ⟨hslash, hplain, hchars⟩ := mem_pathParts (hcase ▸ hpart)
          refine ⟨hslash, hplain.1, hplain.2, fun hdots => ?_, fun hnull => ?_, fun hback => ?_⟩
          · exact hstop (Or.inr (hdots ▸ hpart))
          · exact hchar (Or.inr (Or.inl (hchars _ hnull)))
          · exact hchar (Or.inr (Or.inr (hchars _ hback)))

theorem relativePath_settled {s r : String} (h : relativePath s = .ok r) : Settled (.ok r) := by
  obtain ⟨first, rest, rfl, hcolon, hparts⟩ := relativePath_ok h
  exact relativePath_join hparts hcolon

/-- Only a path that has no component, and no other fault, is not settled. -/
theorem relativePath_settled_iff (s : String) :
    Settled (relativePath s) ↔ s = "" ∨ '\x00' ∈ s.toList ∨ '\\' ∈ s.toList ∨
      s.toList.head? = some '/' ∨ ∃ part ∈ components s, part ≠ [] ∧ part ≠ ['.'] := by
  have hparts : (∃ part ∈ components s, part ≠ [] ∧ part ≠ ['.']) ↔ pathParts s ≠ [] := by
    rw [pathParts, Ne, List.filter_eq_nil_iff]
    simp [components]
  rw [hparts, relativePath_eq]
  split
  next h => exact iff_of_true trivial (by tauto)
  next h =>
    split
    next hstop =>
      refine iff_of_true trivial ?_
      rcases hstop with hslash | hdots
      · exact Or.inr (Or.inr (Or.inr (Or.inl hslash)))
      · exact Or.inr (Or.inr (Or.inr (Or.inr (List.ne_nil_of_mem hdots))))
    next hstop =>
      cases hcase : pathParts s with
      | nil => exact iff_of_false id (by tauto)
      | cons first rest =>
        refine iff_of_true ?_ (by simp)
        dsimp only
        split
        · trivial
        · next hcolon =>
          have hok : relativePath s = .ok (joinParts (first :: rest)) := by
            rw [relativePath_eq, if_neg h, if_neg hstop, hcase]
            exact if_neg hcolon
          exact relativePath_settled hok

/-- The dot has no parts. -/
theorem dot_unsettled : relativePath "." = .error .indexError ∧ ¬ Settled (relativePath ".") :=
  have h : relativePath "." = .error .indexError := by decide
  ⟨h, h ▸ id⟩
end

end RaytSystem.PyText

namespace RaytSystem

structure Sha256 where
  hex : String
  valid : PyText.isSha256 hex = true
  deriving DecidableEq

def derivedId (kind : String) (digest : Sha256) : String := kind ++ "_" ++ digest.hex

theorem isIdentifierChar_of_isHexDigit {c : Char} (h : PyText.isHexDigit c = true) :
    PyText.isIdentifierChar c = true := by
  simp only [PyText.isHexDigit, PyText.isIdentifierChar, Bool.or_eq_true, Bool.and_eq_true,
    decide_eq_true_eq] at h ⊢
  rcases h with h | ⟨ha, hf⟩
  · exact Or.inl (Or.inr h)
  · have hz : 'f' ≤ 'z' := by decide
    exact Or.inl (Or.inl ⟨ha, Char.le_trans hf hz⟩)

theorem isIdentifier_derivedId {c : Char} {cs : List Char} {kind : String} (digest : Sha256)
    (hkind : kind.toList = c :: cs) (hc : 'a' ≤ c ∧ c ≤ 'z') (hlength : cs.length ≤ 190)
    (hcs : cs.all PyText.isIdentifierChar = true) :
    PyText.isIdentifier (derivedId kind digest) = true := by
  have hvalid := digest.valid
  simp only [PyText.isSha256, Bool.and_eq_true, beq_iff_eq] at hvalid
  obtain ⟨hhex, hdigits⟩ := hvalid
  have htext : (derivedId kind digest).toList = c :: (cs ++ '_' :: digest.hex.toList) := by
    simp [derivedId, hkind]
  have hall : (cs ++ '_' :: digest.hex.toList).all PyText.isIdentifierChar = true := by
    rw [List.all_append, List.all_cons, hcs]
    have hdigitChars : digest.hex.toList.all PyText.isIdentifierChar = true := by
      rw [List.all_eq_true] at hdigits ⊢
      exact fun d hd => isIdentifierChar_of_isHexDigit (hdigits d hd)
    rw [hdigitChars]
    decide
  rw [String.length_toList.symm] at hhex
  simp only [PyText.isIdentifier, htext, hall, hc, List.length_append, List.length_cons, hhex]
  simp
  omega

theorem startsWith_derivedId (kind : String) (digest : Sha256) :
    PyText.startsWith (derivedId kind digest) (kind ++ "_") = true := by
  have htext : (derivedId kind digest).toList = (kind ++ "_").toList ++ digest.hex.toList := by
    simp [derivedId]
  rw [PyText.startsWith, htext, List.isPrefixOf_iff_prefix]
  exact List.prefix_append _ _

inductive Sensitivity where
  | publicData | internal | confidential | restricted | secret
  deriving DecidableEq, Repr

end RaytSystem
