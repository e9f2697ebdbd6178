import Mathlib.Data.Nat.Digits.Defs
import Mathlib.Data.List.Infix

/-! Strings of JavaScript as lists of UTF-16 code units. -/

abbrev CodeUnit := UInt16

abbrev JsText := List CodeUnit

namespace JsText

def utf16 (c : Char) : JsText :=
  if c.toNat < 0x10000 then [c.toNat.toUInt16]
  else
    [(0xD800 + (c.toNat - 0x10000) / 0x400).toUInt16,
      (0xDC00 + (c.toNat - 0x10000) % 0x400).toUInt16]

def units (s : String) : JsText := s.toList.flatMap utf16

def indexOf (pattern : JsText) (position : ℕ) (text : JsText) : Option ℕ :=
  (List.range' position (text.length + 1 - position)).find? fun i =>
    pattern.isPrefixOf (text.drop i)

def digit36 (d : ℕ) : CodeUnit := if d < 10 then (48 + d).toUInt16 else (87 + d).toUInt16

variable (n : ℕ)

def digits36 : List ℕ := if n = 0 then [0] else Nat.digits 36 n

def toString36 : JsText := ((digits36 n).map digit36).reverse

abbrev dollar : CodeUnit := 36
abbrev ampersand : CodeUnit := 38
abbrev apostrophe : CodeUnit := 39
abbrev backtick : CodeUnit := 96

/-- The text for a match of a string pattern: `$$`, `$&` and the two `$` with a quote stand for a
dollar sign, the match, the text before it and the text after it. -/
def substitution (matched before after : JsText) : JsText → JsText
  | [] => []
  | [u] => [u]
  | u :: v :: rest =>
    if u = dollar then
      if v = dollar then dollar :: substitution matched before after rest
      else if v = ampersand then matched ++ substitution matched before after rest
      else if v = backtick then before ++ substitution matched before after rest
      else if v = apostrophe then after ++ substitution matched before after rest
      else u :: substitution matched before after (v :: rest)
    else u :: substitution matched before after (v :: rest)

def replaceFrom (pattern replacement : JsText) : JsText → ℕ → JsText → JsText
  | _, _, [] => []
  | before, skip + 1, u :: rest => replaceFrom pattern replacement (before ++ [u]) skip rest
  | before, 0, u :: rest =>
    if pattern <+: u :: rest then
      substitution pattern before ((u :: rest).drop pattern.length) replacement ++
        replaceFrom pattern replacement (before ++ [u]) (pattern.length - 1) rest
    else u :: replaceFrom pattern replacement (before ++ [u]) 0 rest

def replaceAll (pattern replacement text : JsText) : JsText :=
  replaceFrom pattern replacement [] 0 text

theorem replaceFrom_skip (pattern replacement s : JsText) (n : ℕ) (before : JsText) :
    ∃ before', replaceFrom pattern replacement before n s =
      replaceFrom pattern replacement before' 0 (s.drop n) := by
  induction n generalizing before s with
  | zero => exact ⟨before, rfl⟩
  | succ n ih =>
    cases s with
    | nil => exact ⟨before, by simp [replaceFrom]⟩
    | cons u s => exact ih s (before ++ [u])

def Literal (replacement : JsText) : Prop :=
  ∀ v ∈ [dollar, ampersand, backtick, apostrophe], ¬[dollar, v] <:+: replacement

instance (replacement : JsText) : Decidable (Literal replacement) :=
  List.decidableBAll (fun v => ¬[dollar, v] <:+: replacement) _

theorem Literal.of_infix {s t : JsText} (h : Literal t) (hst : s <:+: t) : Literal s :=
  fun v hv hs => h v hv (hs.trans hst)

theorem substitution_literal {matched before after replacement : JsText}
    (h : Literal replacement) : substitution matched before after replacement = replacement := by
  induction replacement with
  | nil => rfl
  | cons u rest ih =>
    have ih' := ih (h.of_infix (List.suffix_cons u rest).isInfix)
    cases rest with
    | nil => rfl
    | cons v rest =>
      have hne : ∀ x ∈ [dollar, ampersand, backtick, apostrophe], u = dollar → v ≠ x := by
        rintro x hx rfl rfl
        exact h v hx ⟨[], rest, rfl⟩
      have hd := hne dollar (by decide)
      have ha := hne ampersand (by decide)
      have hb := hne backtick (by decide)
      have hq := hne apostrophe (by decide)
      simp only [substitution, ih']
      split
      next hu => rw [if_neg (hd hu), if_neg (ha hu), if_neg (hb hu), if_neg (hq hu)]
      next => rfl

theorem digit36_mem : ∀ d < 36, digit36 d ∈ units "0123456789abcdefghijklmnopqrstuvwxyz" := by
  decide +kernel

theorem digit36_inj : ∀ d < 36, ∀ e < 36, digit36 d = digit36 e → d = e := by
  decide +kernel

theorem digits36_lt : ∀ d ∈ digits36 n, d < 36 := by
  intro d hd
  unfold digits36 at hd
  split at hd
  · obtain rfl := List.mem_singleton.mp hd
    omega
  · exact Nat.digits_lt_base (by omega) hd

theorem ofDigits_digits36 : Nat.ofDigits 36 (digits36 n) = n := by
  unfold digits36
  split
  next h => simp [h]
  next => exact Nat.ofDigits_digits 36 n

theorem toString36_mem {n : ℕ} {u : CodeUnit} (h : u ∈ toString36 n) :
    u ∈ units "0123456789abcdefghijklmnopqrstuvwxyz" := by
  obtain ⟨d, hd, rfl⟩ := List.mem_map.mp (List.mem_reverse.mp h)
  exact digit36_mem d (digits36_lt n d hd)

theorem toString36_inj {m n : ℕ} (h : toString36 m = toString36 n) : m = n := by
  have hmap : (digits36 m).map digit36 = (digits36 n).map digit36 := List.reverse_inj.mp h
  have hdigits : ∀ xs ys : List ℕ, (∀ d ∈ xs, d < 36) → (∀ d ∈ ys, d < 36) →
      xs.map digit36 = ys.map digit36 → xs = ys := by
    intro xs
    induction xs with
    | nil =>
      intro ys _ _ hmap
      exact (List.map_eq_nil_iff.mp hmap.symm).symm
    | cons x xs ih =>
      intro ys hxs hys hmap
      cases ys with
      | nil => cases hmap
      | cons y ys =>
        obtain ⟨hx, hxs⟩ := List.forall_mem_cons.mp hxs
        obtain ⟨hy, hys⟩ := List.forall_mem_cons.mp hys
        obtain ⟨hxy, hrest⟩ := List.cons.inj hmap
        rw [digit36_inj x hx y hy hxy, ih ys hxs hys hrest]
  rw [← ofDigits_digits36 m, ← ofDigits_digits36 n,
    hdigits _ _ (digits36_lt m) (digits36_lt n) hmap]

end JsText
