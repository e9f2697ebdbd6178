import RaytSystem.DecimalNotation
import RaytSystem.JsonRoundTrip

/-! Canonical JSON of decimal numbers, and the pairs of numbers that it tells apart. -/
namespace RaytSystem.Canonical
open Decimals JsonText

def defaultContext : Context where
  prec := 28
  emin := -999999
  emax := 999999
  prec_pos := by decide
  range := by decide

inductive DecimalFault where
  /-- `decimal.Overflow`. -/
  | overflow
  deriving DecidableEq, Repr

def canonicalDecimal (value : Decimal) : Except DecimalFault Value :=
  match normalize defaultContext value with
  | none => .error .overflow
  | some normalized => .ok (.str (String.ofList (plain normalized)))

def decimalJsonBytes (value : Decimal) : Except DecimalFault ByteArray :=
  match canonicalDecimal value with
  | .error e => .error e
  | .ok normalized => .ok (dumps normalized).toUTF8

def SameBytes (a b : Decimal) : Prop :=
  ∃ bytes, decimalJsonBytes a = .ok bytes ∧ decimalJsonBytes b = .ok bytes

def Merged (a b : Decimal) : Prop :=
  a.negative = b.negative ∧ |a.value| < defaultContext.limit ∧ |b.value| < defaultContext.limit ∧
    ∃ n e n' e', Rounds defaultContext |a.value| n e ∧ Rounds defaultContext |b.value| n' e' ∧
      (n : ℚ) * pow10 e = n' * pow10 e'

theorem limit_pos : 0 < defaultContext.limit := (pow10_pos _).trans lt_limit

theorem bytes_below {a : Decimal} (h : |a.value| < defaultContext.limit) :
    ∃ r n e, decimalJsonBytes a = .ok (dumps (.str (String.ofList (plain r)))).toUTF8 ∧
      r.negative = a.negative ∧ Rounds defaultContext |a.value| n e ∧
      r.magnitude = n * pow10 e ∧ Reduced r := by
  rw [a.abs_value] at h ⊢
  obtain ⟨r, n, e, hnormal, hsign, hrounds, hmag, hreduced⟩ := normalize_below h
  refine ⟨r, n, e, ?_, hsign, hrounds, hmag, hreduced⟩
  rw [decimalJsonBytes, canonicalDecimal, hnormal]

theorem bytes_above {a : Decimal} (h : defaultContext.limit ≤ |a.value|) :
    decimalJsonBytes a = .error .overflow := by
  rw [a.abs_value] at h
  rw [decimalJsonBytes, canonicalDecimal, normalize_above h limit_pos]

theorem dumps_text {s s' : String} :
    (dumps (.str s)).toUTF8 = (dumps (.str s')).toUTF8 ↔ s = s' := by
  constructor
  · intro h
    have hsame := dumps_injective (.str s) (.str s') (String.toByteArray_inj.mp h)
    simpa [Same, normal] using hsame
  · rintro rfl
    rfl

variable {a b : Decimal}

theorem sameBytes_iff : SameBytes a b ↔ Merged a b := by
  by_cases ha : |a.value| < defaultContext.limit
  · by_cases hb : |b.value| < defaultContext.limit
    · obtain ⟨r, n, e, hbytes, hsign, hrounds, hmag, hreduced⟩ := bytes_below ha
      obtain ⟨r', n', e', hbytes', hsign', hrounds', hmag', hreduced'⟩ := bytes_below hb
      have htext : SameBytes a b ↔ plain r = plain r' := by
        rw [SameBytes, hbytes, hbytes']
        constructor
        · rintro ⟨bytes, hr, hr'⟩
          have hsame := dumps_text.mp (Except.ok.inj (hr.trans hr'.symm))
          exact String.ofList_injective hsame
        · intro h
          exact ⟨_, rfl, by rw [h]⟩
      rw [htext, plain_eq_iff hreduced hreduced', hsign, hsign', hmag, hmag']
      constructor
      · rintro ⟨hneg, hvalue⟩
        exact ⟨hneg, ha, hb, n, e, n', e', hrounds, hrounds', hvalue⟩
      · rintro ⟨hneg, -, -, m, f, m', f', hm, hm', hvalue⟩
        obtain ⟨rfl, rfl⟩ := hrounds.unique hm
        obtain ⟨rfl, rfl⟩ := hrounds'.unique hm'
        exact ⟨hneg, hvalue⟩
    · have hnone := bytes_above (not_lt.mp hb)
      constructor
      · rintro ⟨bytes, -, hbytes⟩
        rw [hnone] at hbytes
        cases hbytes
      · rintro ⟨-, -, hbelow, -⟩
        exact absurd hbelow hb
  · have hnone := bytes_above (not_lt.mp ha)
    constructor
    · rintro ⟨bytes, hbytes, -⟩
      rw [hnone] at hbytes
      cases hbytes
    · rintro ⟨-, hbelow, -⟩
      exact absurd hbelow ha

theorem negative_of_value (h : a.value = b.value) (hne : a.value ≠ 0) :
    a.negative = b.negative := by
  have ha := a.magnitude_nonneg
  have hb := b.magnitude_nonneg
  unfold Decimal.value at h hne
  cases hsign : a.negative <;> cases hsign' : b.negative <;>
    simp only [hsign, hsign', Bool.false_eq_true, if_false, if_true] at h hne
  · rfl
  · exact absurd (le_antisymm (by linarith) ha) hne
  · exact absurd (by linarith) hne
  · rfl

theorem merged_equal (h : a.value = b.value) :
    Merged a b ↔ |a.value| < defaultContext.limit ∧ (a.value = 0 → a.negative = b.negative) := by
  constructor
  · rintro ⟨hsign, hlimit, -⟩
    exact ⟨hlimit, fun _ => hsign⟩
  · rintro ⟨hlimit, hzero⟩
    have hsign : a.negative = b.negative := by
      by_cases hvalue : a.value = 0
      · exact hzero hvalue
      · exact negative_of_value h hvalue
    obtain ⟨r, n, e, -, -, hrounds, -⟩ := bytes_below hlimit
    refine ⟨hsign, hlimit, by rwa [← h], n, e, n, e, hrounds, by rwa [← h], rfl⟩

/-- Equal encodings mean equal numbers and the reverse, for exactly these pairs: equal numbers
below the limit, and of one sign if they are zero; different numbers that the context does not
merge. -/
theorem decimal_identity (a b : Decimal) : (SameBytes a b ↔ a.value = b.value) ↔
      (a.value = b.value →
        |a.value| < defaultContext.limit ∧ (a.value = 0 → a.negative = b.negative)) ∧
      (a.value ≠ b.value → ¬Merged a b) := by
  rw [sameBytes_iff]
  by_cases h : a.value = b.value
  · rw [merged_equal h]
    simp [h]
  · simp [h]

/-- The last of 29 digits is lost. -/
theorem long_numbers_merged :
    SameBytes ⟨false, 10 ^ 28, 0⟩ ⟨false, 10 ^ 28 + 1, 0⟩ ∧
      Decimal.value ⟨false, 10 ^ 28, 0⟩ ≠ Decimal.value ⟨false, 10 ^ 28 + 1, 0⟩ := by
  have hfirst : normalize defaultContext ⟨false, 10 ^ 28, 0⟩ = some ⟨false, 1, 28⟩ := by decide
  have hsecond : normalize defaultContext ⟨false, 10 ^ 28 + 1, 0⟩ = some ⟨false, 1, 28⟩ := by
    decide
  constructor
  · refine ⟨(dumps (.str (String.ofList (plain ⟨false, 1, 28⟩)))).toUTF8, ?_, ?_⟩
    · rw [decimalJsonBytes, canonicalDecimal, hfirst]
    · rw [decimalJsonBytes, canonicalDecimal, hsecond]
  · norm_num [Decimal.value, Decimal.magnitude, pow10]

end RaytSystem.Canonical
