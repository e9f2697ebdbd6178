import RaytSystem.DecimalRounding

/-! Reduced decimal numbers and their plain notation, which tells their signs and values apart. -/
namespace Decimals

section

def stripZeros (emax : ℤ) : ℕ → ℕ → ℤ → ℕ × ℤ
  | 0, n, e => (n, e)
  | rounds + 1, n, e =>
    if n % 10 = 0 ∧ e < emax then stripZeros emax rounds (n / 10) (e + 1) else (n, e)

def normalize (c : Context) (d : Decimal) : Option Decimal :=
  (fix c d).map fun r =>
    if r.coeff = 0 then ⟨r.negative, 0, 0⟩
    else
      let stripped := stripZeros c.emax (numDigits r.coeff) r.coeff r.exp
      ⟨r.negative, stripped.1, stripped.2⟩

def Reduced (d : Decimal) : Prop := d.coeff = 0 ∧ d.exp = 0 ∨ d.coeff % 10 ≠ 0

theorem stripZeros_spec {emax : ℤ} {rounds n : ℕ} {e : ℤ} (hn : n ≠ 0) (hrounds : n < 10 ^ rounds)
    (hmax : (n : ℚ) * pow10 e < pow10 (emax + 1)) :
    ((stripZeros emax rounds n e).1 : ℚ) * pow10 (stripZeros emax rounds n e).2 = n * pow10 e ∧
      (stripZeros emax rounds n e).1 % 10 ≠ 0 := by
  induction rounds generalizing n e with
  | zero =>
    rw [pow_zero] at hrounds
    omega
  | succ rounds ih =>
    rw [stripZeros]
    split
    next hzero =>
      have hten : n = n / 10 * 10 := by omega
      have hvalue : ((n / 10 : ℕ) : ℚ) * pow10 (e + 1) = n * pow10 e := by
        have hcast : (n : ℚ) = (n / 10 : ℕ) * 10 := by exact_mod_cast hten
        rw [pow10_succ, hcast]
        ring
      have hless : n / 10 < 10 ^ rounds := by
        rw [pow_succ] at hrounds
        omega
      rw [← hvalue] at hmax ⊢
      exact ih (by omega) hless hmax
    next hstop =>
      refine ⟨rfl, ?_⟩
      intro hzero
      have hover : emax ≤ e := by
        by_contra hlt
        exact hstop ⟨hzero, not_le.mp hlt⟩
      have hten : (10 : ℚ) ≤ n := by
        have hten : 10 ≤ n := by omega
        exact_mod_cast hten
      have hpos := pow10_pos e
      have hlarge : pow10 (emax + 1) ≤ n * pow10 e := by
        calc pow10 (emax + 1) ≤ pow10 (e + 1) := pow10_le.mpr (by omega)
          _ = 10 * pow10 e := by rw [pow10_succ, mul_comm]
          _ ≤ n * pow10 e := mul_le_mul_of_nonneg_right hten hpos.le
      exact absurd hmax (not_lt.mpr hlarge)

variable {c : Context} {d : Decimal}

theorem magnitude_zero (h : d.coeff = 0) : d.magnitude = 0 := by
  rw [Decimal.magnitude, h, Nat.cast_zero, zero_mul]

theorem normalize_below (hlimit : d.magnitude < c.limit) :
    ∃ r n e, normalize c d = some r ∧ r.negative = d.negative ∧ Rounds c d.magnitude n e ∧
      r.magnitude = n * pow10 e ∧ Reduced r := by
  by_cases hzero : d.coeff = 0
  · obtain ⟨exp, hfix⟩ := fix_zero (c := c) hzero
    have hmag := magnitude_zero hzero
    refine ⟨⟨d.negative, 0, 0⟩, 0, c.etiny, ?_, rfl, ?_, ?_, Or.inl ⟨rfl, rfl⟩⟩
    · rw [normalize, hfix]
      rfl
    · rw [hmag]
      exact rounds_zero c
    · rw [Decimal.magnitude, Nat.cast_zero, zero_mul, zero_mul]
  · obtain ⟨r, hfix, hsign, hmag, hsmall⟩ := fix_below hzero hlimit
    have hrounds := rounds_multiple (c := c) hzero
    by_cases hnothing : r.coeff = 0
    · refine ⟨⟨r.negative, 0, 0⟩, _, _, ?_, hsign, hrounds, ?_, Or.inl ⟨rfl, rfl⟩⟩
      · rw [normalize, hfix, Option.map_some, if_pos hnothing]
      · rw [← hmag, magnitude_zero hnothing]
        exact magnitude_zero rfl
    · have htop : c.etop + c.prec = c.emax + 1 := by
        rw [Context.etop]
        ring
      rw [htop] at hsmall
      obtain ⟨hvalue, hlast⟩ := stripZeros_spec hnothing (lt_pow_numDigits r.coeff) hsmall
      refine ⟨⟨r.negative, (stripZeros c.emax (numDigits r.coeff) r.coeff r.exp).1,
        (stripZeros c.emax (numDigits r.coeff) r.coeff r.exp).2⟩, _, _, ?_, hsign, hrounds,
        hvalue.trans hmag, Or.inr hlast⟩
      rw [normalize, hfix, Option.map_some, if_neg hnothing]

theorem normalize_above (hlimit : c.limit ≤ d.magnitude) (hpos : 0 < c.limit) :
    normalize c d = none := by
  have hne : d.coeff ≠ 0 := by
    intro hzero
    rw [magnitude_zero hzero] at hlimit
    exact absurd hlimit (not_le.mpr hpos)
  rw [normalize, fix_above hne hlimit, Option.map_none]

theorem coeff_zero_iff : d.coeff = 0 ↔ d.magnitude = 0 := by
  rw [Decimal.magnitude, mul_eq_zero, Nat.cast_eq_zero]
  exact (or_iff_left (pow10_pos d.exp).ne').symm

theorem exp_le_of_last {d d' : Decimal} (hlast : d'.coeff % 10 ≠ 0)
    (hmag : d.magnitude = d'.magnitude) : d.exp ≤ d'.exp := by
  by_contra hlt
  push Not at hlt
  have hexp : d.exp = ((d.exp - d'.exp).toNat : ℤ) + d'.exp := by omega
  have hpow := pow10_pos d'.exp
  rw [Decimal.magnitude, Decimal.magnitude, hexp, pow10_add, pow10_natCast, ← mul_assoc] at hmag
  have hcoeff := mul_right_cancel₀ hpow.ne' hmag
  have hcoeff : d.coeff * 10 ^ (d.exp - d'.exp).toNat = d'.coeff := by exact_mod_cast hcoeff
  have hten : 10 ∣ d'.coeff := by
    rw [← hcoeff]
    exact Dvd.dvd.mul_left (dvd_pow_self 10 (by omega)) _
  exact hlast (Nat.eq_zero_of_dvd_of_lt ((Nat.dvd_mod_iff (dvd_refl 10)).mpr hten)
    (Nat.mod_lt _ (by decide)))

theorem Reduced.unique {d d' : Decimal} (h : Reduced d) (h' : Reduced d')
    (hmag : d.magnitude = d'.magnitude) : d.coeff = d'.coeff ∧ d.exp = d'.exp := by
  have hzero : d.coeff = 0 ↔ d'.coeff = 0 := by rw [coeff_zero_iff, hmag, coeff_zero_iff]
  rcases h with ⟨hcoeff, hexp⟩ | hlast <;> rcases h' with ⟨hcoeff', hexp'⟩ | hlast'
  · exact ⟨hcoeff.trans hcoeff'.symm, hexp.trans hexp'.symm⟩
  · have hcoeff' := hzero.mp hcoeff
    omega
  · have hcoeff := hzero.mpr hcoeff'
    omega
  · have hexp : d.exp = d'.exp :=
      le_antisymm (exp_le_of_last hlast' hmag) (exp_le_of_last hlast hmag.symm)
    refine ⟨?_, hexp⟩
    rw [Decimal.magnitude, Decimal.magnitude, hexp] at hmag
    exact_mod_cast mul_right_cancel₀ (pow10_pos d'.exp).ne' hmag
end

def pointed (digits : List Char) (exp : ℤ) : List Char × List Char :=
  let dotplace := exp + digits.length
  if dotplace < 0 then (['0'], List.replicate (-dotplace).toNat '0' ++ digits)
  else if digits.length < dotplace then
    (digits ++ List.replicate (dotplace - digits.length).toNat '0', [])
  else (if dotplace = 0 then ['0'] else digits.take dotplace.toNat, digits.drop dotplace.toNat)

variable (d : Decimal)

def shownExp : ℤ := if d.coeff = 0 ∧ 0 < d.exp then 0 else d.exp

def intFrac : List Char × List Char :=
  pointed (Nat.toDigits 10 d.coeff) (shownExp d)

def unsigned : List Char :=
  (intFrac d).1 ++ if (intFrac d).2 = [] then [] else '.' :: (intFrac d).2

def plain : List Char := if d.negative then '-' :: unsigned d else unsigned d

theorem digits_isDigit (n : ℕ) : ∀ ch ∈ Nat.toDigits 10 n, ch.isDigit = true :=
  fun _ hch => Nat.isDigit_of_mem_toDigits (by decide) (by decide) hch

theorem replicate_isDigit (n : ℕ) : ∀ ch ∈ List.replicate n '0', ch.isDigit = true := by
  intro ch hch
  rw [List.eq_of_mem_replicate hch]
  rfl

theorem pointed_digits {digits : List Char} (hne : digits ≠ [])
    (h : ∀ ch ∈ digits, ch.isDigit = true) (exp : ℤ) :
    (pointed digits exp).1 ≠ [] ∧ ∀ ch ∈ (pointed digits exp).1, ch.isDigit = true := by
  have hlength := List.length_pos_iff.mpr hne
  have hzero : ∀ ch ∈ ['0'], ch.isDigit = true := replicate_isDigit 1
  unfold pointed
  by_cases hbefore : exp + digits.length < 0
  · simp only [if_pos hbefore]
    exact ⟨by decide, hzero⟩
  by_cases hafter : (digits.length : ℤ) < exp + digits.length
  · simp only [if_neg hbefore, if_pos hafter]
    refine ⟨by simp [hne], ?_⟩
    intro ch hch
    rcases List.mem_append.mp hch with hch | hch
    · exact h ch hch
    · exact replicate_isDigit _ ch hch
  by_cases hdot : exp + digits.length = 0
  · simp only [if_neg hbefore, if_neg hafter, if_pos hdot]
    exact ⟨by decide, hzero⟩
  · simp only [if_neg hbefore, if_neg hafter, if_neg hdot]
    refine ⟨?_, fun ch hch => h ch (List.mem_of_mem_take hch)⟩
    rw [← List.length_pos_iff, List.length_take]
    omega

theorem intFrac_digits : (intFrac d).1 ≠ [] ∧ ∀ ch ∈ (intFrac d).1, ch.isDigit = true :=
  pointed_digits Nat.toDigits_ne_nil (digits_isDigit d.coeff) _

theorem pointed_value (digits : List Char) (exp : ℤ) :
    (Nat.ofDigitChars 10 ((pointed digits exp).1 ++ (pointed digits exp).2) 0 : ℚ) *
      pow10 (-((pointed digits exp).2.length : ℤ)) = Nat.ofDigitChars 10 digits 0 * pow10 exp := by
  have hlead : ∀ rest : List Char, Nat.ofDigitChars 10 ('0' :: rest) 0 =
      Nat.ofDigitChars 10 rest 0 := fun rest => by simp [Nat.ofDigitChars_cons]
  unfold pointed
  by_cases hbefore : exp + digits.length < 0
  · simp only [if_pos hbefore]
    have hexp : -((List.replicate (-(exp + digits.length)).toNat '0' ++ digits).length : ℤ) =
        exp := by
      rw [List.length_append, List.length_replicate]
      omega
    rw [hexp, List.singleton_append, hlead, Nat.ofDigitChars_append,
      Nat.ofDigitChars_replicate_zero, Nat.mul_zero]
  by_cases hafter : (digits.length : ℤ) < exp + digits.length
  · simp only [if_neg hbefore, if_pos hafter]
    have hexp : exp = ((exp + digits.length - digits.length).toNat : ℤ) := by omega
    have hpow := congrArg pow10 hexp
    rw [pow10_natCast] at hpow
    rw [List.append_nil, Nat.ofDigitChars_append, Nat.ofDigitChars_replicate_zero, hpow,
      List.length_nil, Nat.cast_zero, neg_zero, pow10_zero, mul_one, Nat.cast_mul, mul_comm]
  · have hexp : -((digits.drop (exp + digits.length).toNat).length : ℤ) = exp := by
      rw [List.length_drop]
      omega
    by_cases hdot : exp + digits.length = 0
    · simp only [if_neg hbefore, if_neg hafter, if_pos hdot]
      rw [hexp, hdot, Int.toNat_zero, List.drop_zero, List.singleton_append, hlead]
    · simp only [if_neg hbefore, if_neg hafter, if_neg hdot]
      rw [hexp, List.take_append_drop]

theorem intFrac_value : (Nat.ofDigitChars 10 ((intFrac d).1 ++ (intFrac d).2) 0 : ℚ) *
      pow10 (-((intFrac d).2.length : ℤ)) = d.magnitude := by
  rw [intFrac, pointed_value, Nat.ofDigitChars_ten_toDigits, shownExp]
  split
  next hzero => rw [magnitude_zero hzero.1, hzero.1, Nat.cast_zero, zero_mul]
  next => rfl

theorem unsigned_parts {d : Decimal} : (unsigned d).takeWhile Char.isDigit = (intFrac d).1 ∧
      ((unsigned d).dropWhile Char.isDigit).tail = (intFrac d).2 := by
  have hdigits := (intFrac_digits d).2
  unfold unsigned
  rw [List.takeWhile_append_of_pos hdigits, List.dropWhile_append_of_pos hdigits]
  split
  next hnone => simp [hnone]
  next => simp [show Char.isDigit '.' = false from rfl]

theorem unsigned_head : (unsigned d).head? ≠ some '-' := by
  obtain ⟨hne, hdigits⟩ := intFrac_digits d
  obtain ⟨ch, rest, hcons⟩ := List.exists_cons_of_ne_nil hne
  rw [unsigned, hcons, List.cons_append, List.head?_cons, ne_eq, Option.some.injEq]
  rintro rfl
  have hminus := hdigits '-' (by rw [hcons]; exact List.mem_cons_self)
  cases hminus

theorem plain_injective {d d' : Decimal} (h : plain d = plain d') :
    d.negative = d'.negative ∧ d.magnitude = d'.magnitude := by
  have hsplit : d.negative = d'.negative ∧ unsigned d = unsigned d' := by
    unfold plain at h
    have hhead := unsigned_head d
    have hhead' := unsigned_head d'
    cases hsign : d.negative <;> cases hsign' : d'.negative <;>
      simp only [hsign, hsign', Bool.false_eq_true, if_false, if_true] at h
    · exact ⟨rfl, h⟩
    · rw [h] at hhead
      exact absurd rfl hhead
    · rw [← h] at hhead'
      exact absurd rfl hhead'
    · exact ⟨rfl, List.tail_eq_of_cons_eq h⟩
  obtain ⟨hsign, hsame⟩ := hsplit
  have hint : (intFrac d).1 = (intFrac d').1 := by
    rw [← unsigned_parts.1, hsame, unsigned_parts.1]
  have hfrac : (intFrac d).2 = (intFrac d').2 := by
    rw [← unsigned_parts.2, hsame, unsigned_parts.2]
  refine ⟨hsign, ?_⟩
  rw [← intFrac_value, hint, hfrac, intFrac_value]

theorem plain_eq_iff {d d' : Decimal} (h : Reduced d) (h' : Reduced d') :
    plain d = plain d' ↔ d.negative = d'.negative ∧ d.magnitude = d'.magnitude := by
  constructor
  · exact plain_injective
  · rintro ⟨hsign, hmag⟩
    obtain ⟨hcoeff, hexp⟩ := h.unique h' hmag
    have hsame : d = d' := by
      cases d
      cases d'
      simp_all
    rw [hsame]

end Decimals
