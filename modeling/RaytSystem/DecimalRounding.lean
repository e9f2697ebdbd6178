import Mathlib.Algebra.Order.Field.Power
import Mathlib.Algebra.Order.Ring.Rat
import Mathlib.Data.Rat.Cast.Order
import Mathlib.Tactic.Linarith
import Mathlib.Tactic.Positivity
import Mathlib.Tactic.Ring

/-! Decimal numbers with a sign, a coefficient and an exponent: what a context rounds them to, with
ties to an even coefficient, and which numbers it has no room for. -/
namespace Decimals

def pow10 (e : ℤ) : ℚ := 10 ^ e

theorem pow10_pos (e : ℤ) : 0 < pow10 e := zpow_pos (by norm_num) e

theorem pow10_add (a b : ℤ) : pow10 (a + b) = pow10 a * pow10 b := zpow_add₀ (by norm_num) a b

theorem pow10_natCast (n : ℕ) : pow10 n = ((10 ^ n : ℕ) : ℚ) := by
  rw [pow10, zpow_natCast]
  push_cast
  rfl

theorem pow10_zero : pow10 0 = 1 := zpow_zero 10

theorem pow10_succ (e : ℤ) : pow10 (e + 1) = pow10 e * 10 := by
  rw [pow10_add]
  rfl

theorem pow10_lt {a b : ℤ} : pow10 a < pow10 b ↔ a < b := zpow_lt_zpow_iff_right₀ (by norm_num)

theorem pow10_le {a b : ℤ} : pow10 a ≤ pow10 b ↔ a ≤ b := zpow_le_zpow_iff_right₀ (by norm_num)

structure Decimal where
  negative : Bool
  coeff : ℕ
  exp : ℤ
  deriving DecidableEq, Repr

variable (d : Decimal)

def Decimal.magnitude : ℚ := d.coeff * pow10 d.exp

def Decimal.value : ℚ := if d.negative then -d.magnitude else d.magnitude

theorem Decimal.magnitude_nonneg : 0 ≤ d.magnitude :=
  mul_nonneg d.coeff.cast_nonneg (pow10_pos d.exp).le

theorem Decimal.abs_value : |d.value| = d.magnitude := by
  unfold Decimal.value
  split
  · rw [abs_neg, abs_of_nonneg d.magnitude_nonneg]
  · exact abs_of_nonneg d.magnitude_nonneg

def numDigits (n : ℕ) : ℕ := (Nat.toDigits 10 n).length

theorem numDigits_le {n k : ℕ} (hk : 0 < k) : numDigits n ≤ k ↔ n < 10 ^ k :=
  Nat.length_toDigits_le_iff (by decide) hk

theorem numDigits_pos (n : ℕ) : 0 < numDigits n := Nat.length_toDigits_pos

theorem lt_pow_numDigits (n : ℕ) : n < 10 ^ numDigits n :=
  (numDigits_le (numDigits_pos n)).mp le_rfl

theorem pow_numDigits_le {n : ℕ} (h : n ≠ 0) : 10 ^ (numDigits n - 1) ≤ n := by
  by_contra hlt
  push Not at hlt
  have hpos := numDigits_pos n
  rcases Nat.eq_zero_or_pos (numDigits n - 1) with hone | hmore
  · rw [hone, pow_zero] at hlt
    omega
  · have hshort := (numDigits_le hmore).mpr hlt
    omega

section
variable {d : Decimal}

theorem magnitude_lt (d : Decimal) : d.magnitude < pow10 (numDigits d.coeff + d.exp) := by
  rw [pow10_add, pow10_natCast, Decimal.magnitude]
  apply mul_lt_mul_of_pos_right _ (pow10_pos d.exp)
  exact_mod_cast lt_pow_numDigits d.coeff

theorem le_magnitude (h : d.coeff ≠ 0) : pow10 (numDigits d.coeff + d.exp - 1) ≤ d.magnitude := by
  have hpos := numDigits_pos d.coeff
  have hexp : (numDigits d.coeff : ℤ) + d.exp - 1 = (numDigits d.coeff - 1 : ℕ) + d.exp := by
    omega
  rw [hexp, pow10_add, pow10_natCast, Decimal.magnitude]
  apply mul_le_mul_of_nonneg_right _ (pow10_pos d.exp).le
  exact_mod_cast pow_numDigits_le h
end

section

structure Context where
  prec : ℕ
  emin : ℤ
  emax : ℤ
  prec_pos : 0 < prec
  range : emin ≤ emax

variable (c : Context)

def Context.etiny : ℤ := c.emin - c.prec + 1

def Context.etop : ℤ := c.emax - c.prec + 1

theorem Context.etiny_le : c.etiny ≤ c.etop := by
  have hrange := c.range
  unfold Context.etiny Context.etop
  omega

def Context.limit : ℚ := (pow10 c.prec - 1 / 2) * pow10 c.etop

/-- The multiple `n` of `pow10 e` is what a context rounds `x` to: `e` is the last place of `x`, or
the last place of the context where that is higher, and a tie goes to the even multiple. -/
structure Rounds (x : ℚ) (n : ℕ) (e : ℤ) : Prop where
  least : c.etiny ≤ e
  below : x < pow10 (e + c.prec)
  decade : e = c.etiny ∨ pow10 (e + c.prec - 1) ≤ x
  near : |x - n * pow10 e| ≤ pow10 e / 2
  even : |x - n * pow10 e| = pow10 e / 2 → n % 2 = 0

variable {c} {x : ℚ} {n n' : ℕ} {e e' : ℤ}

theorem Rounds.exp_le (h : Rounds c x n e) (h' : Rounds c x n' e') : e' ≤ e := by
  rcases h'.decade with hleast | hdecade
  · rw [hleast]
    exact h.least
  · have hlt := pow10_lt.mp (hdecade.trans_lt h.below)
    omega

theorem Rounds.coeff_le (h : Rounds c x n e) (h' : Rounds c x n' e) : n' ≤ n := by
  by_contra hlt
  push Not at hlt
  have hpos := pow10_pos e
  have hnear := abs_le.mp h.near
  have hnear' := abs_le.mp h'.near
  have hstep : ((n : ℚ) + 1) * pow10 e ≤ n' * pow10 e := by
    apply mul_le_mul_of_nonneg_right _ hpos.le
    exact_mod_cast hlt
  -- both multiples are half a place away, so both are even, and they are neighbours
  have hhalf : x - n * pow10 e = pow10 e / 2 := by linarith
  have hhalf' : x - n' * pow10 e = -(pow10 e / 2) := by linarith
  have heven := h.even (by rw [hhalf, abs_of_pos (by linarith)])
  have heven' := h'.even (by rw [hhalf', abs_neg, abs_of_pos (by linarith)])
  have hnext : ((n' : ℚ) - (n + 1)) * pow10 e = 0 := by linarith
  have hsucc : (n' : ℚ) = n + 1 := by
    rcases mul_eq_zero.mp hnext with hzero | hzero
    · linarith
    · exact absurd hzero hpos.ne'
  have hsucc : n' = n + 1 := by exact_mod_cast hsucc
  omega

theorem Rounds.unique (h : Rounds c x n e) (h' : Rounds c x n' e') : n = n' ∧ e = e' := by
  have hexp : e = e' := le_antisymm (h'.exp_le h) (h.exp_le h')
  subst hexp
  exact ⟨le_antisymm (h'.coeff_le h) (h.coeff_le h'), rfl⟩

theorem rounds_zero (c : Context) : Rounds c 0 0 c.etiny where
  least := le_rfl
  below := pow10_pos _
  decade := Or.inl rfl
  near := by
    have hpos := pow10_pos c.etiny
    simp only [Nat.cast_zero, zero_mul, sub_zero, abs_zero]
    linarith
  even := fun _ => rfl

theorem limit_lt : c.limit < pow10 (c.etop + c.prec) := by
  have hpos := pow10_pos c.etop
  rw [add_comm, pow10_add, Context.limit]
  linarith

theorem lt_limit : pow10 (c.etop + c.prec - 1) < c.limit := by
  have hpos := pow10_pos c.etop
  have hexp : c.etop + c.prec - 1 = (c.prec - 1 : ℤ) + c.etop := by ring
  have hsucc := pow10_succ ((c.prec : ℤ) - 1)
  rw [sub_add_cancel] at hsucc
  have hone : 1 ≤ pow10 ((c.prec : ℤ) - 1) := by
    rw [← pow10_zero, pow10_le]
    have hprec := c.prec_pos
    omega
  rw [hexp, pow10_add, Context.limit, hsucc]
  apply mul_lt_mul_of_pos_right _ hpos
  linarith
end

section

def halfEven (n drop : ℕ) : ℕ :=
  let q := n / 10 ^ drop
  let r := n % 10 ^ drop
  if 2 * r < 10 ^ drop ∨ 2 * r = 10 ^ drop ∧ q % 2 = 0 then q else q + 1

theorem halfEven_near (n drop : ℕ) :
    |(n : ℚ) - halfEven n drop * (10 ^ drop : ℕ)| ≤ ((10 ^ drop : ℕ) : ℚ) / 2 ∧
      (|(n : ℚ) - halfEven n drop * (10 ^ drop : ℕ)| = ((10 ^ drop : ℕ) : ℚ) / 2 →
        halfEven n drop % 2 = 0) := by
  generalize hp : 10 ^ drop = p
  have hpos : 0 < p := by
    rw [← hp]
    positivity
  have hsum : (n : ℚ) = p * (n / p : ℕ) + (n % p : ℕ) := by exact_mod_cast (Nat.div_add_mod n p).symm
  have hrest : n % p < p := Nat.mod_lt n hpos
  have hrest' : ((n % p : ℕ) : ℚ) < p := by exact_mod_cast hrest
  have hnonneg : (0 : ℚ) ≤ (n % p : ℕ) := Nat.cast_nonneg _
  unfold halfEven
  rw [hp]
  simp only
  split
  next hdown =>
    have hle : (2 : ℚ) * (n % p : ℕ) ≤ p := by
      have : 2 * (n % p) ≤ p := by omega
      exact_mod_cast this
    have hdiff : (n : ℚ) - (n / p : ℕ) * p = (n % p : ℕ) := by linarith
    rw [hdiff, abs_of_nonneg hnonneg]
    refine ⟨by linarith, ?_⟩
    intro htie
    have htie : (2 : ℚ) * (n % p : ℕ) = p := by linarith
    have htie : 2 * (n % p) = p := by exact_mod_cast htie
    omega
  next hup =>
    have hge : (p : ℚ) ≤ 2 * (n % p : ℕ) := by
      have : p ≤ 2 * (n % p) := by omega
      exact_mod_cast this
    have hdiff : (n : ℚ) - (n / p + 1 : ℕ) * p = -(p - (n % p : ℕ)) := by
      push_cast at hsum ⊢
      linarith
    rw [hdiff, abs_neg, abs_of_pos (by linarith)]
    refine ⟨by linarith, ?_⟩
    intro htie
    have htie : (2 : ℚ) * (n % p : ℕ) = p := by linarith
    have htie : 2 * (n % p) = p := by exact_mod_cast htie
    omega

def carry (c : Context) (n : ℕ) (e : ℤ) : ℕ × ℤ :=
  if c.prec < numDigits n then (n / 10, e + 1) else (n, e)

def cut (c : Context) (d : Decimal) (least : ℤ) : Option Decimal :=
  let kept := carry c (halfEven d.coeff (least - d.exp).toNat) least
  if c.etop < kept.2 then none else some ⟨d.negative, kept.1, kept.2⟩

def place (c : Context) (d : Decimal) : ℤ :=
  max (numDigits d.coeff + d.exp - c.prec) c.etiny

def fix (c : Context) (d : Decimal) : Option Decimal :=
  if d.coeff = 0 then some {d with exp := min (max d.exp c.etiny) c.emax}
  else if c.etop < numDigits d.coeff + d.exp - c.prec then none
  else if d.exp < place c d then cut c d (place c d)
  else some d

variable {c : Context} {d : Decimal}

def multiple (c : Context) (d : Decimal) : ℕ :=
  if d.exp < place c d then halfEven d.coeff (place c d - d.exp).toNat
  else d.coeff * 10 ^ (d.exp - place c d).toNat

theorem magnitude_exact (h : place c d ≤ d.exp) :
    d.magnitude = (d.coeff * 10 ^ (d.exp - place c d).toNat : ℕ) * pow10 (place c d) := by
  have hexp : d.exp = ((d.exp - place c d).toNat : ℤ) + place c d := by omega
  rw [Decimal.magnitude, hexp, pow10_add, pow10_natCast]
  have hsame : (((d.exp - place c d).toNat : ℤ) + place c d - place c d).toNat =
      (d.exp - place c d).toNat := by omega
  rw [hsame]
  push_cast
  ring

theorem magnitude_cut (h : d.exp < place c d) :
    d.magnitude - multiple c d * pow10 (place c d) = ((d.coeff : ℚ) -
      halfEven d.coeff (place c d - d.exp).toNat * (10 ^ (place c d - d.exp).toNat : ℕ)) *
        pow10 d.exp := by
  have hexp : place c d = ((place c d - d.exp).toNat : ℤ) + d.exp := by omega
  have hplace : pow10 (place c d) = ((10 ^ (place c d - d.exp).toNat : ℕ) : ℚ) * pow10 d.exp := by
    rw [← pow10_natCast, ← pow10_add, ← hexp]
  rw [multiple, if_pos h, hplace, Decimal.magnitude]
  ring

theorem rounds_multiple (h : d.coeff ≠ 0) : Rounds c d.magnitude (multiple c d) (place c d) := by
  have hleast : numDigits d.coeff + d.exp - c.prec ≤ place c d := le_max_left _ _
  have hnear : |d.magnitude - multiple c d * pow10 (place c d)| ≤ pow10 (place c d) / 2 ∧
      (|d.magnitude - multiple c d * pow10 (place c d)| = pow10 (place c d) / 2 →
        multiple c d % 2 = 0) := by
    by_cases hcut : d.exp < place c d
    · have hexp : place c d = ((place c d - d.exp).toNat : ℤ) + d.exp := by omega
      have hpow := congrArg pow10 hexp
      rw [pow10_add, pow10_natCast] at hpow
      have hpos := pow10_pos d.exp
      have hhalf := halfEven_near d.coeff (place c d - d.exp).toNat
      rw [magnitude_cut hcut, abs_mul, abs_of_pos hpos, hpow]
      constructor
      · rw [mul_div_right_comm]
        exact mul_le_mul_of_nonneg_right hhalf.1 hpos.le
      · intro htie
        rw [mul_div_right_comm] at htie
        rw [multiple, if_pos hcut]
        exact hhalf.2 (mul_right_cancel₀ hpos.ne' htie)
    · have hpos := pow10_pos (place c d)
      rw [magnitude_exact (not_lt.mp hcut), multiple, if_neg hcut, sub_self, abs_zero]
      exact ⟨by linarith, fun htie => by linarith⟩
  refine ⟨le_max_right _ _, ?_, ?_, hnear.1, hnear.2⟩
  · apply (magnitude_lt d).trans_le
    rw [pow10_le]
    omega
  · rcases max_choice (numDigits d.coeff + d.exp - c.prec : ℤ) c.etiny with hexact | htiny
    · refine Or.inr ?_
      have hexp : place c d + c.prec - 1 = numDigits d.coeff + d.exp - 1 := by
        rw [place, hexact]
        ring
      rw [hexp]
      exact le_magnitude h
    · exact Or.inl htiny

theorem Rounds.coeff_bound {x : ℚ} {n : ℕ} {e : ℤ} (h : Rounds c x n e) : n ≤ 10 ^ c.prec := by
  by_contra hlt
  push Not at hlt
  have hpos := pow10_pos e
  have hnear := abs_le.mp h.near
  have hbelow := h.below
  rw [add_comm, pow10_add, pow10_natCast] at hbelow
  have hstep : (((10 ^ c.prec : ℕ) : ℚ) + 1) * pow10 e ≤ n * pow10 e := by
    apply mul_le_mul_of_nonneg_right _ hpos.le
    exact_mod_cast hlt
  linarith

theorem fix_zero (h : d.coeff = 0) : ∃ exp, fix c d = some ⟨d.negative, 0, exp⟩ := by
  refine ⟨min (max d.exp c.etiny) c.emax, ?_⟩
  rw [fix, if_pos h, ← h]

theorem carry_cases {n : ℕ} (h : n ≤ 10 ^ c.prec) (e : ℤ) :
    n = 10 ^ c.prec ∧ carry c n e = (10 ^ (c.prec - 1), e + 1) ∨
      n < 10 ^ c.prec ∧ carry c n e = (n, e) := by
  by_cases hlong : c.prec < numDigits n
  · have hfull : n = 10 ^ c.prec := by
      apply le_antisymm h
      by_contra hlt
      push Not at hlt
      have hshort := (numDigits_le c.prec_pos).mpr hlt
      omega
    refine Or.inl ⟨hfull, ?_⟩
    have hprec : 10 ^ c.prec = 10 ^ (c.prec - 1) * 10 := by
      rw [← pow_succ, Nat.sub_add_cancel c.prec_pos]
    rw [carry, if_pos hlong, hfull, hprec, Nat.mul_div_cancel _ (by decide)]
  · refine Or.inr ⟨(numDigits_le c.prec_pos).mp (not_lt.mp hlong), ?_⟩
    rw [carry, if_neg hlong]

theorem limit_le_iff {x : ℚ} {n : ℕ} {e : ℤ} (h : Rounds c x n e) (he : e ≤ c.etop) :
    c.limit ≤ x ↔ e = c.etop ∧ n = 10 ^ c.prec := by
  constructor
  · intro hlimit
    have htop : e = c.etop := by
      have hlow := lt_limit.trans_le (hlimit.trans h.below.le)
      rw [pow10_lt] at hlow
      omega
    subst htop
    refine ⟨rfl, le_antisymm h.coeff_bound ?_⟩
    by_contra hlt
    push Not at hlt
    have hpos := pow10_pos c.etop
    have hnear := abs_le.mp h.near
    have hstep : ((n : ℚ) + 1) * pow10 c.etop ≤ pow10 c.prec * pow10 c.etop := by
      apply mul_le_mul_of_nonneg_right _ hpos.le
      rw [pow10_natCast]
      exact_mod_cast hlt
    rw [Context.limit] at hlimit
    -- the number is half a place above an odd multiple
    have hhalf : x - n * pow10 c.etop = pow10 c.etop / 2 := by linarith
    have heven := h.even (by rw [hhalf, abs_of_pos (by linarith)])
    have hnext : ((n : ℚ) + 1 - pow10 c.prec) * pow10 c.etop = 0 := by linarith
    have hsucc : (n : ℚ) + 1 = pow10 c.prec := by
      rcases mul_eq_zero.mp hnext with hzero | hzero
      · linarith
      · exact absurd hzero hpos.ne'
    rw [pow10_natCast] at hsucc
    have hsucc : n + 1 = 10 ^ c.prec := by exact_mod_cast hsucc
    have hten : 10 ^ c.prec = 10 * 10 ^ (c.prec - 1) := by
      rw [← pow_succ', Nat.sub_add_cancel c.prec_pos]
    omega
  · rintro ⟨rfl, rfl⟩
    have hnear := abs_le.mp h.near
    rw [Context.limit, pow10_natCast]
    linarith

theorem fix_below (h : d.coeff ≠ 0) (hlimit : d.magnitude < c.limit) :
    ∃ r, fix c d = some r ∧ r.negative = d.negative ∧
      r.magnitude = multiple c d * pow10 (place c d) ∧
      r.magnitude < pow10 (c.etop + c.prec) := by
  have hrounds := rounds_multiple (c := c) h
  have hexact : ¬c.etop < (numDigits d.coeff : ℤ) + d.exp - c.prec := by
    intro hover
    have hlow := (le_magnitude h).trans_lt (hlimit.trans limit_lt)
    rw [pow10_lt] at hlow
    omega
  have htop : place c d ≤ c.etop := max_le (not_lt.mp hexact) c.etiny_le
  rw [fix, if_neg h, if_neg hexact]
  by_cases hcut : d.exp < place c d
  · have hmultiple : multiple c d = halfEven d.coeff (place c d - d.exp).toNat := if_pos hcut
    rw [if_pos hcut, cut, ← hmultiple]
    rcases carry_cases hrounds.coeff_bound (place c d) with ⟨hfull, hcarry⟩ | ⟨hshort, hcarry⟩
    · have hbelow : place c d + 1 ≤ c.etop := by
        by_contra hover
        have hat : place c d = c.etop := by omega
        exact absurd hlimit (not_lt.mpr ((limit_le_iff hrounds htop).mpr ⟨hat, hfull⟩))
      simp only [hcarry]
      rw [if_neg (not_lt.mpr hbelow)]
      refine ⟨_, rfl, rfl, ?_, ?_⟩
      · rw [Decimal.magnitude, hfull, add_comm, pow10_add, ← pow10_natCast, ← pow10_natCast,
          ← mul_assoc, ← pow10_add, Nat.cast_sub c.prec_pos]
        rw [Nat.cast_one, sub_add_cancel]
      · have hprec := c.prec_pos
        rw [Decimal.magnitude, ← pow10_natCast, ← pow10_add, pow10_lt]
        simp only
        omega
    · simp only [hcarry]
      rw [if_neg (not_lt.mpr htop)]
      refine ⟨_, rfl, rfl, rfl, ?_⟩
      have hpos := pow10_pos (place c d)
      have hmag : (multiple c d : ℚ) * pow10 (place c d) < pow10 c.prec * pow10 (place c d) := by
        apply mul_lt_mul_of_pos_right _ hpos
        rw [pow10_natCast]
        exact_mod_cast hshort
      apply hmag.trans_le
      rw [← pow10_add, pow10_le]
      omega
  · rw [if_neg hcut]
    refine ⟨d, rfl, rfl, ?_, hlimit.trans limit_lt⟩
    rw [multiple, if_neg hcut]
    exact magnitude_exact (not_lt.mp hcut)

theorem fix_above (h : d.coeff ≠ 0) (hlimit : c.limit ≤ d.magnitude) : fix c d = none := by
  have hrounds := rounds_multiple (c := c) h
  rw [fix, if_neg h]
  by_cases hexact : c.etop < (numDigits d.coeff : ℤ) + d.exp - c.prec
  · rw [if_pos hexact]
  · have htop : place c d ≤ c.etop := max_le (not_lt.mp hexact) c.etiny_le
    obtain ⟨hat, hfull⟩ := (limit_le_iff hrounds htop).mp hlimit
    have hcut : d.exp < place c d := by
      by_contra hover
      -- an exact number is below the power of ten
      have hmag := magnitude_exact (not_lt.mp hover)
      have hbelow := hrounds.below
      rw [multiple, if_neg hover] at hfull
      rw [hmag, hfull, ← pow10_natCast, ← pow10_add, pow10_lt] at hbelow
      omega
    have hmultiple : multiple c d = halfEven d.coeff (place c d - d.exp).toNat := if_pos hcut
    rw [if_neg hexact, if_pos hcut, cut, ← hmultiple]
    rcases carry_cases hrounds.coeff_bound (place c d) with ⟨-, hcarry⟩ | ⟨hshort, -⟩
    · simp only [hcarry]
      rw [if_pos (by omega)]
    · omega
end
end Decimals
