import Mathlib.Data.Nat.Basic
import Mathlib.Tactic.Cases

/-! Base64 with the standard alphabet and padding: groups of three bytes as groups of four
characters, and the strict reader. -/
namespace Base64

def digit (n : ℕ) : Char :=
  if n < 26 then Char.ofNat (65 + n)
  else if n < 52 then Char.ofNat (71 + n)
  else if n < 62 then Char.ofNat (n - 4)
  else if n = 62 then '+' else '/'

def digitValue (c : Char) : Option ℕ :=
  if 'A' ≤ c ∧ c ≤ 'Z' then some (c.toNat - 65)
  else if 'a' ≤ c ∧ c ≤ 'z' then some (c.toNat - 71)
  else if '0' ≤ c ∧ c ≤ '9' then some (c.toNat + 4)
  else if c = '+' then some 62
  else if c = '/' then some 63
  else none

def encode : List UInt8 → List Char
  | [] => []
  | [a] => [digit (a.toNat / 4), digit (a.toNat % 4 * 16), '=', '=']
  | [a, b] =>
    [digit (a.toNat / 4), digit (a.toNat % 4 * 16 + b.toNat / 16), digit (b.toNat % 16 * 4), '=']
  | a :: b :: c :: rest =>
    digit (a.toNat / 4) :: digit (a.toNat % 4 * 16 + b.toNat / 16) ::
      digit (b.toNat % 16 * 4 + c.toNat / 64) :: digit (c.toNat % 64) :: encode rest

def decode : List Char → Option (List UInt8)
  | [] => some []
  | p :: q :: r :: s :: rest => do
    let p ← digitValue p
    let q ← digitValue q
    if r = '=' ∧ s = '=' ∧ rest = [] then pure [UInt8.ofNat (p * 4 + q / 16)]
    else
      let r ← digitValue r
      let a := UInt8.ofNat (p * 4 + q / 16)
      let b := UInt8.ofNat (q % 16 * 16 + r / 4)
      if s = '=' ∧ rest = [] then pure [a, b]
      else
        let s ← digitValue s
        let more ← decode rest
        pure (a :: b :: UInt8.ofNat (r % 4 * 64 + s) :: more)
  | _ => none

theorem digit_ascii : ∀ n < 64, 0x2b ≤ (digit n).toNat ∧ (digit n).toNat < 0x7b := by decide

variable (data : List UInt8)

theorem length_encode : (encode data).length = 4 * ((data.length + 2) / 3) := by
  fun_induction encode data with
  | case1 => rfl
  | case2 a => simp only [List.length_cons, List.length_nil]
  | case3 a b => simp only [List.length_cons, List.length_nil]
  | case4 a b c rest ih =>
    simp only [List.length_cons, ih]
    omega

theorem encode_ascii : ∀ c ∈ encode data, 0x2b ≤ c.toNat ∧ c.toNat < 0x7b := by
  have hpad : 0x2b ≤ '='.toNat ∧ '='.toNat < 0x7b := by decide
  fun_induction encode data with
  | case1 => exact fun c hc => absurd hc List.not_mem_nil
  | case2 a =>
    have ha := a.toNat_lt
    have hp := digit_ascii (a.toNat / 4) (by omega)
    have hq := digit_ascii (a.toNat % 4 * 16) (by omega)
    simp only [List.forall_mem_cons]
    exact ⟨hp, hq, hpad, hpad, by simp⟩
  | case3 a b =>
    have ha := a.toNat_lt
    have hb := b.toNat_lt
    have hp := digit_ascii (a.toNat / 4) (by omega)
    have hq := digit_ascii (a.toNat % 4 * 16 + b.toNat / 16) (by omega)
    have hr := digit_ascii (b.toNat % 16 * 4) (by omega)
    simp only [List.forall_mem_cons]
    exact ⟨hp, hq, hr, hpad, by simp⟩
  | case4 a b c rest ih =>
    have ha := a.toNat_lt
    have hb := b.toNat_lt
    have hc := c.toNat_lt
    have hp := digit_ascii (a.toNat / 4) (by omega)
    have hq := digit_ascii (a.toNat % 4 * 16 + b.toNat / 16) (by omega)
    have hr := digit_ascii (b.toNat % 16 * 4 + c.toNat / 64) (by omega)
    have hs := digit_ascii (c.toNat % 64) (by omega)
    simp only [List.forall_mem_cons]
    exact ⟨hp, hq, hr, hs, ih⟩

end Base64
