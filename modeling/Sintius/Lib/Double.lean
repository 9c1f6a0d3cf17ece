import Mathlib

/-! ECMAScript numbers. A finite double is its sign and the remaining 63 bits of
its encoding read as a number: exponent field above, mantissa below. In that
reading consecutive codes are consecutive magnitudes. -/

namespace Js

@[ext] structure Double where
  negative : Bool
  code : ℕ
  /-- Exponent field 2047 encodes the infinities and NaN. -/
  finite : code < 2047 * 2 ^ 52
deriving DecidableEq

/-- The magnitude of an encoding in units of `2 ^ (-1074)`, the least positive double. -/
def magnitude (code : ℕ) : ℕ :=
  if code / 2 ^ 52 = 0 then code % 2 ^ 52
  else (2 ^ 52 + code % 2 ^ 52) * 2 ^ (code / 2 ^ 52 - 1)

def Double.value (d : Double) : ℚ :=
  (if d.negative then -1 else 1) * (magnitude d.code / 2 ^ 1074)

/-- Values of type Number. -/
inductive Number where
  | nan
  | infinity (negative : Bool)
  | finite (d : Double)
deriving DecidableEq

/-- `Number.isInteger`, with the integer; both zeros are the integer 0. -/
def Number.integer? : Number → Option ℤ
  | .nan => none
  | .infinity _ => none
  | .finite d =>
    if magnitude d.code % 2 ^ 1074 = 0 then
      some ((if d.negative then -1 else 1) * (magnitude d.code / 2 ^ 1074 : ℕ))
    else none

/-- `value > 0` -/
def Number.positive : Number → Bool
  | .nan => false
  | .infinity negative => !negative
  | .finite d => !d.negative && d.code != 0

def Number.isFinite : Number → Bool
  | .finite _ => true
  | _ => false

/-- `a <= b`; NaN compares with nothing. -/
def Number.le : Number → Number → Bool
  | .nan, _ => false
  | _, .nan => false
  | .infinity true, _ => true
  | _, .infinity false => true
  | .infinity false, _ => false
  | _, .infinity true => false
  | .finite a, .finite b => decide (a.value ≤ b.value)

/-- The double of a positive integer below `2 ^ 53`: its binary digits after the leading one,
left aligned in the mantissa. -/
def Double.ofNatCode (n : ℕ) : ℕ :=
  if n = 0 then 0 else (Nat.log2 n + 1022) * 2 ^ 52 + n * 2 ^ (52 - Nat.log2 n)

theorem Double.ofNatCode_lt {n : ℕ} (hn : n < 2 ^ 53) : Double.ofNatCode n < 2047 * 2 ^ 52 := by
  unfold Double.ofNatCode
  split_ifs with h0
  · positivity
  have hlog : Nat.log2 n ≤ 52 := by
    have := (Nat.log2_lt h0).mpr hn
    omega
  have hself : n < 2 ^ (Nat.log2 n + 1) := Nat.lt_log2_self
  have hshift : n * 2 ^ (52 - Nat.log2 n) < 2 ^ 53 := by
    calc n * 2 ^ (52 - Nat.log2 n)
        < 2 ^ (Nat.log2 n + 1) * 2 ^ (52 - Nat.log2 n) :=
          Nat.mul_lt_mul_of_pos_right hself (by positivity)
      _ = 2 ^ 53 := by rw [← pow_add]; congr 1; omega
  have : (Nat.log2 n + 1022) * 2 ^ 52 ≤ 1074 * 2 ^ 52 := Nat.mul_le_mul_right _ (by omega)
  omega

def Number.ofNat (n : ℕ) (hn : n < 2 ^ 53) : Number :=
  .finite ⟨false, Double.ofNatCode n, Double.ofNatCode_lt hn⟩

theorem zero_safe : 0 < 2 ^ 53 := by norm_num

theorem one_safe : 1 < 2 ^ 53 := by norm_num

theorem magnitude_ofNatCode {n : ℕ} (hn : n < 2 ^ 53) :
    magnitude (Double.ofNatCode n) = n * 2 ^ 1074 := by
  by_cases h0 : n = 0
  · subst h0
    rw [Nat.zero_mul]
    rfl
  have hlog : Nat.log2 n ≤ 52 := by
    have := (Nat.log2_lt h0).mpr hn
    omega
  have hlower : 2 ^ 52 ≤ n * 2 ^ (52 - Nat.log2 n) := by
    calc 2 ^ 52 = 2 ^ Nat.log2 n * 2 ^ (52 - Nat.log2 n) := by rw [← pow_add]; congr 1; omega
      _ ≤ n * 2 ^ (52 - Nat.log2 n) := Nat.mul_le_mul_right _ (Nat.log2_self_le h0)
  have hupper : n * 2 ^ (52 - Nat.log2 n) < 2 ^ 53 := by
    calc n * 2 ^ (52 - Nat.log2 n)
        < 2 ^ (Nat.log2 n + 1) * 2 ^ (52 - Nat.log2 n) :=
          Nat.mul_lt_mul_of_pos_right Nat.lt_log2_self (by positivity)
      _ = 2 ^ 53 := by rw [← pow_add]; congr 1; omega
  have hshift : n * 2 ^ (52 - Nat.log2 n) * 2 ^ (Nat.log2 n + 1022) = n * 2 ^ 1074 := by
    have hsum : 52 - Nat.log2 n + (Nat.log2 n + 1022) = 1074 := by omega
    rw [mul_assoc, ← pow_add, hsum]
  unfold Double.ofNatCode
  rw [if_neg h0]
  generalize n * 2 ^ (52 - Nat.log2 n) = aligned at *
  have hexponent : ((Nat.log2 n + 1022) * 2 ^ 52 + aligned) / 2 ^ 52 = Nat.log2 n + 1023 := by
    omega
  have hmantissa : ((Nat.log2 n + 1022) * 2 ^ 52 + aligned) % 2 ^ 52 = aligned - 2 ^ 52 := by
    omega
  unfold magnitude
  rw [hexponent, hmantissa, if_neg (by omega), Nat.add_sub_cancel' hlower]
  exact hshift

@[simp] theorem Number.integer?_ofNat {n : ℕ} (hn : n < 2 ^ 53) :
    (Number.ofNat n hn).integer? = some (n : ℤ) := by
  unfold Number.ofNat Number.integer?
  dsimp only
  rw [magnitude_ofNatCode hn, if_pos (Nat.mul_mod_left _ _), Nat.mul_div_cancel _ (by positivity)]
  simp

/-- The value of a positive integer's double. -/
theorem Double.value_ofNatCode {n : ℕ} (hn : n < 2 ^ 53) :
    Double.value ⟨false, Double.ofNatCode n, Double.ofNatCode_lt hn⟩ = n := by
  unfold Double.value
  dsimp only
  rw [magnitude_ofNatCode hn, if_neg Bool.false_ne_true, one_mul]
  push_cast
  exact mul_div_cancel_right₀ _ (by positivity)

theorem Number.le_ofNat {m n : ℕ} (hm : m < 2 ^ 53) (hn : n < 2 ^ 53) :
    (Number.ofNat m hm).le (Number.ofNat n hn) = decide (m ≤ n) := by
  unfold Number.ofNat Number.le
  dsimp only
  simp only [Double.value_ofNatCode hm, Double.value_ofNatCode hn, Nat.cast_le]

end Js
