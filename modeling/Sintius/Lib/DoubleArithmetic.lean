import Mathlib
import Sintius.Lib.Double
import Sintius.Lib.Rounding

/-! Products and sums of doubles, rounded to the nearest, ties to even. Values are integers in
units of the least positive double, so that none is too small; one that is too large for a double
stays an integer here, and compares as its infinity does. -/

namespace Js

open Rounding

/-- The distance between the doubles of this magnitude. -/
def spacing (n : ℕ) : ℕ := 2 ^ (Nat.log2 n - 52)

def nearestMagnitude (n : ℕ) : ℕ :=
  let q := n / spacing n
  let r := n % spacing n
  (if r ≠ 0 ∧ carries .halfEven q r (spacing n) = true then q + 1 else q) * spacing n

/-- The double that an exact result is rounded to. -/
def nearest (n : ℤ) : ℤ := n.sign * nearestMagnitude n.natAbs

def Double.ticks (d : Double) : ℤ := (if d.negative then -1 else 1) * magnitude d.code

/-- An integer in the units of `Double.ticks`. -/
def ticksOf (n : ℤ) : ℤ := n * 2 ^ 1074

theorem spacing_pos (n : ℕ) : 0 < spacing n := by
  unfold spacing
  positivity

/-- The result is a multiple of the spacing, and the exact one rounded to even. -/
theorem nearestMagnitude_spec (n : ℕ) : ∃ k : ℕ, nearestMagnitude n = k * spacing n ∧
    Rounds .halfEven ((n : ℚ) / spacing n) k := by
  refine ⟨_, rfl, ?_⟩
  have hsplit : (n : ℚ) / spacing n =
      (n / spacing n : ℕ) + ((n % spacing n : ℕ) : ℚ) / spacing n := by
    have hpos : (spacing n : ℚ) ≠ 0 := by exact_mod_cast (spacing_pos n).ne'
    rw [eq_comm, ← mul_left_inj' hpos, add_mul, div_mul_cancel₀ _ hpos, div_mul_cancel₀ _ hpos]
    exact_mod_cast Nat.div_add_mod' n (spacing n)
  rw [hsplit]
  exact rounds_quotient .halfEven (Nat.mod_lt _ (spacing_pos n))

/-- A magnitude of at most 53 binary digits is a double's. -/
theorem nearestMagnitude_mul_two_pow {m : ℕ} (hm : m < 2 ^ 53) (k : ℕ) :
    nearestMagnitude (m * 2 ^ k) = m * 2 ^ k := by
  have hlog : Nat.log2 (m * 2 ^ k) - 52 ≤ k := by
    by_cases h0 : m * 2 ^ k = 0
    · rw [h0]
      exact Nat.zero_le k
    · have hless : m * 2 ^ k < 2 ^ (53 + k) := by
        rw [pow_add]
        exact Nat.mul_lt_mul_of_pos_right hm (by positivity)
      have := (Nat.log2_lt h0).mpr hless
      omega
  obtain ⟨q, hq⟩ : spacing (m * 2 ^ k) ∣ m * 2 ^ k := Dvd.dvd.mul_left (pow_dvd_pow 2 hlog) m
  obtain ⟨r, hr, hrounds⟩ := nearestMagnitude_spec (m * 2 ^ k)
  have hquotient : ((m * 2 ^ k : ℕ) : ℚ) / spacing (m * 2 ^ k) = ((q : ℤ) : ℚ) := by
    have hpos : (spacing (m * 2 ^ k) : ℚ) ≠ 0 := by exact_mod_cast (spacing_pos _).ne'
    rw [div_eq_iff hpos]
    exact_mod_cast hq.trans (Nat.mul_comm _ _)
  rw [hquotient] at hrounds
  have hexact : (r : ℤ) = q := rounds_unique hrounds (rounds_intCast .halfEven q)
  rw [hr, Nat.cast_injective hexact, Nat.mul_comm, ← hq]

/-- Integers below `2 ^ 53` are doubles. -/
theorem nearest_ticksOf {n : ℤ} (h : |n| < 2 ^ 53) : nearest (ticksOf n) = ticksOf n := by
  have habs : n.natAbs < 2 ^ 53 := by
    rw [abs_lt] at h
    omega
  have hmagnitude : (ticksOf n).natAbs = n.natAbs * 2 ^ 1074 := by
    rw [ticksOf, Int.natAbs_mul, Int.natAbs_pow]
    rfl
  unfold nearest
  rw [hmagnitude, nearestMagnitude_mul_two_pow habs, ← hmagnitude, Int.sign_mul_natAbs]

end Js
