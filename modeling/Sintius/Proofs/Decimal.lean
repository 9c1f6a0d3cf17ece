import Mathlib
import Sintius.Spec.Decimal

/-! Decimals refine exact rational arithmetic. Each operation computes the integer
the exact value denotes at the output scale, rounded by the mode's definition
where one is stated, and rejects exactly when that integer does not fit or the
stated arguments are not valid. -/

namespace Sintius.Money

open Rounding

/-- The definition a mode's name stands for. -/
def RoundingMode.rounding : RoundingMode → Mode
  | .HALF_UP => .halfUp
  | .HALF_EVEN => .halfEven
  | .DOWN => .down
  | .UP => .up

def Decimal.value (d : Decimal) : ℚ := d.units / 10 ^ d.scale

/-- At most 38 significant digits. -/
def Fits (n : ℤ) : Prop := |n| < 10 ^ 38

def Rejected (r : Except Problem Decimal) : Prop :=
  ∃ detail, r = .error { code := .calculation_rejected, detail := detail }

/-- `r` is the decimal `n × 10^-s` if that fits, and a rejection if it does not. -/
def Yields (r : Except Problem Decimal) (s : ℕ) (n : ℤ) : Prop :=
  (Fits n → ∃ d, r = .ok d ∧ d.units = n ∧ d.scale = s) ∧ (¬ Fits n → Rejected r)

/-- The scale a JavaScript number states, if it is one of 0..18. -/
def statedScale (scale : Js.Number) : Option ℕ :=
  scale.integer?.bind fun n => if 0 ≤ n ∧ n ≤ 18 then some n.toNat else none

theorem rejected_reject (detail : String) : Rejected (reject detail) := ⟨detail, rfl⟩

theorem digitCount_le_iff (v : ℤ) : digitCount v ≤ MAX_PRECISION ↔ Fits v := by
  have habs : Fits v ↔ v.natAbs < 10 ^ 38 := by
    unfold Fits
    rw [← Int.natCast_natAbs]
    exact_mod_cast Iff.rfl
  rw [habs]
  unfold digitCount MAX_PRECISION
  split_ifs with h0
  · subst h0; simp
  · exact Nat.digits_length_le_iff (by norm_num) _

theorem construct_yields (n : ℤ) (s : Scale) : Yields (Decimal.construct n s) s n := by
  constructor
  · intro hfit
    have hdig := (digitCount_le_iff n).mpr hfit
    refine ⟨⟨n, s.1, hdig, s.2⟩, ?_, rfl, rfl⟩
    unfold Decimal.construct
    rw [dif_neg (not_lt.mpr hdig)]
  · intro hfit
    unfold Decimal.construct
    rw [dif_pos (not_le.mp fun h => hfit ((digitCount_le_iff n).mp h))]
    exact rejected_reject _

theorem construct_eq_ok_iff {n : ℤ} {s : Scale} {d : Decimal} :
    Decimal.construct n s = .ok d ↔ d.units = n ∧ d.scale = s := by
  unfold Decimal.construct
  constructor
  · intro h
    split_ifs at h
    · cases h
    · cases h
      exact ⟨rfl, rfl⟩
  · rintro ⟨rfl, hscale⟩
    rw [dif_neg (not_lt.mpr d.precision_le)]
    exact congrArg Except.ok (Decimal.ext rfl hscale.symm)

theorem assertScale_some {scale : Js.Number} {s : ℕ} (h : statedScale scale = some s) :
    ∃ hs : s ≤ MAX_SCALE, assertScale scale = .ok ⟨s, hs⟩ := by
  unfold statedScale at h
  unfold assertScale
  cases hn : scale.integer? with
  | none => rw [hn] at h; cases h
  | some n =>
    rw [hn, Option.bind_some] at h
    split_ifs at h with hr
    obtain rfl := Option.some.inj h
    refine ⟨by unfold MAX_SCALE; omega, ?_⟩
    dsimp only
    rw [dif_pos (by unfold MAX_SCALE; exact hr)]

theorem assertScale_none {scale : Js.Number} (h : statedScale scale = none) :
    ∃ detail, assertScale scale = reject detail := by
  unfold statedScale at h
  unfold assertScale
  cases hn : scale.integer? with
  | none => exact ⟨_, rfl⟩
  | some n =>
    rw [hn, Option.bind_some] at h
    have hr : ¬(0 ≤ n ∧ n ≤ (MAX_SCALE : ℤ)) := by
      intro hr
      rw [if_pos (by simpa [MAX_SCALE] using hr)] at h
      cases h
    dsimp only
    rw [dif_neg hr]
    exact ⟨_, rfl⟩

/-- Work that starts by checking a stated scale: refused, or done at that scale. -/
theorem assertScale_bind (scale : Js.Number) (f : Scale → Except Problem Decimal) :
    (statedScale scale = none ∧ Rejected (assertScale scale >>= f)) ∨
      ∃ s, statedScale scale = some s.1 ∧ assertScale scale >>= f = f s := by
  cases h : statedScale scale with
  | none =>
    obtain ⟨detail, he⟩ := assertScale_none h
    exact Or.inl ⟨rfl, detail, by rw [he]; rfl⟩
  | some s =>
    obtain ⟨hs, he⟩ := assertScale_some h
    exact Or.inr ⟨⟨s, hs⟩, rfl, by rw [he]; rfl⟩

theorem assertMode_bind (mode : String) (f : RoundingMode → Except Problem Decimal) :
    (RoundingMode.ofString? mode = none ∧ Rejected (assertMode mode >>= f)) ∨
      ∃ m, RoundingMode.ofString? mode = some m ∧ assertMode mode >>= f = f m := by
  unfold assertMode
  cases h : RoundingMode.ofString? mode with
  | none => exact Or.inl ⟨rfl, "Unknown rounding mode.", rfl⟩
  | some m => exact Or.inr ⟨m, rfl, rfl⟩

theorem roundAway_iff_carries (m : RoundingMode) (q r d : ℕ) :
    (m = .UP ∨ (m = .HALF_UP ∧ r * 2 ≥ d) ∨
        (m = .HALF_EVEN ∧ (r * 2 > d ∨ (r * 2 = d ∧ q % 2 = 1)))) ↔
      carries m.rounding q r d = true := by
  cases m <;> simp [RoundingMode.rounding, carries, Nat.mul_comm r 2]

theorem div_abs_of_sign (a b : ℤ) (hb : b ≠ 0) :
    (a : ℚ) / b = (if (decide (a < 0) != decide (b < 0)) = true then -1 else 1) *
      ((a.natAbs / b.natAbs : ℕ) + ((a.natAbs % b.natAbs : ℕ) : ℚ) / b.natAbs) := by
  have hd : (b.natAbs : ℚ) ≠ 0 := by exact_mod_cast Int.natAbs_ne_zero.mpr hb
  have hsplit : ((a.natAbs / b.natAbs : ℕ) + ((a.natAbs % b.natAbs : ℕ) : ℚ) / b.natAbs) =
      (a.natAbs : ℚ) / b.natAbs := by
    rw [eq_div_iff hd, add_mul, div_mul_cancel₀ _ hd]
    exact_mod_cast Nat.div_add_mod' a.natAbs b.natAbs
  have ha : (a : ℚ) = (if a < 0 then -1 else 1) * (a.natAbs : ℚ) := by
    split_ifs with h
    · rw [← Int.cast_natCast, Int.ofNat_natAbs_of_nonpos (le_of_lt h)]; push_cast; ring
    · rw [← Int.cast_natCast, Int.natAbs_of_nonneg (not_lt.mp h), one_mul]
  have hb' : (b : ℚ) = (if b < 0 then -1 else 1) * (b.natAbs : ℚ) := by
    split_ifs with h
    · rw [← Int.cast_natCast, Int.ofNat_natAbs_of_nonpos (le_of_lt h)]; push_cast; ring
    · rw [← Int.cast_natCast, Int.natAbs_of_nonneg (not_lt.mp h), one_mul]
  rw [hsplit, ha, hb']
  by_cases h1 : a < 0 <;> by_cases h2 : b < 0 <;> simp [h1, h2, neg_div, div_neg]

/-- The private division helper rounds the exact quotient by the mode's definition. -/
theorem roundedQuotient_rounds (a b : ℤ) (hb : b ≠ 0) (m : RoundingMode) :
    Rounds m.rounding ((a : ℚ) / b) (roundedQuotient a b m) := by
  have hr : a.natAbs % b.natAbs < b.natAbs := Nat.mod_lt _ (Int.natAbs_pos.mpr hb)
  have hq := rounds_quotient (K := ℚ) (q := a.natAbs / b.natAbs) m.rounding hr
  rw [div_abs_of_sign a b hb]
  unfold roundedQuotient
  simp only [roundAway_iff_carries]
  by_cases hneg : (decide (a < 0) != decide (b < 0)) = true
  · rw [if_pos hneg, if_pos hneg, neg_one_mul, rounds_neg]
    exact hq
  · rw [if_neg hneg, if_neg hneg, one_mul]
    exact hq

theorem pow10_ne_zero (k : ℕ) : pow10 k ≠ 0 := pow_ne_zero k (by norm_num)

theorem pow10_cast (k : ℕ) : ((pow10 k : ℤ) : ℚ) = 10 ^ k := by unfold pow10; push_cast; rfl

theorem unitsAt_value (d : Decimal) {s : ℕ} (h : d.scale ≤ s) :
    (d.unitsAt s : ℚ) = d.value * 10 ^ s := by
  unfold Decimal.unitsAt Decimal.value
  rw [Int.cast_mul, pow10_cast, div_mul_eq_mul_div, eq_div_iff (by positivity), mul_assoc,
    ← pow_add, Nat.sub_add_cancel h]

theorem units_value (d : Decimal) : (d.units : ℚ) = d.value * 10 ^ d.scale := by
  unfold Decimal.value
  rw [div_mul_cancel₀ _ (by positivity)]

theorem add_refines (a b : Decimal) :
    ∃ n : ℤ, (n : ℚ) / 10 ^ max a.scale b.scale = a.value + b.value ∧
      Yields (a.add b) (max a.scale b.scale) n := by
  refine ⟨_, ?_, construct_yields _ (Decimal.maxScale a b)⟩
  change ((a.unitsAt (max a.scale b.scale) + b.unitsAt (max a.scale b.scale) : ℤ) : ℚ) / _ = _
  rw [Int.cast_add, unitsAt_value a (le_max_left _ _), unitsAt_value b (le_max_right _ _),
    ← add_mul, mul_div_cancel_right₀ _ (by positivity)]

theorem subtract_refines (a b : Decimal) :
    ∃ n : ℤ, (n : ℚ) / 10 ^ max a.scale b.scale = a.value - b.value ∧
      Yields (a.subtract b) (max a.scale b.scale) n := by
  refine ⟨_, ?_, construct_yields _ (Decimal.maxScale a b)⟩
  change ((a.unitsAt (max a.scale b.scale) - b.unitsAt (max a.scale b.scale) : ℤ) : ℚ) / _ = _
  rw [Int.cast_sub, unitsAt_value a (le_max_left _ _), unitsAt_value b (le_max_right _ _),
    ← sub_mul, mul_div_cancel_right₀ _ (by positivity)]

theorem multiply_exact_refines (a b : Decimal) :
    (a.scale + b.scale ≤ 18 ∧
      ∃ n : ℤ, (n : ℚ) / 10 ^ (a.scale + b.scale) = a.value * b.value ∧
        Yields (a.multiply b none) (a.scale + b.scale) n) ∨
    (18 < a.scale + b.scale ∧ Rejected (a.multiply b none)) := by
  unfold Decimal.multiply
  by_cases h : a.scale + b.scale ≤ MAX_SCALE
  · left
    refine ⟨h, a.units * b.units, ?_, ?_⟩
    · unfold Decimal.value
      rw [Int.cast_mul, pow_add, div_mul_div_comm]
    · dsimp only
      rw [dif_pos h]
      exact construct_yields _ ⟨_, h⟩
  · right
    refine ⟨not_le.mp h, ?_⟩
    dsimp only
    rw [dif_neg h]
    exact rejected_reject _

/-- Work on a stated scale and mode: refused because one is invalid, or done. -/
def StatedRefines (scale : Js.Number) (mode : String) (r : Except Problem Decimal)
    (done : ℕ → Mode → Prop) : Prop :=
  ((statedScale scale = none ∨ RoundingMode.ofString? mode = none) ∧ Rejected r) ∨
    ∃ s m, statedScale scale = some s ∧ RoundingMode.ofString? mode = some m ∧ done s m.rounding

theorem stated_refines (scale : Js.Number) (mode : String)
    (f : Scale → RoundingMode → Except Problem Decimal)
    (done : Except Problem Decimal → ℕ → Mode → Prop)
    (h : ∀ s m, done (f s m) s.1 m.rounding) :
    StatedRefines scale mode (do
      let s ← assertScale scale
      let m ← assertMode mode
      f s m) fun s m => done (do
        let s ← assertScale scale
        let m ← assertMode mode
        f s m) s m := by
  rcases assertScale_bind scale (fun s => assertMode mode >>= f s) with ⟨hs, hr⟩ | ⟨s, hs, he⟩
  · exact Or.inl ⟨Or.inl hs, hr⟩
  rcases assertMode_bind mode (f s) with ⟨hm, hr⟩ | ⟨m, hm, he'⟩
  · exact Or.inl ⟨Or.inr hm, he ▸ hr⟩
  · exact Or.inr ⟨s.1, m, hs, hm, by rw [he, he']; exact h s m⟩

theorem multiply_rounded_refines (a b : Decimal) (ro : StatedRounding) :
    StatedRefines ro.scale ro.mode (a.multiply b (some ro)) fun s m =>
      ∃ n, Rounds m (a.value * b.value * 10 ^ s) n ∧ Yields (a.multiply b (some ro)) s n := by
  refine stated_refines ro.scale ro.mode _
    (fun r s m => ∃ n, Rounds m (a.value * b.value * 10 ^ s) n ∧ Yields r s n) (fun s m => ?_)
  have hval : a.value * b.value = ((a.units * b.units : ℤ) : ℚ) / 10 ^ (a.scale + b.scale) := by
    unfold Decimal.value
    rw [Int.cast_mul, pow_add, div_mul_div_comm]
  split_ifs with h
  · refine ⟨_, ?_, construct_yields _ s⟩
    have hx : a.value * b.value * 10 ^ s.1 =
        ((a.units * b.units * pow10 (s.1 - (a.scale + b.scale)) : ℤ) : ℚ) := by
      rw [Int.cast_mul, pow10_cast, hval, div_mul_eq_mul_div, div_eq_iff (by positivity),
        mul_assoc _ _ (10 ^ (a.scale + b.scale)), ← pow_add, Nat.sub_add_cancel h]
    rw [hx]
    exact rounds_intCast _ _
  · refine ⟨_, ?_, construct_yields _ s⟩
    have hlt : s.1 ≤ a.scale + b.scale := by omega
    have hx : a.value * b.value * 10 ^ s.1 =
        ((a.units * b.units : ℤ) : ℚ) / (pow10 (a.scale + b.scale - s.1) : ℤ) := by
      rw [pow10_cast, hval, div_mul_eq_mul_div, div_eq_div_iff (by positivity) (by positivity),
        mul_assoc, ← pow_add, Nat.add_sub_cancel' hlt]
    rw [hx]
    exact roundedQuotient_rounds _ _ (pow10_ne_zero _) m

theorem value_eq_zero_iff (d : Decimal) : d.value = 0 ↔ d.units = 0 := by
  unfold Decimal.value
  rw [div_eq_zero_iff, Int.cast_eq_zero]
  exact or_iff_left (by positivity)

theorem divide_refines (a b : Decimal) (ro : StatedRounding) :
    StatedRefines ro.scale ro.mode (a.divide b ro) fun s m =>
      (b.value = 0 ∧ Rejected (a.divide b ro)) ∨
      (b.value ≠ 0 ∧
        ∃ n, Rounds m (a.value / b.value * 10 ^ s) n ∧ Yields (a.divide b ro) s n) := by
  refine stated_refines ro.scale ro.mode _
    (fun r s m => (b.value = 0 ∧ Rejected r) ∨
      (b.value ≠ 0 ∧ ∃ n, Rounds m (a.value / b.value * 10 ^ s) n ∧ Yields r s n))
    (fun s m => ?_)
  split_ifs with h
  · exact Or.inl ⟨(value_eq_zero_iff b).mpr h, rejected_reject _⟩
  · refine Or.inr ⟨fun hz => h ((value_eq_zero_iff b).mp hz), _, ?_, construct_yields _ s⟩
    have hb : (b.units : ℚ) ≠ 0 := by exact_mod_cast h
    have hx : a.value / b.value * 10 ^ s.1 =
        ((a.units * pow10 (b.scale + s.1) : ℤ) : ℚ) / ((b.units * pow10 a.scale : ℤ) : ℚ) := by
      unfold Decimal.value
      push_cast
      rw [pow10_cast, pow10_cast, pow_add]
      field_simp
    rw [hx]
    exact roundedQuotient_rounds _ _ (mul_ne_zero h (pow10_ne_zero _)) m

theorem round_refines (a : Decimal) (scale : Js.Number) (mode : String) :
    StatedRefines scale mode (a.round scale mode) fun s m =>
      ∃ n, Rounds m (a.value * 10 ^ s) n ∧ Yields (a.round scale mode) s n := by
  refine stated_refines scale mode _
    (fun r s m => ∃ n, Rounds m (a.value * 10 ^ s) n ∧ Yields r s n) (fun s m => ?_)
  split_ifs with h
  · refine ⟨_, ?_, construct_yields _ s⟩
    rw [← unitsAt_value a h]
    exact rounds_intCast _ _
  · refine ⟨_, ?_, construct_yields _ s⟩
    have hx : a.value * 10 ^ s.1 = (a.units : ℚ) / (pow10 (a.scale - s.1) : ℤ) := by
      unfold Decimal.value
      rw [pow10_cast, div_mul_eq_mul_div, div_eq_div_iff (by positivity) (by positivity),
        mul_assoc, ← pow_add, Nat.add_sub_cancel' (by omega)]
    rw [hx]
    exact roundedQuotient_rounds _ _ (pow10_ne_zero _) m

/-- A value is an integer at a smaller scale exactly when the dropped digits are zero. -/
theorem integral_at_iff (a : Decimal) {s : ℕ} (h : s ≤ a.scale) :
    (∃ n : ℤ, (n : ℚ) / 10 ^ s = a.value) ↔ a.units.tmod (pow10 (a.scale - s)) = 0 := by
  rw [← Int.dvd_iff_tmod_eq_zero]
  have hsplit : (10 : ℚ) ^ a.scale = 10 ^ s * 10 ^ (a.scale - s) := by
    rw [← pow_add, Nat.add_sub_cancel' h]
  constructor
  · rintro ⟨n, hn⟩
    refine ⟨n, ?_⟩
    unfold Decimal.value at hn
    rw [hsplit, div_eq_div_iff (by positivity) (by positivity)] at hn
    have : (n : ℚ) * 10 ^ (a.scale - s) = a.units := by
      apply mul_right_cancel₀ (b := (10 : ℚ) ^ s) (by positivity)
      rw [← hn]; ring
    rw [← pow10_cast] at this
    rw [mul_comm]
    exact_mod_cast this.symm
  · rintro ⟨n, hn⟩
    refine ⟨n, ?_⟩
    unfold Decimal.value
    rw [hn, Int.cast_mul, pow10_cast, hsplit, div_eq_div_iff (by positivity) (by positivity)]
    ring

theorem rescale_refines (a : Decimal) (scale : Js.Number) :
    (statedScale scale = none ∧ Rejected (a.rescale scale)) ∨
    ∃ s, statedScale scale = some s ∧
      ((∃ n : ℤ, (n : ℚ) / 10 ^ s = a.value ∧ Yields (a.rescale scale) s n) ∨
        ((¬ ∃ n : ℤ, (n : ℚ) / 10 ^ s = a.value) ∧ Rejected (a.rescale scale))) := by
  unfold Decimal.rescale
  rcases assertScale_bind scale (fun s =>
    if s.1 ≥ a.scale then Decimal.construct (a.unitsAt s) s
    else
      let divisor := pow10 (a.scale - s)
      if a.units.tmod divisor ≠ 0 then
        let text := a.toString
        let target := s.1
        reject s!"The value {text} cannot be represented at scale {target} without rounding."
      else Decimal.construct (a.units.tdiv divisor) s) with ⟨hs, hr⟩ | ⟨s, hs, he⟩
  · exact Or.inl ⟨hs, hr⟩
  refine Or.inr ⟨s.1, hs, ?_⟩
  rw [he]
  by_cases h : s.1 ≥ a.scale
  · left
    rw [if_pos h]
    refine ⟨_, ?_, construct_yields _ s⟩
    rw [unitsAt_value a h, mul_div_cancel_right₀ _ (by positivity)]
  · rw [if_neg h]
    have hle : s.1 ≤ a.scale := by omega
    by_cases hm : a.units.tmod (pow10 (a.scale - s.1)) = 0
    · left
      dsimp only
      rw [if_neg (not_not.mpr hm)]
      refine ⟨_, ?_, construct_yields _ s⟩
      obtain ⟨n, hn⟩ := (integral_at_iff a hle).mpr hm
      obtain ⟨k, hk⟩ := Int.dvd_of_tmod_eq_zero hm
      rw [hk, Int.mul_tdiv_cancel_left _ (pow10_ne_zero _)]
      unfold Decimal.value
      rw [hk, Int.cast_mul, pow10_cast, div_eq_div_iff (by positivity) (by positivity),
        show (10 : ℚ) ^ a.scale = 10 ^ s.1 * 10 ^ (a.scale - s.1) by
          rw [← pow_add, Nat.add_sub_cancel' hle]]
      ring
    · right
      dsimp only
      rw [if_pos hm]
      exact ⟨fun hex => hm ((integral_at_iff a hle).mp hex), rejected_reject _⟩

theorem negate_refines (a : Decimal) :
    ∃ d, a.negate = .ok d ∧ d.value = -a.value ∧ d.scale = a.scale := by
  have hfit : Fits (-a.units) := by
    unfold Fits
    rw [abs_neg]
    exact (digitCount_le_iff a.units).mp a.precision_le
  obtain ⟨d, hd, hu, hs⟩ := (construct_yields (-a.units) ⟨a.scale, a.scale_le⟩).1 hfit
  refine ⟨d, hd, ?_, hs⟩
  unfold Decimal.value
  rw [hu, hs, Int.cast_neg, neg_div]

theorem compare_refines (a b : Decimal) :
    (a.compare b = -1 ↔ a.value < b.value) ∧ (a.compare b = 0 ↔ a.value = b.value) ∧
      (a.compare b = 1 ↔ b.value < a.value) := by
  have hl := unitsAt_value a (le_max_left a.scale b.scale)
  have hr := unitsAt_value b (le_max_right a.scale b.scale)
  have hp : (0 : ℚ) < 10 ^ max a.scale b.scale := by positivity
  have hlt : a.unitsAt (max a.scale b.scale) < b.unitsAt (max a.scale b.scale) ↔
      a.value < b.value := by
    rw [← Int.cast_lt (R := ℚ), hl, hr, mul_lt_mul_iff_left₀ hp]
  have heq : a.unitsAt (max a.scale b.scale) = b.unitsAt (max a.scale b.scale) ↔
      a.value = b.value := by
    rw [← @Int.cast_inj ℚ, hl, hr, mul_left_inj' hp.ne']
  unfold Decimal.compare Decimal.maxScale
  simp only [hlt, heq]
  rcases lt_trichotomy a.value b.value with h | h | h
  · simp [h, h.ne, h.le]
  · simp [h]
  · simp [h.ne', h, not_lt.mpr h.le]

/-- Every operation on decimals is the exact rational operation at the documented scale,
rounded where a mode is stated, or a rejection for one of the stated reasons. -/
theorem decimal_refines_rational (a b : Decimal) (ro : StatedRounding) (scale : Js.Number)
    (mode : String) :
    (∃ n : ℤ, (n : ℚ) / 10 ^ max a.scale b.scale = a.value + b.value ∧
      Yields (a.add b) (max a.scale b.scale) n) ∧
    (∃ n : ℤ, (n : ℚ) / 10 ^ max a.scale b.scale = a.value - b.value ∧
      Yields (a.subtract b) (max a.scale b.scale) n) ∧
    ((a.scale + b.scale ≤ 18 ∧
      ∃ n : ℤ, (n : ℚ) / 10 ^ (a.scale + b.scale) = a.value * b.value ∧
        Yields (a.multiply b none) (a.scale + b.scale) n) ∨
      (18 < a.scale + b.scale ∧ Rejected (a.multiply b none))) ∧
    (StatedRefines ro.scale ro.mode (a.multiply b (some ro)) fun s m =>
      ∃ n, Rounds m (a.value * b.value * 10 ^ s) n ∧ Yields (a.multiply b (some ro)) s n) ∧
    (StatedRefines ro.scale ro.mode (a.divide b ro) fun s m =>
      (b.value = 0 ∧ Rejected (a.divide b ro)) ∨
      (b.value ≠ 0 ∧
        ∃ n, Rounds m (a.value / b.value * 10 ^ s) n ∧ Yields (a.divide b ro) s n)) ∧
    (StatedRefines scale mode (a.round scale mode) fun s m =>
      ∃ n, Rounds m (a.value * 10 ^ s) n ∧ Yields (a.round scale mode) s n) ∧
    ((statedScale scale = none ∧ Rejected (a.rescale scale)) ∨
      ∃ s, statedScale scale = some s ∧
        ((∃ n : ℤ, (n : ℚ) / 10 ^ s = a.value ∧ Yields (a.rescale scale) s n) ∨
          ((¬ ∃ n : ℤ, (n : ℚ) / 10 ^ s = a.value) ∧ Rejected (a.rescale scale)))) ∧
    (∃ d, a.negate = .ok d ∧ d.value = -a.value ∧ d.scale = a.scale) ∧
    ((a.compare b = -1 ↔ a.value < b.value) ∧ (a.compare b = 0 ↔ a.value = b.value) ∧
      (a.compare b = 1 ↔ b.value < a.value)) :=
  ⟨add_refines a b, subtract_refines a b, multiply_exact_refines a b,
    multiply_rounded_refines a b ro, divide_refines a b ro, round_refines a scale mode,
    rescale_refines a scale, negate_refines a, compare_refines a b⟩

end Sintius.Money
