import Mathlib
import Sintius.Lib.Digits
import Sintius.Lib.Except
import Sintius.Spec.Decimal
import Sintius.Proofs.Decimal

/-! The text of a decimal: what `parse` accepts, what it makes of it, and that
`toString` and `parse` undo each other up to the sign of zero. -/

namespace Sintius.Money

open Decimal (DECIMAL_PATTERN DecimalMatch optionalSign)

def signText (sign : Bool) : List Char := if sign then ['-'] else []

def fractionText (fraction : List Char) : List Char :=
  if fraction = [] then [] else '.' :: fraction

/-- An optional `-`, then `0` or digits without a leading zero, then optionally `.` and digits. -/
structure Written (sign : Bool) (whole fraction : List Char) (s : String) : Prop where
  text : s.toList = signText sign ++ whole ++ fractionText fraction
  whole : Digits.Canonical whole
  fraction : ∀ c ∈ fraction, c.isDigit = true

/-- The number a text denotes. -/
def denoted (sign : Bool) (whole fraction : List Char) : ℚ :=
  (if sign then -1 else 1) * (Digits.value whole + Digits.value fraction / 10 ^ fraction.length)

section Pattern

variable {sign : Bool} {whole fraction : List Char} {s : String}

theorem canonical_ne_nil (h : Digits.Canonical whole) : whole ≠ [] := by
  obtain rfl | ⟨c, cs, rfl, -⟩ := h.head
  · simp
  · simp

theorem dash_not_digit : Char.isDigit '-' = false := by decide

theorem point_not_digit : Char.isDigit '.' = false := by decide

/-- The digits at the front of a written number are its whole part. -/
theorem takeWhile_written (hwhole : Digits.Canonical whole) :
    (whole ++ fractionText fraction).takeWhile Char.isDigit = whole ∧
      (whole ++ fractionText fraction).dropWhile Char.isDigit = fractionText fraction := by
  have hstop : (fractionText fraction).takeWhile Char.isDigit = [] ∧
      (fractionText fraction).dropWhile Char.isDigit = fractionText fraction := by
    unfold fractionText
    split_ifs
    · simp
    · simp [point_not_digit]
  rw [List.takeWhile_append_of_pos hwhole.digit, List.dropWhile_append_of_pos hwhole.digit,
    hstop.1, hstop.2, List.append_nil]
  exact ⟨rfl, rfl⟩

theorem optionalSign_written (hwhole : Digits.Canonical whole) (rest : List Char) :
    optionalSign (signText sign ++ whole ++ rest) = (sign, whole ++ rest) := by
  cases sign with
  | true => rfl
  | false =>
    have hhead : ∃ c cs, whole = c :: cs ∧ c ≠ '-' := by
      obtain ⟨c, cs, rfl⟩ := List.exists_cons_of_ne_nil (canonical_ne_nil hwhole)
      refine ⟨c, cs, rfl, ?_⟩
      rintro rfl
      exact Bool.false_ne_true (dash_not_digit.symm.trans (hwhole.digit _ (by simp)))
    obtain ⟨c, cs, rfl, hc⟩ := hhead
    simp only [signText, Bool.false_eq_true, if_false, List.nil_append, List.cons_append]
    unfold optionalSign
    split
    · rename_i heq
      cases heq
      exact absurd rfl hc
    · rfl

theorem pattern_of_written (h : Written sign whole fraction s) :
    DECIMAL_PATTERN s = some ⟨sign, whole, if fraction = [] then none else some fraction⟩ := by
  unfold DECIMAL_PATTERN
  rw [h.text, optionalSign_written h.whole]
  dsimp only
  rw [(takeWhile_written h.whole).1, (takeWhile_written h.whole).2, if_neg ?_]
  · by_cases hfraction : fraction = []
    · simp [fractionText, hfraction]
    · have hall : fraction.all Char.isDigit = true := List.all_eq_true.mpr h.fraction
      simp [fractionText, hfraction, hall]
  · rintro ⟨hne, hhead⟩
    obtain rfl | ⟨c, cs, rfl, hc⟩ := h.whole.head
    · exact hne rfl
    · simp [hc] at hhead

theorem canonical_of_takeWhile {rest : List Char}
    (h : ¬ (rest.takeWhile Char.isDigit ≠ ['0'] ∧ (rest.takeWhile Char.isDigit = [] ∨
      (rest.takeWhile Char.isDigit).head? = some '0'))) :
    Digits.Canonical (rest.takeWhile Char.isDigit) := by
  refine ⟨fun c hc => List.mem_takeWhile_imp hc, ?_⟩
  cases hwhole : rest.takeWhile Char.isDigit with
  | nil => simp [hwhole] at h
  | cons c cs =>
    rw [hwhole] at h
    by_cases hzero : c = '0'
    · refine .inl ?_
      subst hzero
      simpa using h
    · exact .inr ⟨c, cs, rfl, hzero⟩

theorem exists_optionalSign (cs : List Char) :
    ∃ sign rest, optionalSign cs = (sign, rest) ∧ cs = signText sign ++ rest := by
  unfold optionalSign
  split
  · exact ⟨true, _, rfl, rfl⟩
  · exact ⟨false, _, rfl, rfl⟩

theorem written_of_pattern {groups : DecimalMatch} (h : DECIMAL_PATTERN s = some groups) :
    Written groups.sign groups.whole (groups.fraction.getD []) s := by
  unfold DECIMAL_PATTERN at h
  obtain ⟨sign, rest, hmatch, htext⟩ := exists_optionalSign s.toList
  rw [hmatch] at h
  dsimp only at h
  split_ifs at h with hwhole
  have hrest : rest = rest.takeWhile Char.isDigit ++ rest.dropWhile Char.isDigit :=
    (List.takeWhile_append_dropWhile).symm
  split at h
  · rename_i hdrop
    cases h
    refine ⟨?_, canonical_of_takeWhile hwhole, by simp⟩
    rw [htext, List.append_assoc]
    congr 1
    conv_lhs => rw [hrest, hdrop]
    simp [fractionText]
  · rename_i fraction hdrop
    split_ifs at h with hfraction
    cases h
    refine ⟨?_, canonical_of_takeWhile hwhole, List.all_eq_true.mp hfraction.2⟩
    rw [htext, List.append_assoc]
    congr 1
    conv_lhs => rw [hrest, hdrop]
    simp [fractionText, hfraction.1]
  · cases h

end Pattern

section Parse

variable {sign : Bool} {whole fraction : List Char} {s : String} {d : Decimal}

theorem digits_written (h : Written sign whole fraction s) :
    ∀ c ∈ whole ++ fraction, c.isDigit = true := by
  intro c hc
  rcases List.mem_append.mp hc with hc | hc
  · exact h.whole.digit c hc
  · exact h.fraction c hc

theorem written_ne_nil (h : Written sign whole fraction s) : whole ++ fraction ≠ [] := by
  simp [canonical_ne_nil h.whole]

/-- The signed value of the digits. -/
def signedUnits (sign : Bool) (digits : List Char) : ℤ :=
  if sign then -(Digits.value digits : ℤ) else Digits.value digits

theorem fits_signedUnits (h : Written sign whole fraction s) :
    Fits (signedUnits sign (whole ++ fraction)) ↔
      (Digits.strip (whole ++ fraction)).length ≤ MAX_PRECISION := by
  obtain ⟨hcanonical, -, -⟩ := Digits.strip_spec (written_ne_nil h) (digits_written h)
  have hlength := Nat.length_toDigits_le_iff (n := Digits.value (whole ++ fraction)) (b := 10)
    (k := MAX_PRECISION) (by decide) (by decide)
  rw [← Digits.value_strip (written_ne_nil h) (digits_written h),
    Digits.toDigits_value hcanonical] at hlength
  rw [hlength, Digits.value_strip (written_ne_nil h) (digits_written h)]
  have habs : |signedUnits sign (whole ++ fraction)| = (Digits.value (whole ++ fraction) : ℤ) := by
    unfold signedUnits
    split_ifs
    · rw [abs_neg, Nat.abs_cast]
    · rw [Nat.abs_cast]
  unfold Fits
  rw [habs]
  norm_cast

/-- What `parse` makes of a written number. -/
theorem parse_written (h : Written sign whole fraction s) :
    Decimal.parse s = .ok d ↔ d.scale = fraction.length ∧
      d.units = signedUnits sign (whole ++ fraction) := by
  have hgetD : (if fraction = [] then none else some fraction).getD [] = fraction := by
    split_ifs with hnil
    · exact hnil.symm
    · rfl
  unfold Decimal.parse
  rw [pattern_of_written h]
  dsimp only
  simp only [hgetD, Digits.value_strip (written_ne_nil h) (digits_written h)]
  change (if h : _ then if _ then _ else Decimal.construct (signedUnits sign (whole ++ fraction)) _
    else _) = _ ↔ _
  constructor
  · intro hparse
    by_cases hscale : fraction.length ≤ MAX_SCALE
    · rw [dif_pos hscale] at hparse
      by_cases hprecision : (Digits.strip (whole ++ fraction)).length > MAX_PRECISION
      · rw [if_pos hprecision] at hparse
        cases hparse
      · rw [if_neg hprecision] at hparse
        obtain ⟨hunits, hlength⟩ := construct_eq_ok_iff.mp hparse
        exact ⟨hlength, hunits⟩
    · rw [dif_neg hscale] at hparse
      cases hparse
  · rintro ⟨hscale, hunits⟩
    have hfits : Fits (signedUnits sign (whole ++ fraction)) := by
      rw [← hunits]
      exact (digitCount_le_iff d.units).mp d.precision_le
    rw [dif_pos (hscale ▸ d.scale_le), if_neg (not_lt.mpr ((fits_signedUnits h).mp hfits))]
    exact construct_eq_ok_iff.mpr ⟨hunits, hscale⟩

theorem exists_parse_iff : (∃ d, Decimal.parse s = .ok d) ↔ ∃ sign whole fraction,
    Written sign whole fraction s ∧ fraction.length ≤ MAX_SCALE ∧
      (Digits.strip (whole ++ fraction)).length ≤ MAX_PRECISION := by
  constructor
  · rintro ⟨d, hparse⟩
    have hwritten : ∃ groups, DECIMAL_PATTERN s = some groups := by
      unfold Decimal.parse at hparse
      split at hparse
      · cases hparse
      · exact ⟨_, by assumption⟩
    obtain ⟨groups, hgroups⟩ := hwritten
    have h := written_of_pattern hgroups
    obtain ⟨hscale, hunits⟩ := (parse_written h).mp hparse
    refine ⟨_, _, _, h, hscale ▸ d.scale_le, (fits_signedUnits h).mp ?_⟩
    rw [← hunits]
    exact (digitCount_le_iff d.units).mp d.precision_le
  · rintro ⟨sign, whole, fraction, h, hscale, hprecision⟩
    have hcount := (digitCount_le_iff _).mpr ((fits_signedUnits h).mpr hprecision)
    exact ⟨⟨signedUnits sign (whole ++ fraction), fraction.length, hcount, hscale⟩,
      (parse_written h).mpr ⟨rfl, rfl⟩⟩

theorem value_written (hscale : d.scale = fraction.length)
    (hunits : d.units = signedUnits sign (whole ++ fraction)) :
    d.value = denoted sign whole fraction := by
  have hpos : (10 : ℚ) ^ fraction.length ≠ 0 := pow_ne_zero _ (by norm_num)
  have hdigits : ((Digits.value (whole ++ fraction) : ℕ) : ℚ) / 10 ^ fraction.length =
      Digits.value whole + Digits.value fraction / 10 ^ fraction.length := by
    rw [Digits.value_append]
    push_cast
    field_simp
  unfold Decimal.value denoted
  rw [hscale, hunits, ← hdigits]
  unfold signedUnits
  split_ifs
  · push_cast
    ring
  · push_cast
    ring

/-- The digits that `toString` slices. -/
def paddedDigits (d : Decimal) : List Char :=
  Digits.padStart (d.scale + 1) (Nat.toDigits 10 d.units.natAbs)

theorem toString_eq (d : Decimal) : d.toString.toList = signText (decide (d.units < 0)) ++
    (paddedDigits d).take ((paddedDigits d).length - d.scale) ++
    fractionText ((paddedDigits d).drop ((paddedDigits d).length - d.scale)) := by
  have hlength : d.scale + 1 ≤ (paddedDigits d).length := by
    unfold paddedDigits Digits.padStart
    rw [List.length_append, List.length_replicate]
    omega
  have hdigits : List.replicate (d.scale + 1 - (Nat.repr d.units.natAbs).toList.length) '0' ++
      (Nat.repr d.units.natAbs).toList = paddedDigits d := by
    rw [Nat.toList_repr]
    rfl
  unfold Decimal.toString
  dsimp only
  rw [hdigits, String.toList_ofList]
  congr 1
  · congr 1
    by_cases hneg : d.units < 0
    · simp [signText, hneg]
    · simp [signText, hneg]
  · unfold fractionText
    by_cases hzero : d.scale = 0
    · simp [hzero]
    · have hdrop : (paddedDigits d).drop ((paddedDigits d).length - d.scale) ≠ [] := by
        intro hnil
        have := congrArg List.length hnil
        rw [List.length_drop, List.length_nil] at this
        omega
      rw [if_neg hzero, if_neg hdrop]

/-- The padded digits start with the whole part. -/
theorem canonical_paddedDigits (d : Decimal) :
    Digits.Canonical ((paddedDigits d).take ((paddedDigits d).length - d.scale)) ∧
      ∀ c ∈ (paddedDigits d).drop ((paddedDigits d).length - d.scale), c.isDigit = true := by
  have htext := Digits.canonical_toDigits d.units.natAbs
  have hdigit : ∀ c ∈ paddedDigits d, c.isDigit = true := by
    intro c hc
    rcases List.mem_append.mp hc with hc | hc
    · rw [List.eq_of_mem_replicate hc]
      decide
    · exact htext.digit c hc
  refine ⟨⟨fun c hc => hdigit c (List.mem_of_mem_take hc), ?_⟩,
    fun c hc => hdigit c (List.mem_of_mem_drop hc)⟩
  by_cases hshort : (Nat.toDigits 10 d.units.natAbs).length ≤ d.scale
  · -- the first digit is a padding zero, and the whole part has no other
    have hpad : paddedDigits d = '0' :: (List.replicate
        (d.scale - (Nat.toDigits 10 d.units.natAbs).length) '0' ++
          Nat.toDigits 10 d.units.natAbs) := by
      unfold paddedDigits Digits.padStart
      rw [Nat.succ_sub hshort, List.replicate_succ, List.cons_append]
    have hone : (paddedDigits d).length - d.scale = 1 := by
      rw [hpad, List.length_cons, List.length_append, List.length_replicate]
      omega
    rw [hone, hpad]
    exact .inl rfl
  · have hpad : paddedDigits d = Nat.toDigits 10 d.units.natAbs := by
      unfold paddedDigits Digits.padStart
      rw [Nat.sub_eq_zero_of_le (by omega)]
      rfl
    rw [hpad]
    obtain hzero | ⟨c, cs, hcs, hne⟩ := htext.head
    · rw [hzero] at hshort ⊢
      have hscale : d.scale = 0 := by
        rw [List.length_singleton] at hshort
        omega
      rw [hscale]
      exact .inl rfl
    · rw [hcs] at hshort ⊢
      have htake : (c :: cs).length - d.scale = cs.length - d.scale + 1 := by
        rw [List.length_cons] at hshort ⊢
        omega
      rw [htake, List.take_succ_cons]
      exact .inr ⟨c, _, rfl, hne⟩

theorem written_toString (d : Decimal) : Written (decide (d.units < 0))
    ((paddedDigits d).take ((paddedDigits d).length - d.scale))
    ((paddedDigits d).drop ((paddedDigits d).length - d.scale)) d.toString :=
  ⟨toString_eq d, (canonical_paddedDigits d).1, (canonical_paddedDigits d).2⟩

theorem value_paddedDigits (d : Decimal) : Digits.value (paddedDigits d) = d.units.natAbs := by
  unfold paddedDigits Digits.padStart
  rw [Digits.value_append, Digits.value_zeros, Nat.mul_zero, Nat.zero_add]
  exact Nat.ofDigitChars_ten_toDigits

theorem parse_toString (d : Decimal) : Decimal.parse d.toString = .ok d := by
  refine (parse_written (written_toString d)).mpr ⟨?_, ?_⟩
  · have hlength : d.scale + 1 ≤ (paddedDigits d).length := by
      unfold paddedDigits Digits.padStart
      rw [List.length_append, List.length_replicate]
      omega
    rw [List.length_drop]
    omega
  · rw [List.take_append_drop, signedUnits, value_paddedDigits]
    by_cases hneg : d.units < 0
    · simp only [hneg, decide_true, if_true]
      omega
    · simp only [hneg, decide_false, Bool.false_eq_true, if_false]
      omega

/-- An accepted text is printed as it was, but for the sign of zero. -/
theorem toString_written (h : Written sign whole fraction s) (hscale : d.scale = fraction.length)
    (hunits : d.units = signedUnits sign (whole ++ fraction)) :
    d.toString.toList = signText (sign && decide (d.units ≠ 0)) ++ whole ++
      fractionText fraction := by
  have habs : d.units.natAbs = Digits.value (whole ++ fraction) := by
    rw [hunits]
    unfold signedUnits
    split_ifs
    · rw [Int.natAbs_neg, Int.natAbs_natCast]
    · rw [Int.natAbs_natCast]
  have hpadded : paddedDigits d = whole ++ fraction := by
    unfold paddedDigits
    rw [hscale, habs]
    exact Digits.padStart_toDigits h.whole h.fraction
  have hsign : decide (d.units < 0) = (sign && decide (d.units ≠ 0)) := by
    rw [hunits]
    cases sign with
    | true =>
      simp only [signedUnits, if_true, Bool.true_and, decide_eq_decide]
      omega
    | false => simp [signedUnits]
  have hlength : (whole ++ fraction).length - d.scale = whole.length := by
    rw [List.length_append, hscale]
    omega
  rw [toString_eq, hpadded, hlength, List.take_left', List.drop_left', hsign]
  · rfl
  · rfl

end Parse

/-- The text format of decimals. -/
structure TextFormat : Prop where
  accepts : ∀ s, (∃ d, Decimal.parse s = .ok d) ↔ ∃ sign whole fraction,
    Written sign whole fraction s ∧ fraction.length ≤ 18 ∧
      (Digits.strip (whole ++ fraction)).length ≤ 38
  denotes : ∀ s d sign whole fraction, Decimal.parse s = .ok d → Written sign whole fraction s →
    d.scale = fraction.length ∧ d.value = denoted sign whole fraction
  reads : ∀ d : Decimal, Decimal.parse d.toString = .ok d
  /-- only a signed zero loses its sign -/
  prints : ∀ s d sign whole fraction, Decimal.parse s = .ok d → Written sign whole fraction s →
    d.toString = if sign = true ∧ d.units = 0 then String.ofList (whole ++ fractionText fraction)
      else s

theorem decimal_text_format : TextFormat where
  accepts := fun _ => exists_parse_iff
  denotes := by
    intro s d sign whole fraction hparse h
    obtain ⟨hscale, hunits⟩ := (parse_written h).mp hparse
    exact ⟨hscale, value_written hscale hunits⟩
  reads := parse_toString
  prints := by
    intro s d sign whole fraction hparse h
    obtain ⟨hscale, hunits⟩ := (parse_written h).mp hparse
    have htext := toString_written h hscale hunits
    apply String.toList_injective
    rw [htext]
    split_ifs with hzero
    · simp [hzero, signText]
    · have hsign : (sign && decide (d.units ≠ 0)) = sign := by
        cases sign with
        | false => rfl
        | true => simpa using hzero
      rw [hsign, h.text]

end Sintius.Money
