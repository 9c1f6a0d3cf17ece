import Mathlib
import Sintius.Lib.Date
import Sintius.Lib.CivilDate

/-! `new Date(String(date))` where local time is UTC. The text of a date shows its year,
month, day and time to the second. Reading it back, engines take a year below 50 for one
of this century and a year below 100 for one of the last, and refuse the sign of a year
before zero. -/

namespace Js.Date

def yearOf (t : Instant) : ℤ := (fieldsOf t.1).year

/-- The year that the year of a date text is taken for. -/
def fullYear (year : ℤ) : ℤ :=
  if year < 50 then 2000 + year else if year < 100 then 1900 + year else year

/-- `new Date(String(date))`; `none` is an invalid date. -/
def ofString (t : Instant) : Option Instant :=
  if yearOf t < 0 then none
  else timeClip (makeTime { fieldsOf t.1 with year := fullYear (yearOf t), millisecond := 0 })

theorem le_yearFromDay_iff {y d : ℤ} : y ≤ yearFromDay d ↔ dayFromYear y ≤ d := by
  obtain ⟨hle, hlt⟩ := yearFromDay_spec d
  refine ⟨fun h => (dayFromYear_mono h).trans hle, fun h => ?_⟩
  by_contra hless
  have := dayFromYear_mono (show yearFromDay d + 1 ≤ y by omega)
  omega

/-- The years from `y` on begin with its first day. -/
theorem le_yearOf_iff {y : ℤ} {t : Instant} : y ≤ yearOf t ↔ dayFromYear y * msPerDay ≤ t.1 := by
  rw [yearOf, fieldsOf, le_yearFromDay_iff, Int.le_ediv_iff_mul_le (by decide)]

theorem yearOf_mono {t u : Instant} (h : t.1 ≤ u.1) : yearOf t ≤ yearOf u :=
  le_yearOf_iff.mpr ((le_yearOf_iff.mp le_rfl).trans h)

theorem daysBefore_bounds (leap : Bool) {month : ℕ} (h : month ≤ 11) :
    0 ≤ daysBefore leap month ∧ daysBefore leap month ≤ 335 := by
  interval_cases month <;> cases leap <;> decide

section Read

variable {t u : Instant}

theorem millisecond_fieldsOf (t : ℤ) : ((fieldsOf t).millisecond : ℤ) = t % 1000 := by
  have hmod : 0 ≤ t % msPerDay := Int.emod_nonneg t (by decide)
  change (((t % msPerDay).toNat % 1000 : ℕ) : ℤ) = t % 1000
  rw [Int.natCast_mod, Int.toNat_of_nonneg hmod]
  exact Int.emod_emod_of_dvd t (by decide)

/-- Without its milliseconds. -/
theorem makeTime_second (t : Instant) :
    makeTime { fieldsOf t.1 with millisecond := 0 } = (startOfSecond t).1 := by
  have hwhole : makeTime { fieldsOf t.1 with millisecond := 0 } + (fieldsOf t.1).millisecond =
      makeTime (fieldsOf t.1) := by
    unfold makeTime
    push_cast
    ring
  rw [makeTime_fieldsOf, millisecond_fieldsOf] at hwhole
  change _ = t.1 - t.1 % 1000
  omega

/-- In another year: a whole second, within the year's length and a month. -/
theorem makeTime_year (t : Instant) (y : ℤ) :
    ∃ time : ℤ, makeTime { fieldsOf t.1 with year := y, millisecond := 0 } =
      dayFromYear y * msPerDay + time * 1000 ∧ 0 ≤ time ∧ time * 1000 < 400 * msPerDay := by
  have hbounds := fieldsOf_inRange t.2
  have hmonth := daysBefore_bounds (leapYear y)
    (show (fieldsOf t.1).month ≤ 11 from Nat.le_of_lt_succ hbounds.month)
  have hdate : (1 : ℤ) ≤ (fieldsOf t.1).date := by
    simp [fieldsOf]
  have hdate' : ((fieldsOf t.1).date : ℤ) ≤ 31 := by
    have := date_lt (leapYear (yearFromDay (t.1 / msPerDay))) (dayOfYear_bounds (t.1 / msPerDay)).2
    simp only [fieldsOf]
    omega
  have hhour := hbounds.hour
  have hminute := hbounds.minute
  have hsecond := hbounds.second
  refine ⟨(daysBefore (leapYear y) (fieldsOf t.1).month + ((fieldsOf t.1).date - 1)) * 86400 +
    ((fieldsOf t.1).hour * 3600 + (fieldsOf t.1).minute * 60 + (fieldsOf t.1).second : ℕ), ?_, ?_, ?_⟩
  · unfold makeTime msPerDay
    push_cast
    ring
  · omega
  · unfold msPerDay
    omega

/-- The text of a date of three digits and more in its year names its second. -/
theorem ofString_of_le (h : 100 ≤ yearOf t) : ofString t = some (startOfSecond t) := by
  have hyear : fullYear (yearOf t) = (fieldsOf t.1).year := by
    unfold fullYear
    rw [if_neg (by omega), if_neg (by omega)]
    rfl
  unfold ofString
  rw [if_neg (by omega), hyear, makeTime_second, timeClip_val]

theorem le_of_ofString (h : 100 ≤ yearOf t) (hread : ofString t = some u) : u.1 ≤ t.1 := by
  rw [ofString_of_le h, Option.some.injEq] at hread
  rw [← hread]
  simp only [startOfSecond]
  omega

/-- A date of one or two digits in its year is taken for one after 1950. -/
theorem ofString_of_lt (h : 0 ≤ yearOf t) (h' : yearOf t < 100) :
    ∃ u, ofString t = some u ∧ u.1 % 1000 = 0 ∧ 1950 ≤ yearOf u := by
  obtain ⟨time, htime, hpos, hless⟩ := makeTime_year t (fullYear (yearOf t))
  have hfull : 1950 ≤ fullYear (yearOf t) ∧ fullYear (yearOf t) < 2050 := by
    unfold fullYear
    split_ifs <;> omega
  have hfirst : dayFromYear 1950 ≤ dayFromYear (fullYear (yearOf t)) := dayFromYear_mono hfull.1
  have hlast : dayFromYear (fullYear (yearOf t)) ≤ dayFromYear 2050 := dayFromYear_mono hfull.2.le
  rw [show dayFromYear 1950 = -7305 from rfl] at hfirst
  rw [show dayFromYear 2050 = 29220 from rfl] at hlast
  unfold msPerDay at htime hless
  have hclip : |makeTime { fieldsOf t.1 with year := fullYear (yearOf t), millisecond := 0 }| ≤
      maxTime := by
    rw [htime, abs_le]
    unfold maxTime
    omega
  refine ⟨⟨_, hclip⟩, ?_, ?_, ?_⟩
  · unfold ofString
    rw [if_neg (by omega)]
    exact dif_pos hclip
  · dsimp only
    rw [htime]
    omega
  · rw [le_yearOf_iff, show dayFromYear 1950 = -7305 from rfl]
    dsimp only
    rw [htime]
    unfold msPerDay
    omega

theorem ofString_eq_none_iff : ofString t = none ↔ yearOf t < 0 := by
  constructor
  · intro hnone
    by_contra hyear
    by_cases hlate : 100 ≤ yearOf t
    · rw [ofString_of_le hlate] at hnone
      cases hnone
    · obtain ⟨u, hu, -⟩ := ofString_of_lt (not_lt.mp hyear) (not_le.mp hlate)
      rw [hu] at hnone
      cases hnone
  · intro hyear
    unfold ofString
    rw [if_pos hyear]

/-- What is read back is a whole second, of a year that its own text shows. -/
theorem ofString_spec (h : ofString t = some u) : u.1 % 1000 = 0 ∧ 100 ≤ yearOf u := by
  have hyear : 0 ≤ yearOf t := by
    by_contra hless
    rw [ofString_eq_none_iff.mpr (not_le.mp hless)] at h
    cases h
  by_cases hlate : 100 ≤ yearOf t
  · rw [ofString_of_le hlate] at h
    cases h
    refine ⟨startOfSecond_eq_self_iff.mp (startOfSecond_startOfSecond t), ?_⟩
    rw [le_yearOf_iff, show dayFromYear 100 = -683003 from rfl] at hlate ⊢
    unfold msPerDay at hlate ⊢
    simp only [startOfSecond]
    omega
  · obtain ⟨u', hu', hwhole, hfull⟩ := ofString_of_lt hyear (not_le.mp hlate)
    cases hu'.symm.trans h
    exact ⟨hwhole, by omega⟩

/-- An instant is the one its own text is taken for if it is a whole second and its year has three
digits or more. -/
theorem ofString_eq_self_iff : ofString t = some t ↔ t.1 % 1000 = 0 ∧ 100 ≤ yearOf t := by
  refine ⟨ofString_spec, fun ⟨hwhole, hyear⟩ => ?_⟩
  rw [ofString_of_le hyear, startOfSecond_eq_self_iff.mpr hwhole]

theorem ofString_ofString (h : ofString t = some u) : ofString u = some u :=
  ofString_eq_self_iff.mpr (ofString_spec h)

end Read

example : (ofString ⟨-60589296000000, by decide⟩).map toISOString =
    some "1950-01-01T00:00:00.000Z" := by
  decide +kernel

end Js.Date
