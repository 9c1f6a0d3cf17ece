import Mathlib
import Sintius.Lib.Date
import Sintius.Lib.Digits

/-! Civil dates of the proleptic Gregorian calendar, in the years that four digits write:
their day numbers, which are read back from time values, and their texts. -/

namespace Js.Date

def monthLength (leap : Bool) (month : ℕ) : ℕ :=
  if month = 2 then (if leap then 29 else 28)
  else if month = 4 ∨ month = 6 ∨ month = 9 ∨ month = 11 then 30
  else 31

@[ext]
structure CivilDate where
  year : ℕ
  month : ℕ
  date : ℕ
  year_lt : year < 10000
  month_pos : 1 ≤ month
  month_le : month ≤ 12
  date_pos : 1 ≤ date
  date_le : date ≤ monthLength (leapYear year) month

/-- The number of the day, from 1970-01-01. -/
def CivilDate.day (c : CivilDate) : ℤ :=
  dayFromYear c.year + daysBefore (leapYear c.year) (c.month - 1) + (c.date - 1)

/-- `YYYY-MM-DD` -/
def CivilDate.text (c : CivilDate) : String :=
  String.ofList (pad 4 c.year ++ '-' :: (pad 2 c.month ++ '-' :: pad 2 c.date))

section Days

theorem monthLength_le (leap : Bool) (month : ℕ) : monthLength leap month ≤ 31 := by
  unfold monthLength
  split_ifs <;> omega

/-- Months follow one another. -/
theorem daysBefore_succ (leap : Bool) {month : ℕ} (h : month < 12) :
    daysBefore leap (month + 1) = daysBefore leap month + monthLength leap (month + 1) := by
  interval_cases month <;> cases leap <;> rfl

theorem daysBefore_mono (leap : Bool) {m n : ℕ} (h : m ≤ n) (hn : n ≤ 12) :
    daysBefore leap m ≤ daysBefore leap n := by
  induction n, h using Nat.le_induction with
  | base => exact le_rfl
  | succ n _ ih =>
    rw [daysBefore_succ leap (by omega)]
    exact (ih (by omega)).trans (by omega)

theorem daysBefore_twelve (leap : Bool) : daysBefore leap 12 = if leap then 366 else 365 := by
  cases leap <;> rfl

theorem dayFromYear_mono {y y' : ℤ} (h : y ≤ y') : dayFromYear y ≤ dayFromYear y' := by
  refine monotone_int_of_le_succ (fun y => ?_) h
  rw [dayFromYear_succ]
  split_ifs <;> omega

theorem yearFromDay_eq {y d : ℤ} (h : dayFromYear y ≤ d) (h' : d < dayFromYear (y + 1)) :
    yearFromDay d = y := by
  obtain ⟨hle, hlt⟩ := yearFromDay_spec d
  rcases lt_trichotomy (yearFromDay d) y with hy | hy | hy
  · have := dayFromYear_mono (show yearFromDay d + 1 ≤ y by omega)
    omega
  · exact hy
  · have := dayFromYear_mono (show y + 1 ≤ yearFromDay d by omega)
    omega

theorem monthOf_eq {leap : Bool} {m : ℕ} {day : ℤ} (hm : m ≤ 11) (h : daysBefore leap m ≤ day)
    (h' : day < daysBefore leap (m + 1)) : monthOf leap day = m := by
  refine Nat.findGreatest_eq_iff.mpr ⟨hm, fun _ => h, fun n hlt hn => ?_⟩
  have := daysBefore_mono leap (show m + 1 ≤ n by omega) (by omega)
  omega

variable (c : CivilDate)

/-- The day of the year, from zero. -/
theorem CivilDate.dayOfYear_bounds :
    daysBefore (leapYear c.year) (c.month - 1) ≤ c.day - dayFromYear c.year ∧
      c.day - dayFromYear c.year < daysBefore (leapYear c.year) (c.month - 1 + 1) := by
  have hmonth : c.month - 1 + 1 = c.month := Nat.sub_add_cancel c.month_pos
  have hlt : c.month - 1 < 12 := by
    have := c.month_le
    omega
  have hsucc := daysBefore_succ (leapYear c.year) hlt
  rw [hmonth] at hsucc ⊢
  have hdate := c.date_le
  have hpos := c.date_pos
  rw [hsucc]
  unfold CivilDate.day
  omega

theorem CivilDate.year_eq : yearFromDay c.day = c.year := by
  obtain ⟨hle, hlt⟩ := c.dayOfYear_bounds
  have hmonth : c.month - 1 + 1 = c.month := Nat.sub_add_cancel c.month_pos
  have hzero := daysBefore_mono (leapYear c.year) (Nat.zero_le (c.month - 1))
    (by have := c.month_le; omega)
  have hyear := daysBefore_mono (leapYear c.year) c.month_le le_rfl
  rw [daysBefore_twelve] at hyear
  rw [hmonth] at hlt
  have hstart : daysBefore (leapYear c.year) 0 = 0 := by simp [daysBefore]
  refine yearFromDay_eq (by omega) ?_
  rw [dayFromYear_succ]
  omega

theorem CivilDate.monthOf_eq :
    monthOf (leapYear c.year) (c.day - dayFromYear c.year) = c.month - 1 := by
  obtain ⟨hle, hlt⟩ := c.dayOfYear_bounds
  exact Js.Date.monthOf_eq (by have := c.month_le; omega) hle hlt

/-- The components of its first instant are those of the date. -/
theorem CivilDate.fieldsOf_day : (fieldsOf (c.day * msPerDay)).year = c.year ∧
    (fieldsOf (c.day * msPerDay)).month + 1 = c.month ∧
      (fieldsOf (c.day * msPerDay)).date = c.date := by
  have hday : c.day * msPerDay / msPerDay = c.day :=
    Int.mul_ediv_cancel _ (by unfold msPerDay; norm_num)
  have hle := c.dayOfYear_bounds.1
  have hmonth := c.month_pos
  have hdate := c.date_pos
  refine ⟨?_, ?_, ?_⟩
  · simp only [fieldsOf, hday, c.year_eq]
  · simp only [fieldsOf, hday, c.year_eq, c.monthOf_eq]
    omega
  · simp only [fieldsOf, hday, c.year_eq, c.monthOf_eq]
    unfold CivilDate.day
    omega

/-- Every day of these years has its date. -/
theorem exists_civilDate {d : ℤ} (h : 0 ≤ yearFromDay d) (h' : yearFromDay d < 10000) :
    ∃ c : CivilDate, c.day = d := by
  obtain ⟨y, hy⟩ := Int.eq_ofNat_of_zero_le h
  obtain ⟨hb, hlt⟩ := dayOfYear_bounds d
  have hle := daysBefore_monthOf_le (leapYear (yearFromDay d)) hb
  have hmonth := monthOf_le (leapYear (yearFromDay d)) (d - dayFromYear (yearFromDay d))
  have hgreatest : ∀ m, monthOf (leapYear (yearFromDay d)) (d - dayFromYear (yearFromDay d)) < m →
      m ≤ 11 → d - dayFromYear (yearFromDay d) < daysBefore (leapYear (yearFromDay d)) m :=
    fun m h1 h2 => not_le.mp (Nat.findGreatest_is_greatest h1 h2)
  have hnext : d - dayFromYear (yearFromDay d) < daysBefore (leapYear (yearFromDay d))
      (monthOf (leapYear (yearFromDay d)) (d - dayFromYear (yearFromDay d)) + 1) := by
    rcases hmonth.eq_or_lt with heq | hlt'
    · rw [heq, daysBefore_twelve]
      exact hlt
    · exact hgreatest _ (Nat.lt_succ_self _) (by omega)
  rw [daysBefore_succ _ (by omega)] at hnext
  generalize monthOf (leapYear (yearFromDay d)) (d - dayFromYear (yearFromDay d)) = m at *
  rw [hy] at hle hnext hlt hb h'
  refine ⟨⟨y, m + 1, (d - dayFromYear y - daysBefore (leapYear y) m).toNat + 1, by omega, by omega,
    by omega, by omega, by omega⟩, ?_⟩
  simp only [CivilDate.day, Nat.add_sub_cancel]
  omega

theorem CivilDate.day_injective : Function.Injective CivilDate.day := by
  intro c c' h
  have hf := c.fieldsOf_day
  rw [h] at hf
  have hf' := c'.fieldsOf_day
  refine CivilDate.ext ?_ (hf.2.1.symm.trans hf'.2.1) (hf.2.2.symm.trans hf'.2.2)
  exact_mod_cast hf.1.symm.trans hf'.1

theorem CivilDate.year_le_of_day_le {c c' : CivilDate} (h : c.day ≤ c'.day) :
    c.year ≤ c'.year := by
  by_contra hlt
  have hc := (yearFromDay_spec c.day).1
  have hc' := (yearFromDay_spec c'.day).2
  rw [c.year_eq] at hc
  rw [c'.year_eq] at hc'
  have := dayFromYear_mono (show ((c'.year : ℤ) + 1) ≤ c.year by omega)
  omega

theorem CivilDate.abs_day_le : |c.day * msPerDay| ≤ maxTime := by
  obtain ⟨hle, hlt⟩ := yearFromDay_spec c.day
  have hyear := c.year_lt
  rw [c.year_eq] at hle hlt
  unfold dayFromYear at hle hlt
  unfold maxTime msPerDay
  rw [abs_le]
  omega

end Days

section Order

/-- By year, then by month, then by date. -/
instance : LinearOrder CivilDate :=
  LinearOrder.lift' (fun c => toLex (c.year, toLex (c.month, c.date))) fun c c' h => by
    have hpair := Prod.ext_iff.mp (toLex.injective h)
    have hrest := Prod.ext_iff.mp (toLex.injective hpair.2)
    exact CivilDate.ext hpair.1 hrest.1 hrest.2

theorem CivilDate.lt_iff {c c' : CivilDate} : c < c' ↔ c.year < c'.year ∨
    c.year = c'.year ∧ (c.month < c'.month ∨ c.month = c'.month ∧ c.date < c'.date) := by
  change toLex (c.year, toLex (c.month, c.date)) < toLex (c'.year, toLex (c'.month, c'.date)) ↔ _
  rw [Prod.Lex.toLex_lt_toLex, Prod.Lex.toLex_lt_toLex]

/-- A later date has a larger number. -/
theorem CivilDate.day_strictMono : StrictMono CivilDate.day := by
  intro c c' h
  rcases CivilDate.lt_iff.mp h with hyear | ⟨hyear, hmonth | ⟨hmonth, hdate⟩⟩
  · have hc := (yearFromDay_spec c.day).2
    have hc' := (yearFromDay_spec c'.day).1
    rw [c.year_eq] at hc
    rw [c'.year_eq] at hc'
    have hnext := dayFromYear_mono (show (c.year : ℤ) + 1 ≤ c'.year by omega)
    omega
  · have hc := c.dayOfYear_bounds.2
    have hc' := c'.dayOfYear_bounds.1
    have hpos := c.month_pos
    have hle := c'.month_le
    have hnext := daysBefore_mono (leapYear c'.year)
      (show c.month - 1 + 1 ≤ c'.month - 1 by omega) (by omega)
    rw [hyear] at hc
    omega
  · unfold CivilDate.day
    rw [hyear, hmonth]
    omega

/-- The dates of an interval have just the days of the interval. -/
theorem CivilDate.image_day_Ico (a b : CivilDate) :
    CivilDate.day '' Set.Ico a b = Set.Ico a.day b.day := by
  refine Set.Subset.antisymm ?_ ?_
  · rintro _ ⟨c, ⟨ha, hb⟩, rfl⟩
    exact ⟨day_strictMono.monotone ha, day_strictMono hb⟩
  · rintro d ⟨ha, hb⟩
    have hlow : (a.year : ℤ) < yearFromDay d + 1 := by
      by_contra hnot
      have hstart := (yearFromDay_spec a.day).1
      have hend := (yearFromDay_spec d).2
      rw [a.year_eq] at hstart
      have := dayFromYear_mono (not_lt.mp hnot)
      omega
    have hhigh : yearFromDay d < (b.year : ℤ) + 1 := by
      by_contra hnot
      have hstart := (yearFromDay_spec d).1
      have hend := (yearFromDay_spec b.day).2
      rw [b.year_eq] at hend
      have := dayFromYear_mono (not_lt.mp hnot)
      omega
    have hyear := b.year_lt
    obtain ⟨c, rfl⟩ := exists_civilDate (d := d) (by omega) (by omega)
    exact ⟨c, ⟨day_strictMono.le_iff_le.mp ha, day_strictMono.lt_iff_lt.mp hb⟩, rfl⟩

theorem CivilDate.ncard_Ico {a b : CivilDate} (h : a ≤ b) :
    ((Set.Ico a b).ncard : ℤ) = b.day - a.day := by
  rw [← Set.ncard_image_of_injective _ CivilDate.day_injective, image_day_Ico,
    ← Finset.coe_Ico, Set.ncard_coe_finset, Int.card_Ico]
  exact Int.toNat_of_nonneg (sub_nonneg.mpr (day_strictMono.monotone h))

end Order

section Texts

theorem value_digitChar {d : ℕ} (h : d < 10) : Digits.value [Nat.digitChar d] = d := by
  interval_cases d <;> rfl

theorem value_pad (k n : ℕ) : Digits.value (pad k n) = n % 10 ^ k := by
  induction k generalizing n with
  | zero => simp [pad, Digits.value, Nat.mod_one]
  | succ k ih =>
    rw [pad, Digits.value_append, ih, value_digitChar (Nat.mod_lt n (by norm_num)), pow_succ,
      Nat.mul_comm (10 ^ k) 10, Nat.mod_mul]
    simp [Nat.add_comm]

theorem isDigit_pad {k n : ℕ} {c : Char} (h : c ∈ pad k n) : c.isDigit = true := by
  induction k generalizing n with
  | zero => cases h
  | succ k ih =>
    rcases List.mem_append.mp h with h | h
    · exact ih h
    · obtain rfl := List.mem_singleton.mp h
      have hlt := Nat.mod_lt n (show 0 < 10 by norm_num)
      interval_cases n % 10 <;> rfl

/-- A digit string is its value, padded to its length. -/
theorem pad_value {ds : List Char} (h : ∀ c ∈ ds, c.isDigit = true) :
    pad ds.length (Digits.value ds) = ds := by
  induction ds using List.reverseRecOn with
  | nil => rfl
  | append_singleton ds c ih =>
    obtain ⟨hlt, hchar⟩ := Digits.toNat_of_isDigit (h c (by simp))
    have hc : Digits.value [c] = c.toNat - 48 := by
      rw [← hchar, value_digitChar hlt, hchar]
    rw [Digits.value_append, hc, List.length_append, List.length_singleton, pad, pow_one,
      Nat.mul_add_div (by norm_num), Nat.div_eq_of_lt hlt, add_zero, Nat.mul_add_mod,
      Nat.mod_eq_of_lt hlt, hchar, ih fun d hd => h d (by simp [hd])]

theorem value_lt {ds : List Char} (h : ∀ c ∈ ds, c.isDigit = true) :
    Digits.value ds < 10 ^ ds.length := by
  have hvalue := value_pad ds.length (Digits.value ds)
  rw [pad_value h] at hvalue
  rw [hvalue]
  exact Nat.mod_lt _ (by positivity)

end Texts

end Js.Date
