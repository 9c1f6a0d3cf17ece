import Mathlib

/-! ECMAScript time values: days, years and months of the proleptic Gregorian
calendar, `toISOString`, and `Date.parse` on the strings it produces. What an
implementation does with any other string is a parameter. -/

namespace Js.Date

def msPerDay : ℤ := 86400000

/-- Time values are whole milliseconds within 100,000,000 days of the epoch. -/
def maxTime : ℤ := 8640000000000000

/-- A time value that is not NaN. -/
abbrev Instant := { t : ℤ // |t| ≤ maxTime }

/-- `new Date(t)` for an integral number of milliseconds; `none` is an invalid date. -/
def timeClip (t : ℤ) : Option Instant := if h : |t| ≤ maxTime then some ⟨t, h⟩ else none

theorem timeClip_val (t : Instant) : timeClip t.1 = some t := dif_pos t.2

/-- The instant without its milliseconds. -/
def startOfSecond (t : Instant) : Instant :=
  ⟨t.1 - t.1 % 1000, by
    have h := abs_le.mp t.2
    unfold maxTime at h ⊢
    rw [abs_le]
    omega⟩

theorem startOfSecond_eq_self_iff {t : Instant} : startOfSecond t = t ↔ t.1 % 1000 = 0 := by
  rw [Subtype.ext_iff]
  simp only [startOfSecond]
  omega

theorem startOfSecond_startOfSecond (t : Instant) :
    startOfSecond (startOfSecond t) = startOfSecond t := by
  rw [startOfSecond_eq_self_iff]
  simp only [startOfSecond]
  omega

/-- The day number of the first day of year `y`. -/
def dayFromYear (y : ℤ) : ℤ :=
  365 * (y - 1970) + (y - 1969) / 4 - (y - 1901) / 100 + (y - 1601) / 400

def leapYear (y : ℤ) : Bool := (y % 4 == 0 && y % 100 != 0) || y % 400 == 0

/-- The largest year that starts at or before day `d`: the mean-year estimate is off by at most one. -/
def yearFromDay (d : ℤ) : ℤ :=
  let y := 1970 + 400 * d / 146097
  if d < dayFromYear y then y - 1 else if dayFromYear (y + 1) ≤ d then y + 1 else y

theorem yearFromDay_spec (d : ℤ) :
    dayFromYear (yearFromDay d) ≤ d ∧ d < dayFromYear (yearFromDay d + 1) := by
  unfold yearFromDay
  simp only
  split_ifs with h1 h2
  · refine ⟨?_, by simpa using h1⟩
    unfold dayFromYear
    omega
  · refine ⟨h2, ?_⟩
    unfold dayFromYear
    omega
  · exact ⟨not_lt.mp h1, not_le.mp h2⟩

theorem dayFromYear_succ (y : ℤ) :
    dayFromYear (y + 1) = dayFromYear y + if leapYear y then 366 else 365 := by
  have hleap : leapYear y = true ↔ (y % 4 = 0 ∧ y % 100 ≠ 0) ∨ y % 400 = 0 := by
    simp [leapYear]
  unfold dayFromYear
  split_ifs with h
  · rw [hleap] at h; omega
  · rw [hleap] at h; omega

/-- Days of the year before the zero-based month. -/
def daysBefore (leap : Bool) (month : ℕ) : ℤ :=
  [0, 31, 59, 90, 120, 151, 181, 212, 243, 273, 304, 334].getD month 365 +
    if leap ∧ 2 ≤ month then 1 else 0

/-- The zero-based month that contains a zero-based day of the year. -/
def monthOf (leap : Bool) (day : ℤ) : ℕ := Nat.findGreatest (fun m => daysBefore leap m ≤ day) 11

theorem monthOf_le (leap : Bool) (day : ℤ) : monthOf leap day ≤ 11 := Nat.findGreatest_le 11

theorem daysBefore_monthOf_le (leap : Bool) {day : ℤ} (h : 0 ≤ day) :
    daysBefore leap (monthOf leap day) ≤ day := by
  have h0 : daysBefore leap 0 ≤ day := by simpa [daysBefore] using h
  exact Nat.findGreatest_spec (P := fun m => daysBefore leap m ≤ day) (Nat.zero_le 11) h0

theorem date_lt (leap : Bool) {day : ℤ} (h : day < if leap then 366 else 365) :
    day - daysBefore leap (monthOf leap day) < 31 := by
  have hle := monthOf_le leap day
  have hgreatest : ∀ m, monthOf leap day < m → m ≤ 11 → day < daysBefore leap m :=
    fun m h1 h2 => not_le.mp (Nat.findGreatest_is_greatest h1 h2)
  generalize monthOf leap day = m at *
  interval_cases m
  all_goals first
    | (have hnext := hgreatest _ (Nat.lt_succ_self _) (by omega)
       cases leap <;> simp [daysBefore] at hnext ⊢ <;> omega)
    | (cases leap <;> simp [daysBefore] at h ⊢ <;> omega)

/-- The low `k` decimal digits of `n`, most significant first. -/
def pad : ℕ → ℕ → List Char
  | 0, _ => []
  | k + 1, n => pad k (n / 10) ++ [Nat.digitChar (n % 10)]

theorem pad_length (k n : ℕ) : (pad k n).length = k := by
  induction k generalizing n with
  | zero => rfl
  | succ k ih => simp [pad, ih]

/-- Decimal reading of a digit string. -/
def readNat (cs : List Char) : ℕ := cs.foldl (fun acc c => acc * 10 + (c.toNat - 48)) 0

theorem digitChar_toNat {d : ℕ} (h : d < 10) : (Nat.digitChar d).toNat - 48 = d := by
  interval_cases d <;> rfl

theorem readNat_pad (k n : ℕ) : readNat (pad k n) = n % 10 ^ k := by
  induction k generalizing n with
  | zero => simp [pad, readNat, Nat.mod_one]
  | succ k ih =>
    have ih' := ih (n / 10)
    unfold readNat at ih' ⊢
    rw [pad, List.foldl_append, ih']
    simp only [List.foldl_cons, List.foldl_nil, digitChar_toNat (Nat.mod_lt n (by norm_num))]
    rw [pow_succ, Nat.mul_comm (10 ^ k) 10, Nat.mod_mul]
    ring

/-- The components `toISOString` prints. -/
structure Fields where
  year : ℤ
  month : ℕ
  date : ℕ
  hour : ℕ
  minute : ℕ
  second : ℕ
  millisecond : ℕ

def fieldsOf (t : ℤ) : Fields :=
  let day := t / msPerDay
  let time := (t % msPerDay).toNat
  let year := yearFromDay day
  let dayOfYear := day - dayFromYear year
  let month := monthOf (leapYear year) dayOfYear
  { year := year
    month := month
    date := (dayOfYear - daysBefore (leapYear year) month).toNat + 1
    hour := time / 3600000
    minute := time / 60000 % 60
    second := time / 1000 % 60
    millisecond := time % 1000 }

/-- `MakeDate(MakeDay(..), MakeTime(..))` for in-range components. -/
def makeTime (f : Fields) : ℤ :=
  (dayFromYear f.year + daysBefore (leapYear f.year) f.month + (f.date - 1)) * msPerDay +
    (f.hour * 3600000 + f.minute * 60000 + f.second * 1000 + f.millisecond : ℕ)

/-- `MakeDay`, with months beyond the year carried over. -/
def makeDay (year month date : ℤ) : ℤ :=
  let year := year + month / 12
  dayFromYear year + daysBefore (leapYear year) (month % 12).toNat + (date - 1)

/-- `Date.UTC(year, month, date)` of integers; it takes the years 0 to 99 for 1900 to 1999. -/
def utc (year month date : ℤ) : Option Instant :=
  let fullYear := if 0 ≤ year ∧ year ≤ 99 then 1900 + year else year
  timeClip (makeDay fullYear month date * msPerDay)

theorem dayOfYear_bounds (d : ℤ) :
    0 ≤ d - dayFromYear (yearFromDay d) ∧
      d - dayFromYear (yearFromDay d) < if leapYear (yearFromDay d) then 366 else 365 := by
  obtain ⟨h1, h2⟩ := yearFromDay_spec d
  rw [dayFromYear_succ] at h2
  exact ⟨by omega, by omega⟩

theorem makeTime_fieldsOf (t : ℤ) : makeTime (fieldsOf t) = t := by
  have hb := (dayOfYear_bounds (t / msPerDay)).1
  have hm := daysBefore_monthOf_le (leapYear (yearFromDay (t / msPerDay))) hb
  have htime : (t % msPerDay).toNat / 3600000 * 3600000 + (t % msPerDay).toNat / 60000 % 60 * 60000 +
      (t % msPerDay).toNat / 1000 % 60 * 1000 + (t % msPerDay).toNat % 1000 =
        (t % msPerDay).toNat := by omega
  have hmod : 0 ≤ t % msPerDay := Int.emod_nonneg t (by unfold msPerDay; norm_num)
  unfold makeTime fieldsOf
  simp only [htime]
  rw [Int.toNat_of_nonneg hmod]
  push_cast
  rw [Int.toNat_of_nonneg (by omega)]
  have hdiv := Int.mul_ediv_add_emod t msPerDay
  linarith [hdiv]

/-- Each component is within the width it is printed in. -/
structure Fields.InRange (f : Fields) : Prop where
  year : |f.year| < 1000000
  month : f.month < 12
  date : f.date < 100
  hour : f.hour < 24
  minute : f.minute < 60
  second : f.second < 60
  millisecond : f.millisecond < 1000

theorem year_lt {t : ℤ} (h : |t| ≤ maxTime) : |yearFromDay (t / msPerDay)| < 1000000 := by
  have ht := abs_le.mp h
  have hd : -100000001 < t / msPerDay ∧ t / msPerDay < 100000001 := by
    unfold maxTime at ht
    unfold msPerDay
    omega
  obtain ⟨h1, h2⟩ := yearFromDay_spec (t / msPerDay)
  unfold dayFromYear at h1 h2
  rw [abs_lt]
  omega

theorem fieldsOf_inRange {t : ℤ} (h : |t| ≤ maxTime) : (fieldsOf t).InRange := by
  have hb := dayOfYear_bounds (t / msPerDay)
  have hdate := date_lt (leapYear (yearFromDay (t / msPerDay))) hb.2
  have htime : t % msPerDay < 86400000 := Int.emod_lt_of_pos t (by unfold msPerDay; norm_num)
  refine ⟨year_lt h, ?_, ?_, ?_, ?_, ?_, ?_⟩
  · have := monthOf_le (leapYear (yearFromDay (t / msPerDay)))
      (t / msPerDay - dayFromYear (yearFromDay (t / msPerDay)))
    change monthOf _ _ < 12
    omega
  · simp only [fieldsOf]
    omega
  · simp only [fieldsOf]
    omega
  · exact Nat.mod_lt _ (by norm_num)
  · exact Nat.mod_lt _ (by norm_num)
  · exact Nat.mod_lt _ (by norm_num)

/-- Four digits for years 0 to 9999, else a sign and six digits. -/
def yearText (y : ℤ) : List Char :=
  if 0 ≤ y ∧ y ≤ 9999 then pad 4 y.toNat
  else (if y < 0 then '-' else '+') :: pad 6 y.natAbs

def tailText (f : Fields) : List Char :=
  ['-'] ++ pad 2 (f.month + 1) ++ ['-'] ++ pad 2 f.date ++ ['T'] ++ pad 2 f.hour ++ [':'] ++
    pad 2 f.minute ++ [':'] ++ pad 2 f.second ++ ['.'] ++ pad 3 f.millisecond ++ ['Z']

def toISOString (t : Instant) : String :=
  String.ofList (yearText (fieldsOf t.1).year ++ tailText (fieldsOf t.1))

def readYear (cs : List Char) : ℤ :=
  match cs with
  | '-' :: ds => -(readNat ds : ℤ)
  | '+' :: ds => readNat ds
  | ds => readNat ds

/-- Fixed-width reading of the components; `parse` accepts them only if they print back. -/
def readFields (cs : List Char) : Fields :=
  let n := cs.length - 20
  let tail := cs.drop n
  { year := readYear (cs.take n)
    month := readNat ((tail.drop 1).take 2) - 1
    date := readNat ((tail.drop 4).take 2)
    hour := readNat ((tail.drop 7).take 2)
    minute := readNat ((tail.drop 10).take 2)
    second := readNat ((tail.drop 13).take 2)
    millisecond := readNat ((tail.drop 16).take 3) }

/-- `Date.parse`: the time value a `toISOString` text denotes; any other string is left to the
implementation, `none` being NaN. -/
def parse (other : String → Option ℤ) (s : String) : Option ℤ :=
  match timeClip (makeTime (readFields s.toList)) with
  | some t => if toISOString t = s then some t.1 else other s
  | none => other s

theorem readNat_pad_of_lt {k n : ℕ} (h : n < 10 ^ k) : readNat (pad k n) = n := by
  rw [readNat_pad, Nat.mod_eq_of_lt h]

theorem digitChar_ne_sign {d : ℕ} (h : d < 10) : Nat.digitChar d ≠ '-' ∧ Nat.digitChar d ≠ '+' := by
  interval_cases d <;> decide

theorem readYear_yearText {y : ℤ} (h : |y| < 1000000) : readYear (yearText y) = y := by
  unfold yearText
  split_ifs with hr hneg
  · have hlt : y.toNat < 10 ^ 4 := by omega
    have hread := readNat_pad_of_lt hlt
    have hunsigned : readYear (pad 4 y.toNat) = readNat (pad 4 y.toNat) := by
      simp only [pad, List.nil_append, List.cons_append]
      have hd := digitChar_ne_sign (Nat.mod_lt (y.toNat / 10 / 10 / 10) (by norm_num : 0 < 10))
      unfold readYear
      split
      · next heq => exact absurd (List.cons.inj heq).1 hd.1
      · next heq => exact absurd (List.cons.inj heq).1 hd.2
      · rfl
    rw [hunsigned, hread]
    omega
  · have hread : readNat (pad 6 y.natAbs) = y.natAbs :=
      readNat_pad_of_lt (by have := abs_lt.mp h; omega)
    simp only [readYear, hread]
    omega
  · have hread : readNat (pad 6 y.natAbs) = y.natAbs :=
      readNat_pad_of_lt (by have := abs_lt.mp h; omega)
    simp only [readYear, hread]
    omega

theorem tailText_length (f : Fields) : (tailText f).length = 20 := by
  simp [tailText, pad_length]

theorem readFields_text {f : Fields} (h : f.InRange) :
    readFields (yearText f.year ++ tailText f) = f := by
  have hlen : (yearText f.year ++ tailText f).length - 20 = (yearText f.year).length := by
    rw [List.length_append, tailText_length]
    omega
  have hmonth : readNat (pad 2 (f.month + 1)) = f.month + 1 :=
    readNat_pad_of_lt (by have := h.month; omega)
  have hdate : readNat (pad 2 f.date) = f.date := readNat_pad_of_lt (by have := h.date; omega)
  have hhour : readNat (pad 2 f.hour) = f.hour := readNat_pad_of_lt (by have := h.hour; omega)
  have hmin : readNat (pad 2 f.minute) = f.minute := readNat_pad_of_lt (by have := h.minute; omega)
  have hsec : readNat (pad 2 f.second) = f.second := readNat_pad_of_lt (by have := h.second; omega)
  have hms : readNat (pad 3 f.millisecond) = f.millisecond :=
    readNat_pad_of_lt (by have := h.millisecond; omega)
  unfold readFields
  simp only [hlen, List.drop_left, List.take_left, readYear_yearText h.year]
  have htail : tailText f = '-' :: (pad 2 (f.month + 1) ++ '-' :: (pad 2 f.date ++ 'T' ::
      (pad 2 f.hour ++ ':' :: (pad 2 f.minute ++ ':' :: (pad 2 f.second ++ '.' ::
        (pad 3 f.millisecond ++ ['Z'])))))) := by
    simp [tailText]
  -- with every field two or three characters wide, the offsets land on the fields
  have e1 : ((tailText f).drop 1).take 2 = pad 2 (f.month + 1) := by rw [htail]; rfl
  have e2 : ((tailText f).drop 4).take 2 = pad 2 f.date := by rw [htail]; rfl
  have e3 : ((tailText f).drop 7).take 2 = pad 2 f.hour := by rw [htail]; rfl
  have e4 : ((tailText f).drop 10).take 2 = pad 2 f.minute := by rw [htail]; rfl
  have e5 : ((tailText f).drop 13).take 2 = pad 2 f.second := by rw [htail]; rfl
  have e6 : ((tailText f).drop 16).take 3 = pad 3 f.millisecond := by rw [htail]; rfl
  rw [e1, e2, e3, e4, e5, e6, hmonth, hdate, hhour, hmin, hsec, hms]
  rfl

/-- `Date.parse(d.toISOString())` is `d.valueOf()`. -/
theorem parse_toISOString (other : String → Option ℤ) (t : Instant) :
    parse other (toISOString t) = some t.1 := by
  unfold parse
  have hread : makeTime (readFields (toISOString t).toList) = t.1 := by
    unfold toISOString
    rw [String.toList_ofList, readFields_text (fieldsOf_inRange t.2), makeTime_fieldsOf]
  rw [hread, timeClip_val]
  simp

/-- Distinct instants print differently. -/
theorem toISOString_injective : Function.Injective toISOString := by
  intro t u h
  have ht := parse_toISOString (fun _ => none) t
  rw [h, parse_toISOString] at ht
  exact Subtype.ext (Option.some.inj ht).symm

example : toISOString ⟨1790244245678, by decide⟩ = "2026-09-24T10:04:05.678Z" := by decide +kernel

end Js.Date
