import Mathlib
import Sintius.Lib.CivilDate
import Sintius.Lib.Except
import Sintius.Lib.Rounding
import Sintius.Spec.Money
import Sintius.Proofs.Decimal
import Sintius.Proofs.Money
import Sintius.Proofs.Allocation

/-! Proration by actual days. A date before the year 100 is not taken, as `Date.UTC` reads
such a year as one of the twentieth century; on all others the code divides the exact
product once, and what follows for the parts of a period is arithmetic of rounding. -/

set_option linter.dupNamespace false

namespace Sintius.Money

open Js Js.Date Rounding

section Dates

theorem CIVIL_DATE_text (c : CivilDate) : CIVIL_DATE c.text = some (c.year, c.month, c.date) := by
  obtain ⟨y₁, y₂, y₃, y₄, hy⟩ : ∃ y₁ y₂ y₃ y₄, pad 4 c.year = [y₁, y₂, y₃, y₄] :=
    ⟨_, _, _, _, rfl⟩
  obtain ⟨m₁, m₂, hm⟩ : ∃ m₁ m₂, pad 2 c.month = [m₁, m₂] := ⟨_, _, rfl⟩
  obtain ⟨d₁, d₂, hd⟩ : ∃ d₁ d₂, pad 2 c.date = [d₁, d₂] := ⟨_, _, rfl⟩
  have hdigits : [y₁, y₂, y₃, y₄, m₁, m₂, d₁, d₂].all Char.isDigit = true := by
    have happend : [y₁, y₂, y₃, y₄, m₁, m₂, d₁, d₂] =
        pad 4 c.year ++ (pad 2 c.month ++ pad 2 c.date) := by rw [hy, hm, hd]; rfl
    rw [happend, List.all_eq_true]
    intro x hx
    rcases List.mem_append.mp hx with hx | hx
    · exact isDigit_pad hx
    · exact (List.mem_append.mp hx).elim isDigit_pad isDigit_pad
  have hyear : Digits.value [y₁, y₂, y₃, y₄] = c.year := by
    rw [← hy, value_pad]
    exact Nat.mod_eq_of_lt c.year_lt
  have hmonth : Digits.value [m₁, m₂] = c.month := by
    rw [← hm, value_pad]
    exact Nat.mod_eq_of_lt (by have := c.month_le; omega)
  have hdate : Digits.value [d₁, d₂] = c.date := by
    rw [← hd, value_pad]
    have hle := c.date_le.trans (monthLength_le _ _)
    exact Nat.mod_eq_of_lt (by omega)
  unfold CIVIL_DATE CivilDate.text
  rw [String.toList_ofList, hy, hm, hd]
  change (if _ then _ else _) = _
  rw [if_pos hdigits, hyear, hmonth, hdate]

theorem text_of_CIVIL_DATE {s : String} {c : CivilDate}
    (h : CIVIL_DATE s = some (c.year, c.month, c.date)) : c.text = s := by
  unfold CIVIL_DATE at h
  split at h
  · rename_i y₁ y₂ y₃ y₄ m₁ m₂ d₁ d₂ htext
    split_ifs at h with hdigits
    simp only [Option.some.injEq, Prod.mk.injEq] at h
    obtain ⟨hy, hm, hd⟩ := h
    have hall := List.all_eq_true.mp hdigits
    have hpad : ∀ ds : List Char, (∀ x ∈ ds, x ∈ [y₁, y₂, y₃, y₄, m₁, m₂, d₁, d₂]) →
        pad ds.length (Digits.value ds) = ds := fun ds hds =>
      pad_value fun x hx => hall x (hds x hx)
    have hyear := hpad [y₁, y₂, y₃, y₄] (by simp)
    have hmonth := hpad [m₁, m₂] (by simp)
    have hdate := hpad [d₁, d₂] (by simp)
    simp only [List.length_cons, List.length_nil, hy, hm, hd] at hyear hmonth hdate
    unfold CivilDate.text
    rw [hyear, hmonth, hdate, ← String.ofList_toList (s := s), htext]
    rfl
  · cases h

theorem year_lt_of_CIVIL_DATE {s : String} {year month date : ℕ}
    (h : CIVIL_DATE s = some (year, month, date)) : year < 10000 := by
  unfold CIVIL_DATE at h
  split at h
  · split_ifs at h with hdigits
    simp only [Option.some.injEq, Prod.mk.injEq] at h
    rw [← h.1]
    refine lt_of_lt_of_le (value_lt fun x hx => List.all_eq_true.mp hdigits x ?_) (by simp)
    simp only [List.mem_cons, List.not_mem_nil, or_false] at hx ⊢
    tauto
  · cases h

theorem utc_civilDate {c : CivilDate} (h : 100 ≤ c.year) :
    utc c.year (c.month - 1) c.date = some ⟨c.day * msPerDay, c.abs_day_le⟩ := by
  have hpos := c.month_pos
  have hle := c.month_le
  have hday : makeDay c.year (c.month - 1) c.date = c.day := by
    have hdiv : ((c.month : ℤ) - 1) / 12 = 0 := by omega
    have hmod : (((c.month : ℤ) - 1) % 12).toNat = c.month - 1 := by omega
    unfold makeDay CivilDate.day
    simp only [hdiv, hmod, add_zero]
  unfold utc
  simp only
  rw [if_neg (by omega), hday]
  exact timeClip_val ⟨_, c.abs_day_le⟩

/-- From the year 100 on, the code gives a date the number of its day. -/
theorem dayNumber_text {c : CivilDate} (h : 100 ≤ c.year) : dayNumber c.text = .ok c.day := by
  obtain ⟨hyear, hmonth, hdate⟩ := c.fieldsOf_day
  have hday : c.day * msPerDay / msPerDay = c.day :=
    Int.mul_ediv_cancel _ (by unfold msPerDay; norm_num)
  unfold dayNumber
  rw [CIVIL_DATE_text]
  dsimp only
  rw [utc_civilDate h]
  dsimp only
  rw [if_neg (by omega), hday]

theorem utc_eq_some {year month date : ℤ} {t : Instant} (h : utc year month date = some t) :
    t.1 = makeDay (if 0 ≤ year ∧ year ≤ 99 then 1900 + year else year) month date * msPerDay := by
  unfold utc timeClip at h
  dsimp only at h
  generalize makeDay _ month date * msPerDay = value at h ⊢
  split_ifs at h
  cases h
  rfl

/-- A date is not on the day that it names 1900 years later. -/
theorem day_ne_later (c : CivilDate) :
    c.day ≠ makeDay (1900 + c.year) (c.month - 1) c.date := by
  intro hday
  have hpos := c.month_pos
  have hle := c.month_le
  have hdate := c.date_pos
  have hlt := (yearFromDay_spec c.day).2
  rw [c.year_eq] at hlt
  have hmono := dayFromYear_mono (show (c.year : ℤ) + 1 ≤ 1900 + c.year by omega)
  have hstart := daysBefore_mono (leapYear (1900 + c.year)) (Nat.zero_le (c.month - 1)) (by omega)
  have hzero : daysBefore (leapYear (1900 + c.year)) 0 = 0 := by simp [daysBefore]
  have hdiv : ((c.month : ℤ) - 1) / 12 = 0 := by omega
  have hmod : (((c.month : ℤ) - 1) % 12).toNat = c.month - 1 := by omega
  unfold makeDay at hday
  simp only [hdiv, hmod, add_zero] at hday
  omega

/-- No other text is taken. -/
theorem exists_of_dayNumber {s : String} {d : ℤ} (h : dayNumber s = .ok d) :
    ∃ c : CivilDate, c.text = s ∧ c.day = d ∧ 100 ≤ c.year := by
  unfold dayNumber at h
  split at h
  · cases h
  rename_i year month date htext
  split at h
  · cases h
  rename_i epoch hepoch
  dsimp only at h
  split_ifs at h with hcheck
  · cases h
  obtain rfl := Except.ok.inj h
  push Not at hcheck
  obtain ⟨hyear, hmonth, hdate⟩ := hcheck
  have hvalue := utc_eq_some hepoch
  have hdiv : epoch.1 / msPerDay * msPerDay = epoch.1 := by
    rw [hvalue, Int.mul_ediv_cancel _ (by unfold msPerDay; norm_num)]
  have hcomponent : (fieldsOf epoch.1).year = yearFromDay (epoch.1 / msPerDay) := rfl
  have hlt := year_lt_of_CIVIL_DATE htext
  obtain ⟨c, hc⟩ := exists_civilDate (d := epoch.1 / msPerDay) (by omega) (by omega)
  have hfields := c.fieldsOf_day
  rw [hc, hdiv] at hfields
  obtain ⟨hcyear, hcmonth, hcdate⟩ := hfields
  obtain rfl : c.year = year := by omega
  obtain rfl : c.month = month := by omega
  obtain rfl : c.date = date := by omega
  refine ⟨c, text_of_CIVIL_DATE htext, hc, ?_⟩
  by_contra hearly
  rw [if_pos (by omega)] at hvalue
  refine day_ne_later c ?_
  rw [hc, hvalue, Int.mul_ediv_cancel _ (by unfold msPerDay; norm_num)]

theorem text_injective : Function.Injective CivilDate.text := by
  intro c c' h
  have htext := CIVIL_DATE_text c
  rw [h, CIVIL_DATE_text] at htext
  simp only [Option.some.injEq, Prod.mk.injEq] at htext
  exact CivilDate.ext htext.1.symm htext.2.1.symm htext.2.2.symm

theorem dayNumber_text_eq_ok_iff {c : CivilDate} {d : ℤ} :
    dayNumber c.text = .ok d ↔ 100 ≤ c.year ∧ c.day = d := by
  constructor
  · intro h
    obtain ⟨c', htext, hday, hyear⟩ := exists_of_dayNumber h
    obtain rfl := text_injective htext
    exact ⟨hyear, hday⟩
  · rintro ⟨hyear, rfl⟩
    exact dayNumber_text hyear

theorem dayNumber_cases (s : String) :
    (∃ d, dayNumber s = .ok d) ∨ dayNumber s = invalidDate := by
  unfold dayNumber
  split
  · exact .inr rfl
  · split
    · exact .inr rfl
    · dsimp only
      split_ifs
      · exact .inr rfl
      · exact .inl ⟨_, rfl⟩

theorem dayNumber_early {c : CivilDate} (h : c.year < 100) : dayNumber c.text = invalidDate := by
  obtain ⟨d, hd⟩ | hinvalid := dayNumber_cases c.text
  · exact absurd (dayNumber_text_eq_ok_iff.mp hd).1 (not_le.mpr h)
  · exact hinvalid

theorem daysBetween_eq_ok_iff {start end_ : String} {days : ℤ} :
    daysBetween start end_ = .ok days ↔ ∃ first last, dayNumber start = .ok first ∧
      dayNumber end_ = .ok last ∧ first ≤ last ∧ days = last - first := by
  unfold daysBetween
  simp only [Except.bind_eq_ok_iff, rejectIf_eq_ok_iff]
  constructor
  · rintro ⟨last, hlast, first, hfirst, _, hle, h⟩
    cases h
    exact ⟨first, last, hfirst, hlast, by omega, rfl⟩
  · rintro ⟨first, last, hfirst, hlast, hle, rfl⟩
    exact ⟨last, hlast, first, hfirst, (), by omega, rfl⟩

end Dates

/-- A used interval of `usedDays` within a non-empty period of `periodDays`, both of civil dates
and half-open. -/
inductive UsedWithin : DateInterval → DateInterval → ℤ → ℤ → Prop where
  | mk {first last start stop : CivilDate} (hperiod : first.day < last.day)
      (hused : start.day ≤ stop.day) (hstart : first.day ≤ start.day)
      (hstop : stop.day ≤ last.day) :
      UsedWithin ⟨start.text, stop.text⟩ ⟨first.text, last.text⟩ (stop.day - start.day)
        (last.day - first.day)

section Code

variable {amount part : Money} {used period : DateInterval} {mode : Option String}
variable {rounding : RoundingMode} {u n : ℤ}

theorem UsedWithin.exists_dates (h : UsedWithin used period u n) :
    ∃ first last start stop : CivilDate, used = ⟨start.text, stop.text⟩ ∧
      period = ⟨first.text, last.text⟩ ∧ u = stop.day - start.day ∧ n = last.day - first.day := by
  cases h
  exact ⟨_, _, _, _, rfl, rfl, rfl, rfl⟩

/-- The texts determine the days. -/
theorem UsedWithin.days_eq {used' : DateInterval} {u' n' : ℤ} (h : UsedWithin used period u n)
    (h' : UsedWithin used' period u' n') : n = n' ∧ (used = used' → u = u') := by
  obtain ⟨first, last, start, stop, rfl, rfl, rfl, rfl⟩ := h.exists_dates
  obtain ⟨first', last', start', stop', rfl, hperiod, rfl, rfl⟩ := h'.exists_dates
  simp only [DateInterval.mk.injEq, text_injective.eq_iff] at hperiod ⊢
  exact ⟨by rw [hperiod.1, hperiod.2], fun hused => by rw [hused.1, hused.2]⟩

theorem UsedWithin.bounds (h : UsedWithin used period u n) : 0 ≤ u ∧ u ≤ n ∧ 0 < n := by
  cases h
  omega

/-- The code takes a whole number of days as a decimal. -/
theorem fromInteger_days (h : 0 ≤ n) (hle : n ≤ 200000000) :
    ∃ d, Decimal.fromInteger (.inl (wholeNumber n.toNat)) = .ok d ∧ d.units = n ∧ d.scale = 0 := by
  have hsafe : Decimal.safeInteger? (wholeNumber n.toNat) = some n := by
    unfold Decimal.safeInteger? wholeNumber
    rw [dif_pos (by omega), Number.integer?_ofNat, Int.toNat_of_nonneg h, Option.filter_some,
      if_pos]
    rw [decide_eq_true_eq, abs_of_nonneg h]
    omega
  have hfits : Fits n := by
    unfold Fits
    rw [abs_of_nonneg h]
    omega
  unfold Decimal.fromInteger
  dsimp only
  rw [hsafe]
  exact (construct_yields n ⟨0, Nat.zero_le _⟩).1 hfits

theorem abs_day_le (c : CivilDate) : |c.day| ≤ 100000000 := by
  have h := abs_le.mp c.abs_day_le
  unfold maxTime msPerDay at h
  rw [abs_le]
  omega

theorem UsedWithin.le (h : UsedWithin used period u n) : n ≤ 200000000 := by
  cases h with
  | @mk first last =>
    have hfirst := abs_le.mp (abs_day_le first)
    have hlast := abs_le.mp (abs_day_le last)
    omega

/-- An exact product by a whole number of days. -/
theorem multiply_days (amount : Decimal) {factor : Decimal} (hscale : factor.scale = 0) :
    Yields (amount.multiply factor none) amount.scale (amount.units * factor.units) := by
  have hle : amount.scale + factor.scale ≤ MAX_SCALE := by
    rw [hscale]
    exact amount.scale_le
  have hyields := construct_yields (amount.units * factor.units) ⟨_, hle⟩
  unfold Decimal.multiply
  dsimp only
  rw [dif_pos hle]
  simpa only [hscale, add_zero] using hyields

/-- What is prorated is used within the period, and its product fits. -/
theorem usedWithin_of_prorate (h : prorateActualDays amount used period mode = .ok part) :
    ∃ u n, UsedWithin used period u n ∧ Fits (amount.minorUnits * u) := by
  unfold prorateActualDays at h
  simp only [Except.bind_eq_ok_iff, rejectIf_eq_ok_iff, daysBetween_eq_ok_iff] at h
  obtain ⟨_, ⟨first, last, hfirst, hlast, hperiod, rfl⟩, _,
    ⟨start, stop, hstart, hstop, hused, rfl⟩, _, hnonempty, start', hstart', first', hfirst',
    stop', hstop', last', hlast', _, hwithin, factor, hfactor, product, hproduct, -⟩ := h
  cases hstart.symm.trans hstart'
  cases hfirst.symm.trans hfirst'
  cases hstop.symm.trans hstop'
  cases hlast.symm.trans hlast'
  obtain ⟨first, hfirstText, rfl, -⟩ := exists_of_dayNumber hfirst
  obtain ⟨last, hlastText, rfl, -⟩ := exists_of_dayNumber hlast
  obtain ⟨start, hstartText, rfl, -⟩ := exists_of_dayNumber hstart
  obtain ⟨stop, hstopText, rfl, -⟩ := exists_of_dayNumber hstop
  have hinside : UsedWithin used period (stop.day - start.day) (last.day - first.day) := by
    obtain ⟨usedStart, usedEnd⟩ := used
    obtain ⟨periodStart, periodEnd⟩ := period
    subst hfirstText hlastText hstartText hstopText
    exact .mk (by omega) hused (by omega) (by omega)
  refine ⟨_, _, hinside, ?_⟩
  have hle := hinside.le
  have hbounds := hinside.bounds
  obtain ⟨d, hd, hunits, hscale⟩ := fromInteger_days hbounds.1 (hbounds.2.1.trans hle)
  cases hd.symm.trans hfactor
  have hproduct := ((multiply_days amount.amount hscale).eq_ok hproduct).1
  rw [hunits] at hproduct
  exact hproduct ▸ (digitCount_le_iff _).mp product.precision_le

/-- A decimal at the minor unit is an amount as it is. -/
theorem of_minorUnit {unit : Currency} {value : Decimal} (hunit : currency unit.code = .ok unit)
    (hscale : value.scale = unit.minorUnits) :
    Money.of (.inr value) unit.code = .ok ⟨value, unit⟩ := by
  obtain ⟨hle, hstated⟩ := assertScale_some (statedScale_wholeNumber (minorUnits_le hunit))
  have hrescale : value.rescale (wholeNumber unit.minorUnits) = .ok value := by
    unfold Decimal.rescale
    rw [hstated, Except.ok_bind, if_pos hscale.le]
    refine construct_eq_ok_iff.mpr ⟨?_, hscale⟩
    dsimp only
    rw [← hscale, unitsAt_self]
  unfold Money.of
  simp only [Except.bind_eq_ok_iff]
  refine ⟨unit, hunit, value, rfl, ?_⟩
  rw [if_neg (not_lt.mpr hscale.le)]
  simp only [Except.bind_eq_ok_iff]
  exact ⟨value, hrescale, rfl⟩

/-- The exact proration is no larger than the amount. -/
theorem abs_exact_le (h : UsedWithin used period u n) (units : ℤ) :
    |(units * u : ℚ) / n| ≤ |(units : ℚ)| := by
  obtain ⟨hu, hle, hn⟩ := h.bounds
  have hu' : (0 : ℚ) ≤ u := by exact_mod_cast hu
  have hn' : (0 : ℚ) < n := by exact_mod_cast hn
  have hle' : (u : ℚ) ≤ n := by exact_mod_cast hle
  rw [abs_div, abs_mul, abs_of_nonneg hu', abs_of_pos hn', div_le_iff₀ hn']
  exact mul_le_mul_of_nonneg_left hle' (abs_nonneg _)

/-- One division rounds the exact quotient at the minor unit. -/
theorem exists_divided {product divisor : Decimal} (hamount : Settled amount)
    (hmode : RoundingMode.ofString? (mode.getD DEFAULT_ROUNDING) = some rounding)
    (h : UsedWithin used period u n) (hproduct : product.units = amount.minorUnits * u)
    (hscale : product.scale = amount.currency.minorUnits) (hdivisor : divisor.units = n)
    (hdivisorScale : divisor.scale = 0) :
    ∃ prorated, product.divide divisor
        ⟨wholeNumber amount.currency.minorUnits, mode.getD DEFAULT_ROUNDING⟩ = .ok prorated ∧
      prorated.scale = amount.currency.minorUnits ∧
      Rounds rounding.rounding ((amount.minorUnits * u : ℚ) / n) prorated.units := by
  have hn : (n : ℚ) ≠ 0 := by exact_mod_cast h.bounds.2.2.ne'
  have hdivisorValue : divisor.value = n := by
    unfold Decimal.value
    rw [hdivisor, hdivisorScale, pow_zero, div_one]
  obtain ⟨hinvalid, -⟩ | ⟨s, m, hs, hm, hdone⟩ := divide_refines product divisor
    ⟨wholeNumber amount.currency.minorUnits, mode.getD DEFAULT_ROUNDING⟩
  · rw [statedScale_wholeNumber hamount.minorUnits_le, hmode] at hinvalid
    simp at hinvalid
  cases (statedScale_wholeNumber hamount.minorUnits_le).symm.trans hs
  cases hmode.symm.trans hm
  rw [hdivisorValue] at hdone
  obtain ⟨hzero, -⟩ | ⟨-, k, hrounds, hyields⟩ := hdone
  · exact absurd hzero hn
  have hexact : product.value / n * 10 ^ amount.currency.minorUnits =
      (amount.minorUnits * u : ℚ) / n := by
    unfold Decimal.value
    rw [hproduct, hscale]
    push_cast
    field_simp
  rw [hexact] at hrounds
  have hfits : Fits k := by
    have hle := rounds_abs_mono hrounds (rounds_intCast _ amount.minorUnits)
      (abs_exact_le h amount.minorUnits)
    exact lt_of_le_of_lt hle ((digitCount_le_iff _).mp amount.amount.precision_le)
  obtain ⟨prorated, hprorated, hunits, hproratedScale⟩ := hyields.1 hfits
  exact ⟨prorated, hprorated, hproratedScale, hunits ▸ hrounds⟩

/-- A period that does not start before the year 100. -/
def StartsLate (period : DateInterval) : Prop :=
  ∀ first last : CivilDate, period = ⟨first.text, last.text⟩ → first.day < last.day →
    100 ≤ first.year

/-- The code rounds the exact quotient once. -/
theorem exists_prorated (hamount : Settled amount)
    (hmode : RoundingMode.ofString? (mode.getD DEFAULT_ROUNDING) = some rounding)
    (hlate : StartsLate period) (h : UsedWithin used period u n)
    (hfits : Fits (amount.minorUnits * u)) :
    ∃ part, prorateActualDays amount used period mode = .ok part ∧
      part.currency = amount.currency ∧
      Rounds rounding.rounding ((amount.minorUnits * u : ℚ) / n) part.minorUnits := by
  have hwithin := h
  have hle := h.le
  obtain ⟨hu, hun, hn⟩ := h.bounds
  obtain ⟨factor, hfactor, hfactorUnits, hfactorScale⟩ := fromInteger_days hu (hun.trans hle)
  obtain ⟨divisor, hdivisor, hdivisorUnits, hdivisorScale⟩ := fromInteger_days hn.le hle
  have hyields := multiply_days amount.amount hfactorScale
  rw [hfactorUnits] at hyields
  obtain ⟨product, hproduct, hproductUnits, hproductScale⟩ := hyields.1 hfits
  obtain ⟨prorated, hprorated, hscale, hrounds⟩ := exists_divided hamount hmode h hproductUnits
    (hproductScale.trans hamount.scale) hdivisorUnits hdivisorScale
  refine ⟨⟨prorated, amount.currency⟩, ?_, rfl, hrounds⟩
  cases h with
  | @mk first last start stop hperiod hused hstart hstop =>
    have hfirst := hlate first last rfl hperiod
    have hdays : ∀ c : CivilDate, first.day ≤ c.day → dayNumber c.text = .ok c.day := fun c hc =>
      dayNumber_text (hfirst.trans (CivilDate.year_le_of_day_le hc))
    unfold prorateActualDays
    simp only [Except.bind_eq_ok_iff, rejectIf_eq_ok_iff, daysBetween_eq_ok_iff]
    exact ⟨_, ⟨_, _, hdays first le_rfl, hdays last hperiod.le, hperiod.le, rfl⟩, _,
      ⟨_, _, hdays start hstart, hdays stop (hstart.trans hused), hused, rfl⟩, (), by omega, _,
      hdays start hstart, _, hdays first le_rfl, _, hdays stop (hstart.trans hused), _,
      hdays last hperiod.le, (), by omega, factor, hfactor, product, hproduct, divisor, hdivisor,
      prorated, hprorated, of_minorUnit hamount.supported hscale⟩

theorem startsLate_of_prorate (h : prorateActualDays amount used period mode = .ok part) :
    StartsLate period := by
  rintro first last rfl -
  unfold prorateActualDays at h
  simp only [Except.bind_eq_ok_iff, daysBetween_eq_ok_iff] at h
  obtain ⟨_, ⟨_, _, hfirst, -⟩, -⟩ := h
  exact (dayNumber_text_eq_ok_iff.mp hfirst).1

/-- What the code returns is the rounding of the exact quotient. -/
theorem rounds_of_prorate (hamount : Settled amount)
    (hmode : RoundingMode.ofString? (mode.getD DEFAULT_ROUNDING) = some rounding)
    (h : UsedWithin used period u n) (hok : prorateActualDays amount used period mode = .ok part) :
    Rounds rounding.rounding ((amount.minorUnits * u : ℚ) / n) part.minorUnits := by
  obtain ⟨u', n', h', hfits⟩ := usedWithin_of_prorate hok
  obtain ⟨rfl, hu⟩ := h.days_eq h'
  obtain rfl := hu rfl
  obtain ⟨part', hpart', -, hrounds⟩ :=
    exists_prorated hamount hmode (startsLate_of_prorate hok) h hfits
  cases hok.symm.trans hpart'
  exact hrounds

end Code

section Partitions

/-- The half-open intervals between consecutive dates. -/
def between : List CivilDate → List DateInterval
  | first :: second :: rest => ⟨first.text, second.text⟩ :: between (second :: rest)
  | _ => []

/-- Dates in order, from the first to the last of a period. -/
structure Cuts (dates : List CivilDate) (period : DateInterval) : Prop where
  ordered : dates.IsChain fun a b => a.day ≤ b.day
  first : dates.head?.map CivilDate.text = some period.start
  last : dates.getLast?.map CivilDate.text = some period.end_

/-- How far the parts of `count` intervals may sum from the amount. -/
def SumsWithin (rounding : RoundingMode) (count : ℕ) (error : ℤ) : Prop :=
  match rounding with
  | .HALF_UP => (|error| : ℚ) ≤ count / 2
  | .HALF_EVEN => (|error| : ℚ) ≤ count / 2
  | .UP => |error| < count
  | .DOWN => |error| < count

/-- The days of each of these intervals. -/
def lengths : List CivilDate → List ℤ
  | first :: second :: rest => (second.day - first.day) :: lengths (second :: rest)
  | _ => []

/-- The days between the dates are those between the first and the last. -/
theorem sum_lengths (first : CivilDate) (rest : List CivilDate) :
    (lengths (first :: rest)).sum =
      ((first :: rest).getLast (List.cons_ne_nil _ _)).day - first.day := by
  induction rest generalizing first with
  | nil => simp [lengths]
  | cons second rest ih =>
    rw [lengths, List.sum_cons, ih second, List.getLast_cons (List.cons_ne_nil _ _)]
    omega

variable {first last : CivilDate} {dates : List CivilDate}

/-- Every interval of the cuts lies within the period. -/
theorem usedWithin_between (hperiod : first.day < last.day)
    (hchain : dates.IsChain fun a b => a.day ≤ b.day)
    (hbounds : ∀ date ∈ dates, first.day ≤ date.day ∧ date.day ≤ last.day) :
    List.Forall₂ (fun piece u =>
        UsedWithin piece ⟨first.text, last.text⟩ u (last.day - first.day))
      (between dates) (lengths dates) := by
  fun_induction between dates with
  | case1 start stop rest ih =>
    obtain ⟨hle, hchain⟩ := List.isChain_cons_cons.mp hchain
    have hstart := hbounds start (by simp)
    have hstop := hbounds stop (by simp)
    rw [lengths]
    exact .cons (.mk hperiod hle hstart.1 hstop.2)
      (ih hchain fun date hmem => hbounds date (List.mem_cons_of_mem _ hmem))
  | case2 dates hdates =>
    unfold lengths
    split
    · exact absurd rfl (hdates _ _ _)
    · exact .nil

/-- Cuts begin and end with the period, and stay within it. -/
theorem Cuts.bounds (h : Cuts dates ⟨first.text, last.text⟩) :
    (∀ date ∈ dates, first.day ≤ date.day ∧ date.day ≤ last.day) ∧
      (lengths dates).sum = last.day - first.day := by
  obtain ⟨hordered, hfirst, hlast⟩ := h
  cases dates with
  | nil => cases hfirst
  | cons start rest =>
    have hstart : start = first := text_injective (Option.some.inj hfirst)
    have hstop : (start :: rest).getLast (List.cons_ne_nil _ _) = last := by
      rw [List.getLast?_eq_some_getLast (List.cons_ne_nil _ _)] at hlast
      exact text_injective (Option.some.inj hlast)
    have htrans : IsTrans CivilDate fun a b => a.day ≤ b.day := ⟨fun _ _ _ => le_trans⟩
    have hpairwise := List.isChain_iff_pairwise.mp hordered
    refine ⟨fun date hmem => ⟨?_, ?_⟩, by rw [sum_lengths, hstop, hstart]⟩
    · rcases List.mem_cons.mp hmem with rfl | hmem
      · exact hstart ▸ le_rfl
      · exact hstart ▸ List.rel_of_pairwise_cons hpairwise hmem
    · rw [← hstop]
      exact hpairwise.rel_getLast_of_rel_getLast_getLast hmem le_rfl

end Partitions

/-- What proration over a period must do. -/
structure ProrationLaw (amount : Money) (mode : Option String) (rounding : RoundingMode)
    (period : DateInterval) : Prop where
  /-- the exact quotient is rounded once -/
  prorates : ∀ {used u n}, UsedWithin used period u n → Fits (amount.minorUnits * u) →
    ∃ part, prorateActualDays amount used period mode = .ok part ∧
      part.currency = amount.currency ∧
      Rounds rounding.rounding ((amount.minorUnits * u : ℚ) / n) part.minorUnits ∧
      (u = 0 → part.minorUnits = 0) ∧ (u = n → part = amount) ∧
      part.minorUnits ∈ Set.uIcc 0 amount.minorUnits
  monotone : ∀ {used used' u u' n n' part part'}, UsedWithin used period u n →
    UsedWithin used' period u' n' → u ≤ u' →
    prorateActualDays amount used period mode = .ok part →
    prorateActualDays amount used' period mode = .ok part' →
    |part.minorUnits| ≤ |part'.minorUnits|
  /-- the parts of consecutive intervals sum to the amount, but for their roundings -/
  partition : ∀ {dates}, Cuts dates period → (∃ u n, UsedWithin period period u n) →
    (∀ {piece u n}, piece ∈ between dates → UsedWithin piece period u n →
      Fits (amount.minorUnits * u)) →
    ∃ parts, List.Forall₂ (fun piece part =>
        prorateActualDays amount piece period mode = .ok part) (between dates) parts ∧
      SumsWithin rounding (between dates).length
        (amount.minorUnits - (parts.map Money.minorUnits).sum)
  rejects : ∀ {used}, (¬ ∃ u n, UsedWithin used period u n ∧ Fits (amount.minorUnits * u)) →
    ∃ problem, prorateActualDays amount used period mode = .error problem

/-- The parts of consecutive intervals are each rounded once. -/
theorem sumsWithin_of_rounds {rounding : RoundingMode} {exact : List ℚ} {units : List ℤ}
    (h : List.Forall₂ (Rounds rounding.rounding) exact units) (hne : units ≠ []) {total : ℤ}
    (htotal : exact.sum = total) : SumsWithin rounding units.length (total - units.sum) := by
  have hhalf : (∀ (x : ℚ) (n : ℤ), Rounds rounding.rounding x n → |x - n| ≤ 1 / 2) →
      (|total - units.sum| : ℚ) ≤ units.length / 2 := by
    intro hround
    have hle := abs_sum_sub_le (h.imp hround)
    rwa [htotal, mul_one_div] at hle
  have hone : |total - units.sum| < units.length := by
    have hlt := abs_sum_sub_lt (h.imp fun _ _ => abs_sub_lt_one_of_rounds) hne
    rw [htotal, mul_one] at hlt
    exact_mod_cast hlt
  cases rounding with
  | HALF_UP =>
    have h := hhalf fun _ _ hround => hround.1
    unfold SumsWithin
    exact_mod_cast h
  | HALF_EVEN =>
    have h := hhalf fun _ _ hround => hround.1
    unfold SumsWithin
    exact_mod_cast h
  | DOWN => exact hone
  | UP => exact hone

section Law

variable {amount : Money} {mode : Option String} {rounding : RoundingMode}
variable {used used' period : DateInterval} {u u' n : ℤ}

/-- No days prorate to nothing, and the whole period to the amount. -/
theorem prorates_of_startsLate (hamount : Settled amount)
    (hmode : RoundingMode.ofString? (mode.getD DEFAULT_ROUNDING) = some rounding)
    (hlate : StartsLate period) (h : UsedWithin used period u n)
    (hfits : Fits (amount.minorUnits * u)) :
    ∃ part, prorateActualDays amount used period mode = .ok part ∧
      part.currency = amount.currency ∧
      Rounds rounding.rounding ((amount.minorUnits * u : ℚ) / n) part.minorUnits ∧
      (u = 0 → part.minorUnits = 0) ∧ (u = n → part = amount) ∧
      part.minorUnits ∈ Set.uIcc 0 amount.minorUnits := by
  obtain ⟨part, hpart, hcurrency, hrounds⟩ := exists_prorated hamount hmode hlate h hfits
  obtain ⟨hu, -, hn⟩ := h.bounds
  have hn' : (n : ℚ) ≠ 0 := by exact_mod_cast hn.ne'
  refine ⟨part, hpart, hcurrency, hrounds, ?_, ?_, ?_⟩
  · rintro rfl
    rw [Int.cast_zero, mul_zero, zero_div, ← Int.cast_zero] at hrounds
    exact rounds_unique hrounds (rounds_intCast _ 0)
  · rintro rfl
    rw [mul_div_cancel_right₀ _ hn'] at hrounds
    exact (settled_of_prorate hamount hpart).1.ext hamount hcurrency
      (rounds_unique hrounds (rounds_intCast _ _))
  · refine rounds_mem_uIcc hrounds ?_ (abs_exact_le h amount.minorUnits)
    have hu' : (0 : ℚ) ≤ u := by exact_mod_cast hu
    have hn'' : (0 : ℚ) < n := by exact_mod_cast hn
    have hsquare : (amount.minorUnits * u : ℚ) / n * amount.minorUnits =
        (amount.minorUnits : ℚ) ^ 2 * (u / n) := by ring
    rw [hsquare]
    positivity

theorem abs_exact_mono (hu : 0 ≤ u) (hle : u ≤ u') (hn : 0 < n) (units : ℤ) :
    |(units * u : ℚ) / n| ≤ |(units * u' : ℚ) / n| := by
  have hu' : (0 : ℚ) ≤ u := by exact_mod_cast hu
  have hle' : (u : ℚ) ≤ u' := by exact_mod_cast hle
  have hn' : (0 : ℚ) < n := by exact_mod_cast hn
  rw [abs_div, abs_div, abs_mul, abs_mul, abs_of_nonneg hu', abs_of_nonneg (hu'.trans hle')]
  gcongr

/-- The exact prorations of a partition sum to the amount. -/
theorem sum_exact {days : List ℤ} (hn : (n : ℚ) ≠ 0) (hsum : days.sum = n) (units : ℤ) :
    (days.map fun u : ℤ => (units * u : ℚ) / n).sum = units := by
  have hcast : (days.map fun u : ℤ => (u : ℚ)).sum = n := by
    rw [← hsum]
    exact (map_list_sum (Int.castAddHom ℚ) days).symm
  simp only [div_eq_mul_inv]
  rw [List.sum_map_mul_right, List.sum_map_mul_left, hcast, mul_assoc, mul_inv_cancel₀ hn,
    mul_one]

theorem partition_of_startsLate (hamount : Settled amount)
    (hmode : RoundingMode.ofString? (mode.getD DEFAULT_ROUNDING) = some rounding)
    (hlate : StartsLate period) {dates : List CivilDate} (hcuts : Cuts dates period)
    (hperiod : ∃ u n, UsedWithin period period u n)
    (hfits : ∀ {piece u n}, piece ∈ between dates → UsedWithin piece period u n →
      Fits (amount.minorUnits * u)) :
    ∃ parts, List.Forall₂ (fun piece part =>
        prorateActualDays amount piece period mode = .ok part) (between dates) parts ∧
      SumsWithin rounding (between dates).length
        (amount.minorUnits - (parts.map Money.minorUnits).sum) := by
  obtain ⟨_, n, hinside⟩ := hperiod
  have hn := hinside.bounds.2.2
  obtain ⟨first, last, -, -, -, rfl, -, rfl⟩ := hinside.exists_dates
  obtain ⟨hbounds, hsum⟩ := hcuts.bounds
  have hwithin := usedWithin_between (by omega) hcuts.ordered hbounds
  obtain ⟨parts, hparts⟩ := Except.exists_mapM_eq_ok_iff.mpr fun piece hmem => by
    obtain ⟨u, -, hu⟩ := hwithin.exists_right hmem
    obtain ⟨part, hpart, -⟩ := exists_prorated hamount hmode hlate hu (hfits hmem hu)
    exact ⟨part, hpart⟩
  have hall := Except.mapM_eq_ok_iff.mp hparts
  refine ⟨parts, hall, ?_⟩
  have hrounds : List.Forall₂ (Rounds rounding.rounding)
      ((lengths dates).map fun u : ℤ => (amount.minorUnits * u : ℚ) / (last.day - first.day : ℤ))
      (parts.map Money.minorUnits) := by
    rw [List.forall₂_map_left_iff, List.forall₂_map_right_iff]
    refine (hwithin.join hall).imp ?_
    rintro u part ⟨piece, -, hu, hpart⟩
    exact rounds_of_prorate hamount hmode hu hpart
  have hne : parts.map Money.minorUnits ≠ [] := by
    intro hnil
    have hlengths := hrounds.length_eq
    rw [hnil, List.length_map, List.length_nil, List.length_eq_zero_iff] at hlengths
    rw [hlengths, List.sum_nil] at hsum
    omega
  have hsums := sumsWithin_of_rounds hrounds hne
    (sum_exact (by exact_mod_cast hn.ne') hsum amount.minorUnits)
  rwa [List.length_map, ← hall.length_eq] at hsums

/-- The law of proration holds exactly for the periods that do not start before the year 100. -/
theorem proration_law_iff (hamount : Obtained amount)
    (hmode : RoundingMode.ofString? (mode.getD DEFAULT_ROUNDING) = some rounding)
    (period : DateInterval) : ProrationLaw amount mode rounding period ↔ StartsLate period := by
  have hsettled := settled_of_obtained hamount
  constructor
  · intro hlaw first last hperiod hlt
    subst hperiod
    have hinside : UsedWithin ⟨first.text, first.text⟩ ⟨first.text, last.text⟩
      (first.day - first.day) (last.day - first.day) := .mk hlt le_rfl le_rfl hlt.le
    obtain ⟨part, hpart, -⟩ := hlaw.prorates hinside (by simp [Fits])
    exact startsLate_of_prorate hpart first last rfl hlt
  · intro hlate
    refine ⟨fun h hfits => prorates_of_startsLate hsettled hmode hlate h hfits, ?_,
      fun hcuts hperiod hfits =>
        partition_of_startsLate hsettled hmode hlate hcuts hperiod hfits, fun hnot => ?_⟩
    · intro used used' u u' n n' part part' h h' hle hpart hpart'
      obtain ⟨rfl, -⟩ := h.days_eq h'
      obtain ⟨hu, -, hn⟩ := h.bounds
      exact rounds_abs_mono (rounds_of_prorate hsettled hmode h hpart)
        (rounds_of_prorate hsettled hmode h' hpart') (abs_exact_mono hu hle hn _)
    · cases hresult : prorateActualDays amount _ period mode with
      | error problem => exact ⟨problem, rfl⟩
      | ok part => exact absurd (usedWithin_of_prorate hresult) hnot

end Law

/-- 100.00 USD. -/
def hundredDollars : Money := ⟨⟨10000, 2, by decide, by decide⟩, ⟨"USD", 2⟩⟩

theorem obtained_hundredDollars : Obtained hundredDollars := by
  have hsettled : Settled hundredDollars := ⟨rfl, rfl, by decide⟩
  have hamount : amountOf hundredDollars 10000 = hundredDollars := dif_pos (by decide)
  exact .fromMinorUnits (hamount ▸ fromMinorUnits_eq hsettled (by simp [Fits]))

/-- The law holds for a month of this century. -/
theorem proration_law_january :
    ProrationLaw hundredDollars none .HALF_UP ⟨"2026-01-01", "2026-02-01"⟩ := by
  refine (proration_law_iff obtained_hundredDollars rfl _).mpr fun first last hperiod _ => ?_
  have hfirst : first.text = (⟨2026, 1, 1, by decide, by decide, by decide, by decide, by decide⟩ :
      CivilDate).text := (DateInterval.mk.inj hperiod).1.symm.trans (by decide +kernel)
  rw [text_injective hfirst]
  norm_num

/-- It fails for a month of the year 50. -/
theorem proration_rejected_in_year_50 :
    UsedWithin ⟨"0050-01-01", "0050-01-16"⟩ ⟨"0050-01-01", "0050-02-01"⟩ 15 31 ∧
      Fits (hundredDollars.minorUnits * 15) ∧ Obtained hundredDollars ∧
      prorateActualDays hundredDollars ⟨"0050-01-01", "0050-01-16"⟩
        ⟨"0050-01-01", "0050-02-01"⟩ none = invalidDate := by
  let first : CivilDate := ⟨50, 1, 1, by decide, by decide, by decide, by decide, by decide⟩
  let stop : CivilDate := ⟨50, 1, 16, by decide, by decide, by decide, by decide, by decide⟩
  let last : CivilDate := ⟨50, 2, 1, by decide, by decide, by decide, by decide, by decide⟩
  have hinside : UsedWithin ⟨first.text, stop.text⟩ ⟨first.text, last.text⟩
      (stop.day - first.day) (last.day - first.day) :=
    .mk (by decide) (by decide) (by decide) (by decide)
  have hlast : dayNumber last.text = invalidDate := dayNumber_early (by decide)
  have hfirstText : first.text = "0050-01-01" := by decide +kernel
  have hstopText : stop.text = "0050-01-16" := by decide +kernel
  have hlastText : last.text = "0050-02-01" := by decide +kernel
  have hused : stop.day - first.day = 15 := by decide
  have hperiod : last.day - first.day = 31 := by decide
  rw [hfirstText, hstopText, hlastText, hused, hperiod] at hinside
  rw [hlastText] at hlast
  refine ⟨hinside, by simp [Fits, Money.minorUnits, hundredDollars], obtained_hundredDollars, ?_⟩
  unfold prorateActualDays daysBetween
  rw [hlast]
  rfl

end Sintius.Money
