import Mathlib
import Sintius.Lib.CivilDate
import Sintius.Lib.Except
import Sintius.Spec.Problem
import Sintius.Spec.Money
import Sintius.Proofs.Decimal
import Sintius.Proofs.Proration

/-! Days between two dates. The parser takes the dates of the calendar from the year 100
on and no other text, and what `daysBetween` returns counts the dates of the half-open
interval. -/

set_option linter.dupNamespace false

namespace Sintius.Money

open Js Js.Date

section Parser

variable {s : String}

theorem exists_dayNumber_iff :
    (∃ d, dayNumber s = .ok d) ↔ ∃ c : CivilDate, 100 ≤ c.year ∧ s = c.text := by
  constructor
  · rintro ⟨d, hd⟩
    obtain ⟨c, htext, -, hyear⟩ := exists_of_dayNumber hd
    exact ⟨c, hyear, htext.symm⟩
  · rintro ⟨c, hyear, rfl⟩
    exact ⟨c.day, dayNumber_text hyear⟩

theorem dayNumber_eq_invalidDate (h : ¬ ∃ d, dayNumber s = .ok d) :
    dayNumber s = invalidDate := by
  rcases dayNumber_cases s with hok | hinvalid
  · exact absurd hok h
  · exact hinvalid

end Parser

section Interval

variable {a b : CivilDate}

/-- What is returned for two dates that are taken. -/
theorem daysBetween_text (ha : 100 ≤ a.year) (hb : 100 ≤ b.year) : daysBetween a.text b.text =
    if a ≤ b then .ok ((Set.Ico a b).ncard : ℤ)
    else reject "A period cannot end before it starts." := by
  unfold daysBetween
  rw [dayNumber_text ha, dayNumber_text hb]
  split_ifs with hle
  · have hday : a.day ≤ b.day := CivilDate.day_strictMono.monotone hle
    rw [CivilDate.ncard_Ico hle]
    refine Except.bind_eq_ok_iff.mpr ⟨b.day, rfl, Except.bind_eq_ok_iff.mpr ⟨a.day, rfl, ?_⟩⟩
    exact Except.bind_eq_ok_iff.mpr ⟨(), rejectIf_eq_ok_iff.mpr (by omega), rfl⟩
  · have hday : b.day < a.day := CivilDate.day_strictMono (not_le.mp hle)
    have hreject : b.day - a.day < 0 := by omega
    simp only [Except.ok_bind]
    rw [rejectIf, if_pos hreject]
    rfl

/-- The number of days from one text to another is that of a whole interval of dates. -/
theorem exists_interval_of_daysBetween {start end_ : String} {days : ℤ}
    (h : daysBetween start end_ = .ok days) : ∃ a b : CivilDate, start = a.text ∧ end_ = b.text ∧
      100 ≤ a.year ∧ 100 ≤ b.year ∧ a ≤ b ∧ days = b.day - a.day := by
  obtain ⟨first, last, hfirst, hlast, hle, rfl⟩ := daysBetween_eq_ok_iff.mp h
  obtain ⟨a, ha, rfl, hayear⟩ := exists_of_dayNumber hfirst
  obtain ⟨b, hb, rfl, hbyear⟩ := exists_of_dayNumber hlast
  exact ⟨a, b, ha.symm, hb.symm, hayear, hbyear, CivilDate.day_strictMono.le_iff_le.mp hle, rfl⟩

end Interval

/-- What holds of the day numbers of texts, and of the days between them. -/
structure CivilDateArithmetic : Prop where
  /-- The parser takes the dates of the calendar with a year from 0100 to 9999, and nothing else. -/
  accepted : ∀ s, (∃ d, dayNumber s = .ok d) ↔ ∃ c : CivilDate, 100 ≤ c.year ∧ s = c.text
  rejected : ∀ s, (¬ ∃ d, dayNumber s = .ok d) → dayNumber s = .error
    { code := .invalid_timestamp
      detail := "Dates must be valid calendar dates in YYYY-MM-DD form." }
  /-- An interval with a text that is not taken is refused for that. -/
  invalid : ∀ start end_, (¬ ∃ d, dayNumber start = .ok d) ∨ (¬ ∃ d, dayNumber end_ = .ok d) →
    daysBetween start end_ = .error
      { code := .invalid_timestamp
        detail := "Dates must be valid calendar dates in YYYY-MM-DD form." }
  /-- From one date to a date that is not earlier, the dates of the half-open interval are
  counted, -/
  counted : ∀ a b : CivilDate, 100 ≤ a.year → 100 ≤ b.year → a ≤ b →
    daysBetween a.text b.text = .ok ((Set.Ico a b).ncard : ℤ)
  /-- and to an earlier one none are. -/
  reversed : ∀ a b : CivilDate, 100 ≤ a.year → 100 ≤ b.year → b < a →
    daysBetween a.text b.text = .error
      { code := .calculation_rejected
        detail := "A period cannot end before it starts." }
  additive : ∀ start middle end_ m n, daysBetween start middle = .ok m →
    daysBetween middle end_ = .ok n → daysBetween start end_ = .ok (m + n)

/-- The arithmetic of civil dates is that of the calendar. -/
theorem civil_date_arithmetic : CivilDateArithmetic := by
  refine ⟨fun s => exists_dayNumber_iff, fun s => dayNumber_eq_invalidDate, ?_, ?_, ?_, ?_⟩
  · intro start end_ h
    unfold daysBetween
    by_cases hend : ∃ d, dayNumber end_ = .ok d
    · obtain ⟨d, hd⟩ := hend
      rw [hd, dayNumber_eq_invalidDate (h.resolve_right fun hnot => hnot ⟨d, hd⟩)]
      rfl
    · rw [dayNumber_eq_invalidDate hend]
      rfl
  · intro a b ha hb hle
    rw [daysBetween_text ha hb, if_pos hle]
  · intro a b ha hb hlt
    rw [daysBetween_text ha hb, if_neg (not_le.mpr hlt)]
    rfl
  · intro start middle end_ m n hm hn
    obtain ⟨a, b, rfl, rfl, ha, hb, hab, rfl⟩ := exists_interval_of_daysBetween hm
    obtain ⟨b', c, hb', rfl, -, hc, hbc, rfl⟩ := exists_interval_of_daysBetween hn
    obtain rfl := text_injective hb'
    rw [daysBetween_text ha hc, if_pos (hab.trans hbc), CivilDate.ncard_Ico (hab.trans hbc)]
    congr 1
    ring

end Sintius.Money
