import Mathlib

/-! Decimal digit strings. One without a leading zero is the text of its value, so
that stripping leading zeros, or padding with them, loses nothing. -/

namespace Digits

/-- What is left of a digit string without its leading zeros; one digit stays. -/
def strip : List Char → List Char
  | '0' :: c :: cs => strip (c :: cs)
  | cs => cs

/-- `padStart(length, "0")` -/
def padStart (length : ℕ) (digits : List Char) : List Char :=
  List.replicate (length - digits.length) '0' ++ digits

def value (digits : List Char) : ℕ := Nat.ofDigitChars 10 digits 0

/-- A digit string without a leading zero, or zero itself. -/
structure Canonical (digits : List Char) : Prop where
  digit : ∀ c ∈ digits, c.isDigit = true
  head : digits = ['0'] ∨ ∃ c cs, digits = c :: cs ∧ c ≠ '0'

theorem value_append (ds es : List Char) :
    value (ds ++ es) = 10 ^ es.length * value ds + value es := by
  unfold value
  rw [Nat.ofDigitChars_append, Nat.ofDigitChars_eq_ofDigitChars_zero]

theorem value_zeros (n : ℕ) : value (List.replicate n '0') = 0 := by
  simp [value]

theorem toNat_of_isDigit {c : Char} (h : c.isDigit = true) :
    c.toNat - 48 < 10 ∧ Nat.digitChar (c.toNat - 48) = c := by
  have hrange : 48 ≤ c.toNat ∧ c.toNat ≤ 57 := Char.isDigit_iff_toNat.mp h
  refine ⟨by omega, ?_⟩
  have hc : c = Char.ofNat c.toNat := (Char.ofNat_toNat c).symm
  rw [hc]
  generalize c.toNat = n at hrange
  obtain ⟨h₁, h₂⟩ := hrange
  interval_cases n <;> rfl

theorem value_pos {c : Char} {cs : List Char} (hc : c.isDigit = true) (hne : c ≠ '0') :
    0 < value (c :: cs) := by
  obtain ⟨-, hchar⟩ := toNat_of_isDigit hc
  have hpos : 0 < c.toNat - 48 := by
    by_contra h
    rw [Nat.eq_zero_of_not_pos h] at hchar
    exact hne hchar.symm
  have hhead : value [c] = c.toNat - 48 := by simp [value, Nat.ofDigitChars_cons]
  have happend : value (c :: cs) = 10 ^ cs.length * value [c] + value cs := value_append [c] cs
  rw [happend, hhead]
  have := Nat.mul_pos (Nat.pow_pos (n := cs.length) (show 0 < 10 by decide)) hpos
  omega

/-- A canonical digit string is the text of its value. -/
theorem toDigits_value {ds : List Char} (h : Canonical ds) : Nat.toDigits 10 (value ds) = ds := by
  obtain ⟨hdigit, rfl | ⟨c, cs, rfl, hne⟩⟩ := h
  · rfl
  -- from the last digit, with the first one as it is
  induction cs using List.reverseRecOn with
  | nil =>
    obtain ⟨hlt, hchar⟩ := toNat_of_isDigit (hdigit c (by simp))
    have hvalue : value [c] = c.toNat - 48 := by simp [value, Nat.ofDigitChars_cons]
    rw [hvalue, Nat.toDigits_of_lt_base hlt, hchar]
  | append_singleton cs e ih =>
    have hpos : 0 < value (c :: cs) := value_pos (hdigit c (by simp)) hne
    obtain ⟨hlt, hchar⟩ := toNat_of_isDigit (hdigit e (by simp))
    have hlast : value [e] = e.toNat - 48 := by simp [value, Nat.ofDigitChars_cons]
    have hvalue : value (c :: (cs ++ [e])) = 10 * value (c :: cs) + (e.toNat - 48) := by
      rw [← List.cons_append, value_append, hlast]
      rfl
    have hinit := ih fun d hd => hdigit d (by
      rcases List.mem_cons.mp hd with rfl | hd
      · simp
      · simp [hd])
    rw [hvalue, ← Nat.toDigits_append_toDigits (by decide) hpos hlt, hinit,
      Nat.toDigits_of_lt_base hlt, hchar]
    rfl

theorem canonical_toDigits (n : ℕ) : Canonical (Nat.toDigits 10 n) := by
  refine ⟨fun c hc => Nat.isDigit_of_mem_toDigits (by decide) (by decide) hc, ?_⟩
  induction n using Nat.strong_induction_on with
  | _ n ih =>
    by_cases hlt : n < 10
    · rw [Nat.toDigits_of_lt_base hlt]
      by_cases hzero : n = 0
      · subst hzero
        exact .inl rfl
      · refine .inr ⟨_, [], rfl, ?_⟩
        interval_cases n <;> simp_all
    · rw [Nat.toDigits_of_base_le (by decide) (not_lt.mp hlt)]
      rcases ih (n / 10) (by omega) with hten | ⟨c, cs, hcs, hne⟩
      · have hvalue : n / 10 = 0 := by
          rw [← Nat.ofDigitChars_ten_toDigits (n := n / 10), hten]
          rfl
        omega
      · exact .inr ⟨c, _, by rw [hcs]; rfl, hne⟩

theorem strip_cons_zero {ds : List Char} (h : ds ≠ []) : strip ('0' :: ds) = strip ds := by
  cases ds with
  | nil => exact absurd rfl h
  | cons c cs => rw [strip]

theorem strip_of_canonical {ds : List Char} (h : Canonical ds) : strip ds = ds := by
  obtain ⟨-, rfl | ⟨c, cs, rfl, hne⟩⟩ := h
  · rfl
  · unfold strip
    split
    · rename_i heq
      cases heq
      exact absurd rfl hne
    · rfl

/-- Stripping takes zeros away, and leaves a canonical string. -/
theorem strip_spec {ds : List Char} (hne : ds ≠ []) (hdigit : ∀ c ∈ ds, c.isDigit = true) :
    Canonical (strip ds) ∧ ds = List.replicate (ds.length - (strip ds).length) '0' ++ strip ds ∧
      (strip ds).length ≤ ds.length := by
  induction ds with
  | nil => exact absurd rfl hne
  | cons c cs ih =>
    by_cases hc : c = '0' ∧ cs ≠ []
    · obtain ⟨rfl, hcs⟩ := hc
      obtain ⟨hcanonical, hsplit, hle⟩ := ih hcs fun d hd => hdigit d (List.mem_cons_of_mem _ hd)
      rw [strip_cons_zero hcs]
      refine ⟨hcanonical, ?_, by simp; omega⟩
      have hlength : ('0' :: cs).length - (strip cs).length =
          cs.length - (strip cs).length + 1 := by
        rw [List.length_cons]
        omega
      rw [hlength, List.replicate_succ, List.cons_append, ← hsplit]
    · have hcanonical : Canonical (c :: cs) := by
        refine ⟨hdigit, ?_⟩
        by_cases hzero : c = '0'
        · subst hzero
          have : cs = [] := by
            by_contra h
            exact hc ⟨rfl, h⟩
          exact .inl (by rw [this])
        · exact .inr ⟨c, cs, rfl, hzero⟩
      rw [strip_of_canonical hcanonical]
      exact ⟨hcanonical, by simp, le_rfl⟩

theorem value_strip {ds : List Char} (hne : ds ≠ []) (hdigit : ∀ c ∈ ds, c.isDigit = true) :
    value (strip ds) = value ds := by
  obtain ⟨-, hsplit, -⟩ := strip_spec hne hdigit
  conv_rhs => rw [hsplit, value_append, value_zeros]
  omega

/-- The text of the value, padded, is the string that was read: where the first `whole` digits
have no leading zero, and all the others are kept. -/
theorem padStart_toDigits {whole fraction : List Char} (hwhole : Canonical whole)
    (hfraction : ∀ c ∈ fraction, c.isDigit = true) :
    padStart (fraction.length + 1) (Nat.toDigits 10 (value (whole ++ fraction))) =
      whole ++ fraction := by
  have hdigit : ∀ c ∈ whole ++ fraction, c.isDigit = true := by
    intro c hc
    rcases List.mem_append.mp hc with hc | hc
    · exact hwhole.digit c hc
    · exact hfraction c hc
  have hne : whole ++ fraction ≠ [] := by
    obtain rfl | ⟨c, cs, rfl, -⟩ := hwhole.head
    · simp
    · simp
  obtain ⟨hcanonical, hsplit, hle⟩ := strip_spec hne hdigit
  have htext : Nat.toDigits 10 (value (whole ++ fraction)) = strip (whole ++ fraction) := by
    rw [← value_strip hne hdigit, toDigits_value hcanonical]
  rw [htext]
  unfold padStart
  obtain rfl | ⟨c, cs, rfl, hc⟩ := hwhole.head
  · conv_rhs => rw [hsplit]
    simp only [List.length_append, List.length_singleton, Nat.add_comm]
  · have hall : strip (c :: cs ++ fraction) = c :: cs ++ fraction :=
      strip_of_canonical ⟨hdigit, .inr ⟨c, cs ++ fraction, rfl, hc⟩⟩
    rw [hall]
    have hlong : fraction.length + 1 - (c :: cs ++ fraction).length = 0 := by
      simp only [List.length_append, List.length_cons]
      omega
    rw [hlong]
    rfl

end Digits
