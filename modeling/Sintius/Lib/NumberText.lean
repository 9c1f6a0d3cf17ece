import Mathlib
import Sintius.Lib.Double
import Sintius.Lib.Utf16

/-! `Number::toString` in base ten: the shortest decimal that rounds to the
number, laid out with a point or an exponent. The text names the decimal, and a
decimal rounds to one double only, so a text names one number. -/

namespace Js

theorem magnitude_lt_succ (code : ℕ) : magnitude code < magnitude (code + 1) := by
  unfold magnitude
  by_cases hcarry : code % 2 ^ 52 = 2 ^ 52 - 1
  · have hdiv : (code + 1) / 2 ^ 52 = code / 2 ^ 52 + 1 := by omega
    have hmod : (code + 1) % 2 ^ 52 = 0 := by omega
    rw [hdiv, hmod, hcarry, if_neg (Nat.succ_ne_zero _), Nat.add_sub_cancel]
    split_ifs with h0
    · rw [h0]
      norm_num
    · obtain ⟨e, he⟩ := Nat.exists_eq_succ_of_ne_zero h0
      rw [he, Nat.succ_sub_one, Nat.pow_succ 2 e]
      have := Nat.two_pow_pos e
      omega
  · have hdiv : (code + 1) / 2 ^ 52 = code / 2 ^ 52 := by omega
    have hmod : (code + 1) % 2 ^ 52 = code % 2 ^ 52 + 1 := by omega
    rw [hdiv, hmod]
    split_ifs
    · omega
    · exact Nat.mul_lt_mul_of_pos_right (by omega) (Nat.two_pow_pos _)

theorem magnitude_strictMono : StrictMono magnitude := strictMono_nat_of_lt_succ magnitude_lt_succ

theorem magnitude_zero : magnitude 0 = 0 := by simp [magnitude]

/-- How many units of `magnitude` make one. -/
def unitsPerOne : ℚ := 2 ^ 1074

theorem unitsPerOne_pos : 0 < unitsPerOne := by
  unfold unitsPerOne
  positivity

/-- A positive value rounds to the double of this encoding: it lies between the midpoints to the
neighbours, and on a midpoint only if the mantissa is even. -/
def roundsTo (q : ℚ) (code : ℕ) : Bool :=
  let twice := 2 * q * unitsPerOne
  let low : ℚ := magnitude (code - 1) + magnitude code
  let high : ℚ := magnitude code + magnitude (code + 1)
  if code % 2 = 0 then decide (low ≤ twice ∧ twice ≤ high)
  else decide (low < twice ∧ twice < high)

theorem roundsTo_le {q : ℚ} {code : ℕ} (h : roundsTo q code) :
    (magnitude (code - 1) + magnitude code : ℚ) ≤ 2 * q * unitsPerOne ∧
      2 * q * unitsPerOne ≤ magnitude code + magnitude (code + 1) := by
  unfold roundsTo at h
  dsimp only at h
  split_ifs at h
  · exact of_decide_eq_true h
  · have := of_decide_eq_true h
    exact ⟨this.1.le, this.2.le⟩

theorem roundsTo_lt {q : ℚ} {code : ℕ} (h : roundsTo q code) (hodd : code % 2 ≠ 0) :
    (magnitude (code - 1) + magnitude code : ℚ) < 2 * q * unitsPerOne ∧
      2 * q * unitsPerOne < magnitude code + magnitude (code + 1) := by
  unfold roundsTo at h
  rw [if_neg hodd] at h
  exact of_decide_eq_true h

theorem not_roundsTo_of_lt {q : ℚ} {c d : ℕ} (hc : roundsTo q c) (hd : roundsTo q d) : ¬ c < d := by
  intro hlt
  have hle : (magnitude c + magnitude (c + 1) : ℚ) ≤ magnitude (d - 1) + magnitude d := by
    have h₁ := magnitude_strictMono.monotone (show c ≤ d - 1 by omega)
    have h₂ := magnitude_strictMono.monotone (show c + 1 ≤ d by omega)
    exact_mod_cast Nat.add_le_add h₁ h₂
  have hhigh := (roundsTo_le hc).2
  have hlow := (roundsTo_le hd).1
  by_cases hodd : c % 2 = 0
  · by_cases hodd' : d % 2 = 0
    · -- two encodings of the same parity are not neighbours
      have hgap : magnitude c + magnitude (c + 1) < magnitude (d - 1) + magnitude d :=
        Nat.add_lt_add (magnitude_strictMono (show c < d - 1 by omega))
          (magnitude_strictMono (show c + 1 < d by omega))
      have hgap' : (magnitude c + magnitude (c + 1) : ℚ) < magnitude (d - 1) + magnitude d := by
        exact_mod_cast hgap
      linarith
    · have := (roundsTo_lt hd hodd').1
      linarith
  · have := (roundsTo_lt hc hodd).2
    linarith

/-- A value rounds to one double. -/
theorem roundsTo_unique {q : ℚ} {c d : ℕ} (hc : roundsTo q c) (hd : roundsTo q d) : c = d := by
  have h₁ := not_roundsTo_of_lt hc hd
  have h₂ := not_roundsTo_of_lt hd hc
  omega

theorem roundsTo_self (code : ℕ) : roundsTo (magnitude code / unitsPerOne) code := by
  have hscale : (2 * (magnitude code / unitsPerOne) * unitsPerOne : ℚ) = 2 * magnitude code := by
    have := unitsPerOne_pos.ne'
    field_simp
  have hlow : (magnitude (code - 1) : ℚ) ≤ magnitude code := by
    exact_mod_cast magnitude_strictMono.monotone (Nat.sub_le code 1)
  have hhigh : (magnitude code : ℚ) < magnitude (code + 1) := by
    exact_mod_cast magnitude_lt_succ code
  unfold roundsTo
  dsimp only
  rw [hscale]
  split_ifs with h
  · apply decide_eq_true
    constructor <;> linarith
  · have hlow' : (magnitude (code - 1) : ℚ) < magnitude code := by
      exact_mod_cast magnitude_strictMono (show code - 1 < code by omega)
    apply decide_eq_true
    constructor <;> linarith

theorem pos_of_roundsTo {q : ℚ} {code : ℕ} (h : roundsTo q code) (hcode : code ≠ 0) : 0 < q := by
  have hlow := (roundsTo_le h).1
  have hpos : (0 : ℚ) < magnitude code := by
    have := magnitude_strictMono (Nat.pos_of_ne_zero hcode)
    rw [magnitude_zero] at this
    exact_mod_cast this
  have hnonneg : (0 : ℚ) ≤ magnitude (code - 1) := by positivity
  by_contra hq
  have : 2 * q * unitsPerOne ≤ 0 := by
    apply mul_nonpos_of_nonpos_of_nonneg _ unitsPerOne_pos.le
    linarith
  linarith

/-- A decimal `digits × 10 ^ exponent`. -/
structure Decimal where
  digits : ℕ
  exponent : ℤ
deriving DecidableEq, Repr

def Decimal.value (d : Decimal) : ℚ := d.digits * 10 ^ d.exponent

/-- The two decimals with `k` digits around a value below `10 ^ n`, the nearer one first; of two
equally near ones, the one with even digits. -/
def around (q : ℚ) (n : ℤ) (k : ℕ) : List Decimal :=
  let scaled := q * 10 ^ ((k : ℤ) - n)
  let below := ⌊scaled⌋₊
  let down : Decimal := ⟨below, n - k⟩
  let up : Decimal := ⟨below + 1, n - k⟩
  if scaled - below < 1 / 2 ∨ (scaled - below = 1 / 2 ∧ below % 2 = 0) then [down, up]
  else [up, down]

/-- Rounding up may give a digit too many, which then is a zero. -/
def Decimal.trim (d : Decimal) (k : ℕ) : Decimal :=
  if d.digits = 10 ^ k then ⟨10 ^ (k - 1), d.exponent + 1⟩ else d

/-- The decimal expansion of a double ends, at the latest, with the 1074th place. -/
def exactDecimal (code : ℕ) : Decimal := ⟨magnitude code * 5 ^ 1074, -1074⟩

/-- With as few digits as possible, the decimal nearest to the double among those that round to
it. Seventeen digits are always enough. -/
def shortestDecimal (code : ℕ) : Decimal :=
  let q := magnitude code / unitsPerOne
  let n := Int.log 10 q + 1
  let candidates := (List.range 17).flatMap fun i =>
    ((around q n (i + 1)).map fun d => d.trim (i + 1)).filter fun d => roundsTo d.value code
  candidates.head?.getD (exactDecimal code)

/-- The digits of a positive number. -/
def decimalDigits (n : ℕ) : Text :=
  (Nat.digits 10 n).reverse.map fun d => Fin.ofNat 65536 (48 + d)

def zeros (n : ℕ) : Text := List.replicate n 0x30

def exponentText (e : ℤ) : Text :=
  0x65 :: (if e < 0 then 0x2d else 0x2b) :: decimalDigits e.natAbs

/-- Steps 6 to 12 of `Number::toString`, with `k` digits and the point after the `n`th. -/
def layout (d : Decimal) : Text :=
  let digits := decimalDigits d.digits
  let k := digits.length
  let n := d.exponent + k
  if k ≤ n ∧ n ≤ 21 then digits ++ zeros (n - k).toNat
  else if 0 < n ∧ n ≤ 21 then digits.take n.toNat ++ 0x2e :: digits.drop n.toNat
  else if -6 < n ∧ n ≤ 0 then 0x30 :: 0x2e :: (zeros (-n).toNat ++ digits)
  else if k = 1 then digits ++ exponentText (n - 1)
  else digits.take 1 ++ 0x2e :: (digits.drop 1 ++ exponentText (n - 1))

/-- `JSON.stringify` of a finite number. -/
def numberText (d : Double) : Text :=
  if d.code = 0 then [0x30]
  else if d.negative then 0x2d :: layout (shortestDecimal d.code)
  else layout (shortestDecimal d.code)

theorem exactDecimal_value (code : ℕ) :
    (exactDecimal code).value = magnitude code / unitsPerOne := by
  unfold exactDecimal Decimal.value unitsPerOne
  have h : (10 : ℚ) ^ (1074 : ℕ) = 5 ^ 1074 * 2 ^ 1074 := by
    rw [← mul_pow]
    norm_num
  simp only [Nat.cast_mul, Nat.cast_pow, Nat.cast_ofNat]
  rw [zpow_neg, show (1074 : ℤ) = ((1074 : ℕ) : ℤ) from rfl, zpow_natCast, h]
  have h5 : (5 : ℚ) ^ 1074 ≠ 0 := by positivity
  have h2 : (2 : ℚ) ^ 1074 ≠ 0 := by positivity
  field_simp

/-- Whatever is chosen rounds to the double. -/
theorem roundsTo_shortestDecimal (code : ℕ) : roundsTo (shortestDecimal code).value code := by
  unfold shortestDecimal
  dsimp only
  generalize hc : List.flatMap _ _ = candidates
  cases candidates with
  | nil =>
    rw [List.head?_nil, Option.getD_none, exactDecimal_value]
    exact roundsTo_self code
  | cons d rest =>
    rw [List.head?_cons, Option.getD_some]
    have hmem : d ∈ d :: rest := List.mem_cons_self
    rw [← hc, List.mem_flatMap] at hmem
    obtain ⟨i, -, hd⟩ := hmem
    exact (List.mem_filter.mp hd).2

theorem digits_shortestDecimal_pos {code : ℕ} (hcode : code ≠ 0) :
    0 < (shortestDecimal code).digits := by
  have hpos := pos_of_roundsTo (roundsTo_shortestDecimal code) hcode
  unfold Decimal.value at hpos
  rcases Nat.eq_zero_or_pos (shortestDecimal code).digits with h | h
  · rw [h] at hpos
    simp at hpos
  · exact h

/-- The number a run of digits stands for. -/
def digitsValue (t : Text) : ℕ := t.foldl (fun acc c => 10 * acc + (c.val - 48)) 0

def exponentValue (t : Text) : ℤ :=
  match t with
  | [] => 0
  | sign :: digits => if sign = 0x2d then -digitsValue digits else digitsValue digits

/-- The value an unsigned number text stands for. -/
def textValue (t : Text) : ℚ :=
  let mantissa := t.takeWhile (· != 0x65)
  let exponent := (t.dropWhile (· != 0x65)).drop 1
  let whole := mantissa.takeWhile (· != 0x2e)
  let fraction := (mantissa.dropWhile (· != 0x2e)).drop 1
  digitsValue (whole ++ fraction) * 10 ^ (exponentValue exponent - fraction.length)

theorem digitsValue_concat (t : Text) (c : CodeUnit) :
    digitsValue (t ++ [c]) = 10 * digitsValue t + (c.val - 48) := by
  simp [digitsValue]

theorem digitsValue_append (s t : Text) :
    digitsValue (s ++ t) = digitsValue s * 10 ^ t.length + digitsValue t := by
  induction t using List.reverseRecOn with
  | nil => simp [digitsValue]
  | append_singleton t c ih =>
    rw [← List.append_assoc, digitsValue_concat, digitsValue_concat, ih, List.length_append,
      List.length_singleton, pow_succ]
    ring

theorem digitsValue_zeros (n : ℕ) : digitsValue (zeros n) = 0 := by
  induction n with
  | zero => rfl
  | succ n ih =>
    rw [zeros, List.replicate_succ', digitsValue_append]
    change digitsValue (zeros n) * _ + _ = 0
    rw [ih]
    rfl

theorem digitsValue_decimalDigits (n : ℕ) : digitsValue (decimalDigits n) = n := by
  have hfold : ∀ ds : List ℕ, (∀ d ∈ ds, d < 10) →
      digitsValue (ds.reverse.map fun d => Fin.ofNat 65536 (48 + d)) = Nat.ofDigits 10 ds := by
    intro ds
    induction ds with
    | nil => intro _; rfl
    | cons d ds ih =>
      intro h
      have hd := h d (by simp)
      rw [List.reverse_cons, List.map_append, digitsValue_append,
        ih fun d' hd' => h d' (by simp [hd']), Nat.ofDigits_cons]
      simp [digitsValue]
      omega
  rw [decimalDigits, hfold _ fun d hd => Nat.digits_lt_base (by norm_num) hd,
    Nat.ofDigits_digits]

def isDigit (c : CodeUnit) : Bool := 48 ≤ c.val && c.val ≤ 57

theorem isDigit_decimalDigits {n : ℕ} {c : CodeUnit} (h : c ∈ decimalDigits n) : isDigit c := by
  unfold decimalDigits at h
  rw [List.mem_map] at h
  obtain ⟨d, hd, rfl⟩ := h
  have := Nat.digits_lt_base (b := 10) (by norm_num) (List.mem_reverse.mp hd)
  simp only [isDigit, Fin.val_ofNat, Bool.and_eq_true, decide_eq_true_eq]
  omega

theorem isDigit_zeros {n : ℕ} {c : CodeUnit} (h : c ∈ zeros n) : isDigit c := by
  rw [List.eq_of_mem_replicate h]
  decide

theorem ne_point_of_isDigit {c : CodeUnit} (h : isDigit c) : (c != 0x2e) = true := by
  rw [bne_iff_ne]
  rintro rfl
  exact absurd h (by decide)

theorem ne_e_of_isDigit {c : CodeUnit} (h : isDigit c) : (c != 0x65) = true := by
  rw [bne_iff_ne]
  rintro rfl
  exact absurd h (by decide)

/-- Digits, a point and digits if there are any, and an exponent if there is one. -/
theorem textValue_eq (whole fraction point exponent : Text)
    (hwhole : ∀ c ∈ whole, isDigit c) (hfraction : ∀ c ∈ fraction, isDigit c)
    (hpoint : point = 0x2e :: fraction ∨ point = [] ∧ fraction = [])
    (hexponent : exponent.takeWhile (· != 0x65) = []) :
    textValue (whole ++ point ++ exponent) =
      digitsValue (whole ++ fraction) *
        10 ^ (exponentValue (exponent.drop 1) - (fraction.length : ℤ)) := by
  have hmantissa : ∀ c ∈ whole ++ point, (c != 0x65) = true := by
    intro c hc
    rcases List.mem_append.mp hc with hc | hc
    · exact ne_e_of_isDigit (hwhole c hc)
    · rcases hpoint with rfl | ⟨rfl, -⟩
      · rcases List.mem_cons.mp hc with rfl | hc
        · decide
        · exact ne_e_of_isDigit (hfraction c hc)
      · cases hc
  have hdrop : exponent.dropWhile (· != 0x65) = exponent := by
    have := List.takeWhile_append_dropWhile (p := (· != (0x65 : CodeUnit))) (l := exponent)
    rwa [hexponent, List.nil_append] at this
  have hw : ∀ c ∈ whole, (c != 0x2e) = true := fun c hc => ne_point_of_isDigit (hwhole c hc)
  unfold textValue
  dsimp only
  rw [List.takeWhile_append_of_pos hmantissa, List.dropWhile_append_of_pos hmantissa, hexponent,
    hdrop, List.append_nil, List.takeWhile_append_of_pos hw, List.dropWhile_append_of_pos hw]
  rcases hpoint with rfl | ⟨rfl, rfl⟩
  · simp
  · simp

theorem decimalDigits_ne_nil {n : ℕ} (h : 0 < n) : decimalDigits n ≠ [] := by
  simp [decimalDigits, Nat.digits_eq_nil_iff_eq_zero, h.ne']

theorem exponentValue_exponentText (e : ℤ) : exponentValue ((exponentText e).drop 1) = e := by
  unfold exponentText exponentValue
  simp only [List.drop_succ_cons, List.drop_zero]
  rw [digitsValue_decimalDigits]
  split_ifs with h₁ h₂ h₂
  · omega
  · exact absurd rfl h₂
  · exact absurd h₂ (by decide)
  · omega

theorem textValue_layout (d : Decimal) (hd : 0 < d.digits) : textValue (layout d) = d.value := by
  have hdigits : ∀ c ∈ decimalDigits d.digits, isDigit c := fun c hc => isDigit_decimalDigits hc
  have hlen := List.length_pos_iff.mpr (decimalDigits_ne_nil hd)
  have hval := digitsValue_decimalDigits d.digits
  unfold layout Decimal.value
  dsimp only
  generalize decimalDigits d.digits = digits at hdigits hlen hval ⊢
  have htake : ∀ i, ∀ c ∈ digits.take i, isDigit c := fun i c hc =>
    hdigits c (List.mem_of_mem_take hc)
  have hdrop : ∀ i, ∀ c ∈ digits.drop i, isDigit c := fun i c hc =>
    hdigits c (List.mem_of_mem_drop hc)
  split_ifs with h₁ h₂ h₃ h₄
  · -- an integer, with zeros behind the digits
    have hpow : ((d.exponent + digits.length - digits.length).toNat : ℤ) = d.exponent := by omega
    have hv := textValue_eq (digits ++ zeros (d.exponent + digits.length - digits.length).toNat)
      [] [] [] (by
        intro c hc
        rcases List.mem_append.mp hc with hc | hc
        · exact hdigits c hc
        · exact isDigit_zeros hc) (by simp) (.inr ⟨rfl, rfl⟩) rfl
    simp only [List.append_nil] at hv
    rw [hv, digitsValue_append, digitsValue_zeros, hval, zeros, List.length_replicate, add_zero,
      Nat.cast_mul, Nat.cast_pow, ← zpow_natCast, hpow]
    simp [exponentValue]
  · -- the point is among the digits
    have hv := textValue_eq (digits.take (d.exponent + digits.length).toNat)
      (digits.drop (d.exponent + digits.length).toNat) _ [] (htake _) (hdrop _) (.inl rfl) rfl
    rw [List.append_nil] at hv
    rw [hv, List.take_append_drop, hval, List.length_drop]
    congr 2
    simp only [List.drop_nil, exponentValue]
    omega
  · -- the point is before the digits
    have hv := textValue_eq [0x30] (zeros (-(d.exponent + digits.length)).toNat ++ digits) _ []
      (fun c hc => isDigit_zeros (n := 1) hc) (by
        intro c hc
        rcases List.mem_append.mp hc with hc | hc
        · exact isDigit_zeros hc
        · exact hdigits c hc) (.inl rfl) rfl
    rw [List.append_nil] at hv
    refine hv.trans ?_
    rw [← List.append_assoc, digitsValue_append, digitsValue_append, digitsValue_zeros, hval,
      List.length_append, zeros, List.length_replicate]
    have hzero : digitsValue [0x30] = 0 := digitsValue_zeros 1
    rw [hzero, zero_mul, zero_add, zero_mul, zero_add]
    congr 2
    simp only [List.drop_nil, exponentValue]
    omega
  · -- one digit and an exponent
    have hv := textValue_eq digits [] [] (exponentText (d.exponent + digits.length - 1)) hdigits
      (by simp) (.inr ⟨rfl, rfl⟩) (by simp [exponentText])
    rw [List.append_nil] at hv
    rw [hv, hval, exponentValue_exponentText, h₄]
    congr 2
    simp
  · -- a digit, the point, the other digits and an exponent
    have hv := textValue_eq (digits.take 1) (digits.drop 1) _
      (exponentText (d.exponent + digits.length - 1)) (htake 1) (hdrop 1) (.inl rfl)
      (by simp [exponentText])
    rw [List.append_assoc, List.cons_append] at hv
    rw [hv, List.take_append_drop, hval, exponentValue_exponentText, List.length_drop]
    congr 2
    omega

/-- The code units of number texts. -/
def isNumberUnit (c : CodeUnit) : Bool :=
  isDigit c || c == 0x2b || c == 0x2d || c == 0x2e || c == 0x65

theorem isNumberUnit_of_isDigit {c : CodeUnit} (h : isDigit c) : isNumberUnit c := by
  simp [isNumberUnit, h]

theorem isNumberUnit_exponentText {e : ℤ} {c : CodeUnit} (h : c ∈ exponentText e) :
    isNumberUnit c := by
  simp only [exponentText, List.mem_cons] at h
  obtain rfl | rfl | h := h
  · decide
  · split_ifs <;> decide
  · exact isNumberUnit_of_isDigit (isDigit_decimalDigits h)

/-- A layout begins with a digit and goes on with number units. -/
theorem layout_eq_cons (d : Decimal) (hd : 0 < d.digits) :
    ∃ c t, layout d = c :: t ∧ isDigit c ∧ ∀ u ∈ t, isNumberUnit u := by
  have hdigits : ∀ c ∈ decimalDigits d.digits, isDigit c := fun c hc => isDigit_decimalDigits hc
  obtain ⟨c, ds, hcons⟩ := List.exists_cons_of_ne_nil (decimalDigits_ne_nil hd)
  have hc : isDigit c := hdigits c (by simp [hcons])
  have hds : ∀ u ∈ ds, isNumberUnit u :=
    fun u hu => isNumberUnit_of_isDigit (hdigits u (by simp [hcons, hu]))
  unfold layout
  dsimp only
  rw [hcons]
  split_ifs with h₁ h₂ h₃ h₄
  · refine ⟨c, _, rfl, hc, ?_⟩
    intro u hu
    rcases List.mem_append.mp hu with hu | hu
    · exact hds u hu
    · exact isNumberUnit_of_isDigit (isDigit_zeros hu)
  · obtain ⟨n, hn⟩ : ∃ n, (d.exponent + ((c :: ds).length : ℤ)).toNat = n + 1 :=
      Nat.exists_eq_succ_of_ne_zero (by omega)
    rw [hn, List.take_succ_cons, List.drop_succ_cons]
    refine ⟨c, _, rfl, hc, ?_⟩
    intro u hu
    rcases List.mem_append.mp hu with hu | hu
    · exact hds u (List.mem_of_mem_take hu)
    · rcases List.mem_cons.mp hu with rfl | hu
      · decide
      · exact hds u (List.mem_of_mem_drop hu)
  · refine ⟨_, _, rfl, by decide, ?_⟩
    intro u hu
    rcases List.mem_cons.mp hu with rfl | hu
    · decide
    · rcases List.mem_append.mp hu with hu | hu
      · exact isNumberUnit_of_isDigit (isDigit_zeros hu)
      · rcases List.mem_cons.mp hu with rfl | hu
        · exact isNumberUnit_of_isDigit hc
        · exact hds u hu
  · refine ⟨c, _, rfl, hc, ?_⟩
    intro u hu
    rcases List.mem_append.mp hu with hu | hu
    · exact hds u hu
    · exact isNumberUnit_exponentText hu
  · rw [List.take_succ_cons, List.drop_succ_cons]
    refine ⟨c, _, rfl, hc, ?_⟩
    intro u hu
    rcases List.mem_cons.mp hu with rfl | hu
    · decide
    · rcases List.mem_append.mp hu with hu | hu
      · exact hds u hu
      · exact isNumberUnit_exponentText hu

/-- A number text begins with a digit or a minus sign. -/
theorem numberText_eq_cons (d : Double) :
    ∃ c t, numberText d = c :: t ∧ (isDigit c ∨ c = 0x2d) ∧ ∀ u ∈ numberText d, isNumberUnit u := by
  unfold numberText
  split_ifs with hzero hneg
  · refine ⟨_, _, rfl, .inl (by decide), ?_⟩
    intro u hu
    exact isNumberUnit_of_isDigit (isDigit_zeros (n := 1) hu)
  · obtain ⟨c, t, ht, hc, hu⟩ := layout_eq_cons _ (digits_shortestDecimal_pos hzero)
    refine ⟨_, _, rfl, .inr rfl, ?_⟩
    rw [ht]
    intro u hmem
    rcases List.mem_cons.mp hmem with rfl | hmem
    · decide
    · rcases List.mem_cons.mp hmem with rfl | hmem
      · exact isNumberUnit_of_isDigit hc
      · exact hu u hmem
  · obtain ⟨c, t, ht, hc, hu⟩ := layout_eq_cons _ (digits_shortestDecimal_pos hzero)
    refine ⟨c, t, ht, .inl hc, ?_⟩
    rw [ht]
    intro u hmem
    rcases List.mem_cons.mp hmem with rfl | hmem
    · exact isNumberUnit_of_isDigit hc
    · exact hu u hmem

theorem code_eq_of_layout_eq {c d : ℕ} (hc : c ≠ 0) (hd : d ≠ 0)
    (h : layout (shortestDecimal c) = layout (shortestDecimal d)) : c = d := by
  have hvalue : (shortestDecimal c).value = (shortestDecimal d).value := by
    rw [← textValue_layout _ (digits_shortestDecimal_pos hc),
      ← textValue_layout _ (digits_shortestDecimal_pos hd), h]
  apply roundsTo_unique (roundsTo_shortestDecimal c)
  rw [hvalue]
  exact roundsTo_shortestDecimal d

theorem layout_ne_zero {c : ℕ} (hc : c ≠ 0) : layout (shortestDecimal c) ≠ [0x30] := by
  intro h
  have hvalue := textValue_layout _ (digits_shortestDecimal_pos hc)
  have hpos := pos_of_roundsTo (roundsTo_shortestDecimal c) hc
  rw [h] at hvalue
  have hzero : textValue [0x30] = 0 := by
    have := textValue_eq [0x30] [] [] [] (fun c hc => isDigit_zeros (n := 1) hc) (by simp)
      (.inr ⟨rfl, rfl⟩) rfl
    simp only [List.append_nil] at this
    rw [this, show digitsValue [0x30] = 0 from digitsValue_zeros 1, Nat.cast_zero, zero_mul]
  rw [hzero] at hvalue
  rw [← hvalue] at hpos
  exact lt_irrefl _ hpos

theorem layout_ne_minus {c : ℕ} (hc : c ≠ 0) (t : Text) :
    layout (shortestDecimal c) ≠ 0x2d :: t := by
  intro h
  obtain ⟨u, t', ht, hu, -⟩ := layout_eq_cons _ (digits_shortestDecimal_pos hc)
  rw [ht] at h
  rw [(List.cons.inj h).1] at hu
  exact absurd hu (by decide)

theorem code_eq_of_value_eq {c d : ℕ}
    (h : (magnitude c : ℚ) / 2 ^ 1074 = magnitude d / 2 ^ 1074) : c = d := by
  have h2 : (2 : ℚ) ^ 1074 ≠ 0 := by positivity
  rw [div_left_inj' h2, Nat.cast_inj] at h
  exact magnitude_strictMono.injective h

theorem value_of_code_zero {d : Double} (h : d.code = 0) : d.value = 0 := by
  rw [Double.value, h, magnitude_zero, Nat.cast_zero, zero_div, mul_zero]

theorem magnitude_div_pos {c : ℕ} (h : c ≠ 0) : (0 : ℚ) < magnitude c / 2 ^ 1074 := by
  have hm := magnitude_strictMono (Nat.pos_of_ne_zero h)
  rw [magnitude_zero] at hm
  have hm' : (0 : ℚ) < magnitude c := by exact_mod_cast hm
  positivity

theorem value_of_negative {d : Double} (h : d.negative = true) :
    d.value = -(magnitude d.code / 2 ^ 1074) := by
  rw [Double.value, if_pos h, neg_one_mul]

theorem value_of_nonnegative {d : Double} (h : ¬ d.negative = true) :
    d.value = magnitude d.code / 2 ^ 1074 := by
  rw [Double.value, if_neg h, one_mul]

theorem value_eq_iff {d e : Double} :
    d.value = e.value ↔ d = e ∨ (d.code = 0 ∧ e.code = 0) := by
  constructor
  · intro h
    by_cases hd : d.code = 0 <;> by_cases he : e.code = 0
    · exact .inr ⟨hd, he⟩
    · have hpos := magnitude_div_pos he
      rw [value_of_code_zero hd] at h
      by_cases hneg : e.negative = true
      · rw [value_of_negative hneg] at h
        linarith
      · rw [value_of_nonnegative hneg] at h
        linarith
    · have hpos := magnitude_div_pos hd
      rw [value_of_code_zero he] at h
      by_cases hneg : d.negative = true
      · rw [value_of_negative hneg] at h
        linarith
      · rw [value_of_nonnegative hneg] at h
        linarith
    · have hposd := magnitude_div_pos hd
      have hpose := magnitude_div_pos he
      by_cases hnd : d.negative = true <;> by_cases hne : e.negative = true
      · rw [value_of_negative hnd, value_of_negative hne, neg_inj] at h
        exact .inl (Double.ext (hnd.trans hne.symm) (code_eq_of_value_eq h))
      · rw [value_of_negative hnd, value_of_nonnegative hne] at h
        linarith
      · rw [value_of_nonnegative hnd, value_of_negative hne] at h
        linarith
      · rw [value_of_nonnegative hnd, value_of_nonnegative hne] at h
        refine .inl (Double.ext ?_ (code_eq_of_value_eq h))
        rw [Bool.eq_false_iff.mpr hnd, Bool.eq_false_iff.mpr hne]
  · rintro (rfl | ⟨hd, he⟩)
    · rfl
    · rw [value_of_code_zero hd, value_of_code_zero he]

/-- The text of a number names its value: both zeros are written alike, and nothing else is. -/
theorem numberText_eq_iff (d e : Double) : numberText d = numberText e ↔ d.value = e.value := by
  by_cases hd : d.code = 0 <;> by_cases he : e.code = 0
  · rw [value_of_code_zero hd, value_of_code_zero he]
    simp [numberText, hd, he]
  · have hpos := magnitude_div_pos he
    rw [value_of_code_zero hd, numberText, numberText, if_pos hd, if_neg he]
    split_ifs with hneg
    · rw [value_of_negative hneg]
      exact iff_of_false (by simp) (by linarith)
    · rw [value_of_nonnegative hneg]
      exact iff_of_false (layout_ne_zero he).symm (by linarith)
  · have hpos := magnitude_div_pos hd
    rw [value_of_code_zero he, numberText, numberText, if_pos he, if_neg hd]
    split_ifs with hneg
    · rw [value_of_negative hneg]
      exact iff_of_false (by simp) (by linarith)
    · rw [value_of_nonnegative hneg]
      exact iff_of_false (layout_ne_zero hd) (by linarith)
  · have hposd := magnitude_div_pos hd
    have hpose := magnitude_div_pos he
    rw [numberText, numberText, if_neg hd, if_neg he]
    split_ifs with hnd hne hne
    · rw [value_of_negative hnd, value_of_negative hne, neg_inj, List.cons.injEq]
      constructor
      · rintro ⟨-, h⟩
        rw [code_eq_of_layout_eq hd he h]
      · intro h
        rw [code_eq_of_value_eq h]
        exact ⟨rfl, rfl⟩
    · rw [value_of_negative hnd, value_of_nonnegative hne]
      exact iff_of_false (layout_ne_minus he _).symm (by linarith)
    · rw [value_of_nonnegative hnd, value_of_negative hne]
      exact iff_of_false (layout_ne_minus hd _) (by linarith)
    · rw [value_of_nonnegative hnd, value_of_nonnegative hne]
      constructor
      · intro h
        rw [code_eq_of_layout_eq hd he h]
      · intro h
        rw [code_eq_of_value_eq h]

end Js
