import Mathlib

/-! Rounding of an ordered-field value to an integer, as relations: what it means
for `n` to be `x` rounded, for the four usual modes, independently of how a
program computes it. Every relation is odd in the value, determines its integer,
and is met by the quotient of a nonnegative division with the matching carry. -/

namespace Rounding

variable {K : Type*} [Field K] [LinearOrder K] [IsStrictOrderedRing K]

inductive Mode where
  | down
  | up
  | halfUp
  | halfEven
deriving DecidableEq, Repr

/-- `n` is `x` rounded in the given mode: toward zero, away from zero, to nearest
with ties away from zero, to nearest with ties to even. -/
def Rounds (m : Mode) (x : K) (n : ℤ) : Prop :=
  match m with
  | .down => |(n : K)| ≤ |x| ∧ |x| < |(n : K)| + 1 ∧ 0 ≤ x * n
  | .up => |x| ≤ |(n : K)| ∧ |(n : K)| < |x| + 1 ∧ 0 ≤ x * n
  | .halfUp => |x - n| ≤ 1 / 2 ∧ (|x - n| = 1 / 2 → |x| < |(n : K)|)
  | .halfEven => |x - n| ≤ 1 / 2 ∧ (|x - n| = 1 / 2 → Even n)

omit [IsStrictOrderedRing K] in
theorem rounds_neg (m : Mode) (x : K) (n : ℤ) : Rounds m (-x) (-n) ↔ Rounds m x n := by
  have hsub : -x - ((-n : ℤ) : K) = -(x - n) := by push_cast; ring
  cases m with
  | down => simp [Rounds]
  | up => simp [Rounds]
  | halfUp =>
    simp only [Rounds, hsub, abs_neg]
    rw [Int.cast_neg, abs_neg]
  | halfEven => simp only [Rounds, hsub, abs_neg, even_neg]

/-- Two integers whose magnitudes lie in one half-open unit interval have the same
magnitude. -/
theorem natAbs_eq_of_abs {n n' : ℤ} (h : |(n : K)| < |(n' : K)| + 1)
    (h' : |(n' : K)| < |(n : K)| + 1) : |n| = |n'| := by
  have h1 : |n| < |n'| + 1 := by exact_mod_cast h
  have h2 : |n'| < |n| + 1 := by exact_mod_cast h'
  omega

/-- Values of one sign are as far apart as their magnitudes. -/
theorem abs_sub_eq_of_mul_nonneg {x y : K} (h : 0 ≤ x * y) : |x - y| = |(|x| - |y|)| := by
  rcases mul_nonneg_iff.mp h with ⟨hx, hy⟩ | ⟨hx, hy⟩
  · rw [abs_of_nonneg hx, abs_of_nonneg hy]
  · rw [abs_of_nonpos hx, abs_of_nonpos hy, ← abs_neg (x - y)]
    congr 1
    ring

/-- No mode moves a value by a whole unit. -/
theorem abs_sub_lt_one_of_rounds {m : Mode} {x : K} {n : ℤ} (h : Rounds m x n) :
    |x - n| < 1 := by
  have hhalf : (1 : K) / 2 < 1 := by norm_num
  cases m with
  | down =>
    obtain ⟨hle, hlt, hsign⟩ := h
    rw [abs_sub_eq_of_mul_nonneg hsign, abs_of_nonneg (sub_nonneg.mpr hle)]
    linarith
  | up =>
    obtain ⟨hle, hlt, hsign⟩ := h
    rw [abs_sub_eq_of_mul_nonneg hsign, abs_of_nonpos (sub_nonpos.mpr hle)]
    linarith
  | halfUp => exact lt_of_le_of_lt h.1 hhalf
  | halfEven => exact lt_of_le_of_lt h.1 hhalf

theorem eq_of_abs_eq_of_sign {x : K} {n n' : ℤ} (hx : x = 0 → n = 0) (habs : |n| = |n'|)
    (hn : 0 ≤ x * n) (hn' : 0 ≤ x * n') : n = n' := by
  rcases abs_eq_abs.mp habs with h | h
  · exact h
  by_cases h0 : n = 0
  · subst h0; omega
  have hx0 : x ≠ 0 := fun h => h0 (hx h)
  -- both products are nonnegative and opposite, so they vanish
  have hz : x * (n : K) = 0 := by
    subst h
    rw [Int.cast_neg, mul_neg] at hn ⊢
    linarith
  rcases mul_eq_zero.mp hz with hc | hc
  · exact absurd hc hx0
  · exact absurd (by exact_mod_cast hc) h0

theorem nearest_close {x : K} {n n' : ℤ} (h : |x - n| ≤ 1 / 2) (h' : |x - n'| ≤ 1 / 2)
    (hlt : n < n') : n' = n + 1 ∧ x = n + 1 / 2 := by
  have h1 := abs_le.mp h
  have h2 := abs_le.mp h'
  have hle : (n' : K) ≤ n + 1 := by linarith [h1.1, h1.2, h2.1, h2.2]
  have hn' : n' = n + 1 := by
    have : n' ≤ n + 1 := by exact_mod_cast hle
    omega
  subst hn'
  push_cast at h2
  exact ⟨rfl, by linarith [h1.2, h2.1]⟩

/-- Neighbours that are both within one half cannot both satisfy the tie rule. -/
theorem nearest_tie {x : K} {n : ℤ} (hx : x = n + 1 / 2) :
    |x - n| = 1 / 2 ∧ |x - ((n + 1 : ℤ) : K)| = 1 / 2 := by
  subst hx
  constructor
  · rw [add_sub_cancel_left]; exact abs_of_nonneg (by norm_num)
  · have : (n : K) + 1 / 2 - ((n + 1 : ℤ) : K) = -(1 / 2) := by push_cast; ring
    rw [this, abs_neg]; exact abs_of_nonneg (by norm_num)

theorem halfUp_not_both {x : K} {n : ℤ} (hx : x = n + 1 / 2) :
    ¬(|x| < |(n : K)| ∧ |x| < |((n + 1 : ℤ) : K)|) := by
  rintro ⟨h1, h2⟩
  subst hx
  rcases le_or_gt 0 n with h0 | h0
  · have hk : (0 : K) ≤ n := by exact_mod_cast h0
    rw [abs_of_nonneg hk, abs_of_nonneg (by linarith)] at h1
    linarith
  · have hk : ((n + 1 : ℤ) : K) ≤ 0 := by exact_mod_cast h0
    have hk' : (n : K) + 1 ≤ 0 := by exact_mod_cast h0
    rw [abs_of_nonpos hk, abs_of_nonpos (by linarith)] at h2
    push_cast at h2
    linarith

private theorem rounds_unique_of_lt {m : Mode} {x : K} {n n' : ℤ} (h : Rounds m x n)
    (h' : Rounds m x n') (hm : m = .halfUp ∨ m = .halfEven) : ¬ n < n' := by
  intro hlt
  rcases hm with rfl | rfl
  · obtain ⟨rfl, hx⟩ := nearest_close h.1 h'.1 hlt
    obtain ⟨t1, t2⟩ := nearest_tie hx
    exact halfUp_not_both hx ⟨h.2 t1, h'.2 t2⟩
  · obtain ⟨rfl, hx⟩ := nearest_close h.1 h'.1 hlt
    obtain ⟨t1, t2⟩ := nearest_tie hx
    exact (Int.even_add_one.mp (h'.2 t2)) (h.2 t1)

/-- A mode determines the rounded integer. -/
theorem rounds_unique {m : Mode} {x : K} {n n' : ℤ} (h : Rounds m x n) (h' : Rounds m x n') :
    n = n' := by
  cases m with
  | down =>
    obtain ⟨h1, h2, h3⟩ := h
    obtain ⟨h1', h2', h3'⟩ := h'
    refine eq_of_abs_eq_of_sign (x := x) ?_ (natAbs_eq_of_abs (K := K) ?_ ?_) h3 h3'
    · intro hx
      rw [hx, abs_zero] at h1
      exact_mod_cast abs_nonpos_iff.mp h1
    · exact lt_of_le_of_lt h1 h2'
    · exact lt_of_le_of_lt h1' h2
  | up =>
    obtain ⟨h1, h2, h3⟩ := h
    obtain ⟨h1', h2', h3'⟩ := h'
    refine eq_of_abs_eq_of_sign (x := x) ?_ (natAbs_eq_of_abs (K := K) ?_ ?_) h3 h3'
    · intro hx
      rw [hx, abs_zero, zero_add] at h2
      have h2' : |n| < 1 := by exact_mod_cast h2
      exact Int.abs_lt_one_iff.mp h2'
    · linarith
    · linarith
  | halfUp =>
    rcases lt_trichotomy n n' with hlt | heq | hlt
    · exact absurd hlt (rounds_unique_of_lt h h' (Or.inl rfl))
    · exact heq
    · exact absurd hlt (rounds_unique_of_lt h' h (Or.inl rfl))
  | halfEven =>
    rcases lt_trichotomy n n' with hlt | heq | hlt
    · exact absurd hlt (rounds_unique_of_lt h h' (Or.inr rfl))
    · exact heq
    · exact absurd hlt (rounds_unique_of_lt h' h (Or.inr rfl))

/-- An integer is its own rounding. -/
theorem rounds_intCast (m : Mode) (n : ℤ) : Rounds m (n : K) n := by
  cases m with
  | down => exact ⟨le_rfl, by linarith, mul_self_nonneg _⟩
  | up => exact ⟨le_rfl, by linarith, mul_self_nonneg _⟩
  | halfUp => exact ⟨by simp, by simp⟩
  | halfEven => exact ⟨by simp, by simp⟩

section Order

variable {m : Mode} {x y : K} {n k : ℤ}

theorem nonneg_of_rounds (h : Rounds m x n) (hx : 0 ≤ x) : 0 ≤ n := by
  have hlt := abs_lt.mp (abs_sub_lt_one_of_rounds h)
  have hgt : (-1 : K) < n := by linarith [hlt.2]
  have : -1 < n := by exact_mod_cast hgt
  omega

theorem nonpos_of_rounds (h : Rounds m x n) (hx : x ≤ 0) : n ≤ 0 := by
  have hneg := nonneg_of_rounds ((rounds_neg m x n).mpr h) (neg_nonneg.mpr hx)
  omega

theorem rounds_abs (h : Rounds m x n) : Rounds m |x| |n| := by
  rcases le_total 0 x with hx | hx
  · rwa [abs_of_nonneg hx, abs_of_nonneg (nonneg_of_rounds h hx)]
  · rwa [abs_of_nonpos hx, abs_of_nonpos (nonpos_of_rounds h hx), rounds_neg]

/-- Rounding is monotone in magnitude. -/
theorem rounds_abs_mono (h : Rounds m x n) (h' : Rounds m y k) (hxy : |x| ≤ |y|) : |n| ≤ |k| := by
  have hn := rounds_abs h
  have hk := rounds_abs h'
  rcases hxy.eq_or_lt with heq | hlt
  · rw [heq] at hn
    exact (rounds_unique hn hk).le
  have hlt' : ((|n| : ℤ) : K) < |k| + 1 := by
    cases m with
    | down =>
      obtain ⟨hle, -, -⟩ := hn
      obtain ⟨-, hk, -⟩ := hk
      simp only [Int.cast_abs, abs_abs] at hle hk ⊢
      linarith
    | up =>
      obtain ⟨-, hn, -⟩ := hn
      obtain ⟨hle, -, -⟩ := hk
      simp only [Int.cast_abs, abs_abs] at hn hle ⊢
      linarith
    | halfUp =>
      have h1 := abs_le.mp hn.1
      have h2 := abs_le.mp hk.1
      simp only [Int.cast_abs] at h1 h2 ⊢
      linarith [h1.1, h2.2]
    | halfEven =>
      have h1 := abs_le.mp hn.1
      have h2 := abs_le.mp hk.1
      simp only [Int.cast_abs] at h1 h2 ⊢
      linarith [h1.1, h2.2]
  have : |n| < |k| + 1 := by exact_mod_cast hlt'
  omega

/-- What is rounded lies no further from zero than an integer bound. -/
theorem rounds_mem_uIcc (h : Rounds m x n) (hsign : 0 ≤ x * k) (hle : |x| ≤ |(k : K)|) :
    n ∈ Set.uIcc 0 k := by
  have habs := abs_le.mp (rounds_abs_mono h (rounds_intCast m k) hle)
  rw [Set.mem_uIcc]
  rcases lt_trichotomy k 0 with hk | rfl | hk
  · have hx : x ≤ 0 := nonpos_of_mul_nonneg_left hsign (by exact_mod_cast hk)
    rw [abs_of_neg hk, neg_neg] at habs
    exact .inr ⟨habs.1, nonpos_of_rounds h hx⟩
  · rw [abs_zero, neg_zero] at habs
    exact .inl habs
  · have hx : 0 ≤ x := nonneg_of_mul_nonneg_left hsign (by exact_mod_cast hk)
    rw [abs_of_pos hk] at habs
    exact .inl ⟨nonneg_of_rounds h hx, habs.2⟩

end Order

section Sums

variable {xs : List K} {ns : List ℤ} {ε : K}

/-- Errors add up. -/
theorem abs_sum_sub_le (h : List.Forall₂ (fun (x : K) (n : ℤ) => |x - n| ≤ ε) xs ns) :
    |xs.sum - (ns.sum : ℤ)| ≤ ns.length * ε := by
  induction h with
  | nil => simp
  | @cons x n xs ns hhead _ ih =>
    rw [List.sum_cons, List.sum_cons, List.length_cons]
    push_cast at ih ⊢
    have hsplit : x + xs.sum - (n + (ns.map (Int.cast : ℤ → K)).sum) =
        (x - n) + (xs.sum - (ns.map (Int.cast : ℤ → K)).sum) := by ring
    rw [hsplit, add_mul, one_mul]
    linarith [abs_add_le (x - n) (xs.sum - (ns.map (Int.cast : ℤ → K)).sum)]

theorem abs_sum_sub_lt (h : List.Forall₂ (fun (x : K) (n : ℤ) => |x - n| < ε) xs ns)
    (hne : ns ≠ []) : |xs.sum - (ns.sum : ℤ)| < ns.length * ε := by
  cases h with
  | nil => exact absurd rfl hne
  | @cons x n xs ns hhead htail =>
    have hle := abs_sum_sub_le (htail.imp fun _ _ => le_of_lt)
    rw [List.sum_cons, List.sum_cons, List.length_cons]
    push_cast at hle ⊢
    have hsplit : x + xs.sum - (n + (ns.map (Int.cast : ℤ → K)).sum) =
        (x - n) + (xs.sum - (ns.map (Int.cast : ℤ → K)).sum) := by ring
    rw [hsplit, add_mul, one_mul]
    linarith [abs_add_le (x - n) (xs.sum - (ns.map (Int.cast : ℤ → K)).sum)]

end Sums

section Quotient

variable {q r d : ℕ}

/-- Whether a nonzero remainder `r` of a division by `d` with quotient `q` carries. -/
def carries (m : Mode) (q r d : ℕ) : Bool :=
  match m with
  | .down => false
  | .up => true
  | .halfUp => decide (d ≤ 2 * r)
  | .halfEven => decide (d < 2 * r) || (decide (2 * r = d) && decide (q % 2 = 1))

theorem frac_nonneg : (0 : K) ≤ (r : K) / d := div_nonneg (Nat.cast_nonneg r) (Nat.cast_nonneg d)

theorem frac_lt_one (hr : r < d) : (r : K) / d < 1 := by
  have hd : (0 : K) < d := by exact_mod_cast Nat.zero_lt_of_lt hr
  rw [div_lt_one hd]
  exact_mod_cast hr

theorem frac_pos (hr : r < d) (h0 : r ≠ 0) : (0 : K) < (r : K) / d := by
  have hd : (0 : K) < d := by exact_mod_cast Nat.zero_lt_of_lt hr
  exact div_pos (by exact_mod_cast Nat.pos_of_ne_zero h0) hd

theorem frac_le_half (hr : r < d) : (r : K) / d ≤ 1 / 2 ↔ 2 * r ≤ d := by
  have hd : (0 : K) < d := by exact_mod_cast Nat.zero_lt_of_lt hr
  rw [div_le_div_iff₀ hd two_pos, one_mul]
  constructor
  · intro h
    have : r * 2 ≤ d := by exact_mod_cast h
    omega
  · intro h
    have : r * 2 ≤ d := by omega
    exact_mod_cast this

theorem half_le_frac (hr : r < d) : 1 / 2 ≤ (r : K) / d ↔ d ≤ 2 * r := by
  have hd : (0 : K) < d := by exact_mod_cast Nat.zero_lt_of_lt hr
  rw [div_le_div_iff₀ two_pos hd, one_mul]
  constructor
  · intro h
    have : d ≤ r * 2 := by exact_mod_cast h
    omega
  · intro h
    have : d ≤ r * 2 := by omega
    exact_mod_cast this

theorem frac_eq_half (hr : r < d) : (r : K) / d = 1 / 2 ↔ 2 * r = d := by
  rw [le_antisymm_iff, frac_le_half hr, half_le_frac hr]
  omega

private theorem rounds_floor (m : Mode) (hr : r < d) (hc : r ≠ 0 → carries m q r d = false) :
    Rounds m ((q : K) + r / d) q := by
  have hq : (0 : K) ≤ q := Nat.cast_nonneg q
  have hf := frac_nonneg (K := K) (r := r) (d := d)
  have hx : (0 : K) ≤ q + r / d := add_nonneg hq hf
  have hnear : |(q : K) + r / d - ((q : ℤ) : K)| = r / d := by
    rw [Int.cast_natCast, add_sub_cancel_left, abs_of_nonneg hf]
  have hsmall : r ≠ 0 → 2 * r ≤ d → (r : K) / d ≤ 1 / 2 := fun _ h => (frac_le_half hr).mpr h
  cases m with
  | down =>
    refine ⟨?_, ?_, ?_⟩
    · rw [Int.cast_natCast, abs_of_nonneg hq, abs_of_nonneg hx]; linarith
    · rw [Int.cast_natCast, abs_of_nonneg hq, abs_of_nonneg hx]
      linarith [frac_lt_one (K := K) hr]
    · exact mul_nonneg hx (by simp)
  | up =>
    have h0 : r = 0 := by
      by_contra h
      simp [carries] at hc
      exact h hc
    subst h0
    simp [Rounds, abs_of_nonneg, hq, mul_self_nonneg]
  | halfUp =>
    simp only [carries, decide_eq_false_iff_not] at hc
    have hlt : 2 * r < d := by
      by_cases h0 : r = 0
      · omega
      · have := hc h0; omega
    refine ⟨by rw [hnear]; exact (frac_le_half hr).mpr (by omega), ?_⟩
    rw [hnear]
    intro h
    exact absurd ((frac_eq_half hr).mp h) (by omega)
  | halfEven =>
    simp only [carries, Bool.or_eq_false_iff, Bool.and_eq_false_iff,
      decide_eq_false_iff_not] at hc
    have hle : 2 * r ≤ d := by
      by_cases h0 : r = 0
      · omega
      · have := (hc h0).1; omega
    refine ⟨by rw [hnear]; exact (frac_le_half hr).mpr hle, ?_⟩
    rw [hnear]
    intro h
    have heq := (frac_eq_half hr).mp h
    have hne : r ≠ 0 := by omega
    have hodd : ¬ q % 2 = 1 := (hc hne).2.resolve_left (fun hn => hn heq)
    have : Even q := Nat.even_iff.mpr (by omega)
    exact_mod_cast this

private theorem rounds_ceil (m : Mode) (hr : r < d) (h0 : r ≠ 0) (hc : carries m q r d = true) :
    Rounds m ((q : K) + r / d) ((q + 1 : ℕ) : ℤ) := by
  have hq : (0 : K) ≤ q := Nat.cast_nonneg q
  have hf := frac_pos (K := K) hr h0
  have hf1 := frac_lt_one (K := K) hr
  have hx : (0 : K) ≤ q + r / d := by linarith
  have hq1 : (0 : K) ≤ ((q + 1 : ℕ) : K) := Nat.cast_nonneg _
  have hnear : |(q : K) + r / d - (((q + 1 : ℕ) : ℤ) : K)| = 1 - r / d := by
    rw [Int.cast_natCast, Nat.cast_add, Nat.cast_one, abs_of_nonpos (by linarith)]
    ring
  cases m with
  | down => simp [carries] at hc
  | up =>
    refine ⟨?_, ?_, ?_⟩
    · rw [Int.cast_natCast, abs_of_nonneg hq1, abs_of_nonneg hx]; push_cast; linarith
    · rw [Int.cast_natCast, abs_of_nonneg hq1, abs_of_nonneg hx]; push_cast; linarith
    · exact mul_nonneg hx (by simpa using hq1)
  | halfUp =>
    simp only [carries, decide_eq_true_eq] at hc
    have hge := (half_le_frac (K := K) hr).mpr hc
    refine ⟨by rw [hnear]; linarith, fun _ => ?_⟩
    rw [Int.cast_natCast, abs_of_nonneg hq1, abs_of_nonneg hx]; push_cast; linarith
  | halfEven =>
    simp only [carries, Bool.or_eq_true, Bool.and_eq_true, decide_eq_true_eq] at hc
    have hge := (half_le_frac (K := K) hr).mpr (by omega)
    refine ⟨by rw [hnear]; linarith, ?_⟩
    rw [hnear]
    intro h
    have heq := (frac_eq_half (K := K) hr).mp (by linarith)
    have hodd : q % 2 = 1 := by omega
    have : Even (q + 1) := Nat.even_iff.mpr (by omega)
    exact_mod_cast this

/-- Division with the mode's carry rounds the exact quotient. -/
theorem rounds_quotient (m : Mode) (hr : r < d) :
    Rounds m ((q : K) + r / d)
      ((if r ≠ 0 ∧ carries m q r d = true then q + 1 else q : ℕ) : ℤ) := by
  by_cases h : r ≠ 0 ∧ carries m q r d = true
  · rw [if_pos h]
    exact rounds_ceil m hr h.1 h.2
  · rw [if_neg h]
    refine rounds_floor m hr (fun h0 => ?_)
    simpa [h0] using h

end Quotient

end Rounding
