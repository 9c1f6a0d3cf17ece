import Mathlib

/-! Numbers in a fixed number of digits of a base, most significant first. The order of
the numbers is the lexicographic order of the digits, and whatever is written after digits
that differ does not change it. -/

namespace Radix

variable {b : ℕ}

/-- The low `k` digits of `n`, most significant first. -/
def fixed (b : ℕ) : ℕ → ℕ → List ℕ
  | 0, _ => []
  | k + 1, n => fixed b k (n / b) ++ [n % b]

/-- The number that digits denote. -/
def value (b : ℕ) (ds : List ℕ) : ℕ := ds.foldl (fun n d => n * b + d) 0

@[simp] theorem length_fixed (k n : ℕ) : (fixed b k n).length = k := by
  induction k generalizing n with
  | zero => rfl
  | succ k ih => simp [fixed, ih]

theorem lt_of_mem_fixed (hb : 0 < b) {k n d : ℕ} (h : d ∈ fixed b k n) : d < b := by
  induction k generalizing n with
  | zero => cases h
  | succ k ih =>
    rcases List.mem_append.mp h with h | h
    · exact ih h
    · rw [List.mem_singleton.mp h]
      exact Nat.mod_lt n hb

/-- The high digits, then the low ones. -/
theorem fixed_add (j k n : ℕ) : fixed b (j + k) n = fixed b j (n / b ^ k) ++ fixed b k n := by
  induction k generalizing n with
  | zero => simp [fixed]
  | succ k ih =>
    rw [← Nat.add_assoc, fixed, ih, fixed, List.append_assoc, Nat.div_div_eq_div_mul,
      Nat.pow_succ']

theorem value_fixed (k n : ℕ) : value b (fixed b k n) = n % b ^ k := by
  induction k generalizing n with
  | zero => simp [fixed, value, Nat.mod_one]
  | succ k ih =>
    have hhigh : (fixed b k (n / b)).foldl (fun n d => n * b + d) 0 = n / b % b ^ k := ih (n / b)
    rw [value, fixed, List.foldl_append, hhigh, Nat.pow_succ', Nat.mod_mul]
    simp [Nat.mul_comm, Nat.add_comm]

theorem fixed_eq_fixed_iff {k m n : ℕ} :
    fixed b k m = fixed b k n ↔ m % b ^ k = n % b ^ k := by
  constructor
  · intro h
    rw [← value_fixed, h, value_fixed]
  · intro h
    induction k generalizing m n with
    | zero => rfl
    | succ k ih =>
      rw [Nat.pow_succ', Nat.mod_mul, Nat.mod_mul] at h
      have hlow : m % b = n % b := by
        have := congrArg (· % b) h
        simpa using this
      rw [hlow, Nat.add_left_cancel_iff] at h
      rw [fixed, fixed, hlow]
      rcases Nat.eq_zero_or_pos b with rfl | hb
      · simp only [Nat.div_zero]
      · rw [ih (Nat.eq_of_mul_eq_mul_left hb h)]

section Order

variable {α β : Type} [LT α] [LT β]

/-- What follows lists that differ at a place does not change their order. -/
theorem append_lt_append {l l' : List α} (h : l < l') (hlength : l.length = l'.length)
    (r r' : List α) : l ++ r < l' ++ r' := by
  have hlex : List.Lex (· < ·) l l' := h
  change List.Lex (· < ·) (l ++ r) (l' ++ r')
  clear h
  induction hlex with
  | nil => cases hlength
  | rel h => exact .rel h
  | cons _ ih => exact .cons (ih (Nat.succ_injective hlength))

theorem append_lt_append_left {l l' : List α} (h : l < l') (r : List α) : r ++ l < r ++ l' :=
  List.Lex.append_left _ h r

theorem map_lt_map {f : α → β} {p : α → Prop} (hf : ∀ x y, p x → p y → x < y → f x < f y)
    {l l' : List α} (h : l < l') (hl : ∀ x ∈ l, p x) (hl' : ∀ x ∈ l', p x) :
    l.map f < l'.map f := by
  have hlex : List.Lex (· < ·) l l' := h
  change List.Lex (· < ·) (l.map f) (l'.map f)
  clear h
  induction hlex with
  | nil => exact .nil
  | rel h => exact .rel (hf _ _ (hl _ (by simp)) (hl' _ (by simp)) h)
  | cons _ ih =>
    exact .cons (ih (fun x hx => hl x (by simp [hx])) fun x hx => hl' x (by simp [hx]))

end Order

/-- The smaller number has the smaller digits. -/
theorem fixed_lt_fixed {k m n : ℕ} (hn : n < b ^ k) (h : m < n) :
    fixed b k m < fixed b k n := by
  induction k generalizing m n with
  | zero =>
    rw [pow_zero] at hn
    omega
  | succ k ih =>
    have hdiv : n / b < b ^ k := Nat.div_lt_of_lt_mul (by rwa [← Nat.pow_succ'])
    rcases (Nat.div_le_div_right (c := b) h.le).lt_or_eq with hlt | heq
    · exact append_lt_append (ih hdiv hlt) (by simp) _ _
    · have hmod : m % b < n % b := by
        have hm := Nat.div_add_mod m b
        have hn := Nat.div_add_mod n b
        rw [heq] at hm
        omega
      rw [fixed, fixed, heq]
      exact append_lt_append_left (List.Lex.rel hmod) _

end Radix
