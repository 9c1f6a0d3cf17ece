import Mathlib

/-! Counting the elements of a list by class. -/

namespace Counting

variable {α κ : Type}

theorem sum_indicator [DecidableEq κ] (a : κ) (ks : List κ) :
    (ks.map fun k => if a = k then 1 else 0).sum = ks.count a := by
  induction ks with
  | nil => rfl
  | cons k ks ih =>
    rw [List.map_cons, List.sum_cons, ih, List.count_cons]
    by_cases h : a = k
    · simp [h, Nat.add_comm]
    · simp [h, Ne.symm h]

/-- A list whose classes are all among the distinct `ks` has as many elements as the classes
have together. -/
theorem length_eq_sum_countP [DecidableEq κ] (f : α → κ) {ks : List κ} (hk : ks.Nodup) :
    ∀ l : List α, (∀ a ∈ l, f a ∈ ks) →
      l.length = (ks.map fun k => l.countP fun a => decide (f a = k)).sum := by
  intro l
  induction l with
  | nil => intro _; simp
  | cons a l ih =>
    intro h
    have hone : (ks.map fun k => if f a = k then 1 else 0).sum = 1 := by
      rw [sum_indicator, List.count_eq_one_of_mem hk (h a (by simp))]
    simp only [List.countP_cons, List.length_cons, decide_eq_true_eq, List.sum_map_add]
    rw [← ih fun b hb => h b (by simp [hb]), hone]

/-- With each term bounded by its target, the sums agree only if every target is reached. -/
theorem forall_le_iff_sum_eq (f g : κ → ℕ) (ks : List κ) (h : ∀ k ∈ ks, f k ≤ g k) :
    (∀ k ∈ ks, g k ≤ f k) ↔ (ks.map f).sum = (ks.map g).sum := by
  induction ks with
  | nil => simp
  | cons k ks ih =>
    have hk := h k (by simp)
    have hle : (ks.map f).sum ≤ (ks.map g).sum :=
      List.sum_le_sum fun i hi => h i (by simp [hi])
    have ih' := ih fun i hi => h i (by simp [hi])
    simp only [List.mem_cons, forall_eq_or_imp, List.map_cons, List.sum_cons, ih']
    omega

end Counting
