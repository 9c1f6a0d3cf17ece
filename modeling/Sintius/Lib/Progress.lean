import Mathlib

/-! Runs of a machine whose steps depend on when they are taken. A step that changes
anything makes a number smaller; a state that is not at rest is changed by every step
that is taken late enough. Then the machine comes to rest, whatever the steps are. -/

namespace Progress

variable {S : Type*}

/-- The state after `n` steps. -/
def after (step : ℕ → S → S) (s : S) : ℕ → S
  | 0 => s
  | n + 1 => step n (after step s n)

variable {step : ℕ → S → S} {inv rest : S → Prop} {measure : S → ℕ} {s : S}

theorem after_keeps (hkeeps : ∀ n s, inv s → inv (step n s)) (hs : inv s) (n : ℕ) :
    inv (after step s n) := by
  induction n with
  | zero => exact hs
  | succ n ih => exact hkeeps n _ ih

/-- While the number stays the same, so does the state. -/
theorem after_eq_or_measure_lt (hkeeps : ∀ n s, inv s → inv (step n s))
    (hmoves : ∀ n s, inv s → step n s = s ∨ measure (step n s) < measure s) (hs : inv s)
    {n m : ℕ} (hnm : n ≤ m) :
    after step s m = after step s n ∨ measure (after step s m) < measure (after step s n) := by
  induction m, hnm using Nat.le_induction with
  | base => exact .inl rfl
  | succ m _ ih =>
    rcases hmoves m _ (after_keeps hkeeps hs m) with hsame | hless
    · rw [show after step s (m + 1) = after step s m from hsame]
      exact ih
    · have hless' : measure (after step s (m + 1)) < measure (after step s m) := hless
      right
      rcases ih with ih | ih
      · rwa [← ih]
      · exact hless'.trans ih

/-- From some step on, the machine is at rest and nothing changes any more. -/
theorem comes_to_rest (hkeeps : ∀ n s, inv s → inv (step n s))
    (hmoves : ∀ n s, inv s → step n s = s ∨ measure (step n s) < measure s)
    (hwakes : ∀ s, inv s → ¬ rest s → ∃ N, ∀ n, N ≤ n → step n s ≠ s)
    (hstill : ∀ n s, inv s → rest s → step n s = s) (hs : inv s) :
    ∃ n, rest (after step s n) ∧ ∀ m, n ≤ m → after step s m = after step s n := by
  have hreached : ∀ k n, measure (after step s n) = k → ∃ m, rest (after step s m) := by
    intro k
    induction k using Nat.strong_induction_on with
    | _ k ih =>
      rintro n rfl
      by_cases hrest : rest (after step s n)
      · exact ⟨n, hrest⟩
      obtain ⟨N, hN⟩ := hwakes _ (after_keeps hkeeps hs n) hrest
      rcases after_eq_or_measure_lt hkeeps hmoves hs (le_max_left n N) with hsame | hless
      · -- nothing has happened yet when the late step comes
        have hmove := hN (max n N) (le_max_right n N)
        have hdrop := (hmoves (max n N) _ (after_keeps hkeeps hs n)).resolve_left hmove
        rw [← hsame] at hdrop
        exact ih _ (hsame ▸ hdrop) (max n N + 1) rfl
      · exact ih _ hless (max n N) rfl
  obtain ⟨n, hrest⟩ := hreached _ 0 rfl
  refine ⟨n, hrest, ?_⟩
  intro m hm
  induction m, hm using Nat.le_induction with
  | base => rfl
  | succ m _ ih =>
    have hinv := after_keeps hkeeps hs m
    rw [← ih] at hrest ⊢
    exact hstill m _ hinv hrest

end Progress
