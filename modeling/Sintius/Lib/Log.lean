import Mathlib

/-! Logs as lists of events, newest last: the last event of a kind. -/

namespace Log

variable {α β : Type} {P Q : α → Prop} {a b : α} {l more : List α}

/-- After `a` no `P` has happened. -/
def IsLast (P : α → Prop) (a : α) (l : List α) : Prop :=
  ∃ front back, l = front ++ a :: back ∧ ∀ x ∈ back, ¬ P x

theorem IsLast.mem (h : IsLast P a l) : a ∈ l := by
  obtain ⟨front, back, rfl, -⟩ := h
  simp

theorem IsLast.mono (h : IsLast P a l) (hQ : ∀ x, Q x → P x) : IsLast Q a l := by
  obtain ⟨front, back, rfl, hback⟩ := h
  exact ⟨front, back, rfl, fun x hx hq => hback x hx (hQ x hq)⟩

theorem IsLast.append (h : IsLast P a l) (hmore : ∀ x ∈ more, ¬ P x) :
    IsLast P a (l ++ more) := by
  obtain ⟨front, back, rfl, hback⟩ := h
  refine ⟨front, back ++ more, by simp, ?_⟩
  intro x hx
  rcases List.mem_append.mp hx with hx | hx
  · exact hback x hx
  · exact hmore x hx

theorem IsLast.append_left (h : IsLast P a more) : IsLast P a (l ++ more) := by
  obtain ⟨front, back, rfl, hback⟩ := h
  exact ⟨l ++ front, back, by simp, hback⟩

/-- If something of the kind came later, so did the last one. -/
theorem IsLast.mem_of_append_cons (h : IsLast P a (l ++ b :: more)) (hb : P b) (hne : a ≠ b) :
    a ∈ more := by
  obtain ⟨front, back, heq, hback⟩ := h
  rcases List.append_eq_append_iff.mp heq with ⟨middle, rfl, hmiddle⟩ | ⟨middle, rfl, hmiddle⟩
  · cases middle with
    | nil =>
      cases hmiddle
      exact absurd rfl hne
    | cons x middle =>
      rw [List.cons_append, List.cons.injEq] at hmiddle
      obtain ⟨rfl, rfl⟩ := hmiddle
      simp
  · cases middle with
    | nil =>
      cases hmiddle
      exact absurd rfl hne
    | cons x middle =>
      rw [List.cons_append, List.cons.injEq] at hmiddle
      obtain ⟨rfl, rfl⟩ := hmiddle
      exact absurd hb (hback b (by simp))

theorem IsLast.unique (ha : P a) (hb : P b) (h : IsLast P a l) (h' : IsLast P b l) : a = b := by
  obtain ⟨front, back, rfl, hback⟩ := h
  by_contra hne
  exact hback b (h'.mem_of_append_cons ha (Ne.symm hne)) hb

/-- An event of a longer log is one of the log, or one that was added. -/
theorem split_append {front back : List α} (h : l ++ more = front ++ a :: back) :
    (∃ back', l = front ++ a :: back') ∨ ∃ front', front = l ++ front' ∧ more = front' ++ a :: back := by
  rcases List.append_eq_append_iff.mp h with ⟨middle, rfl, hmiddle⟩ | ⟨middle, rfl, hmiddle⟩
  · exact .inr ⟨middle, rfl, hmiddle⟩
  · cases middle with
    | nil => exact .inr ⟨[], by simp, hmiddle.symm⟩
    | cons x middle =>
      rw [List.cons_append, List.cons.injEq] at hmiddle
      obtain ⟨rfl, -⟩ := hmiddle
      exact .inl ⟨middle, rfl⟩

/-- Of events with different keys, each is the last with its key. -/
theorem isLast_map {f : β → α} {key : β → ℕ} {batch : List β} (hnodup : (batch.map key).Nodup)
    {x : β} (hx : x ∈ batch) (hP : ∀ y ∈ batch, P (f y) → key y = key x) :
    IsLast P (f x) (batch.map f) := by
  obtain ⟨front, back, rfl⟩ := List.append_of_mem hx
  refine ⟨front.map f, back.map f, by simp, ?_⟩
  intro y hy hPy
  obtain ⟨z, hz, rfl⟩ := List.mem_map.mp hy
  have hkey := hP z (by simp [hz]) hPy
  rw [List.map_append, List.nodup_append, List.map_cons, List.nodup_cons] at hnodup
  exact hnodup.2.1.1 (hkey ▸ List.mem_map_of_mem hz)

end Log
