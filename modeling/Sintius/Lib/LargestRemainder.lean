import Mathlib

/-! Apportionment by largest remainder. Items have exact quotas that sum to a whole
total; each gets the floor of its quota, and what is left goes, one unit each, to the
first in a strict order that puts larger fractions first. Places in that order are
counted, so that they do not depend on how the items are listed. -/

namespace LargestRemainder

variable {α : Type*}

section Rank

variable {before : α → α → Prop} [DecidableRel before] {l l' : List α} {a : α} {n : ℕ}

/-- How many of `l` come before `a`. -/
def rank (before : α → α → Prop) [DecidableRel before] (l : List α) (a : α) : ℕ :=
  l.countP fun b => decide (before b a)

theorem rank_perm (h : l.Perm l') (a : α) : rank before l a = rank before l' a := h.countP_eq _

/-- In a sorted list the rank is the place. -/
theorem rank_append_cons {first rest : List α} (hasymm : ∀ a b, before a b → ¬ before b a)
    (hs : (first ++ a :: rest).Pairwise before) :
    rank before (first ++ a :: rest) a = first.length := by
  obtain ⟨-, hrest, hfirst⟩ := List.pairwise_append.mp hs
  have hbefore : first.countP (fun b => decide (before b a)) = first.length :=
    List.countP_eq_length.mpr fun b hb => by simpa using hfirst b hb a List.mem_cons_self
  have hself : ¬ before a a := fun h => hasymm a a h h
  have hafter : rest.countP (fun b => decide (before b a)) = 0 :=
    List.countP_eq_zero.mpr fun b hb => by
      simpa using hasymm a b ((List.pairwise_cons.mp hrest).1 b hb)
  unfold rank
  rw [List.countP_append, hbefore, List.countP_cons, hafter]
  simp [hself]

/-- The first `n` of a sorted list are those with a rank below `n`. -/
theorem mem_take_iff_rank_lt (hasymm : ∀ a b, before a b → ¬ before b a)
    (hs : l.Pairwise before) (ha : a ∈ l) : a ∈ l.take n ↔ rank before l a < n := by
  obtain ⟨first, rest, rfl⟩ := List.append_of_mem ha
  rw [rank_append_cons hasymm hs]
  have hfirst := (List.pairwise_append.mp hs).2.2
  rcases lt_or_ge first.length n with hlt | hge
  · refine iff_of_true ?_ hlt
    rw [List.take_append]
    refine List.mem_append_right _ ?_
    obtain ⟨k, hk⟩ := Nat.exists_eq_succ_of_ne_zero (Nat.sub_ne_zero_of_lt hlt)
    rw [hk, List.take_succ_cons]
    exact List.mem_cons_self
  · refine iff_of_false (fun h => ?_) (not_lt.mpr hge)
    rw [List.take_append_of_le_length hge] at h
    have hself := hfirst a (List.mem_of_mem_take h) a List.mem_cons_self
    exact hasymm a a hself hself

/-- Below `n` there are `n` ranks. -/
theorem countP_rank_lt (hasymm : ∀ a b, before a b → ¬ before b a) (hs : l.Pairwise before)
    (hp : l.Perm l') (hn : n ≤ l'.length) :
    l'.countP (fun a => decide (rank before l' a < n)) = n := by
  have hrank : (fun a => decide (rank before l' a < n)) =
      fun a => decide (rank before l a < n) := by
    funext a
    rw [rank_perm hp]
  rw [hrank, ← hp.countP_eq]
  have hlow : (l.take n).countP (fun a => decide (rank before l a < n)) = (l.take n).length :=
    List.countP_eq_length.mpr fun a ha => by
      simpa using (mem_take_iff_rank_lt hasymm hs (List.mem_of_mem_take ha)).mp ha
  have hhigh : (l.drop n).countP (fun a => decide (rank before l a < n)) = 0 := by
    refine List.countP_eq_zero.mpr fun a ha => ?_
    have hsplit := hs
    rw [← List.take_append_drop n l] at hsplit
    have hbefore := (List.pairwise_append.mp hsplit).2.2
    rw [decide_eq_true_eq, ← mem_take_iff_rank_lt hasymm hs (List.mem_of_mem_drop ha)]
    intro htake
    exact hasymm a a (hbefore a htake a ha) (hbefore a htake a ha)
  rw [← List.take_append_drop n l, List.countP_append, List.take_append_drop, hlow, hhigh,
    List.length_take, hp.length_eq]
  omega

end Rank

section Quotas

variable {K : Type*} [Field K] [LinearOrder K] [IsStrictOrderedRing K] [FloorRing K]
variable (quota : α → K) (before : α → α → Prop) [DecidableRel before]

/-- What the floors leave of `total`. -/
def leftover (l : List α) (total : ℤ) : ℕ := (total - (l.map fun a => ⌊quota a⌋).sum).toNat

/-- The units of an item. -/
def share (l : List α) (total : ℤ) (a : α) : ℤ :=
  ⌊quota a⌋ + if rank before l a < leftover quota l total then 1 else 0

variable {quota before} {l l' : List α} {a : α} {total : ℤ}

theorem sum_fract (quota : α → K) (l : List α) :
    (l.map fun a => Int.fract (quota a)).sum =
      (l.map quota).sum - (((l.map fun a => ⌊quota a⌋).sum : ℤ) : K) := by
  induction l with
  | nil => simp
  | cons a l ih =>
    simp only [List.map_cons, List.sum_cons, ih, Int.cast_add]
    have := Int.self_sub_floor (quota a)
    linarith

theorem sum_fract_le (quota : α → K) (l : List α) :
    (l.map fun a => Int.fract (quota a)).sum ≤
      (l.countP fun a => decide (Int.fract (quota a) ≠ 0) : ℕ) := by
  induction l with
  | nil => simp
  | cons a l ih =>
    rw [List.map_cons, List.sum_cons, List.countP_cons]
    by_cases h : Int.fract (quota a) = 0
    · simpa [h] using ih
    · have hlt := (Int.fract_lt_one (quota a)).le
      simp only [ne_eq, h, not_false_eq_true, decide_true, if_true, Nat.cast_add, Nat.cast_one]
      linarith

/-- The floors leave as many units as the fractions make up. -/
theorem leftover_cast (hsum : (l.map quota).sum = total) :
    ((leftover quota l total : ℕ) : ℤ) = total - (l.map fun a => ⌊quota a⌋).sum := by
  refine Int.toNat_of_nonneg ?_
  have hfract := sum_fract quota l
  rw [hsum] at hfract
  have hnonneg : 0 ≤ (l.map fun a => Int.fract (quota a)).sum :=
    List.sum_nonneg fun x hx => by
      obtain ⟨a, -, rfl⟩ := List.mem_map.mp hx
      exact Int.fract_nonneg _
  rw [hfract] at hnonneg
  exact_mod_cast hnonneg

/-- Fewer units are left than there are broken quotas. -/
theorem leftover_le (hsum : (l.map quota).sum = total) :
    leftover quota l total ≤ l.countP fun a => decide (Int.fract (quota a) ≠ 0) := by
  have hle := sum_fract_le quota l
  rw [sum_fract, hsum] at hle
  have hcast := leftover_cast hsum
  have : ((leftover quota l total : ℕ) : ℤ) ≤
      (l.countP fun a => decide (Int.fract (quota a) ≠ 0) : ℕ) := by
    rw [hcast]
    exact_mod_cast hle
  exact_mod_cast this

/-- A whole quota is never rounded up. -/
theorem share_of_fract_eq_zero (hsum : (l.map quota).sum = total)
    (hbefore : ∀ a b, Int.fract (quota b) < Int.fract (quota a) → before a b)
    (ha : Int.fract (quota a) = 0) : share quota before l total a = ⌊quota a⌋ := by
  have hrank : (l.countP fun b => decide (Int.fract (quota b) ≠ 0)) ≤ rank before l a := by
    refine List.countP_mono_left fun b _ hb => ?_
    have hne : Int.fract (quota b) ≠ 0 := by simpa using hb
    refine decide_eq_true (hbefore b a ?_)
    rw [ha]
    exact lt_of_le_of_ne (Int.fract_nonneg _) hne.symm
  unfold share
  rw [if_neg (not_lt.mpr ((leftover_le hsum).trans hrank)), add_zero]

omit [IsStrictOrderedRing K] in
theorem share_perm (h : l.Perm l') (a : α) :
    share quota before l total a = share quota before l' total a := by
  unfold share leftover
  rw [rank_perm h, (h.map _).sum_eq]

omit [IsStrictOrderedRing K] in
/-- Items that correspond, with the same quotas and in the same order, have the same shares. -/
theorem share_eq_of_forall₂ {β : Type*} {R : α → β → Prop} {quota' : β → K}
    {before' : β → β → Prop} [DecidableRel before'] {m : List β} {b : β}
    (hquota : ∀ {a b}, R a b → quota a = quota' b)
    (hbefore : ∀ {a b a' b'}, R a b → R a' b' → (before a a' ↔ before' b b'))
    (hall : List.Forall₂ R l m) (h : R a b) :
    share quota before l total a = share quota' before' m total b := by
  have hrank : rank before l a = rank before' m b := by
    unfold rank
    induction hall with
    | nil => rfl
    | cons hhead _ ih => simp only [List.countP_cons, ih, hbefore hhead h]
  have hfloors : (l.map fun a => ⌊quota a⌋) = m.map fun b => ⌊quota' b⌋ := by
    clear hrank
    induction hall with
    | nil => rfl
    | cons hhead _ ih => simp only [List.map_cons, ih, hquota hhead]
  unfold share leftover
  rw [hrank, hfloors, hquota h]

theorem sum_indicator (p : α → Prop) [DecidablePred p] (f : α → ℤ) (l : List α) :
    (l.map fun a => f a + if p a then 1 else 0).sum =
      (l.map f).sum + (l.countP fun a => decide (p a) : ℕ) := by
  induction l with
  | nil => simp
  | cons a l ih =>
    rw [List.map_cons, List.sum_cons, ih, List.map_cons, List.sum_cons, List.countP_cons]
    by_cases h : p a
    · simp only [h, if_true, decide_true, Nat.cast_add, Nat.cast_one]
      omega
    · simp only [h, if_false, decide_false, Nat.cast_add]
      simp
      omega

/-- The shares sum to the total. -/
theorem sum_share (hsum : (l.map quota).sum = total)
    (hasymm : ∀ a b, before a b → ¬ before b a) (hs : l'.Pairwise before) (hp : l'.Perm l) :
    (l.map (share quota before l total)).sum = total := by
  have hlength : leftover quota l total ≤ l.length := (leftover_le hsum).trans List.countP_le_length
  have hcount := countP_rank_lt hasymm hs hp hlength
  have hsplit := sum_indicator (fun a => rank before l a < leftover quota l total)
    (fun a => ⌊quota a⌋) l
  unfold share
  rw [hsplit, hcount, leftover_cast hsum]
  omega

end Quotas

end LargestRemainder
