import Mathlib
import Sintius.Lib.NumberText
import Sintius.Lib.Regex
import Sintius.Lib.Utf16
import Sintius.Spec.Redaction

/-! Card numbers in a text. The pattern takes the longest run of 13 to 19 digits at a place
and goes on behind it, whether the run passes the Luhn check or not: a number is taken out
where it meets such a run that passes, and where neighbouring digits make the run longer it
can stay. -/

namespace Sintius.Redaction

open Js Regex

/-- `n` digits, with one separator at most between a digit and the next. -/
inductive CardDigits : ℕ → Text → Prop where
  | one {d : CodeUnit} (hd : isDigit d = true) : CardDigits 1 [d]
  | adjacent {n : ℕ} {d : CodeUnit} {s : Text} (hd : isDigit d = true) (hs : CardDigits n s) :
      CardDigits (n + 1) (d :: s)
  | separated {n : ℕ} {d x : CodeUnit} {s : Text} (hd : isDigit d = true)
      (hx : isSeparator x = true) (hs : CardDigits n s) : CardDigits (n + 1) (d :: x :: s)

section Digits

variable {n : ℕ} {m : Text}

theorem isSeparator_iff {c : CodeUnit} : isSeparator c = true ↔ c = 0x20 ∨ c = 0x2d := by
  simp [isSeparator, among, ascii]

theorem not_isSeparator {d : CodeUnit} (h : isDigit d = true) : isSeparator d = false := by
  rw [Bool.eq_false_iff]
  intro hsep
  rcases isSeparator_iff.mp hsep with rfl | rfl <;> exact absurd h (by decide)

theorem not_isDigit {x : CodeUnit} (h : isSeparator x = true) : isDigit x = false := by
  rw [Bool.eq_false_iff]
  intro hd
  rw [not_isSeparator hd] at h
  cases h

theorem CardDigits.exists_cons (h : CardDigits n m) : ∃ d s, m = d :: s ∧ isDigit d = true := by
  cases h with
  | one hd => exact ⟨_, _, rfl, hd⟩
  | adjacent hd => exact ⟨_, _, rfl, hd⟩
  | separated hd => exact ⟨_, _, rfl, hd⟩

theorem CardDigits.ne_nil (h : CardDigits n m) : m ≠ [] := by
  obtain ⟨d, s, rfl, -⟩ := h.exists_cons
  exact List.cons_ne_nil d s

/-- What a card number is written with. -/
theorem CardDigits.mem (h : CardDigits n m) {c : CodeUnit} (hc : c ∈ m) :
    isDigit c = true ∨ isSeparator c = true := by
  induction h with
  | one hd =>
    rw [List.mem_singleton.mp hc]
    exact .inl hd
  | adjacent hd _ ih =>
    rcases List.mem_cons.mp hc with rfl | hc
    · exact .inl hd
    · exact ih hc
  | separated hd hx _ ih =>
    rcases List.mem_cons.mp hc with rfl | hc
    · exact .inl hd
    · rcases List.mem_cons.mp hc with rfl | hc
      · exact .inr hx
      · exact ih hc

theorem CardDigits.length_digitsOf (h : CardDigits n m) : (digitsOf m).length = n := by
  unfold digitsOf
  induction h with
  | one hd => simp [not_isSeparator hd]
  | adjacent hd _ ih => simp [not_isSeparator hd, ih]
  | separated hd hx _ ih => simp [not_isSeparator hd, hx, ih]

end Digits

section Pattern

variable {c : Cursor CodeUnit} {n : ℕ}

/-- `n` digits, each with a separator after it or not. -/
inductive Groups : ℕ → Text → Prop where
  | nil : Groups 0 []
  | adjacent {n : ℕ} {d : CodeUnit} {s : Text} (hd : isDigit d = true) (hs : Groups n s) :
      Groups (n + 1) (d :: s)
  | separated {n : ℕ} {d x : CodeUnit} {s : Text} (hd : isDigit d = true)
      (hx : isSeparator x = true) (hs : Groups n s) : Groups (n + 1) (d :: x :: s)

theorem Groups.append {k : ℕ} {s t : Text} (h : Groups n s) (h' : Groups k t) :
    Groups (n + k) (s ++ t) := by
  induction h with
  | nil => simpa using h'
  | adjacent hd _ ih =>
    rw [Nat.succ_add]
    exact .adjacent hd ih
  | separated hd hx _ ih =>
    rw [Nat.succ_add]
    exact .separated hd hx ih

theorem Groups.exists_append {k : ℕ} {s : Text} (h : Groups (n + k) s) :
    ∃ t t', s = t ++ t' ∧ Groups n t ∧ Groups k t' := by
  induction n generalizing s with
  | zero => exact ⟨[], s, rfl, .nil, by simpa using h⟩
  | succ n ih =>
    rw [Nat.succ_add] at h
    cases h with
    | adjacent hd hs =>
      obtain ⟨t, t', rfl, ht, ht'⟩ := ih hs
      exact ⟨_ :: t, t', rfl, .adjacent hd ht, ht'⟩
    | separated hd hx hs =>
      obtain ⟨t, t', rfl, ht, ht'⟩ := ih hs
      exact ⟨_ :: _ :: t, t', rfl, .separated hd hx ht, ht'⟩

theorem cardDigits_iff {m : Text} :
    CardDigits (n + 1) m ↔ ∃ s d, m = s ++ [d] ∧ Groups n s ∧ isDigit d = true := by
  constructor
  · intro h
    induction n generalizing m with
    | zero =>
      cases h with
      | one hd => exact ⟨[], _, rfl, .nil, hd⟩
      | adjacent _ hs => cases hs
      | separated _ _ hs => cases hs
    | succ n ih =>
      cases h with
      | adjacent hd hs =>
        obtain ⟨s, d, rfl, hs, hlast⟩ := ih hs
        exact ⟨_ :: s, d, rfl, .adjacent hd hs, hlast⟩
      | separated hd hx hs =>
        obtain ⟨s, d, rfl, hs, hlast⟩ := ih hs
        exact ⟨_ :: _ :: s, d, rfl, .separated hd hx hs, hlast⟩
  · rintro ⟨s, d, rfl, hs, hlast⟩
    induction hs with
    | nil => exact .one hlast
    | adjacent hd _ ih => exact .adjacent hd ih
    | separated hd hx _ ih => exact .separated hd hx ih

theorem matches_digitAndSeparator {m : Text} :
    Matches digitAndSeparator c m ↔ m <+: c.rest ∧ Groups 1 m := by
  unfold digitAndSeparator opt
  simp only [matches_bind, matches_unit, matches_orElse, matches_pure]
  constructor
  · rintro ⟨s, t, rfl, ⟨hs, d, rfl, hd⟩, ⟨ht, x, rfl, hx⟩ | rfl⟩
    · exact ⟨append_isPrefix_iff.mpr ⟨hs, ht⟩, .separated hd hx .nil⟩
    · exact ⟨by simpa using hs, .adjacent hd .nil⟩
  · rintro ⟨hm, hgroups⟩
    cases hgroups with
    | adjacent hd hs =>
      cases hs
      exact ⟨_, [], rfl, ⟨hm, _, rfl, hd⟩, .inr rfl⟩
    | @separated _ d x _ hd hx hs =>
      cases hs
      obtain ⟨hs, ht⟩ := append_isPrefix_iff (s := [d]) (t := [x]).mp hm
      exact ⟨_, _, rfl, ⟨hs, _, rfl, hd⟩, .inl ⟨ht, _, rfl, hx⟩⟩

theorem matches_times {m : Text} :
    Matches (times digitAndSeparator n) c m ↔ m <+: c.rest ∧ Groups n m := by
  induction n generalizing c m with
  | zero =>
    rw [times, matches_pure]
    constructor
    · rintro rfl
      exact ⟨List.nil_prefix, .nil⟩
    · rintro ⟨-, h⟩
      cases h
      rfl
  | succ n ih =>
    rw [times, matches_bind]
    simp only [matches_digitAndSeparator, ih]
    constructor
    · rintro ⟨s, t, rfl, ⟨hs, hgroup⟩, ht, hgroups⟩
      exact ⟨append_isPrefix_iff.mpr ⟨hs, ht⟩, Nat.add_comm 1 n ▸ hgroup.append hgroups⟩
    · rintro ⟨hm, hgroups⟩
      obtain ⟨s, t, rfl, hs, ht⟩ := Groups.exists_append (n := 1) (Nat.add_comm 1 n ▸ hgroups)
      obtain ⟨hm, hm'⟩ := append_isPrefix_iff.mp hm
      exact ⟨s, t, rfl, ⟨hm, hs⟩, hm', ht⟩

theorem matches_upTo {m : Text} : Matches (upTo digitAndSeparator n) c m ↔
    m <+: c.rest ∧ ∃ k ≤ n, Groups k m := by
  induction n generalizing c m with
  | zero =>
    rw [upTo, matches_pure]
    constructor
    · rintro rfl
      exact ⟨List.nil_prefix, 0, le_rfl, .nil⟩
    · rintro ⟨-, k, hk, h⟩
      obtain rfl := Nat.le_zero.mp hk
      cases h
      rfl
  | succ n ih =>
    rw [upTo, matches_orElse, matches_bind, matches_pure]
    simp only [matches_digitAndSeparator, ih]
    constructor
    · rintro (⟨s, t, rfl, ⟨hs, hgroup⟩, ht, k, hk, hgroups⟩ | rfl)
      · exact ⟨append_isPrefix_iff.mpr ⟨hs, ht⟩, 1 + k, by omega, hgroup.append hgroups⟩
      · exact ⟨List.nil_prefix, 0, Nat.zero_le _, .nil⟩
    · rintro ⟨hm, k, hk, hgroups⟩
      cases k with
      | zero =>
        cases hgroups
        exact .inr rfl
      | succ k =>
        obtain ⟨s, t, rfl, hs, ht⟩ := Groups.exists_append (n := 1) (Nat.add_comm 1 k ▸ hgroups)
        obtain ⟨hm, hm'⟩ := append_isPrefix_iff.mp hm
        exact .inl ⟨s, t, rfl, ⟨hm, hs⟩, hm', k, by omega, ht⟩

/-- A card number at a place: 13 to 19 digits between word boundaries. -/
structure CardAt (before : Option CodeUnit) (m rest : Text) : Prop where
  digits : ∃ n, 13 ≤ n ∧ n ≤ 19 ∧ CardDigits n m
  start : before.any isWord = false
  stop : rest.head?.any isWord = false

theorem isWord_of_isDigit {d : CodeUnit} (h : isDigit d = true) : isWord d = true := by
  simp [isWord, h]

/-- The last digit, and the boundary behind it. -/
def lastDigit : Regex CodeUnit Unit := do
  unit isDigit
  boundary isWord

theorem matches_lastDigit {m : Text} : Matches lastDigit c m ↔
    m <+: c.rest ∧ (∃ d, m = [d] ∧ isDigit d = true) ∧
      (c.after m).rest.head?.any isWord = false := by
  unfold lastDigit
  simp only [matches_bind, matches_unit, matches_boundary]
  constructor
  · rintro ⟨s, t, rfl, ⟨hs, d, rfl, hd⟩, rfl, hboundary⟩
    refine ⟨by simpa using hs, ⟨d, rfl, hd⟩, ?_⟩
    rw [List.append_nil]
    simpa [Cursor.after, isWord_of_isDigit hd] using hboundary
  · rintro ⟨hm, ⟨d, rfl, hd⟩, hstop⟩
    refine ⟨[d], [], rfl, ⟨hm, d, rfl, hd⟩, rfl, ?_⟩
    rw [hstop]
    simp [Cursor.after, isWord_of_isDigit hd]

theorem cardPattern_eq : cardPattern = boundary isWord >>= fun _ =>
    between 12 18 digitAndSeparator >>= fun _ => lastDigit := rfl

/-- The pattern matches card numbers. -/
theorem matches_cardPattern {m : Text} :
    Matches cardPattern c m ↔ ∃ rest, c.rest = m ++ rest ∧ CardAt c.before m rest := by
  rw [cardPattern_eq]
  unfold between
  simp only [matches_bind, matches_boundary, matches_times, matches_upTo, matches_lastDigit]
  constructor
  · rintro ⟨_, _, rfl, ⟨rfl, hstart⟩, _, t, rfl, ⟨s, s', rfl, ⟨hs, hgroups⟩, hs', k, hk, hgroups'⟩,
      ht, ⟨d, rfl, hd⟩, hstop⟩
    rw [Cursor.after_nil] at hs hs' ht hstop
    rw [Cursor.after_after] at hstop
    have hpre : s ++ s' ++ [d] <+: c.rest :=
      append_isPrefix_iff.mpr ⟨append_isPrefix_iff.mpr ⟨hs, hs'⟩, ht⟩
    obtain ⟨rest, hrest⟩ := hpre
    have hcard : CardDigits (12 + k + 1) (s ++ s' ++ [d]) :=
      cardDigits_iff.mpr ⟨_, d, rfl, hgroups.append hgroups', hd⟩
    refine ⟨rest, by simpa using hrest.symm, ⟨12 + k + 1, by omega, by omega, hcard⟩, ?_, ?_⟩
    · obtain ⟨e, m, hm, he⟩ := hcard.exists_cons
      rw [← hrest, hm] at hstart
      simpa [isWord_of_isDigit he] using hstart
    · simpa [Cursor.after, ← hrest] using hstop
  · rintro ⟨rest, hrest, ⟨n, hlow, hhigh, hcard⟩, hstart, hstop⟩
    obtain ⟨e, m', hm, he⟩ := hcard.exists_cons
    obtain ⟨k, rfl⟩ : ∃ k, n = 12 + k + 1 := ⟨n - 13, by omega⟩
    obtain ⟨s, d, rfl, hgroups, hd⟩ := cardDigits_iff.mp hcard
    obtain ⟨s, s', rfl, hs, hs'⟩ := hgroups.exists_append
    have hpre : s ++ s' ++ [d] <+: c.rest := ⟨rest, hrest.symm⟩
    obtain ⟨hgroup, hlast⟩ := append_isPrefix_iff.mp hpre
    obtain ⟨hfirst, hsecond⟩ := append_isPrefix_iff.mp hgroup
    refine ⟨[], _, rfl, ⟨rfl, ?_⟩, s ++ s', [d], rfl, ⟨s, s', rfl, ⟨hfirst, hs⟩, hsecond, k,
      by omega, hs'⟩, hlast, ⟨d, rfl, hd⟩, ?_⟩
    · rw [hstart, hrest, hm]
      simp [isWord_of_isDigit he]
    · rw [Cursor.after_nil, Cursor.after_after]
      simpa [Cursor.after, hrest] using hstop

theorem cardAt_iff {before : Option CodeUnit} {m rest : Text} :
    CardAt before m rest ↔ ((), m) ∈ cardPattern.run ⟨before, m ++ rest⟩ := by
  constructor
  · intro h
    obtain ⟨a, ha⟩ : Matches cardPattern ⟨before, m ++ rest⟩ m :=
      matches_cardPattern.mpr ⟨rest, rfl, h⟩
    exact ha
  · intro h
    obtain ⟨rest', hrest, hcard⟩ := matches_cardPattern.mp ⟨(), h⟩
    rwa [List.append_cancel_left hrest]

instance (before : Option CodeUnit) (m rest : Text) : Decidable (CardAt before m rest) :=
  decidable_of_iff _ cardAt_iff.symm

end Pattern

section Greedy

variable {c : Cursor CodeUnit} {p : Regex CodeUnit Unit} {n : ℕ}

/-- What is tried first is the longest. -/
def Greedy (p : Regex CodeUnit Unit) : Prop :=
  ∀ c, (p.run c).Pairwise fun r r' => r'.2.length ≤ r.2.length

/-- The expression matches only where a digit comes next. -/
def NeedsDigit (p : Regex CodeUnit Unit) : Prop :=
  ∀ c m, Matches p c m → ∃ d m', m = d :: m' ∧ isDigit d = true

theorem run_eq_nil (h : NeedsDigit p) (hrest : c.rest.head?.any isDigit = false) :
    p.run c = [] := by
  refine List.eq_nil_iff_forall_not_mem.mpr fun r hr => ?_
  obtain ⟨d, m, hm, hd⟩ := h c r.2 ⟨r.1, hr⟩
  obtain ⟨rest, hrest'⟩ := p.consumes c r hr
  rw [← hrest', hm] at hrest
  simp [hd] at hrest

theorem needsDigit_lastDigit : NeedsDigit lastDigit := by
  intro c m h
  obtain ⟨-, ⟨d, rfl, hd⟩, -⟩ := matches_lastDigit.mp h
  exact ⟨d, [], rfl, hd⟩

theorem NeedsDigit.digitAndSeparator : NeedsDigit (digitAndSeparator >>= fun _ => p) := by
  intro c m h
  obtain ⟨s, t, rfl, hs, -⟩ := matches_bind.mp h
  obtain ⟨-, hgroup⟩ := matches_digitAndSeparator.mp hs
  cases hgroup with
  | adjacent hd => exact ⟨_, _, rfl, hd⟩
  | separated hd => exact ⟨_, _, rfl, hd⟩

/-- A separator behind a digit is taken with it: without it no digit comes next. -/
theorem exists_run_digitAndSeparator (hp : NeedsDigit p) (c : Cursor CodeUnit) :
    (digitAndSeparator >>= fun _ => p).run c = [] ∨
      ∃ s, (digitAndSeparator >>= fun _ => p).run c =
        (p.run (c.after s)).map fun r => ((), s ++ r.2) := by
  have hrun : (digitAndSeparator >>= fun _ => p).run c = ((unit isDigit).run c).flatMap fun r =>
      ((opt (unit isSeparator) >>= fun _ => p).run (c.after r.2)).map fun s =>
        ((), r.2 ++ s.2) := by
    unfold digitAndSeparator
    rw [bind_assoc, run_bind]
  obtain ⟨before, rest⟩ := c
  rw [hrun]
  cases rest with
  | nil => exact .inl rfl
  | cons d rest =>
    by_cases hd : isDigit d = true
    · right
      have hunit : (unit isDigit).run ⟨before, d :: rest⟩ = [((), [d])] := if_pos hd
      have hpure : (pure () >>= fun _ => p) = p := pure_bind () _
      simp only [hunit, List.flatMap_singleton, opt, run_orElse_bind, hpure]
      by_cases hsep : ∃ x rest', rest = x :: rest' ∧ isSeparator x = true
      · obtain ⟨x, rest', rfl, hx⟩ := hsep
        have hskip : p.run (Cursor.after ⟨before, d :: x :: rest'⟩ [d]) = [] :=
          run_eq_nil hp (by simp [Cursor.after, not_isDigit hx])
        have htake : (unit isSeparator).run (Cursor.after ⟨before, d :: x :: rest'⟩ [d]) =
            [((), [x])] := if_pos hx
        refine ⟨[d, x], ?_⟩
        rw [hskip, List.append_nil, run_bind, htake, List.flatMap_singleton, Cursor.after_after,
          List.map_map]
        rfl
      · have hnone : (unit isSeparator).run (Cursor.after ⟨before, d :: rest⟩ [d]) = [] := by
          refine List.eq_nil_iff_forall_not_mem.mpr fun r hr => ?_
          obtain ⟨x, rest', hrest, hx, -⟩ := mem_run_unit.mp hr
          exact hsep ⟨x, rest', hrest, hx⟩
        exact ⟨[d], by rw [run_bind, hnone]; rfl⟩
    · left
      have hunit : (unit isDigit).run ⟨before, d :: rest⟩ = [] := if_neg hd
      rw [hunit]
      rfl

theorem pairwise_map_append {rs : List (Unit × Text)}
    (h : rs.Pairwise fun r r' => r'.2.length ≤ r.2.length) (s : Text) :
    (rs.map fun r => ((), s ++ r.2)).Pairwise fun r r' => r'.2.length ≤ r.2.length := by
  rw [List.pairwise_map]
  exact h.imp fun hle => by simpa using hle

theorem Greedy.digitAndSeparator (h : Greedy p) (hp : NeedsDigit p) :
    Greedy (digitAndSeparator >>= fun _ => p) := by
  intro c
  obtain hnil | ⟨s, hs⟩ := exists_run_digitAndSeparator hp c
  · rw [hnil]
    exact .nil
  · rw [hs]
    exact pairwise_map_append (h _) s

theorem greedy_times (h : Greedy p) (hp : NeedsDigit p) :
    Greedy (times digitAndSeparator n >>= fun _ => p) ∧
      NeedsDigit (times digitAndSeparator n >>= fun _ => p) := by
  induction n with
  | zero =>
    rw [times, pure_bind]
    exact ⟨h, hp⟩
  | succ n ih =>
    rw [times, bind_assoc]
    exact ⟨ih.1.digitAndSeparator ih.2, .digitAndSeparator⟩

theorem greedy_lastDigit : Greedy lastDigit := by
  intro c
  have hlength : ∀ r ∈ lastDigit.run c, r.2.length = 1 := by
    intro r hr
    obtain ⟨-, ⟨d, hd, -⟩, -⟩ := matches_lastDigit.mp ⟨r.1, hr⟩
    rw [hd]
    rfl
  exact List.pairwise_of_forall_mem_list fun r hr r' hr' => by rw [hlength r hr, hlength r' hr']

theorem greedy_upTo : Greedy (upTo digitAndSeparator n >>= fun _ => lastDigit) ∧
    NeedsDigit (upTo digitAndSeparator n >>= fun _ => lastDigit) := by
  induction n with
  | zero =>
    rw [upTo, pure_bind]
    exact ⟨greedy_lastDigit, needsDigit_lastDigit⟩
  | succ n ih =>
    have hrun : ∀ c, (upTo digitAndSeparator (n + 1) >>= fun _ => lastDigit).run c =
        (digitAndSeparator >>= fun _ => upTo digitAndSeparator n >>= fun _ => lastDigit).run c ++
          lastDigit.run c := by
      intro c
      rw [upTo, run_orElse_bind, bind_assoc, pure_bind]
    refine ⟨fun c => ?_, fun c m h => ?_⟩
    · rw [hrun]
      refine List.pairwise_append.mpr ⟨ih.1.digitAndSeparator ih.2 c, greedy_lastDigit c, ?_⟩
      -- one digit is shorter than what begins with a digit and goes on with another
      intro r hr r' hr'
      obtain ⟨s, t, hst, -, ht⟩ := matches_bind.mp ⟨r.1, hr⟩
      obtain ⟨d, t', rfl, -⟩ := ih.2 _ _ ht
      obtain ⟨-, ⟨d', hd', -⟩, -⟩ := matches_lastDigit.mp ⟨r'.1, hr'⟩
      rw [hst, hd']
      simp only [List.length_append, List.length_cons, List.length_nil]
      omega
    · obtain ⟨a, ha⟩ := h
      rw [hrun] at ha
      rcases List.mem_append.mp ha with ha | ha
      · exact NeedsDigit.digitAndSeparator c m ⟨a, ha⟩
      · exact needsDigit_lastDigit c m ⟨a, ha⟩

theorem greedy_cardPattern : Greedy cardPattern := by
  intro c
  have hrest : Greedy (between 12 18 digitAndSeparator >>= fun _ => lastDigit) := by
    unfold between
    rw [bind_assoc]
    exact (greedy_times greedy_upTo.1 greedy_upTo.2).1
  rw [cardPattern_eq, run_bind, run_boundary]
  split_ifs
  · exact .nil
  · simpa using hrest c

end Greedy

section Reading

variable {c : Cursor CodeUnit} {before : Option CodeUnit} {text : Text}
  {pieces : List (Piece CodeUnit Unit)} {n : ℕ}

/-- The longest card number at a place. -/
structure LongestCard (before : Option CodeUnit) (m rest : Text) : Prop where
  card : CardAt before m rest
  longest : ∀ m' rest', m' ++ rest' = m ++ rest → CardAt before m' rest' → m'.length ≤ m.length

theorem CardAt.ne_nil {m rest : Text} (h : CardAt before m rest) : m ≠ [] := by
  obtain ⟨n, -, -, hn⟩ := h.digits
  exact hn.ne_nil

/-- A text read from left to right: at each place the longest card number is one piece, and
the reading goes on behind it; a character at which none starts is a piece by itself. -/
inductive Reads : Option CodeUnit → Text → List (Piece CodeUnit Unit) → Prop where
  | done {before : Option CodeUnit} : Reads before [] []
  | plain {before : Option CodeUnit} {x : CodeUnit} {text : Text}
      {pieces : List (Piece CodeUnit Unit)}
      (hnone : ∀ m rest, m ++ rest = x :: text → ¬CardAt before m rest)
      (h : Reads (some x) text pieces) : Reads before (x :: text) (.plain x :: pieces)
  | card {before : Option CodeUnit} {m rest : Text} {pieces : List (Piece CodeUnit Unit)}
      (hm : LongestCard before m rest) (h : Reads m.getLast? rest pieces) :
      Reads before (m ++ rest) (.found () m :: pieces)

theorem LongestCard.unique {m rest m' rest' : Text} (h : LongestCard before m rest)
    (h' : LongestCard before m' rest') (heq : m ++ rest = m' ++ rest') :
    m = m' ∧ rest = rest' :=
  List.append_inj heq (le_antisymm (h'.longest m rest heq h.card) (h.longest m' rest' heq.symm h'.card))

/-- A text has one reading only. -/
theorem Reads.unique {pieces' : List (Piece CodeUnit Unit)} (h : Reads before text pieces)
    (h' : Reads before text pieces') : pieces = pieces' := by
  induction h generalizing pieces' with
  | done =>
    generalize ht : ([] : Text) = t at h'
    cases h' with
    | done => rfl
    | plain => cases ht
    | card hm => exact absurd (List.append_eq_nil_iff.mp ht.symm).1 hm.card.ne_nil
  | @plain before x text pieces hnone h ih =>
    generalize ht : x :: text = t at h'
    cases h' with
    | done => cases ht
    | plain _ h' =>
      cases ht
      rw [ih h']
    | card hm => exact absurd hm.card (hnone _ _ ht.symm)
  | @card before m rest pieces hm h ih =>
    generalize ht : m ++ rest = t at h'
    cases h' with
    | done => exact absurd (List.append_eq_nil_iff.mp ht).1 hm.card.ne_nil
    | plain hnone => exact absurd hm.card (hnone _ _ ht)
    | card hm' h' =>
      obtain ⟨rfl, rfl⟩ := hm.unique hm' ht
      rw [ih h']

theorem not_cardAt (h : cardPattern.run c = []) {m rest : Text} (hrest : m ++ rest = c.rest) :
    ¬CardAt c.before m rest := by
  intro hcard
  obtain ⟨a, ha⟩ := matches_cardPattern.mpr ⟨rest, hrest.symm, hcard⟩
  rw [h] at ha
  cases ha

/-- The first match is the longest card number. -/
theorem exists_longestCard {m : Text} {rs : List (Unit × Text)}
    (h : cardPattern.run c = ((), m) :: rs) :
    ∃ rest, c.rest = m ++ rest ∧ LongestCard c.before m rest := by
  obtain ⟨rest, hrest, hcard⟩ := matches_cardPattern.mp ⟨(), by rw [h]; exact List.mem_cons_self⟩
  refine ⟨rest, hrest, hcard, ?_⟩
  intro m' rest' heq hcard'
  obtain ⟨a, ha⟩ := matches_cardPattern.mpr ⟨rest', by rw [hrest, heq], hcard'⟩
  have hgreedy := greedy_cardPattern c
  rw [h] at hgreedy ha
  rcases List.mem_cons.mp ha with heq' | hmem
  · cases heq'
    exact le_rfl
  · exact List.rel_of_pairwise_cons hgreedy hmem

theorem reads_scanAt (h : c.rest.length < n) :
    Reads c.before c.rest (scanAt cardPattern n c) := by
  induction n generalizing c with
  | zero => omega
  | succ n ih =>
    unfold scanAt
    split
    · rename_i hrun
      obtain ⟨before, rest⟩ := c
      cases rest with
      | nil => exact .done
      | cons x rest =>
        exact .plain (fun m t ht => not_cardAt hrun ht)
          (ih (c := Cursor.after ⟨before, x :: rest⟩ [x])
            (by simpa [Cursor.after] using Nat.lt_of_succ_lt_succ h))
    · rename_i hrun
      obtain ⟨rest, -, hlongest⟩ := exists_longestCard hrun
      exact absurd rfl hlongest.card.ne_nil
    · rename_i a x m rs hrun
      obtain ⟨rest, hrest, hlongest⟩ := exists_longestCard hrun
      have hlt := length_after_lt hrest
      have hnext := ih (c := c.after (x :: m)) (by omega)
      rw [hrest]
      refine .card hlongest ?_
      have hbefore : (c.after (x :: m)).before = (x :: m).getLast? := by
        simp [Cursor.after, List.getLast?_cons]
      have hafter : (c.after (x :: m)).rest = rest := by simp [Cursor.after, hrest]
      rw [hbefore, hafter] at hnext
      exact hnext

theorem reads_iff : Reads none text pieces ↔ pieces = scan cardPattern text := by
  have hscan : Reads none text (scan cardPattern text) :=
    reads_scanAt (c := ⟨none, text⟩) (Nat.lt_succ_self _)
  refine ⟨fun h => h.unique hscan, ?_⟩
  rintro rfl
  exact hscan

theorem Reads.digits (h : Reads before text pieces) {m : Text}
    (hm : .found () m ∈ pieces) : ∃ n, 13 ≤ n ∧ n ≤ 19 ∧ CardDigits n m := by
  induction h with
  | done => cases hm
  | plain _ _ ih =>
    rcases List.mem_cons.mp hm with heq | hmem
    · cases heq
    · exact ih hmem
  | card hlongest _ ih =>
    rcases List.mem_cons.mp hm with heq | hmem
    · cases heq
      exact hlongest.card.digits
    · exact ih hmem

end Reading

section Redacted

variable {pieces : List (Piece CodeUnit Unit)} {before : Option CodeUnit} {text p : Text} {n : ℕ}

/-- A piece whose digits, taken together, pass the Luhn check. -/
def passes : Piece CodeUnit Unit → Bool
  | .plain _ => false
  | .found _ m => passesLuhn (digitsOf m)

/-- The length of `[REDACTED_PAN]` for a piece that passes, else its own. -/
def lengthAfter (piece : Piece CodeUnit Unit) : ℕ :=
  if passes piece then 14 else piece.source.length

/-- Wherever the pieces of the reading contain `p`, one of them passes the Luhn check, or `p`
ends behind the first 2000 characters, a piece that passes counted as 14. -/
def Covered (p text : Text) : Prop :=
  ∀ pieces before run after x y, Reads none text pieces → pieces = before ++ run ++ after →
    run.flatMap Piece.source = x ++ p ++ y →
      (∃ piece ∈ run, passes piece = true) ∨
        MAX_EVIDENCE_LENGTH < (before.map lengthAfter).sum + x.length + p.length

/-- What is left of a piece. -/
def written : Piece CodeUnit Unit → Text
  | .plain x => [x]
  | .found a m => redactCard a m

theorem replaceAll_cardPattern :
    replaceAll cardPattern redactCard text = (scan cardPattern text).flatMap written := by
  unfold replaceAll
  congr 1
  funext piece
  cases piece <;> rfl

theorem Reads.written_eq (h : Reads before text pieces) {piece : Piece CodeUnit Unit}
    (hp : piece ∈ pieces) :
    written piece = if passes piece then ascii "[REDACTED_PAN]" else piece.source := by
  cases piece with
  | plain x => rfl
  | found a m =>
    obtain ⟨n, hlow, hhigh, hn⟩ := h.digits hp
    have hcard : isCardNumber m = passesLuhn (digitsOf m) := by
      simp [isCardNumber, hn.length_digitsOf, hlow, hhigh]
    rw [written, redactCard, hcard]
    rfl

theorem Reads.length_written (h : Reads before text pieces) {piece : Piece CodeUnit Unit}
    (hp : piece ∈ pieces) : (written piece).length = lengthAfter piece := by
  rw [h.written_eq hp, lengthAfter]
  split_ifs <;> rfl

theorem CardDigits.not_mem_ascii (h : CardDigits n p) {c : CodeUnit} (hc : c ∈ p) :
    c ∉ ascii "[REDACTED_PAN]" ∧ c ∉ ascii "...[truncated]" := by
  have hnone : ∀ c ∈ ascii "[REDACTED_PAN]" ++ ascii "...[truncated]",
      isDigit c = false ∧ isSeparator c = false := by
    simp [ascii, isDigit, isSeparator, among]
  rw [← not_or, ← List.mem_append]
  intro hmem
  obtain ⟨hd, hsep⟩ := hnone c hmem
  rcases h.mem hc with h | h
  · exact absurd h (by simp [hd])
  · exact absurd h (by simp [hsep])

/-- A number does not reach into a text that shares no character with it. -/
theorem append_isPrefix_of_disjoint {a b s t : Text} (hp : p ≠ []) (hnone : ∀ c ∈ p, c ∉ t)
    (h : a ++ p ++ b = s ++ t) : a ++ p <+: s := by
  rcases List.append_eq_append_iff.mp h with ⟨y, hy, -⟩ | ⟨y, hy, ht⟩
  · exact ⟨y, hy.symm⟩
  · rcases List.eq_nil_or_concat' y with rfl | ⟨y, c, rfl⟩
    · exact ⟨[], by rw [hy, List.append_nil, List.append_nil]⟩
    · obtain ⟨q, d, rfl⟩ := (List.eq_nil_or_concat' p).resolve_left hp
      rw [← List.append_assoc, ← List.append_assoc] at hy
      obtain ⟨-, hlast⟩ := List.append_inj' hy rfl
      cases hlast
      exact absurd (by rw [ht]; simp) (hnone c (by simp))

/-- Truncation leaves what ends within the first 2000 characters. -/
theorem isInfix_truncate_iff (hp : p ≠ []) (hnone : ∀ c ∈ p, c ∉ ascii "...[truncated]") :
    p <:+: truncate text ↔
      ∃ a b, text = a ++ p ++ b ∧ a.length + p.length ≤ MAX_EVIDENCE_LENGTH := by
  unfold truncate
  split_ifs with hlong
  · constructor
    · rintro ⟨a, b, hab⟩
      have htake := append_isPrefix_of_disjoint hp hnone hab
      obtain ⟨rest, hrest⟩ := htake.trans (List.take_prefix _ _)
      refine ⟨a, rest, hrest.symm, ?_⟩
      have hlength := htake.length_le
      simp only [List.length_take, List.length_append] at hlength
      omega
    · rintro ⟨a, b, rfl, hle⟩
      have hpre : a ++ p <+: (a ++ p ++ b).take MAX_EVIDENCE_LENGTH := by
        rw [List.prefix_take_iff]
        exact ⟨List.prefix_append _ _, by simpa using hle⟩
      obtain ⟨y, hy⟩ := hpre
      exact ⟨a, y ++ ascii "...[truncated]", by rw [← List.append_assoc, hy]⟩
  · constructor
    · rintro ⟨a, b, rfl⟩
      refine ⟨a, b, rfl, ?_⟩
      simp only [List.length_append] at hlong
      omega
    · rintro ⟨a, b, rfl, -⟩
      exact ⟨a, b, rfl⟩

/-- A valid card number between word boundaries in a text that is not too long and in which
no other rule matches. -/
@[mk_iff]
structure CardIn (u p v : Text) : Prop where
  card : CardAt u.getLast? p v
  luhn : passesLuhn (digitsOf p) = true
  short : (u ++ p ++ v).length ≤ MAX_EVIDENCE_LENGTH
  secret : Absent secretPattern (u ++ p ++ v)
  bearer : Absent bearerPattern (u ++ p ++ v)
  jwt : Absent jwtPattern (u ++ p ++ v)
  key : Absent keyPattern (u ++ p ++ v)

instance (u p v : Text) : Decidable (CardIn u p v) := decidable_of_iff _ (cardIn_iff u p v).symm

theorem CardIn.redactSensitiveText_eq {u v : Text} (h : CardIn u p v) :
    redactSensitiveText (u ++ p ++ v) =
      truncate ((scan cardPattern (u ++ p ++ v)).flatMap written) := by
  unfold redactSensitiveText
  simp only [replaceAll_absent h.secret, replaceAll_absent h.bearer, replaceAll_absent h.jwt,
    replaceAll_absent h.key, replaceAll_cardPattern]

theorem Reads.flatMap_written (h : Reads before text pieces) {run : List (Piece CodeUnit Unit)}
    (hrun : ∀ piece ∈ run, piece ∈ pieces ∧ passes piece = false) :
    run.flatMap written = run.flatMap Piece.source := by
  refine List.flatMap_congr fun piece hpiece => ?_
  obtain ⟨hmem, hpass⟩ := hrun piece hpiece
  rw [h.written_eq hmem, hpass]
  rfl

theorem Reads.length_flatMap_written (h : Reads before text pieces)
    {front : List (Piece CodeUnit Unit)} (hfront : ∀ piece ∈ front, piece ∈ pieces) :
    (front.flatMap written).length = (front.map lengthAfter).sum := by
  rw [List.length_flatMap]
  congr 1
  exact List.map_congr_left fun piece hpiece => h.length_written (hfront piece hpiece)

/-- A card number is removed if and only if it is covered. -/
theorem card_number_removed_iff {u v : Text} (h : CardIn u p v) :
    ¬p <:+: redactSensitiveText (u ++ p ++ v) ↔ Covered p (u ++ p ++ v) := by
  obtain ⟨n, -, -, hn⟩ := h.card.digits
  rw [h.redactSensitiveText_eq,
    isInfix_truncate_iff hn.ne_nil fun c hc => (hn.not_mem_ascii hc).2]
  constructor
  · intro hremoved pieces front run after x y hreads hpieces hrun
    by_contra hnone
    rw [not_or, not_exists, not_lt] at hnone
    obtain ⟨hkept, hle⟩ := hnone
    have hwritten : run.flatMap written = x ++ p ++ y := by
      rw [hreads.flatMap_written, hrun]
      intro piece hpiece
      exact ⟨by rw [hpieces]; simp [hpiece],
        Bool.eq_false_iff.mpr fun hpass => hkept piece ⟨hpiece, hpass⟩⟩
    have hlength : (front.flatMap written).length = (front.map lengthAfter).sum :=
      hreads.length_flatMap_written fun piece hpiece => by rw [hpieces]; simp [hpiece]
    refine hremoved ⟨front.flatMap written ++ x, y ++ after.flatMap written, ?_, ?_⟩
    · rw [← reads_iff.mp hreads, hpieces, List.flatMap_append, List.flatMap_append, hwritten]
      simp only [List.append_assoc]
    · rw [List.length_append, hlength]
      exact hle
  · rintro hcovered ⟨a, b, hab, hle⟩
    have hlost : ∀ piece, ¬written piece ≠ ascii "[REDACTED_PAN]" →
        written piece ≠ [] ∧ ∀ c ∈ p, c ∉ written piece := by
      intro piece hpiece
      rw [not_not.mp hpiece]
      exact ⟨by decide, fun c hc => (hn.not_mem_ascii hc).1⟩
    obtain ⟨front, run, after, x, y, hpieces, hkept, hrun, rfl⟩ :=
      exists_kept_run hn.ne_nil hlost hab
    have hreads := reads_iff.mpr (rfl : scan cardPattern (u ++ p ++ v) = _)
    have hmem : ∀ piece ∈ run, piece ∈ scan cardPattern (u ++ p ++ v) := by
      intro piece hpiece
      rw [hpieces]
      simp [hpiece]
    have hpass : ∀ piece ∈ run, passes piece = false := by
      intro piece hpiece
      by_contra hpass
      refine hkept piece hpiece ?_
      rw [hreads.written_eq (hmem piece hpiece), if_pos (by simpa using hpass)]
    have hlength : (front.flatMap written).length = (front.map lengthAfter).sum :=
      hreads.length_flatMap_written fun piece hpiece => by rw [hpieces]; simp [hpiece]
    rcases hcovered _ front run after x y hreads hpieces (by
        rw [← hreads.flatMap_written fun piece hpiece => ⟨hmem piece hpiece, hpass piece hpiece⟩,
          hrun]) with ⟨piece, hpiece, hpass'⟩ | hlt
    · rw [hpass piece hpiece] at hpass'
      cases hpass'
    · rw [List.length_append, hlength] at hle
      omega

theorem card_number_removed_alone :
    ¬ascii "4242-4242-4242-4242" <:+:
        redactSensitiveText (ascii "pan " ++ ascii "4242-4242-4242-4242" ++ ascii " ok") ∧
      Covered (ascii "4242-4242-4242-4242")
        (ascii "pan " ++ ascii "4242-4242-4242-4242" ++ ascii " ok") := by
  have hremoved : ¬ascii "4242-4242-4242-4242" <:+:
      redactSensitiveText (ascii "pan " ++ ascii "4242-4242-4242-4242" ++ ascii " ok") := by
    decide +kernel
  exact ⟨hremoved, (card_number_removed_iff (by decide +kernel)).mp hremoved⟩

/-- A digit and a space before a card number: the longest run has 17 digits and does not
pass. -/
theorem card_number_kept :
    CardIn (ascii "1 ") (ascii "4242 4242 4242 4242") [] ∧
      ascii "4242 4242 4242 4242" <:+:
        redactSensitiveText (ascii "1 " ++ ascii "4242 4242 4242 4242" ++ []) := by
  decide +kernel

end Redacted

end Sintius.Redaction
