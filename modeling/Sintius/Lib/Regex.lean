import Mathlib

/-! Regular expressions that are matched by backtracking: at a place in a text an
expression has a list of matches, the one that is tried first at its head. `scan` goes
through a text as a global search does, takes the first match at a place, and goes on
behind it. -/

namespace Regex

variable {σ α β : Type}

/-- A place in a text: the symbol before it, and the rest of the text. -/
structure Cursor (σ : Type) where
  before : Option σ
  rest : List σ

/-- The place behind a match. -/
def Cursor.after (c : Cursor σ) (m : List σ) : Cursor σ where
  before := m.getLast?.or c.before
  rest := c.rest.drop m.length

@[simp] theorem Cursor.after_nil (c : Cursor σ) : c.after [] = c := rfl

theorem Cursor.after_after (c : Cursor σ) (m m' : List σ) :
    (c.after m).after m' = c.after (m ++ m') := by
  simp [Cursor.after, List.getLast?_append, Option.or_assoc]

end Regex

/-- An expression, with what it captures. -/
@[ext]
structure Regex (σ α : Type) where
  run : Regex.Cursor σ → List (α × List σ)
  consumes : ∀ c r, r ∈ run c → r.2 <+: c.rest

namespace Regex

variable {σ α β : Type}

instance : Monad (Regex σ) where
  pure a :=
    { run := fun _ => [(a, [])]
      consumes := by simp }
  bind p f :=
    { run := fun c => (p.run c).flatMap fun r => ((f r.1).run (c.after r.2)).map fun s =>
        (s.1, r.2 ++ s.2)
      consumes := by
        intro c r h
        obtain ⟨s, hs, hr⟩ := List.mem_flatMap.mp h
        obtain ⟨t, ht, rfl⟩ := List.mem_map.mp hr
        obtain ⟨rest, hrest⟩ := p.consumes c s hs
        obtain ⟨rest', hrest'⟩ := (f s.1).consumes _ t ht
        refine ⟨rest', ?_⟩
        rw [List.append_assoc, hrest', ← hrest]
        simp [Cursor.after, ← hrest] }

/-- One symbol of a class. -/
def unit (p : σ → Bool) : Regex σ Unit where
  run c := match c.rest with
    | [] => []
    | x :: _ => if p x then [((), [x])] else []
  consumes := by
    rintro ⟨before, rest⟩ r h
    cases rest with
    | nil => cases h
    | cons x rest =>
      dsimp only at h
      split_ifs at h
      · cases List.mem_singleton.mp h
        exact ⟨rest, rfl⟩
      · cases h

/-- `\b`: one of the symbols beside the place belongs to a word, and the other does not. -/
def boundary (isWord : σ → Bool) : Regex σ Unit where
  run c := if c.before.any isWord = c.rest.head?.any isWord then [] else [((), [])]
  consumes := by
    intro c r h
    split_ifs at h
    · cases h
    · cases List.mem_singleton.mp h
      exact List.nil_prefix

/-- `p|q` -/
def orElse (p q : Regex σ α) : Regex σ α where
  run c := p.run c ++ q.run c
  consumes := by
    intro c r h
    rcases List.mem_append.mp h with h | h
    · exact p.consumes c r h
    · exact q.consumes c r h

def oneOf : List (Regex σ α) → Regex σ α
  | [] => ⟨fun _ => [], by simp⟩
  | p :: ps => orElse p (oneOf ps)

/-- `p?` -/
def opt (p : Regex σ Unit) : Regex σ Unit := orElse p (pure ())

/-- `p{n}` -/
def times (p : Regex σ Unit) : ℕ → Regex σ Unit
  | 0 => pure ()
  | n + 1 => do
    p
    times p n

/-- `p{0,n}` -/
def upTo (p : Regex σ Unit) : ℕ → Regex σ Unit
  | 0 => pure ()
  | n + 1 => orElse (do
      p
      upTo p n) (pure ())

/-- `p{low,high}` -/
def between (low high : ℕ) (p : Regex σ Unit) : Regex σ Unit := do
  times p low
  upTo p (high - low)

/-- A repetition goes on only with a match that is not empty. -/
def nonEmpty (p : Regex σ α) : Regex σ α where
  run c := (p.run c).filter fun r => !r.2.isEmpty
  consumes := fun c r h => p.consumes c r (List.mem_of_mem_filter h)

/-- `p*`; what is left of the text bounds the number of repetitions. -/
def many (p : Regex σ Unit) : Regex σ Unit where
  run c := (upTo (nonEmpty p) c.rest.length).run c
  consumes := fun c r h => (upTo (nonEmpty p) c.rest.length).consumes c r h

/-- `p+` -/
def many1 (p : Regex σ Unit) : Regex σ Unit := do
  p
  many p

/-- `(p)` -/
def capture (p : Regex σ Unit) : Regex σ (List σ) where
  run c := (p.run c).map fun r => (r.2, r.2)
  consumes := by
    intro c r h
    obtain ⟨s, hs, rfl⟩ := List.mem_map.mp h
    exact p.consumes c s hs

/-- Symbols of these classes, one after the other. -/
def inOrder : List (σ → Bool) → Regex σ Unit
  | [] => pure ()
  | p :: ps => do
    unit p
    inOrder ps

section Run

variable {c : Cursor σ}

@[simp] theorem run_pure (a : α) : (pure a : Regex σ α).run c = [(a, [])] := rfl

theorem run_bind (p : Regex σ α) (f : α → Regex σ β) : (p >>= f).run c =
    (p.run c).flatMap fun r => ((f r.1).run (c.after r.2)).map fun s => (s.1, r.2 ++ s.2) := rfl

theorem mem_run_bind {p : Regex σ α} {f : α → Regex σ β} {r : β × List σ} :
    r ∈ (p >>= f).run c ↔
      ∃ s ∈ p.run c, ∃ t ∈ (f s.1).run (c.after s.2), r = (t.1, s.2 ++ t.2) := by
  simp only [run_bind, List.mem_flatMap, List.mem_map, eq_comm]

instance : LawfulMonad (Regex σ) := .mk' (Regex σ)
  (by
    intro α p
    ext1
    funext c
    simp [Functor.map])
  (by
    intro α β a f
    ext1
    funext c
    simp [run_bind])
  (by
    intro α β γ p f g
    ext1
    funext c
    simp [run_bind, List.flatMap_assoc, List.flatMap_map, List.map_flatMap, Cursor.after_after,
      Function.comp_def])

theorem run_orElse_bind (p q : Regex σ α) (f : α → Regex σ β) :
    (orElse p q >>= f).run c = (p >>= f).run c ++ (q >>= f).run c :=
  List.flatMap_append

theorem mem_run_unit {p : σ → Bool} {r : Unit × List σ} :
    r ∈ (unit p).run c ↔ ∃ x rest, c.rest = x :: rest ∧ p x = true ∧ r = ((), [x]) := by
  obtain ⟨before, rest⟩ := c
  cases rest with
  | nil => simp [unit]
  | cons x rest =>
    simp only [unit]
    split_ifs with h <;> simp [h]

@[simp] theorem run_orElse (p q : Regex σ α) : (orElse p q).run c = p.run c ++ q.run c := rfl

theorem run_boundary (isWord : σ → Bool) : (boundary isWord).run c =
    if c.before.any isWord = c.rest.head?.any isWord then [] else [((), [])] := rfl

theorem mem_run_boundary {isWord : σ → Bool} {r : Unit × List σ} :
    r ∈ (boundary isWord).run c ↔
      r = ((), []) ∧ c.before.any isWord ≠ c.rest.head?.any isWord := by
  rw [run_boundary]
  split_ifs with h <;> simp [h]

end Run

/-- The expression can match this at a place. -/
def Matches (p : Regex σ α) (c : Cursor σ) (m : List σ) : Prop := ∃ a, (a, m) ∈ p.run c

section Matches

variable {p : Regex σ Unit} {c : Cursor σ} {m : List σ}

theorem Matches.consumes {p : Regex σ α} (h : Matches p c m) : m <+: c.rest := by
  obtain ⟨a, ha⟩ := h
  exact p.consumes c _ ha

/-- Two parts of a text, one after the other. -/
theorem append_isPrefix_iff {s t : List σ} :
    s ++ t <+: c.rest ↔ s <+: c.rest ∧ t <+: (c.after s).rest := by
  constructor
  · rintro ⟨rest, hrest⟩
    rw [List.append_assoc] at hrest
    exact ⟨⟨_, hrest⟩, ⟨rest, by simp [Cursor.after, ← hrest]⟩⟩
  · rintro ⟨⟨rest, hrest⟩, rest', hrest'⟩
    refine ⟨rest', ?_⟩
    rw [List.append_assoc, hrest', ← hrest]
    simp [Cursor.after, ← hrest]

theorem matches_pure {a : α} : Matches (pure a : Regex σ α) c m ↔ m = [] := by
  simp [Matches]

theorem matches_unit {p : σ → Bool} :
    Matches (unit p) c m ↔ m <+: c.rest ∧ ∃ x, m = [x] ∧ p x = true := by
  simp only [Matches, mem_run_unit]
  constructor
  · rintro ⟨_, x, rest, hrest, hx, hm⟩
    cases hm
    exact ⟨⟨rest, by rw [hrest]; rfl⟩, x, rfl, hx⟩
  · rintro ⟨⟨rest, hrest⟩, x, rfl, hx⟩
    exact ⟨(), x, rest, hrest.symm, hx, rfl⟩

theorem matches_bind {q : Regex σ α} : Matches (p >>= fun _ => q) c m ↔
    ∃ s t, m = s ++ t ∧ Matches p c s ∧ Matches q (c.after s) t := by
  simp only [Matches, mem_run_bind]
  constructor
  · rintro ⟨a, ⟨_, s⟩, hs, ⟨_, t⟩, ht, heq⟩
    cases heq
    exact ⟨s, t, rfl, ⟨_, hs⟩, ⟨_, ht⟩⟩
  · rintro ⟨s, t, rfl, ⟨_, hs⟩, ⟨a, ht⟩⟩
    exact ⟨a, _, hs, _, ht, rfl⟩

theorem matches_orElse {p q : Regex σ α} :
    Matches (orElse p q) c m ↔ Matches p c m ∨ Matches q c m := by
  simp [Matches, exists_or]

theorem matches_boundary {isWord : σ → Bool} : Matches (boundary isWord) c m ↔
    m = [] ∧ c.before.any isWord ≠ c.rest.head?.any isWord := by
  simp [Matches, mem_run_boundary]

end Matches

/-- The match that is tried first. -/
def first (p : Regex σ α) (c : Cursor σ) : Option (α × List σ) := (p.run c).head?

section First

variable {p : Regex σ α} {q : Regex σ Unit} {f : α → Regex σ β} {c : Cursor σ}

@[simp] theorem first_pure (a : α) : first (pure a : Regex σ α) c = some (a, []) := rfl

theorem first_bind {r : α × List σ} {s : β × List σ} (hp : first p c = some r)
    (hf : first (f r.1) (c.after r.2) = some s) :
    first (p >>= f) c = some (s.1, r.2 ++ s.2) := by
  obtain ⟨rs, hrs⟩ := List.head?_eq_some_iff.mp hp
  obtain ⟨ss, hss⟩ := List.head?_eq_some_iff.mp hf
  simp [first, run_bind, hrs, hss]

theorem first_bind_of_none (hp : first p c = none) : first (p >>= f) c = none := by
  rw [first, List.head?_eq_none_iff] at hp
  simp [first, run_bind, hp]

/-- With one match only, what follows decides. -/
theorem first_bind_of_run {r : α × List σ} (hp : p.run c = [r]) :
    first (p >>= f) c = (first (f r.1) (c.after r.2)).map fun s => (s.1, r.2 ++ s.2) := by
  simp [first, run_bind, hp]

theorem first_orElse (p q : Regex σ α) : first (orElse p q) c = (first p c).or (first q c) :=
  List.head?_append

theorem first_capture (q : Regex σ Unit) :
    first (capture q) c = (first q c).map fun r => (r.2, r.2) :=
  List.head?_map

theorem first_upTo_succ (n : ℕ) : first (upTo q (n + 1)) c = match first q c with
    | none => some ((), [])
    | some r => (first (upTo q n) (c.after r.2)).map fun s => (s.1, r.2 ++ s.2) := by
  have hsome : ∀ n c, ∃ r, first (upTo q n) c = some r := by
    intro n c
    cases n with
    | zero => exact ⟨_, rfl⟩
    | succ n =>
      rw [upTo, first_orElse, first_pure]
      cases first (q >>= fun _ => upTo q n) c with
      | none => exact ⟨_, rfl⟩
      | some r => exact ⟨r, rfl⟩
  rw [upTo, first_orElse]
  cases hq : first q c with
  | none => rw [first_bind_of_none hq, first_pure, Option.none_or]
  | some r =>
    obtain ⟨s, hs⟩ := hsome n (c.after r.2)
    rw [first_bind hq hs, Option.some_or]
    simp [hs]

theorem nonEmpty_unit (p : σ → Bool) : nonEmpty (unit p) = unit p := by
  ext1
  funext c
  refine List.filter_eq_self.mpr fun r hr => ?_
  obtain ⟨x, rest, -, -, rfl⟩ := mem_run_unit.mp hr
  rfl

theorem run_unit_cons {p : σ → Bool} {before : Option σ} {x : σ} {rest : List σ} :
    (unit p).run ⟨before, x :: rest⟩ = if p x then [((), [x])] else [] := rfl

/-- A repetition takes as much as there is. -/
theorem first_many_unit (p : σ → Bool) (c : Cursor σ) :
    first (many (unit p)) c = some ((), c.rest.takeWhile p) := by
  have hupTo : ∀ (n : ℕ) (c : Cursor σ), c.rest.length ≤ n →
      first (upTo (unit p) n) c = some ((), c.rest.takeWhile p) := by
    intro n
    induction n with
    | zero =>
      intro c hc
      rw [List.length_eq_zero_iff.mp (Nat.le_zero.mp hc)]
      rfl
    | succ n ih =>
      rintro ⟨before, rest⟩ hc
      rw [first_upTo_succ]
      cases rest with
      | nil => rfl
      | cons x rest =>
        rw [first, run_unit_cons]
        split_ifs with hx
        · have hnext := ih (Cursor.after ⟨before, x :: rest⟩ [x]) (Nat.le_of_succ_le_succ hc)
          simp only [List.head?_cons, hnext, List.takeWhile_cons, hx]
          rfl
        · simp [hx]
  have hmany : first (many (unit p)) c = first (upTo (unit p) c.rest.length) c := by
    rw [← nonEmpty_unit p]
    simp only [first, many, nonEmpty_unit]
  rw [hmany]
  exact hupTo _ c le_rfl

theorem first_many1_unit (p : σ → Bool) (c : Cursor σ) : first (many1 (unit p)) c =
    if c.rest.takeWhile p = [] then none else some ((), c.rest.takeWhile p) := by
  obtain ⟨before, rest⟩ := c
  cases rest with
  | nil => rfl
  | cons x rest =>
    by_cases hx : p x = true
    · have hrun : (unit p).run ⟨before, x :: rest⟩ = [((), [x])] := if_pos hx
      rw [many1, first_bind_of_run hrun, first_many_unit]
      simp [hx, Cursor.after]
    · have hrun : (unit p).run ⟨before, x :: rest⟩ = [] := if_neg hx
      rw [many1, first_bind_of_none (by rw [first, hrun]; rfl)]
      simp [hx]

/-- A repetition takes as much as there is, when what follows it cannot begin with a symbol of
its class. -/
theorem first_many_unit_bind {p : σ → Bool} {f : Unit → Regex σ β}
    (hf : ∀ before x rest, p x = true → (f ()).run ⟨before, x :: rest⟩ = []) (c : Cursor σ) :
    first (many (unit p) >>= f) c =
      (first (f ()) (c.after (c.rest.takeWhile p))).map fun s =>
        (s.1, c.rest.takeWhile p ++ s.2) := by
  have hupTo : ∀ (n : ℕ) (c : Cursor σ), c.rest.length ≤ n →
      (upTo (unit p) n >>= f).run c = ((f ()).run (c.after (c.rest.takeWhile p))).map fun s =>
        (s.1, c.rest.takeWhile p ++ s.2) := by
    intro n
    induction n with
    | zero =>
      intro c hc
      rw [List.length_eq_zero_iff.mp (Nat.le_zero.mp hc), upTo, pure_bind]
      simp
    | succ n ih =>
      rintro ⟨before, rest⟩ hc
      rw [upTo, run_orElse_bind, bind_assoc, pure_bind]
      cases rest with
      | nil => simp [run_bind, unit]
      | cons x rest =>
        have hnext := ih (Cursor.after ⟨before, x :: rest⟩ [x]) (Nat.le_of_succ_le_succ hc)
        rw [run_bind, run_unit_cons]
        split_ifs with hx
        · rw [List.flatMap_singleton, hnext, hf before x rest hx, List.append_nil, List.map_map,
            Cursor.after_after, List.takeWhile_cons, if_pos hx]
          rfl
        · simp [hx]
  have hmany : first (many (unit p) >>= f) c =
      first (upTo (unit p) c.rest.length >>= f) c := by
    simp only [first, run_bind, many, nonEmpty_unit]
  rw [hmany, first, hupTo _ c le_rfl, List.head?_map, first]

/-- A literal matches itself. -/
theorem run_inOrder [BEq σ] [LawfulBEq σ] (s : List σ) (c : Cursor σ) [Decidable (s <+: c.rest)] :
    (inOrder (s.map fun x y => y == x)).run c = if s <+: c.rest then [((), s)] else [] := by
  induction s generalizing c with
  | nil => rw [if_pos List.nil_prefix]; rfl
  | cons x s ih =>
    obtain ⟨before, rest⟩ := c
    have hstep : (inOrder ((x :: s).map fun x y => y == x)).run ⟨before, rest⟩ =
        ((unit (· == x)).run ⟨before, rest⟩).flatMap fun r =>
          ((inOrder (s.map fun x y => y == x)).run (Cursor.after ⟨before, rest⟩ r.2)).map fun t =>
            (t.1, r.2 ++ t.2) := rfl
    rw [hstep]
    cases rest with
    | nil => simp [unit]
    | cons y rest =>
      classical
      rw [run_unit_cons]
      by_cases hy : y = x
      · subst hy
        rw [if_pos (beq_self_eq_true y), List.flatMap_singleton, ih]
        by_cases hs : s <+: rest
        · simp [Cursor.after, hs]
        · simp [Cursor.after, hs]
      · have hne : ¬x :: s <+: y :: rest := fun h => hy (List.cons_prefix_cons.mp h).1.symm
        rw [if_neg (by simpa using hy), if_neg hne]
        rfl

end First

/-- A part of a text that has been scanned: a symbol at which nothing matches, or a match. -/
inductive Piece (σ α : Type) where
  | plain (x : σ)
  | found (a : α) (m : List σ)

def Piece.source : Piece σ α → List σ
  | .plain x => [x]
  | .found _ m => m

instance (piece : Piece σ α) : Decidable (∃ x, piece = .plain x) :=
  match piece with
  | .plain x => isTrue ⟨x, rfl⟩
  | .found _ _ => isFalse (by
      rintro ⟨x, hx⟩
      cases hx)

/-- Go on with the next symbol, if there is one. -/
def stepOver (go : Cursor σ → List (Piece σ α)) (c : Cursor σ) : List (Piece σ α) :=
  match c.rest with
  | [] => []
  | x :: _ => .plain x :: go (c.after [x])

/-- The pieces from a place on; the number bounds their count. -/
def scanAt (p : Regex σ α) : ℕ → Cursor σ → List (Piece σ α)
  | 0, _ => []
  | n + 1, c =>
    match p.run c with
    | [] => stepOver (scanAt p n) c
    | (a, []) :: _ => .found a [] :: stepOver (scanAt p n) c
    | (a, x :: m) :: _ => .found a (x :: m) :: scanAt p n (c.after (x :: m))

def scan (p : Regex σ α) (text : List σ) : List (Piece σ α) :=
  scanAt p (text.length + 1) ⟨none, text⟩

/-- `text.replace(p, replacer)` with the flag `g`. -/
def replaceAll (p : Regex σ α) (replacer : α → List σ → List σ) (text : List σ) : List σ :=
  (scan p text).flatMap fun piece => match piece with
    | .plain x => [x]
    | .found a m => replacer a m

/-- The expression matches at no place of the text. -/
def Absent (p : Regex σ α) (text : List σ) : Prop :=
  ∀ x y, text = x ++ y → p.run ⟨x.getLast?, y⟩ = []

section Scan

variable {p : Regex σ α} {c : Cursor σ} {n : ℕ}

theorem length_after_lt {x : σ} {m rest : List σ} (h : c.rest = x :: m ++ rest) :
    (c.after (x :: m)).rest.length < c.rest.length := by
  simp only [Cursor.after, List.length_drop, h, List.length_append, List.length_cons]
  omega

theorem scanAt_absent (h : c.rest.length < n)
    (habsent : ∀ x y, c.rest = x ++ y → p.run ⟨x.getLast?.or c.before, y⟩ = []) :
    scanAt p n c = c.rest.map .plain := by
  induction n generalizing c with
  | zero => omega
  | succ n ih =>
    obtain ⟨before, rest⟩ := c
    have hhere : p.run ⟨before, rest⟩ = [] := habsent [] rest rfl
    unfold scanAt
    rw [hhere]
    cases rest with
    | nil => rfl
    | cons x rest =>
      have hnext := ih (c := Cursor.after ⟨before, x :: rest⟩ [x])
        (by simpa [Cursor.after] using Nat.lt_of_succ_lt_succ h) ?_
      · simp only [stepOver, hnext]
        rfl
      · intro y z hyz
        have hlater := habsent (x :: y) z (by simpa [Cursor.after] using hyz)
        rw [List.getLast?_cons] at hlater
        simpa [Cursor.after] using hlater

/-- Nothing is found in a scan only if nothing matches at any place. -/
theorem absent_of_scanAt (h : c.rest.length < n)
    (hplain : ∀ piece ∈ scanAt p n c, ∃ x, piece = .plain x) (x y : List σ)
    (hxy : c.rest = x ++ y) : p.run ⟨x.getLast?.or c.before, y⟩ = [] := by
  induction n generalizing c x with
  | zero => omega
  | succ n ih =>
    obtain ⟨before, rest⟩ := c
    unfold scanAt at hplain
    split at hplain
    case h_1 hrun =>
      cases x with
      | nil =>
        cases hxy
        exact hrun
      | cons z x =>
        cases hxy
        have hlater := ih (c := Cursor.after ⟨before, z :: (x ++ y)⟩ [z])
          (by simpa [Cursor.after] using Nat.lt_of_succ_lt_succ h)
          (fun piece hpiece => hplain piece (List.mem_cons_of_mem _ hpiece)) x rfl
        rw [List.getLast?_cons]
        simpa [Cursor.after] using hlater
    all_goals
      obtain ⟨z, hz⟩ := hplain _ List.mem_cons_self
      cases hz

theorem scan_absent {text : List σ} (h : Absent p text) : scan p text = text.map .plain :=
  scanAt_absent (c := ⟨none, text⟩) (Nat.lt_succ_self _) fun x y hxy => by
    simpa using h x y hxy

theorem absent_iff {text : List σ} :
    Absent p text ↔ ∀ piece ∈ scan p text, ∃ x, piece = .plain x := by
  constructor
  · intro h piece hpiece
    rw [scan_absent h] at hpiece
    obtain ⟨x, -, rfl⟩ := List.mem_map.mp hpiece
    exact ⟨x, rfl⟩
  · intro h x y hxy
    simpa using absent_of_scanAt (c := ⟨none, text⟩) (Nat.lt_succ_self _) h x y hxy

instance (text : List σ) : Decidable (Absent p text) := decidable_of_iff _ absent_iff.symm

theorem replaceAll_absent {text : List σ} (h : Absent p text)
    (replacer : α → List σ → List σ) : replaceAll p replacer text = text := by
  unfold replaceAll
  rw [scan_absent h]
  simp [List.flatMap_map]

end Scan

/-- `text.split(/[p]+/)`: what stands between runs of separators. The flag says that the symbol
before was a separator. -/
def splitRuns (p : σ → Bool) (inRun : Bool) : List σ → List (List σ)
  | [] => [[]]
  | x :: xs =>
    if p x then if inRun then splitRuns p true xs else [] :: splitRuns p true xs
    else (splitRuns p false xs).modifyHead (x :: ·)

section Split

variable {p : σ → Bool}

theorem splitRuns_word {w : List σ} (hw : ∀ x ∈ w, p x = false) (inRun : Bool) :
    splitRuns p inRun w = [w] := by
  induction w generalizing inRun with
  | nil => rfl
  | cons x w ih =>
    rw [List.forall_mem_cons] at hw
    simp [splitRuns, hw.1, ih hw.2 false]

/-- A text without a separator at its start is split as if there were one before. -/
theorem splitRuns_true {u : List σ} (hu : u.head?.any p = false) :
    splitRuns p true u = splitRuns p false u := by
  cases u with
  | nil => rfl
  | cons x u =>
    have hx : p x = false := by simpa using hu
    simp [splitRuns, hx]

theorem splitRuns_separators {s u : List σ} (hs : ∀ x ∈ s, p x = true)
    (hu : u.head?.any p = false) : splitRuns p true (s ++ u) = splitRuns p false u := by
  induction s with
  | nil => exact splitRuns_true hu
  | cons x s ih =>
    rw [List.forall_mem_cons] at hs
    simp [splitRuns, hs.1, ih hs.2]

/-- The first word, and the words of the rest. -/
theorem splitRuns_append {w s u : List σ} (hw : ∀ x ∈ w, p x = false) (hne : s ≠ [])
    (hs : ∀ x ∈ s, p x = true) (hu : u.head?.any p = false) :
    splitRuns p false (w ++ (s ++ u)) = w :: splitRuns p false u := by
  induction w with
  | nil =>
    obtain ⟨x, s, rfl⟩ := List.exists_cons_of_ne_nil hne
    rw [List.forall_mem_cons] at hs
    have hrest := splitRuns_separators hs.2 hu
    simp [splitRuns, hs.1, hrest]
  | cons x w ih =>
    rw [List.forall_mem_cons] at hw
    simp [splitRuns, hw.1, ih hw.2]

end Split

section Occurrences

variable {f : β → List σ} {kept : β → Prop} {p a b : List σ}

/-- What begins with `p` begins with parts of which each shares a symbol with `p`. -/
theorem exists_kept_prefix (hf : ∀ part, ¬kept part → f part ≠ [] ∧ ∀ x ∈ p, x ∉ f part)
    {parts : List β} (h : parts.flatMap f = p ++ b) :
    ∃ run after y, parts = run ++ after ∧ (∀ part ∈ run, kept part) ∧
      run.flatMap f = p ++ y := by
  induction parts generalizing p with
  | nil =>
    obtain rfl : p = [] := by
      cases p with
      | nil => rfl
      | cons x p => cases h
    exact ⟨[], [], [], rfl, by simp, rfl⟩
  | cons part parts ih =>
    by_cases hp : p = []
    · subst hp
      exact ⟨[], part :: parts, [], rfl, by simp, rfl⟩
    have hkept : kept part := by
      by_contra hlost
      obtain ⟨hne, hdisjoint⟩ := hf part hlost
      obtain ⟨x, p, rfl⟩ := List.exists_cons_of_ne_nil hp
      obtain ⟨y, s, hs⟩ := List.exists_cons_of_ne_nil hne
      rw [List.flatMap_cons, hs] at h
      obtain ⟨rfl, -⟩ := List.cons.inj h
      exact hdisjoint y List.mem_cons_self (hs ▸ List.mem_cons_self)
    rw [List.flatMap_cons, List.append_eq_append_iff] at h
    rcases h with ⟨q, rfl, hq⟩ | ⟨y, hy, -⟩
    · obtain ⟨run, after, y, rfl, hrun, hy⟩ := ih
        (fun part hlost => ⟨(hf part hlost).1, fun x hx =>
          (hf part hlost).2 x (List.mem_append_right _ hx)⟩) hq
      refine ⟨part :: run, after, y, rfl, ?_, ?_⟩
      · exact List.forall_mem_cons.mpr ⟨hkept, hrun⟩
      · rw [List.flatMap_cons, hy, List.append_assoc]
    · refine ⟨[part], parts, y, rfl, by simpa using hkept, ?_⟩
      simpa using hy

/-- An occurrence of `p` in what the parts make up lies in parts that follow each other and
are all kept, when a part that is not kept is not empty and has no symbol of `p`. -/
theorem exists_kept_run (hp : p ≠ [])
    (hf : ∀ part, ¬kept part → f part ≠ [] ∧ ∀ x ∈ p, x ∉ f part) {parts : List β}
    (h : parts.flatMap f = a ++ p ++ b) :
    ∃ before run after x y, parts = before ++ run ++ after ∧ (∀ part ∈ run, kept part) ∧
      run.flatMap f = x ++ p ++ y ∧ a = before.flatMap f ++ x := by
  induction parts generalizing a with
  | nil =>
    have : p = [] := by
      have hnil := List.append_eq_nil_iff.mp (List.append_eq_nil_iff.mp h.symm).1
      exact hnil.2
    exact absurd this hp
  | cons part parts ih =>
    rw [List.append_assoc, List.flatMap_cons, List.append_eq_append_iff] at h
    rcases h with ⟨a', rfl, ha'⟩ | ⟨t, ht, hrest⟩
    · obtain ⟨before, run, after, x, y, rfl, hrun, hy, rfl⟩ :=
        ih (a := a') (by rw [List.append_assoc]; exact ha')
      exact ⟨part :: before, run, after, x, y, rfl, hrun, hy, by simp⟩
    · by_cases hnil : t = []
      · subst hnil
        obtain ⟨before, run, after, x, y, rfl, hrun, hy, hx⟩ :=
          ih (a := []) (by simpa using hrest.symm)
        refine ⟨part :: before, run, after, x, y, rfl, hrun, hy, ?_⟩
        rw [List.flatMap_cons, List.append_assoc, ← hx, ht, List.append_nil, List.append_nil]
      have hkept : kept part := by
        by_contra hlost
        obtain ⟨x, p, rfl⟩ := List.exists_cons_of_ne_nil hp
        obtain ⟨y, t, rfl⟩ := List.exists_cons_of_ne_nil hnil
        obtain ⟨rfl, -⟩ := List.cons.inj hrest
        exact (hf part hlost).2 x List.mem_cons_self (by rw [ht]; simp)
      rcases List.append_eq_append_iff.mp hrest with ⟨y, rfl, -⟩ | ⟨q, rfl, hq⟩
      · exact ⟨[], [part], parts, a, y, rfl, by simpa using hkept, by simpa using ht, rfl⟩
      · obtain ⟨run, after, y, rfl, hrun, hy⟩ := exists_kept_prefix
          (fun part hlost => ⟨(hf part hlost).1, fun x hx =>
            (hf part hlost).2 x (List.mem_append_right _ hx)⟩) hq
        refine ⟨[], part :: run, after, a, y, rfl, ?_, ?_, rfl⟩
        · exact List.forall_mem_cons.mpr ⟨hkept, hrun⟩
        · rw [List.flatMap_cons, ht, hy]
          simp only [List.append_assoc]

end Occurrences

end Regex
