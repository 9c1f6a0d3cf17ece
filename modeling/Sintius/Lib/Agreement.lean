import Sintius.Lib.Transaction

/-! Two runs of one program. Where each statement gets the same result from two
databases that agree, and leaves them agreeing, the two runs end alike; so what the
agreement says nothing about does not show. -/

namespace Sql

universe u

/-- How a transaction ends that runs alone: what it returns or throws, and what is committed
then. -/
structure Ending (ε D A : Type) where
  result : Except ε A
  seq : ℕ
  db : D

variable {ε D D' K K' A B : Type}

/-- Run alone, on what is committed and on what the transaction has made of it. A transaction that
throws is rolled back. -/
def Tx.run : Tx ε D K A → (committed : D) → ℕ → D → Ending ε D A
  | .done a, _, n, d => ⟨.ok a, n, d⟩
  | .throw e, committed, n, _ => ⟨.error e, n, committed⟩
  | .query s next, committed, n, d =>
    match s n d with
    | .error e => ⟨.error e, n, committed⟩
    | .ok r => (next r.result).run committed (n + 1) (r.change d)

/-- The whole transaction. -/
def Tx.transaction (p : Tx ε D K A) (n : ℕ) (d : D) : Ending ε D A := p.run d n d

section Run

variable {committed d d' : D} {n n' : ℕ} {a : A}

/-- A program and what follows it, run alone. -/
theorem Tx.run_bind {p : Tx ε D K A} {f : A → Tx ε D K B}
    (h : p.run committed n d = ⟨.ok a, n', d'⟩) :
    (p >>= f).run committed n d = (f a).run committed n' d' := by
  induction p generalizing n d with
  | done a' =>
    cases h
    rfl
  | throw e => cases h
  | query s next ih =>
    rw [query_bind]
    rw [run] at h ⊢
    cases hs : s n d with
    | error e =>
      rw [hs] at h
      cases h
    | ok r =>
      rw [hs] at h
      exact ih r.result h

theorem Tx.run_query {s : Statement ε D K B} {next : B → Tx ε D K A} {r : Outcome D K B}
    (h : s n d = .ok r) :
    (query s next).run committed n d = (next r.result).run committed (n + 1) (r.change d) := by
  rw [run, h]

theorem Tx.run_lift {x : Except ε A} (h : x = .ok a) :
    (lift x : Tx ε D K A).run committed n d = ⟨.ok a, n, d⟩ := by
  rw [h]
  rfl

/-- A checked statement, as the methods of a unit of work are. -/
theorem Tx.run_checked {x : Except ε Unit} {s : Statement ε D K A} {r : Outcome D K A}
    (hx : x = .ok ()) (hs : s n d = .ok r) :
    (lift x >>= fun _ => query s done).run committed n d = ⟨.ok r.result, n + 1, r.change d⟩ :=
  (run_bind (run_lift hx)).trans (run_query hs)

end Run

/-- What a run returns and commits is what `alone` says. -/
theorem Tx.exists_alone_of_run {p : Tx ε D K A} {committed d d' : D} {n n' : ℕ} {a : A}
    (change : D → D) (h : p.run committed n (change d) = ⟨.ok a, n', d'⟩) :
    ∃ change', p.alone d n change = some (a, change', n') ∧ change' d = d' := by
  induction p generalizing n change with
  | done a' =>
    cases h
    exact ⟨change, rfl, rfl⟩
  | throw e => cases h
  | query s next ih =>
    rw [run] at h
    rw [alone]
    cases hs : s n (change d) with
    | error e =>
      rw [hs] at h
      cases h
    | ok r =>
      rw [hs] at h
      exact ih r.result (r.change ∘ change) h

/-- A run that returns is one of those of many callers. -/
theorem Reachable.transaction {C : Type u} {R : Type} {program : C → Tx ε D K R}
    {init w : World D C R} {call : C} {a : R} {n : ℕ} {d : D}
    (h : Reachable program init ⟨w, []⟩)
    (hrun : (program call).transaction w.seq w.db = ⟨.ok a, n, d⟩) :
    Reachable program init ⟨⟨d, n, w.history ++ [(call, a)]⟩, []⟩ := by
  obtain ⟨change, halone, rfl⟩ := Tx.exists_alone_of_run id hrun
  exact h.alone halone

/-- What two databases, with their sequences, agree on. -/
structure Agreement (D : Type) where
  same : ℕ → D → ℕ → D → Prop
  tick : ∀ {n d n' d'}, same n d n' d' → same (n + 1) d (n' + 1) d'

/-- The statement ends alike wherever they agree, and leaves them agreeing. -/
def Statement.Respects (R : Agreement D) (s : Statement ε D K B) : Prop :=
  ∀ {n d n' d'}, R.same n d n' d' →
    match s n d, s n' d' with
    | .ok r, .ok r' => r.result = r'.result ∧ R.same (n + 1) (r.change d) (n' + 1) (r'.change d')
    | .error e, .error e' => e = e'
    | _, _ => False

/-- Every statement that the program comes to, from databases that agree, respects the
agreement. -/
def Tx.Respects (R : Agreement D) : Tx ε D K A → Prop
  | .done _ => True
  | .throw _ => True
  | .query s next => s.Respects R ∧
      ∀ n d n' d' r, R.same n d n' d' → s n d = .ok r → (next r.result).Respects R

/-- Two endings that do not tell two runs apart. -/
structure Agreement.Alike (R : Agreement D) (x y : Ending ε D A) : Prop where
  result : x.result = y.result
  db : R.same x.seq x.db y.seq y.db

variable {R : Agreement D}

/-- What is committed and what the transaction sees agree from statement to statement. -/
theorem Tx.Respects.run {p : Tx ε D K A} (h : p.Respects R) {committed committed' d d' : D}
    {n n' : ℕ} (hcommitted : R.same n committed n' committed') (hview : R.same n d n' d') :
    R.Alike (p.run committed n d) (p.run committed' n' d') := by
  induction p generalizing n n' d d' with
  | done a => exact ⟨rfl, hview⟩
  | throw e => exact ⟨rfl, hcommitted⟩
  | query s next ih =>
    obtain ⟨hstatement, hnext⟩ := h
    have hends := hstatement hview
    rw [Tx.run, Tx.run]
    cases hs : s n d with
    | error e =>
      cases hs' : s n' d' with
      | error e' =>
        rw [hs, hs'] at hends
        cases hends
        exact ⟨rfl, hcommitted⟩
      | ok r' =>
        rw [hs, hs'] at hends
        exact absurd hends id
    | ok r =>
      cases hs' : s n' d' with
      | error e' =>
        rw [hs, hs'] at hends
        exact absurd hends id
      | ok r' =>
        rw [hs, hs'] at hends
        obtain ⟨hresult, hafter⟩ := hends
        dsimp only
        rw [← hresult]
        exact ih r.result (hnext n d n' d' r hview hs) (R.tick hcommitted) hafter

theorem Tx.Respects.transaction {p : Tx ε D K A} (h : p.Respects R) {d d' : D} {n n' : ℕ}
    (hsame : R.same n d n' d') : R.Alike (p.transaction n d) (p.transaction n' d') :=
  h.run hsame hsame

theorem Tx.Respects.bind {p : Tx ε D K A} {f : A → Tx ε D K B} (h : p.Respects R)
    (hf : ∀ a, (f a).Respects R) : (p >>= f).Respects R := by
  induction p with
  | done a => exact hf a
  | throw e => exact h
  | query s next ih => exact ⟨h.1, fun n d n' d' r hsame hs => ih r.result (h.2 n d n' d' r hsame hs)⟩

theorem Tx.Respects.lift (x : Except ε A) : (Tx.lift x : Tx ε D K A).Respects R := by
  cases x with
  | ok a => trivial
  | error e => trivial

theorem Tx.Respects.statement {s : Statement ε D K B} (h : s.Respects R) :
    (Tx.query s Tx.done : Tx ε D K B).Respects R :=
  ⟨h, fun _ _ _ _ _ _ _ => trivial⟩

/-- A program of a part respects the agreement of a whole that gives the part's, and that holds
again once it does of the changed parts. -/
theorem Tx.Respects.zoom {R' : Agreement D'} {get : D' → D} {modify : (D → D) → D' → D'}
    {name : K → K'} {p : Tx ε D K A} (h : p.Respects R)
    (hget : ∀ {n d n' d'}, R'.same n d n' d' → R.same n (get d) n' (get d'))
    (hmodify : ∀ {n d n' d'} (f g : D → D), R'.same n d n' d' →
      R.same (n + 1) (f (get d)) (n' + 1) (g (get d')) →
      R'.same (n + 1) (modify f d) (n' + 1) (modify g d')) :
    (p.zoom get modify name).Respects R' := by
  induction p with
  | done a => trivial
  | throw e => trivial
  | query s next ih =>
    refine ⟨?_, ?_⟩
    · intro n d n' d' hsame
      have hends := h.1 (hget hsame)
      unfold Tx.zoomStatement
      cases hs : s n (get d) with
      | error e =>
        cases hs' : s n' (get d') with
        | error e' =>
          rw [hs, hs'] at hends
          exact hends
        | ok r' =>
          rw [hs, hs'] at hends
          exact absurd hends id
      | ok r =>
        cases hs' : s n' (get d') with
        | error e' =>
          rw [hs, hs'] at hends
          exact absurd hends id
        | ok r' =>
          rw [hs, hs'] at hends
          exact ⟨hends.1, hmodify r.change r'.change hsame hends.2⟩
    · intro n d n' d' r hsame hs
      unfold Tx.zoomStatement at hs
      cases hr : s n (get d) with
      | error e =>
        rw [hr] at hs
        cases hs
      | ok r' =>
        rw [hr] at hs
        cases hs
        exact ih r'.result (h.2 n (get d) n' (get d') r' (hget hsame) hr)

end Sql
