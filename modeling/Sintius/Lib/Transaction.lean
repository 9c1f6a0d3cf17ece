import Mathlib.Data.List.Infix
import Mathlib.Order.Defs.PartialOrder
import Mathlib.Tactic.Common

/-! Concurrent transactions. Each statement runs on what is committed, under the
transaction's own changes; the lock it takes is held until the transaction ends,
and everything a transaction changed appears at once when it commits. A program is
verified alone, against whatever the transactions whose locks it does not hold may
commit between its statements. -/

namespace Sql

/-- What a statement does: its result, what it changes, and the lock it takes for that. -/
structure Outcome (D K B : Type) where
  result : B
  change : D → D
  lock : Option K

/-- A statement, from the next number of the sequence and what the transaction sees. -/
abbrev Statement (ε D K B : Type) := ℕ → D → Except ε (Outcome D K B)

inductive Tx (ε D K A : Type) : Type 1 where
  | done (a : A)
  | throw (e : ε)
  | query {B : Type} (s : Statement ε D K B) (next : B → Tx ε D K A)

universe u

variable {ε D K A B R : Type} {C : Type u}

namespace Tx

def bind : Tx ε D K A → (A → Tx ε D K B) → Tx ε D K B
  | done a, f => f a
  | throw e, _ => throw e
  | query s next, f => query s fun b => (next b).bind f

instance : Monad (Tx ε D K) where
  pure := done
  bind := bind

def lift : Except ε A → Tx ε D K A
  | .ok a => done a
  | .error e => throw e

/-- A statement of a part of the database, as one of the whole. -/
def zoomStatement {D' K' : Type} (get : D' → D) (modify : (D → D) → D' → D') (name : K → K')
    (s : Statement ε D K B) : Statement ε D' K' B := fun n d => do
  let r ← s n (get d)
  .ok ⟨r.result, modify r.change, r.lock.map name⟩

def zoom {D' K' : Type} (get : D' → D) (modify : (D → D) → D' → D') (name : K → K') :
    Tx ε D K A → Tx ε D' K' A
  | done a => done a
  | throw e => throw e
  | query s next => query (zoomStatement get modify name s) fun b => (next b).zoom get modify name

/-- How a program ends that runs alone: its result, its change and the sequence after it. -/
def alone : Tx ε D K A → D → ℕ → (D → D) → Option (A × (D → D) × ℕ)
  | done a, _, n, change => some (a, change, n)
  | throw _, _, _, _ => none
  | query s next, d, n, change =>
    match s n (change d) with
    | .error _ => none
    | .ok r => (next r.result).alone d (n + 1) (r.change ∘ change)

@[simp] theorem done_bind (a : A) (f : A → Tx ε D K B) : (done a >>= f) = f a := rfl

@[simp] theorem pure_bind (a : A) (f : A → Tx ε D K B) :
    ((Pure.pure a : Tx ε D K A) >>= f) = f a := rfl

@[simp] theorem throw_bind (e : ε) (f : A → Tx ε D K B) :
    ((throw e : Tx ε D K A) >>= f) = throw e := rfl

@[simp] theorem query_bind {C : Type} (s : Statement ε D K C) (next : C → Tx ε D K A)
    (f : A → Tx ε D K B) : (query s next >>= f) = query s fun c => next c >>= f := rfl

@[simp] theorem lift_ok (a : A) : (lift (.ok a) : Tx ε D K A) = done a := rfl

@[simp] theorem lift_error (e : ε) : (lift (.error e) : Tx ε D K A) = throw e := rfl

@[simp] theorem alone_done (a : A) (d : D) (n : ℕ) (change : D → D) :
    (done a : Tx ε D K A).alone d n change = some (a, change, n) := rfl

@[simp] theorem alone_pure (a : A) (d : D) (n : ℕ) (change : D → D) :
    (Pure.pure a : Tx ε D K A).alone d n change = some (a, change, n) := rfl

theorem alone_query {s : Statement ε D K B} {next : B → Tx ε D K A} {d : D} {n : ℕ}
    {change : D → D} {r : Outcome D K B} (h : s n (change d) = .ok r) :
    (query s next).alone d n change = (next r.result).alone d (n + 1) (r.change ∘ change) := by
  rw [alone, h]

/-- A program and what follows it, alone. -/
theorem alone_bind {p : Tx ε D K A} {f : A → Tx ε D K B} {a : A} {d : D} {n n' : ℕ}
    {change change' : D → D} (h : p.alone d n change = some (a, change', n')) :
    (p >>= f).alone d n change = (f a).alone d n' change' := by
  induction p generalizing n change with
  | done a' =>
    cases h
    rfl
  | throw e => cases h
  | query s next ih =>
    rw [query_bind]
    rw [alone] at h ⊢
    cases hs : s n (change d) with
    | error e =>
      rw [hs] at h
      cases h
    | ok r =>
      rw [hs] at h
      exact ih r.result h

/-- A program can end with this result and this change. -/
inductive Produces : Tx ε D K A → A → (D → D) → Prop where
  | done {a : A} : Produces (.done a) a id
  | query {B : Type} {s : Statement ε D K B} {next : B → Tx ε D K A} {n : ℕ} {d : D}
      {r : Outcome D K B} {a : A} {change : D → D} (hs : s n d = .ok r)
      (hnext : Produces (next r.result) a change) : Produces (.query s next) a (change ∘ r.change)

end Tx

/-- What is committed, how far the sequence got, and the calls that have committed, with what
each returned, oldest first. -/
structure World (D : Type) (C : Type u) (R : Type) where
  db : D
  seq : ℕ
  history : List (C × R)

def World.tick (w : World D C R) : World D C R := { w with seq := w.seq + 1 }

def World.commit (w : World D C R) (call : C) (change : D → D) (r : R) : World D C R where
  db := change w.db
  seq := w.seq
  history := w.history ++ [(call, r)]

/-- An open transaction. -/
structure Session (ε D K : Type) (C : Type u) (R : Type) where
  call : C
  rest : Tx ε D K R
  change : D → D
  locks : List K

structure State (ε D K : Type) (C : Type u) (R : Type) where
  world : World D C R
  sessions : List (Session ε D K C R)

/-- The session after one of its statements. -/
def Session.advance (s : Session ε D K C R) (r : Outcome D K B) (next : B → Tx ε D K R) :
    Session ε D K C R where
  call := s.call
  rest := next r.result
  change := r.change ∘ s.change
  locks := r.lock.toList ++ s.locks

/-- The steps of any number of callers, in any order. A transaction may end without committing at
any time: its program threw, a statement failed, or the connection was lost. -/
inductive Step (program : C → Tx ε D K R) : State ε D K C R → State ε D K C R → Prop where
  | begin {st} (call : C) :
      Step program st ⟨st.world, st.sessions ++ [⟨call, program call, id, []⟩]⟩
  | query {w before s after} {B : Type} {stmt : Statement ε D K B} {next : B → Tx ε D K R}
      {r : Outcome D K B} (hrest : s.rest = .query stmt next)
      (hrun : stmt w.seq (s.change w.db) = .ok r)
      (hfree : ∀ k ∈ r.lock, ∀ t ∈ before ++ after, k ∉ t.locks) :
      Step program ⟨w, before ++ s :: after⟩ ⟨w.tick, before ++ s.advance r next :: after⟩
  | commit {w before s after} {a : R} (hrest : s.rest = .done a) :
      Step program ⟨w, before ++ s :: after⟩ ⟨w.commit s.call s.change a, before ++ after⟩
  | abort {w before s after} : Step program ⟨w, before ++ s :: after⟩ ⟨w, before ++ after⟩

inductive Reachable (program : C → Tx ε D K R) (init : World D C R) : State ε D K C R → Prop where
  | init : Reachable program init ⟨init, []⟩
  | step {st st'} (h : Reachable program init st) (hstep : Step program st st') :
      Reachable program init st'

/-- Runs in which a call begins only where it is admitted. -/
inductive Served (program : C → Tx ε D K R) (admits : World D C R → C → Prop)
    (init : World D C R) : State ε D K C R → Prop where
  | init : Served program admits init ⟨init, []⟩
  | step {st st' : State ε D K C R} (h : Served program admits init st)
      (hstep : Step program st st')
      (hadmits : ∀ call, st'.sessions = st.sessions ++ [⟨call, program call, id, []⟩] →
        admits st.world call) : Served program admits init st'

theorem Served.reachable {program : C → Tx ε D K R} {admits : World D C R → C → Prop}
    {init : World D C R} {st : State ε D K C R} (h : Served program admits init st) :
    Reachable program init st := by
  induction h with
  | init => exact .init
  | step _ hstep _ ih => exact ih.step hstep

theorem Reachable.served {program : C → Tx ε D K R} {init : World D C R} {st : State ε D K C R}
    (h : Reachable program init st) : Served program (fun _ _ => True) init st := by
  induction h with
  | init => exact .init
  | step _ hstep ih => exact ih.step hstep fun _ _ => trivial

/-- Beginning is the one step that is asked for. -/
theorem Served.continue {program : C → Tx ε D K R} {admits : World D C R → C → Prop}
    {init : World D C R} {st st' : State ε D K C R}
    (h : Served program admits init st) (hstep : Step program st st')
    (hlength : st'.sessions.length ≤ st.sessions.length) : Served program admits init st' := by
  refine h.step hstep fun call hsessions => absurd hlength ?_
  rw [hsessions, List.length_append, List.length_singleton]
  omega

/-- An admitted call begins. -/
theorem Served.begin {program : C → Tx ε D K R} {admits : World D C R → C → Prop}
    {init w : World D C R} {others : List (Session ε D K C R)}
    (h : Served program admits init ⟨w, others⟩) (call : C) (hadmits : admits w call) :
    Served program admits init ⟨w, others ++ [⟨call, program call, id, []⟩]⟩ := by
  refine h.step (.begin call) fun call' hsessions => ?_
  obtain ⟨hsession, -⟩ := List.cons.inj (List.append_cancel_left hsessions)
  have hcall : call = call' := congrArg Session.call hsession
  exact hcall ▸ hadmits

/-- The one open transaction makes a statement. -/
theorem Served.query {program : C → Tx ε D K R} {admits : World D C R → C → Prop}
    {init w : World D C R} {s : Session ε D K C R} {stmt : Statement ε D K B}
    {next : B → Tx ε D K R} {r : Outcome D K B} (h : Served program admits init ⟨w, [s]⟩)
    (hrest : s.rest = .query stmt next) (hrun : stmt w.seq (s.change w.db) = .ok r) :
    Served program admits init ⟨w.tick, [s.advance r next]⟩ := by
  have hstep : Step program ⟨w, [] ++ s :: []⟩ ⟨w.tick, [] ++ s.advance r next :: []⟩ :=
    .query hrest hrun (by simp)
  exact h.continue hstep (by simp)

/-- A transaction that is admitted and runs without interruption, beside others that hold no lock,
commits what it says. -/
theorem Served.beside {program : C → Tx ε D K R} {admits : World D C R → C → Prop}
    {init w : World D C R} {others : List (Session ε D K C R)} {call : C} {a : R} {change : D → D}
    {n : ℕ} (h : Served program admits init ⟨w, others⟩) (hadmits : admits w call)
    (hfree : ∀ s ∈ others, s.locks = [])
    (hrun : (program call).alone w.db w.seq id = some (a, change, n)) :
    Served program admits init ⟨⟨change w.db, n, w.history ++ [(call, a)]⟩, others⟩ := by
  have hsession : ∀ (p : Tx ε D K R) (w : World D C R) (change₀ : D → D) (locks : List K),
      Served program admits init ⟨w, others ++ [⟨call, p, change₀, locks⟩]⟩ →
      p.alone w.db w.seq change₀ = some (a, change, n) →
      Served program admits init ⟨⟨change w.db, n, w.history ++ [(call, a)]⟩, others⟩ := by
    intro p
    induction p with
    | done a' =>
      intro w change₀ locks h hrun
      cases hrun
      have hstep : Step program ⟨w, others ++ ⟨call, .done a, change, locks⟩ :: []⟩
          ⟨w.commit call change a, others ++ []⟩ := .commit rfl
      rw [List.append_nil] at hstep
      exact h.continue hstep (by simp)
    | throw e =>
      intro w change₀ locks _ hrun
      cases hrun
    | query s next ih =>
      intro w change₀ locks h hrun
      unfold Tx.alone at hrun
      cases hs : s w.seq (change₀ w.db) with
      | error e =>
        rw [hs] at hrun
        cases hrun
      | ok r =>
        rw [hs] at hrun
        have hother : ∀ k ∈ r.lock, ∀ t ∈ others ++ [], k ∉ t.locks := by
          intro k _ t ht
          rw [List.append_nil] at ht
          simp [hfree t ht]
        have hstep : Step program ⟨w, others ++ ⟨call, .query s next, change₀, locks⟩ :: []⟩
            ⟨w.tick, others ++ Session.advance ⟨call, .query s next, change₀, locks⟩ r next :: []⟩ :=
          .query rfl hs hother
        exact ih r.result w.tick (r.change ∘ change₀) (r.lock.toList ++ locks)
          (h.continue hstep (by simp)) hrun
  exact hsession (program call) w id [] (h.begin call hadmits) hrun

/-- A transaction that is admitted and runs alone commits what it says. -/
theorem Served.alone {program : C → Tx ε D K R} {admits : World D C R → C → Prop}
    {init w : World D C R} {call : C} {a : R} {change : D → D} {n : ℕ}
    (h : Served program admits init ⟨w, []⟩) (hadmits : admits w call)
    (hrun : (program call).alone w.db w.seq id = some (a, change, n)) :
    Served program admits init ⟨⟨change w.db, n, w.history ++ [(call, a)]⟩, []⟩ :=
  h.beside hadmits (by simp) hrun

/-- A transaction that runs alone commits what it says. -/
theorem Reachable.alone {program : C → Tx ε D K R} {init w : World D C R} {call : C} {a : R}
    {change : D → D} {n : ℕ} (h : Reachable program init ⟨w, []⟩)
    (hrun : (program call).alone w.db w.seq id = some (a, change, n)) :
    Reachable program init ⟨⟨change w.db, n, w.history ++ [(call, a)]⟩, []⟩ :=
  (h.served.alone trivial hrun).reachable

/-- How programs share a database: which part of it each lock guards, what always holds of the
world, and what a call changes when it commits. -/
structure Discipline (D K : Type) (C : Type u) (R : Type) where
  same : K → D → D → Prop
  equivalence : ∀ k, Equivalence (same k)
  inv : World D C R → Prop
  inv_tick : ∀ {w}, inv w → inv w.tick
  effect : C → R → D → D → Prop

variable {P : Discipline D K C R}

/-- What may have happened meanwhile, seen from a transaction that holds these locks. -/
structure Rely (P : Discipline D K C R) (locks : List K) (w w' : World D C R) : Prop where
  seq : w.seq ≤ w'.seq
  history : w.history <+: w'.history
  same : ∀ k ∈ locks, P.same k w.db w'.db

/-- A change stays within what these locks guard. -/
def Guards (P : Discipline D K C R) (locks : List K) (change : D → D) : Prop :=
  ∀ k, k ∉ locks → ∀ d, P.same k d (change d)

theorem Rely.refl (P : Discipline D K C R) (locks : List K) (w : World D C R) :
    Rely P locks w w :=
  ⟨le_rfl, List.prefix_rfl, fun k _ => (P.equivalence k).refl _⟩

theorem Rely.trans {locks : List K} {w w' w'' : World D C R} (h : Rely P locks w w')
    (h' : Rely P locks w' w'') : Rely P locks w w'' :=
  ⟨h.seq.trans h'.seq, h.history.trans h'.history,
    fun k hk => (P.equivalence k).trans (h.same k hk) (h'.same k hk)⟩

theorem Rely.mono {locks locks' : List K} {w w' : World D C R} (h : Rely P locks' w w')
    (hsub : locks ⊆ locks') : Rely P locks w w' :=
  ⟨h.seq, h.history, fun k hk => h.same k (hsub hk)⟩

theorem Rely.tick (P : Discipline D K C R) (locks : List K) (w : World D C R) :
    Rely P locks w w.tick :=
  ⟨Nat.le_succ _, List.prefix_rfl, fun k _ => (P.equivalence k).refl _⟩

/-- Another transaction commits. -/
theorem Rely.commit {locks locks' : List K} {change : D → D} {call : C} {r : R}
    (w : World D C R) (hguards : Guards P locks' change) (hdisjoint : ∀ k ∈ locks, k ∉ locks') :
    Rely P locks w (w.commit call change r) :=
  ⟨le_rfl, List.prefix_append _ _, fun k hk => hguards k (hdisjoint k hk) w.db⟩

theorem Guards.comp {locks locks' : List K} {f g : D → D} (hg : Guards P locks' g)
    (hf : Guards P locks f) (hsub : locks ⊆ locks') : Guards P locks' (g ∘ f) := fun k hk d =>
  (P.equivalence k).trans (hf k (fun h => hk (hsub h)) d) (hg k hk (f d))

theorem Guards.id (P : Discipline D K C R) (locks : List K) : Guards P locks id :=
  fun k _ d => (P.equivalence k).refl d

/-- What a program that holds these locks and has made this change may end in. -/
abbrev Post (D K : Type) (C : Type u) (R A : Type) :=
  A → List K → (D → D) → World D C R → Prop

/-- The weakest precondition of a program: whatever is committed in between, its statements
change only what its locks guard, and it ends as `Φ` says, or throws as `Ψ` says. -/
def wp (P : Discipline D K C R) (Φ : Post D K C R A) (Ψ : Post D K C R ε) :
    Tx ε D K A → List K → (D → D) → World D C R → Prop
  | .done a, locks, change, w => Φ a locks change w
  | .throw e, locks, change, w => Ψ e locks change w
  | .query s next, locks, change, w => ∀ w' r, Rely P locks w w' → P.inv w' →
      s w'.seq (change w'.db) = .ok r → Guards P (r.lock.toList ++ locks) r.change ∧
        wp P Φ Ψ (next r.result) (r.lock.toList ++ locks) (r.change ∘ change) w'.tick

theorem wp_bind {Φ : Post D K C R B} {Ψ : Post D K C R ε} {p : Tx ε D K A}
    {f : A → Tx ε D K B} {locks : List K} {change : D → D} {w : World D C R}
    (h : wp P (fun a => wp P Φ Ψ (f a)) Ψ p locks change w) :
    wp P Φ Ψ (p.bind f) locks change w := by
  induction p generalizing locks change w with
  | done a => exact h
  | throw e => exact h
  | query s next ih =>
    intro w' r hrely hinv hrun
    obtain ⟨hguards, hnext⟩ := h w' r hrely hinv hrun
    exact ⟨hguards, ih _ hnext⟩

/-- A statement and what follows. -/
theorem wp_statement {Φ : Post D K C R A} {Ψ : Post D K C R ε} {s : Statement ε D K B}
    {f : B → Tx ε D K A} {locks : List K} {change : D → D} {w : World D C R}
    (h : ∀ w' r, Rely P locks w w' → P.inv w' → s w'.seq (change w'.db) = .ok r →
      Guards P (r.lock.toList ++ locks) r.change ∧
        wp P Φ Ψ (f r.result) (r.lock.toList ++ locks) (r.change ∘ change) w'.tick) :
    wp P Φ Ψ (Tx.query s Tx.done >>= f) locks change w := h

/-- A statement at the end of a program. -/
theorem wp_query {Φ : Post D K C R B} {Ψ : Post D K C R ε} {s : Statement ε D K B}
    {locks : List K} {change : D → D} {w : World D C R}
    (h : ∀ w' r, Rely P locks w w' → P.inv w' → s w'.seq (change w'.db) = .ok r →
      Guards P (r.lock.toList ++ locks) r.change ∧
        Φ r.result (r.lock.toList ++ locks) (r.change ∘ change) w'.tick) :
    wp P Φ Ψ (Tx.query s Tx.done) locks change w := h

theorem wp_lift {Φ : Post D K C R B} {Ψ : Post D K C R ε} {x : Except ε A} {f : A → Tx ε D K B}
    {locks : List K} {change : D → D} {w : World D C R}
    (hok : ∀ a, x = .ok a → wp P Φ Ψ (f a) locks change w)
    (herror : ∀ e, x = .error e → Ψ e locks change w) :
    wp P Φ Ψ (Tx.lift x >>= f) locks change w := by
  cases x with
  | ok a => exact hok a rfl
  | error e => exact herror e rfl

theorem wp_mono {Φ Φ' : Post D K C R A} {Ψ : Post D K C R ε} {p : Tx ε D K A} {locks : List K}
    {change : D → D} {w : World D C R} (hΦ : ∀ a locks change w, Φ a locks change w →
      Φ' a locks change w) (h : wp P Φ Ψ p locks change w) : wp P Φ' Ψ p locks change w := by
  induction p generalizing locks change w with
  | done a => exact hΦ _ _ _ _ h
  | throw e => exact h
  | query s next ih =>
    intro w' r hrely hinv hrun
    obtain ⟨hguards, hnext⟩ := h w' r hrely hinv hrun
    exact ⟨hguards, ih _ hnext⟩

/-- The locks of the start are held until the end. -/
theorem wp_rely {Φ : Post D K C R A} {Ψ : Post D K C R ε} {p : Tx ε D K A} {locks : List K}
    {change : D → D} {w : World D C R}
    (h : wp P (fun a locks' change' w' => Rely P locks w w' → locks ⊆ locks' →
      Φ a locks' change' w') Ψ p locks change w) : wp P Φ Ψ p locks change w := by
  have hfrom : ∀ (p : Tx ε D K A) {locks' : List K} {change' : D → D} {w' : World D C R},
      Rely P locks w w' → locks ⊆ locks' →
      wp P (fun a locks' change' w' => Rely P locks w w' → locks ⊆ locks' → Φ a locks' change' w')
        Ψ p locks' change' w' → wp P Φ Ψ p locks' change' w' := by
    intro p
    induction p with
    | done a => exact fun hrely hsub h => h hrely hsub
    | throw e => exact fun _ _ h => h
    | query s next ih =>
      intro locks' change' w' hrely hsub h w'' r hrely' hinv hrun
      obtain ⟨hguards, hnext⟩ := h w'' r hrely' hinv hrun
      refine ⟨hguards, ih _ ?_ ?_ hnext⟩
      · exact (hrely.trans (hrely'.mono hsub)).trans (Rely.tick P locks w'')
      · exact List.Subset.trans hsub (List.subset_append_right _ _)
  exact hfrom p (Rely.refl P locks w) (List.Subset.refl _) h

/-- A program over a part of the database, where `Q` holds of everything else. -/
theorem wp_zoom {D' K' : Type} {P : Discipline D' K' C R} {get : D' → D}
    {modify : (D → D) → D' → D'} {name : K → K'} {p : Tx ε D K A} {Ψ : Post D' K' C R ε}
    {Q : List K' → (D' → D') → World D' C R → Prop} {locks : List K'} {change : D' → D'}
    {w : World D' C R}
    (hmodify : ∀ f g : D → D, modify g ∘ modify f = modify (g ∘ f)) (hid : modify id = id)
    (hguards : ∀ (f : D → D) (lock : Option K) locks, Guards P ((lock.map name).toList ++ locks)
      (modify f))
    (hthrow : ∀ {e locks change w}, Q locks change w → Ψ e locks change w)
    (hrely : ∀ {locks change w w'}, Q locks change w → Rely P locks w w' → P.inv w' →
      Q locks change w')
    (hstep : ∀ {locks change w} (f : D → D) (lock : Option K), Q locks change w →
      Q ((lock.map name).toList ++ locks) (modify f ∘ change) w.tick)
    (h : Q locks change w) :
    wp P (fun a locks' change' w' => ∃ f, p.Produces a f ∧ change' = modify f ∘ change ∧
      Q locks' change' w') Ψ (p.zoom get modify name) locks change w := by
  induction p generalizing locks change w with
  | done a => exact ⟨id, .done, by rw [hid]; rfl, h⟩
  | throw e => exact hthrow h
  | query s next ih =>
    intro w' r hr hinv hrun
    unfold Tx.zoomStatement at hrun
    cases hs : s w'.seq (get (change w'.db)) with
    | error e =>
      rw [hs] at hrun
      cases hrun
    | ok r' =>
      rw [hs] at hrun
      cases hrun
      refine ⟨hguards _ _ _, ?_⟩
      refine wp_mono ?_ (ih r'.result (hstep r'.change r'.lock (hrely h hr hinv)))
      rintro a locks' change' w'' ⟨f, hf, rfl, hQ⟩
      refine ⟨f ∘ r'.change, .query hs hf, ?_, hQ⟩
      rw [← hmodify]
      rfl

/-- A transaction that holds these locks may commit now or later. -/
def Committable (P : Discipline D K C R) (call : C) : Post D K C R R :=
  fun a locks change w => ∀ w', Rely P locks w w' → P.inv w' →
    P.inv (w'.commit call change a) ∧ P.effect call a w'.db (change w'.db)

/-- Every program that begins where it is admitted keeps the invariant when it commits; at the
moment its outcome is settled, `Φ` holds of its result, or `Ψ` of what it throws. -/
def VerifiedWhere (admits : World D C R → C → Prop) (P : Discipline D K C R)
    (Φ : C → R → World D C R → Prop) (Ψ : C → ε → World D C R → Prop)
    (program : C → Tx ε D K R) : Prop :=
  ∀ call w, P.inv w → admits w call → wp P (fun a locks change w =>
    Committable P call a locks change w ∧ Φ call a w) (fun e _ _ w => Ψ call e w)
      (program call) [] id w

/-- Wherever it begins. -/
def Verified (P : Discipline D K C R) (Φ : C → R → World D C R → Prop)
    (Ψ : C → ε → World D C R → Prop) (program : C → Tx ε D K R) : Prop :=
  ∀ call w, P.inv w → wp P (fun a locks change w => Committable P call a locks change w ∧
    Φ call a w) (fun e _ _ w => Ψ call e w) (program call) [] id w

theorem Verified.verifiedWhere {Φ : C → R → World D C R → Prop} {Ψ : C → ε → World D C R → Prop}
    {program : C → Tx ε D K R} (h : Verified P Φ Ψ program) :
    VerifiedWhere (fun _ _ => True) P Φ Ψ program := fun call w hinv _ => h call w hinv

section Soundness

variable {Φ : C → R → World D C R → Prop} {Ψ : C → ε → World D C R → Prop}
  {program : C → Tx ε D K R} {admits : World D C R → C → Prop} {init : World D C R}

/-- What an open transaction has still to do is in order. -/
def Session.Pending (P : Discipline D K C R) (Φ : C → R → World D C R → Prop)
    (Ψ : C → ε → World D C R → Prop) (s : Session ε D K C R) (w : World D C R) : Prop :=
  match s.rest with
  | .done a => Committable P s.call a s.locks s.change w
  | .throw _ => True
  | .query stmt next => wp P (fun a locks change w => Committable P s.call a locks change w ∧
      Φ s.call a w) (fun e _ _ w => Ψ s.call e w) (.query stmt next) s.locks s.change w

theorem Session.pending_of_wp {s : Session ε D K C R} {w : World D C R}
    (h : wp P (fun a locks change w => Committable P s.call a locks change w ∧ Φ s.call a w)
      (fun e _ _ w => Ψ s.call e w) s.rest s.locks s.change w) : s.Pending P Φ Ψ w := by
  unfold Session.Pending
  cases hrest : s.rest with
  | done a =>
    rw [hrest] at h
    exact h.1
  | throw e => trivial
  | query stmt next =>
    rw [hrest] at h
    exact h

theorem Session.Pending.rely {s : Session ε D K C R} {w w' : World D C R}
    (h : s.Pending P Φ Ψ w) (hrely : Rely P s.locks w w') : s.Pending P Φ Ψ w' := by
  unfold Session.Pending at h ⊢
  cases hrest : s.rest with
  | done a =>
    rw [hrest] at h
    exact fun w'' hr => h w'' (hrely.trans hr)
  | throw e => trivial
  | query stmt next =>
    rw [hrest] at h
    exact fun w'' r hr => h w'' r (hrely.trans hr)

structure Sound (P : Discipline D K C R) (Φ : C → R → World D C R → Prop)
    (Ψ : C → ε → World D C R → Prop) (st : State ε D K C R) : Prop where
  inv : P.inv st.world
  pending : ∀ s ∈ st.sessions, s.Pending P Φ Ψ st.world
  guards : ∀ s ∈ st.sessions, Guards P s.locks s.change
  exclusive : st.sessions.Pairwise fun s t => ∀ k ∈ s.locks, k ∉ t.locks

theorem mem_of_mem_append_cons {α : Type u} {x y : α} {before after : List α} :
    x ∈ before ++ y :: after ↔ x = y ∨ x ∈ before ++ after := by
  simp only [List.mem_append, List.mem_cons]
  tauto

theorem sublist_append_cons {α : Type u} {y : α} {before after : List α} :
    (before ++ after).Sublist (before ++ y :: after) :=
  List.Sublist.append_left (List.sublist_cons_self y after) before

/-- No two open transactions hold one lock. -/
theorem Sound.disjoint {w : World D C R} {before after : List (Session ε D K C R)}
    {s t : Session ε D K C R} (h : Sound P Φ Ψ ⟨w, before ++ s :: after⟩)
    (ht : t ∈ before ++ after) {k : K} (hk : k ∈ t.locks) : k ∉ s.locks := by
  have hpair := List.pairwise_append.mp h.exclusive
  rcases List.mem_append.mp ht with ht | ht
  · exact hpair.2.2 t ht s List.mem_cons_self k hk
  · exact fun hs => (List.pairwise_cons.mp hpair.2.1).1 t ht k hs hk

theorem Sound.query {w : World D C R} {before after : List (Session ε D K C R)}
    {s : Session ε D K C R} {stmt : Statement ε D K B} {next : B → Tx ε D K R}
    {r : Outcome D K B} (h : Sound P Φ Ψ ⟨w, before ++ s :: after⟩)
    (hrest : s.rest = .query stmt next) (hrun : stmt w.seq (s.change w.db) = .ok r) :
    Guards P (r.lock.toList ++ s.locks) r.change ∧
      wp P (fun a locks change w => Committable P s.call a locks change w ∧ Φ s.call a w)
        (fun e _ _ w => Ψ s.call e w) (next r.result) (r.lock.toList ++ s.locks)
        (r.change ∘ s.change) w.tick := by
  have hpending := h.pending s (by simp)
  unfold Session.Pending at hpending
  rw [hrest] at hpending
  exact hpending w r (Rely.refl P s.locks w) h.inv hrun

theorem Sound.step {st st' : State ε D K C R} (hverified : VerifiedWhere admits P Φ Ψ program)
    (h : Sound P Φ Ψ st) (hstep : Step program st st')
    (hadmits : ∀ call, st'.sessions = st.sessions ++ [⟨call, program call, id, []⟩] →
      admits st.world call) : Sound P Φ Ψ st' := by
  cases hstep with
  | @begin st call =>
    refine ⟨h.inv, ?_, ?_, ?_⟩
    · intro s hs
      rcases List.mem_append.mp hs with hs | hs
      · exact h.pending s hs
      · rw [List.mem_singleton.mp hs]
        exact Session.pending_of_wp (hverified call st.world h.inv (hadmits call rfl))
    · intro s hs
      rcases List.mem_append.mp hs with hs | hs
      · exact h.guards s hs
      · rw [List.mem_singleton.mp hs]
        exact Guards.id P []
    · refine List.pairwise_append.mpr ⟨h.exclusive, List.pairwise_singleton _ _, ?_⟩
      intro s _ t ht k _
      rw [List.mem_singleton.mp ht]
      exact List.not_mem_nil
  | @query w before s after B stmt next r hrest hrun hfree =>
    obtain ⟨hguards, hnext⟩ := h.query hrest hrun
    have hothers : ∀ t ∈ before ++ after, t ∈ before ++ s :: after :=
      fun t ht => mem_of_mem_append_cons.mpr (.inr ht)
    refine ⟨P.inv_tick h.inv, ?_, ?_, ?_⟩
    · intro t ht
      rcases mem_of_mem_append_cons.mp ht with rfl | ht
      · exact Session.pending_of_wp hnext
      · exact (h.pending t (hothers t ht)).rely (Rely.tick P t.locks w)
    · intro t ht
      rcases mem_of_mem_append_cons.mp ht with rfl | ht
      · exact hguards.comp (h.guards s (by simp)) (List.subset_append_right _ _)
      · exact h.guards t (hothers t ht)
    · -- the lock that the statement took is not held elsewhere
      have hnew : ∀ t ∈ before ++ after, ∀ k ∈ t.locks, k ∉ (s.advance r next).locks := by
        intro t ht k hk hmem
        rcases List.mem_append.mp hmem with hmem | hmem
        · exact hfree k (Option.mem_toList.mp hmem) t ht hk
        · exact h.disjoint ht hk hmem
      have hpair := List.pairwise_append.mp h.exclusive
      refine List.pairwise_append.mpr ⟨hpair.1, List.pairwise_cons.mpr ⟨?_, ?_⟩, ?_⟩
      · intro t ht k hk hmem
        exact hnew t (List.mem_append_right _ ht) k hmem hk
      · exact (List.pairwise_cons.mp hpair.2.1).2
      · intro t ht u hu k hk
        rcases List.mem_cons.mp hu with rfl | hu
        · exact hnew t (List.mem_append_left _ ht) k hk
        · exact hpair.2.2 t ht u (List.mem_cons_of_mem _ hu) k hk
  | @commit w before s after a hrest =>
    have hpending := h.pending s (by simp)
    unfold Session.Pending at hpending
    rw [hrest] at hpending
    have hothers : ∀ t ∈ before ++ after, t ∈ before ++ s :: after :=
      fun t ht => mem_of_mem_append_cons.mpr (.inr ht)
    refine ⟨(hpending w (Rely.refl P s.locks w) h.inv).1, ?_, ?_, ?_⟩
    · intro t ht
      exact (h.pending t (hothers t ht)).rely
        (Rely.commit w (h.guards s (by simp)) fun k hk => h.disjoint ht hk)
    · exact fun t ht => h.guards t (hothers t ht)
    · exact h.exclusive.sublist sublist_append_cons
  | @abort w before s after =>
    refine ⟨h.inv, ?_, ?_, ?_⟩
    · exact fun t ht => h.pending t (mem_of_mem_append_cons.mpr (.inr ht))
    · exact fun t ht => h.guards t (mem_of_mem_append_cons.mpr (.inr ht))
    · exact h.exclusive.sublist sublist_append_cons

/-- Verified programs run safely together. -/
theorem VerifiedWhere.sound {st : State ε D K C R} (hverified : VerifiedWhere admits P Φ Ψ program)
    (hinit : P.inv init) (h : Served program admits init st) : Sound P Φ Ψ st := by
  induction h with
  | init =>
    refine ⟨hinit, ?_, ?_, .nil⟩
    · exact fun s hs => absurd hs List.not_mem_nil
    · exact fun s hs => absurd hs List.not_mem_nil
  | step _ hstep hadmits ih => exact ih.step hverified hstep hadmits

theorem Verified.sound {st : State ε D K C R} (hverified : Verified P Φ Ψ program)
    (hinit : P.inv init) (h : Reachable program init st) : Sound P Φ Ψ st :=
  hverified.verifiedWhere.sound hinit h.served

/-- Of what a session throws, `Ψ` has held. -/
theorem VerifiedWhere.throws {st : State ε D K C R}
    (hverified : VerifiedWhere admits P Φ Ψ program) (hinit : P.inv init)
    (h : Served program admits init st) :
    ∀ s ∈ st.sessions, ∀ e, s.rest = .throw e → ∃ w, Ψ s.call e w := by
  induction h with
  | init => exact fun s hs => absurd hs List.not_mem_nil
  | @step st st' h hstep hadmits ih =>
    have hsound := hverified.sound hinit h
    cases hstep with
    | @begin st call =>
      intro s hs e he
      rcases List.mem_append.mp hs with hs | hs
      · exact ih s hs e he
      · cases List.mem_singleton.mp hs
        have hwp := hverified call st.world hsound.inv (hadmits call rfl)
        rw [show program call = .throw e from he] at hwp
        exact ⟨_, hwp⟩
    | @query w before s after B stmt next r hrest hrun hfree =>
      intro t ht e he
      rcases mem_of_mem_append_cons.mp ht with rfl | ht
      · obtain ⟨-, hnext⟩ := hsound.query hrest hrun
        rw [show next r.result = .throw e from he] at hnext
        exact ⟨_, hnext⟩
      · exact ih t (mem_of_mem_append_cons.mpr (.inr ht)) e he
    | commit hrest => exact fun t ht => ih t (mem_of_mem_append_cons.mpr (.inr ht))
    | abort => exact fun t ht => ih t (mem_of_mem_append_cons.mpr (.inr ht))

/-- A call that commits changes what it should. -/
theorem Sound.effect {st st' : State ε D K C R} {call : C} {a : R} (h : Sound P Φ Ψ st)
    (hstep : Step program st st')
    (hhistory : st'.world.history = st.world.history ++ [(call, a)]) :
    P.effect call a st.world.db st'.world.db := by
  cases hstep with
  | begin => simp at hhistory
  | query => simp [World.tick] at hhistory
  | @commit w before s after a' hrest =>
    have hentry : (s.call, a') = (call, a) := by simpa [World.commit] using hhistory
    cases hentry
    have hpending := h.pending s (by simp)
    unfold Session.Pending at hpending
    rw [hrest] at hpending
    exact (hpending w (Rely.refl P s.locks w) h.inv).2
  | abort => simp at hhistory

/-- A step leaves what is committed as it is, or it commits a call. -/
theorem Sound.cases {st st' : State ε D K C R} (h : Sound P Φ Ψ st)
    (hstep : Step program st st') :
    (st'.world.history = st.world.history ∧ st'.world.db = st.world.db) ∨
      ∃ call a, st'.world.history = st.world.history ++ [(call, a)] ∧
        P.effect call a st.world.db st'.world.db := by
  have heffect := fun call a => @Sound.effect _ _ _ _ _ P _ _ _ st st' call a h hstep
  cases hstep with
  | begin => exact .inl ⟨rfl, rfl⟩
  | query => exact .inl ⟨rfl, rfl⟩
  | @commit w before s after a hrest => exact .inr ⟨s.call, a, rfl, heffect s.call a rfl⟩
  | abort => exact .inl ⟨rfl, rfl⟩

/-- Only a commit changes what is committed. -/
theorem Step.db_eq {st st' : State ε D K C R} (h : Step program st st')
    (hhistory : st'.world.history = st.world.history) : st'.world.db = st.world.db := by
  cases h with
  | begin => rfl
  | query => rfl
  | commit => simp [World.commit] at hhistory
  | abort => rfl

end Soundness

end Sql
