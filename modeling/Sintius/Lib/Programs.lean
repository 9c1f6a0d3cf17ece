import Mathlib.Tactic.Common
import Sintius.Lib.Except
import Sintius.Lib.Transaction

/-! What a program can have done when it ends, read backwards through its statements;
what holds of everything committed because every change keeps it; and runs of programs
under another name for each call. -/

namespace Sql

universe u v

variable {ε D K A B R : Type} {C : Type u} {C' : Type v}

namespace Tx

theorem produces_done {a a' : A} {change : D → D}
    (h : (done a : Tx ε D K A).Produces a' change) : a' = a ∧ change = id := by
  cases h
  exact ⟨rfl, rfl⟩

theorem produces_lift {x : Except ε A} {a : A} {change : D → D}
    (h : (lift x : Tx ε D K A).Produces a change) : x = .ok a ∧ change = id := by
  cases x with
  | ok a' =>
    obtain ⟨rfl, rfl⟩ := produces_done h
    exact ⟨rfl, rfl⟩
  | error e => cases h

/-- A statement at the end of a program. -/
theorem produces_statement {s : Statement ε D K B} {b : B} {change : D → D}
    (h : (query s done).Produces b change) :
    ∃ n d r, s n d = .ok r ∧ b = r.result ∧ change = r.change := by
  cases h with
  | query hs hnext =>
    obtain ⟨rfl, rfl⟩ := produces_done hnext
    exact ⟨_, _, _, hs, rfl, rfl⟩

theorem produces_bind {p : Tx ε D K A} {f : A → Tx ε D K B} {b : B} {change : D → D}
    (h : (p >>= f).Produces b change) :
    ∃ a first second, p.Produces a first ∧ (f a).Produces b second ∧
      change = second ∘ first := by
  induction p generalizing change with
  | done a => exact ⟨a, id, change, .done, h, rfl⟩
  | throw e => cases h
  | query s next ih =>
    rw [query_bind] at h
    cases h with
    | query hs hnext =>
      obtain ⟨a, first, second, hfirst, hsecond, rfl⟩ := ih _ hnext
      exact ⟨a, _, second, .query hs hfirst, hsecond, rfl⟩

/-- A check in a program. -/
theorem produces_lift_bind {x : Except ε A} {f : A → Tx ε D K B} {b : B} {change : D → D}
    (h : (lift x >>= f).Produces b change) : ∃ a, x = .ok a ∧ (f a).Produces b change := by
  obtain ⟨a, first, second, hfirst, hsecond, rfl⟩ := produces_bind h
  obtain ⟨hx, rfl⟩ := produces_lift hfirst
  exact ⟨a, hx, hsecond⟩

/-- A part of the database whose changes compose. -/
theorem produces_zoom {D' K' : Type} {get : D' → D} {modify : (D → D) → D' → D'} {name : K → K'}
    (hid : modify id = id) (hcomp : ∀ f g, modify g ∘ modify f = modify (g ∘ f))
    {p : Tx ε D K A} {a : A} {change : D' → D'}
    (h : (p.zoom get modify name).Produces a change) :
    ∃ part, p.Produces a part ∧ change = modify part := by
  induction p generalizing change with
  | done a' =>
    obtain ⟨rfl, rfl⟩ := produces_done h
    exact ⟨id, .done, hid.symm⟩
  | throw e => cases h
  | query s next ih =>
    cases h with
    | query hs hnext =>
      obtain ⟨outcome, hpart, hr⟩ := Except.bind_eq_ok_iff.mp hs
      cases hr
      obtain ⟨part, hrest, rfl⟩ := ih _ hnext
      exact ⟨part ∘ outcome.change, .query hpart hrest, hcomp _ _⟩

end Tx

section Kept

variable {program : C → Tx ε D K R}

/-- What an open transaction has still to do completes one that its call can do. -/
theorem Reachable.produces {init : World D C R} {st : State ε D K C R}
    (h : Reachable program init st) : ∀ s ∈ st.sessions, ∀ a change,
      s.rest.Produces a change → (program s.call).Produces a (change ∘ s.change) := by
  induction h with
  | init => exact fun _ hs => absurd hs List.not_mem_nil
  | step _ hstep ih =>
    cases hstep with
    | begin call =>
      intro s hs a change hrest
      rcases List.mem_append.mp hs with hs | hs
      · exact ih s hs a change hrest
      · cases List.mem_singleton.mp hs
        exact hrest
    | @query w before t after B stmt next r hstmt hrun =>
      intro s hs a change hrest
      rcases mem_of_mem_append_cons.mp hs with rfl | hs
      · have hquery : t.rest.Produces a (change ∘ r.change) := hstmt ▸ .query hrun hrest
        exact ih t (by simp) a _ hquery
      · exact ih s (mem_of_mem_append_cons.mpr (.inr hs)) a change hrest
    | commit =>
      exact fun s hs => ih s (mem_of_mem_append_cons.mpr (.inr hs))
    | abort =>
      exact fun s hs => ih s (mem_of_mem_append_cons.mpr (.inr hs))

/-- What holds at first, and whatever a call can commit keeps, always holds. -/
theorem Reachable.kept {inv : List (C × R) → D → Prop} {init : World D C R}
    {st : State ε D K C R} (hinit : inv init.history init.db)
    (hkept : ∀ call a change, (program call).Produces a change → ∀ history d,
      inv history d → inv (history ++ [(call, a)]) (change d))
    (h : Reachable program init st) : inv st.world.history st.world.db := by
  induction h with
  | init => exact hinit
  | step hreach hstep ih =>
    cases hstep with
    | begin => exact ih
    | query => exact ih
    | @commit w before s after a hrest =>
      have hdone : s.rest.Produces a id := hrest ▸ .done
      exact hkept _ _ _ (hreach.produces s (by simp) a id hdone) _ _ ih
    | abort => exact ih

variable {admits : World D C R → C → Prop}

/-- The rule for served runs: what an admitted call has been told stays true until it commits. -/
theorem Served.kept {inv : List (C × R) → D → Prop} {told : List (C × R) → C → Prop}
    {init : World D C R} {st : State ε D K C R} (hinit : inv init.history init.db)
    (hbegin : ∀ w call, inv w.history w.db → admits w call → told w.history call)
    (hmono : ∀ history entry call, told history call → told (history ++ [entry]) call)
    (hkept : ∀ call a change, (program call).Produces a change → ∀ history d,
      inv history d → told history call → inv (history ++ [(call, a)]) (change d))
    (h : Served program admits init st) :
    inv st.world.history st.world.db ∧ ∀ s ∈ st.sessions, told st.world.history s.call := by
  induction h with
  | init => exact ⟨hinit, fun _ hs => absurd hs List.not_mem_nil⟩
  | step hserved hstep hadmits ih =>
    obtain ⟨hinv, htold⟩ := ih
    cases hstep with
    | @begin st call =>
      refine ⟨hinv, fun s hs => ?_⟩
      rcases List.mem_append.mp hs with hs | hs
      · exact htold s hs
      · cases List.mem_singleton.mp hs
        exact hbegin _ call hinv (hadmits call rfl)
    | @query w before s after B stmt next r =>
      refine ⟨hinv, fun t ht => ?_⟩
      rcases mem_of_mem_append_cons.mp ht with rfl | ht
      · exact htold s (by simp)
      · exact htold t (mem_of_mem_append_cons.mpr (.inr ht))
    | @commit w before s after a hrest =>
      have hdone : s.rest.Produces a id := hrest ▸ .done
      have hproduces := hserved.reachable.produces s (by simp) a id hdone
      exact ⟨hkept _ _ _ hproduces _ _ hinv (htold s (by simp)),
        fun t ht => hmono _ _ _ (htold t (mem_of_mem_append_cons.mpr (.inr ht)))⟩
    | abort =>
      exact ⟨hinv, fun t ht => htold t (mem_of_mem_append_cons.mpr (.inr ht))⟩

end Kept

def World.relabel (name : C → C') (w : World D C R) : World D C' R where
  db := w.db
  seq := w.seq
  history := w.history.map fun entry => (name entry.1, entry.2)

def Session.relabel (name : C → C') (s : Session ε D K C R) : Session ε D K C' R where
  call := name s.call
  rest := s.rest
  change := s.change
  locks := s.locks

def State.relabel (name : C → C') (st : State ε D K C R) : State ε D K C' R where
  world := st.world.relabel name
  sessions := st.sessions.map (Session.relabel name)

variable {program : C → Tx ε D K R} {program' : C' → Tx ε D K R} {name : C → C'}

theorem World.relabel_commit (w : World D C R) (call : C) (change : D → D) (r : R) :
    (w.commit call change r).relabel name = (w.relabel name).commit (name call) change r := by
  simp [World.relabel, World.commit]

theorem Step.relabel (hname : ∀ call, program' (name call) = program call)
    {st st' : State ε D K C R} (h : Step program st st') :
    Step program' (st.relabel name) (st'.relabel name) := by
  cases h with
  | begin call =>
    rw [State.relabel, State.relabel, List.map_append, ← hname call]
    exact .begin (name call)
  | @query w before s after B stmt next r hrest hrun hfree =>
    rw [State.relabel, State.relabel, List.map_append, List.map_append, List.map_cons,
      List.map_cons]
    have hrest' : (s.relabel name).rest = .query stmt next := hrest
    have hrun' : stmt (w.relabel name).seq ((s.relabel name).change (w.relabel name).db) = .ok r :=
      hrun
    refine .query hrest' hrun' fun k hk t ht => ?_
    rw [← List.map_append] at ht
    obtain ⟨t', ht', rfl⟩ := List.mem_map.mp ht
    exact hfree k hk t' ht'
  | @commit w before s after a hrest =>
    have hrest' : (s.relabel name).rest = .done a := hrest
    rw [State.relabel, State.relabel, List.map_append, List.map_append, List.map_cons,
      World.relabel_commit]
    exact .commit hrest'
  | abort =>
    rw [State.relabel, State.relabel, List.map_append, List.map_append, List.map_cons]
    exact .abort

/-- What a kind of call reaches, the programs of all calls reach. -/
theorem Reachable.relabel (hname : ∀ call, program' (name call) = program call)
    {init : World D C R} {st : State ε D K C R} (h : Reachable program init st) :
    Reachable program' (init.relabel name) (st.relabel name) := by
  induction h with
  | init => exact .init
  | step _ hstep ih => exact ih.step (hstep.relabel hname)

end Sql
