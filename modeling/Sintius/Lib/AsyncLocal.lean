import Mathlib.Data.List.Basic
import Mathlib.Tactic.Common

/-! Asynchronous functions over an `AsyncLocalStorage`. Each task has a store of its own;
work that a task starts inherits its store, and `run` puts another one in its place until
the body is done. Tasks take their steps in any order. -/

namespace Js.Async

/-- An asynchronous function: it reads the store, runs a body with another store, starts work that
it does not wait for, or acts on the outside, which answers or throws. -/
inductive Prog (S X V E : Type) (Answer : E → Type) where
  | ret (outcome : Except X V)
  | getStore (next : Option S → Prog S X V E Answer)
  | run (store : S) (body : Prog S X V E Answer) (next : Except X V → Prog S X V E Answer)
  | start (body next : Prog S X V E Answer)
  | act (action : E) (next : Except X (Answer action) → Prog S X V E Answer)

variable {S X V E I : Type} {Answer : E → Type}

/-- What a function does, and then what its caller does with the outcome. -/
def Prog.bind (next : Except X V → Prog S X V E Answer) :
    Prog S X V E Answer → Prog S X V E Answer
  | .ret outcome => next outcome
  | .getStore rest => .getStore fun store => (rest store).bind next
  | .run store body rest => .run store body fun outcome => (rest outcome).bind next
  | .start body rest => .start body (rest.bind next)
  | .act action rest => .act action fun answer => (rest answer).bind next

/-- A store, and the number of the first store that was set where there was none. -/
structure Scope (S : Type) where
  root : ℕ
  store : S

structure Frame (S X V E : Type) (Answer : E → Type) where
  scope : Option (Scope S)
  next : Except X V → Prog S X V E Answer

structure Task (S X V E : Type) (Answer : E → Type) where
  scope : Option (Scope S)
  code : Prog S X V E Answer
  frames : List (Frame S X V E Answer)

def Task.store (task : Task S X V E Answer) : Option S := task.scope.map Scope.store

/-- An action, with the scope that it was taken in. -/
structure Entry (S E : Type) where
  scope : Option (Scope S)
  action : E

structure Config (S X V E : Type) (Answer : E → Type) where
  tasks : List (Task S X V E Answer)
  roots : List S
  log : List (Entry S E)

/-- The scope of a body; where there is no store, it is a new root. -/
def Task.enter (task : Task S X V E Answer) (store : S) (fresh : ℕ) : Scope S :=
  ⟨(task.scope.map Scope.root).getD fresh, store⟩

inductive Step : Config S X V E Answer → Config S X V E Answer → Prop
  | getStore {before after : List (Task S X V E Answer)} {task : Task S X V E Answer}
      {next : Option S → Prog S X V E Answer} {roots : List S} {log : List (Entry S E)}
      (h : task.code = .getStore next) :
      Step ⟨before ++ task :: after, roots, log⟩
        ⟨before ++ { task with code := next task.store } :: after, roots, log⟩
  | run {before after : List (Task S X V E Answer)} {task : Task S X V E Answer} {store : S}
      {body : Prog S X V E Answer} {next : Except X V → Prog S X V E Answer} {roots : List S}
      {log : List (Entry S E)} (h : task.code = .run store body next) :
      Step ⟨before ++ task :: after, roots, log⟩
        ⟨before ++ ⟨some (task.enter store roots.length), body,
            ⟨task.scope, next⟩ :: task.frames⟩ :: after,
          if task.scope.isSome then roots else roots ++ [store], log⟩
  | start {before after : List (Task S X V E Answer)} {task : Task S X V E Answer}
      {body next : Prog S X V E Answer} {roots : List S} {log : List (Entry S E)}
      (h : task.code = .start body next) :
      Step ⟨before ++ task :: after, roots, log⟩
        ⟨before ++ { task with code := next } :: (after ++ [⟨task.scope, body, []⟩]), roots, log⟩
  | act {before after : List (Task S X V E Answer)} {task : Task S X V E Answer} {action : E}
      {next : Except X (Answer action) → Prog S X V E Answer} {roots : List S}
      {log : List (Entry S E)} (h : task.code = .act action next)
      (answer : Except X (Answer action)) :
      Step ⟨before ++ task :: after, roots, log⟩
        ⟨before ++ { task with code := next answer } :: after, roots,
          log ++ [⟨task.scope, action⟩]⟩
  | leave {before after : List (Task S X V E Answer)} {task : Task S X V E Answer}
      {outcome : Except X V} {frame : Frame S X V E Answer}
      {frames : List (Frame S X V E Answer)} {roots : List S} {log : List (Entry S E)}
      (h : task.code = .ret outcome) (hframes : task.frames = frame :: frames) :
      Step ⟨before ++ task :: after, roots, log⟩
        ⟨before ++ ⟨frame.scope, frame.next outcome, frames⟩ :: after, roots, log⟩

/-- What runs come to that begin with these functions, outside any store. -/
inductive Reachable (progs : List (Prog S X V E Answer)) : Config S X V E Answer → Prop
  | init : Reachable progs ⟨progs.map fun prog => ⟨none, prog, []⟩, [], []⟩
  | step {c c' : Config S X V E Answer} (h : Reachable progs c) (hstep : Step c c') :
      Reachable progs c'

section Guarded

/-- What may be set first, what of a store may not change below, and what may be done in it. -/
structure Policy (S E I : Type) where
  ident : S → I
  mayBegin : S → Prop
  mayAct : Option S → E → Prop

/-- A function that keeps to a policy, in a store. -/
def Guarded (policy : Policy S E I) : Option S → Prog S X V E Answer → Prop
  | _, .ret _ => True
  | store, .getStore next => Guarded policy store (next store)
  | store, .run inner body next =>
    (match store with
      | none => policy.mayBegin inner
      | some outer => policy.ident inner = policy.ident outer) ∧
      Guarded policy (some inner) body ∧ ∀ outcome, Guarded policy store (next outcome)
  | store, .start body next => Guarded policy store body ∧ Guarded policy store next
  | store, .act action next =>
    policy.mayAct store action ∧ ∀ answer, Guarded policy store (next answer)

variable {policy : Policy S E I}

theorem Guarded.bind {store : Option S} {prog : Prog S X V E Answer}
    {next : Except X V → Prog S X V E Answer} (h : Guarded policy store prog)
    (hnext : ∀ outcome, Guarded policy store (next outcome)) :
    Guarded policy store (prog.bind next) := by
  induction prog generalizing store with
  | ret outcome => exact hnext outcome
  | getStore rest ih => exact ih _ h hnext
  | run inner body rest _ ih =>
    obtain ⟨hinner, hbody, hrest⟩ := h
    exact ⟨hinner, hbody, fun outcome => ih outcome (hrest outcome) hnext⟩
  | start body rest _ ih =>
    obtain ⟨hbody, hrest⟩ := h
    exact ⟨hbody, ih hrest hnext⟩
  | act action rest ih =>
    obtain ⟨haction, hrest⟩ := h
    exact ⟨haction, fun answer => ih answer (hrest answer) hnext⟩

/-- A scope whose root is there, and has what does not change. -/
def Within (policy : Policy S E I) (roots : List S) (scope : Scope S) : Prop :=
  ∃ root, roots[scope.root]? = some root ∧ policy.ident scope.store = policy.ident root

theorem Within.mono {roots more : List S} {scope : Scope S} (h : Within policy roots scope) :
    Within policy (roots ++ more) scope := by
  obtain ⟨root, hroot, hident⟩ := h
  exact ⟨root, List.getElem?_append_left (List.getElem?_eq_some_iff.mp hroot).1 ▸ hroot, hident⟩

structure FrameOk (policy : Policy S E I) (roots : List S) (frame : Frame S X V E Answer) :
    Prop where
  scope : ∀ scope ∈ frame.scope, Within policy roots scope
  next : ∀ outcome, Guarded policy (frame.scope.map Scope.store) (frame.next outcome)

structure TaskOk (policy : Policy S E I) (roots : List S) (task : Task S X V E Answer) :
    Prop where
  scope : ∀ scope ∈ task.scope, Within policy roots scope
  code : Guarded policy task.store task.code
  frames : ∀ frame ∈ task.frames, FrameOk policy roots frame

theorem TaskOk.mono {roots more : List S} {task : Task S X V E Answer}
    (h : TaskOk policy roots task) : TaskOk policy (roots ++ more) task :=
  ⟨fun scope hscope => (h.scope scope hscope).mono, h.code, fun frame hframe =>
    ⟨fun scope hscope => ((h.frames frame hframe).scope scope hscope).mono,
      (h.frames frame hframe).next⟩⟩

/-- What holds whenever tasks that keep to a policy are looked at. -/
structure Sound (policy : Policy S E I) (c : Config S X V E Answer) : Prop where
  tasks : ∀ task ∈ c.tasks, TaskOk policy c.roots task
  roots : ∀ root ∈ c.roots, policy.mayBegin root
  acted : ∀ entry ∈ c.log, policy.mayAct (entry.scope.map Scope.store) entry.action
  within : ∀ entry ∈ c.log, ∀ scope ∈ entry.scope, Within policy c.roots scope

theorem forall_mem_replace {α : Type} {P : α → Prop} {before after : List α} {a b : α}
    (h : ∀ x ∈ before ++ a :: after, P x) (hb : P b) : ∀ x ∈ before ++ b :: after, P x := by
  intro x hx
  rcases List.mem_append.mp hx with hx | hx
  · exact h x (List.mem_append_left _ hx)
  · rcases List.mem_cons.mp hx with rfl | hx
    · exact hb
    · exact h x (List.mem_append_right _ (List.mem_cons_of_mem _ hx))

theorem Sound.step {c c' : Config S X V E Answer} (h : Sound policy c) (hstep : Step c c') :
    Sound policy c' := by
  cases hstep with
  | @getStore before after task next roots log hcode =>
    have htask := h.tasks task (by simp)
    have hguarded : Guarded policy task.store (next task.store) := by
      have hcurrent := htask.code
      rw [hcode] at hcurrent
      exact hcurrent
    exact ⟨forall_mem_replace h.tasks ⟨htask.scope, hguarded, htask.frames⟩, h.roots, h.acted,
      h.within⟩
  | @run before after task store body next roots log hcode =>
    have htask := h.tasks task (by simp)
    have hcurrent := htask.code
    rw [hcode] at hcurrent
    obtain ⟨hstore, hbody, hnext⟩ := hcurrent
    cases hscope : task.scope with
    | none =>
      have hnone : task.store = none := by rw [Task.store, hscope]; rfl
      rw [hnone] at hstore hnext
      have hwithin : Within policy (roots ++ [store]) (task.enter store roots.length) := by
        refine ⟨store, ?_, rfl⟩
        simp [Task.enter, hscope]
      have hframe : FrameOk policy (roots ++ [store]) (⟨none, next⟩ : Frame S X V E Answer) :=
        ⟨fun _ hmem => absurd hmem (by simp), hnext⟩
      refine ⟨?_, ?_, h.acted, fun entry hentry scope hmem => (h.within entry hentry scope hmem).mono⟩
      · refine forall_mem_replace (fun t ht => (h.tasks t ht).mono) ⟨?_, hbody, ?_⟩
        · intro scope hmem
          cases hmem
          exact hwithin
        · intro frame hmem
          rcases List.mem_cons.mp hmem with rfl | hmem
          · exact hframe
          · exact htask.mono.frames frame hmem
      · intro root hmem
        rcases List.mem_append.mp hmem with hmem | hmem
        · exact h.roots root hmem
        · cases List.mem_singleton.mp hmem
          exact hstore
    | some outer =>
      have hsome : task.store = some outer.store := by rw [Task.store, hscope]; rfl
      rw [hsome] at hstore hnext
      obtain ⟨root, hroot, hident⟩ := htask.scope outer hscope
      have hwithin : Within policy roots (task.enter store roots.length) := by
        refine ⟨root, ?_, hstore.trans hident⟩
        simp [Task.enter, hscope, hroot]
      have hframe : FrameOk policy roots (⟨some outer, next⟩ : Frame S X V E Answer) := by
        refine ⟨fun scope hmem => ?_, hnext⟩
        cases hmem
        exact ⟨root, hroot, hident⟩
      refine ⟨forall_mem_replace h.tasks ⟨?_, hbody, ?_⟩, h.roots, h.acted, h.within⟩
      · intro scope hmem
        cases hmem
        exact hwithin
      · intro frame hmem
        rcases List.mem_cons.mp hmem with rfl | hmem
        · exact hframe
        · exact htask.frames frame hmem
  | @start before after task body next roots log hcode =>
    have htask := h.tasks task (by simp)
    have hcurrent := htask.code
    rw [hcode] at hcurrent
    obtain ⟨hbody, hnext⟩ := hcurrent
    have hrest : TaskOk policy roots { task with code := next } :=
      ⟨htask.scope, hnext, htask.frames⟩
    refine ⟨?_, h.roots, h.acted, h.within⟩
    rw [← List.cons_append, ← List.append_assoc]
    intro t ht
    rcases List.mem_append.mp ht with ht | ht
    · exact forall_mem_replace h.tasks hrest t ht
    · cases List.mem_singleton.mp ht
      exact ⟨htask.scope, hbody, fun _ hmem => absurd hmem List.not_mem_nil⟩
  | @act before after task action next roots log hcode answer =>
    have htask := h.tasks task (by simp)
    have hcurrent := htask.code
    rw [hcode] at hcurrent
    obtain ⟨haction, hnext⟩ := hcurrent
    refine ⟨forall_mem_replace h.tasks ⟨htask.scope, hnext answer, htask.frames⟩, h.roots, ?_, ?_⟩
    · intro entry hmem
      rcases List.mem_append.mp hmem with hmem | hmem
      · exact h.acted entry hmem
      · cases List.mem_singleton.mp hmem
        exact haction
    · intro entry hmem
      rcases List.mem_append.mp hmem with hmem | hmem
      · exact h.within entry hmem
      · cases List.mem_singleton.mp hmem
        exact htask.scope
  | @leave before after task outcome frame frames roots log hcode hframes =>
    have htask := h.tasks task (by simp)
    have hframe := htask.frames frame (by simp [hframes])
    have hrest : ∀ f ∈ frames, FrameOk policy roots f := fun f hmem =>
      htask.frames f (by simp [hframes, hmem])
    exact ⟨forall_mem_replace h.tasks ⟨hframe.scope, hframe.next outcome, hrest⟩, h.roots,
      h.acted, h.within⟩

/-- The rule for pools of tasks: what each function keeps to, every run keeps to. -/
theorem Reachable.sound {progs : List (Prog S X V E Answer)}
    (hprogs : ∀ prog ∈ progs, Guarded policy none prog) {c : Config S X V E Answer}
    (h : Reachable progs c) : Sound policy c := by
  induction h with
  | init =>
    refine ⟨fun task hmem => ?_, by simp, by simp, by simp⟩
    obtain ⟨prog, hprog, rfl⟩ := List.mem_map.mp hmem
    exact ⟨by simp, hprogs prog hprog, by simp⟩
  | step _ hstep ih => exact ih.step hstep

end Guarded

end Js.Async
