import Mathlib
import Sintius.Lib.Table
import Sintius.Spec.Queue
import Sintius.Spec.Relay
import Sintius.Spec.Dispatch
import Sintius.Sanity.Queue
import Sintius.Sanity.Dispatch
import Sintius.Proofs.Queue

/-! Publish calls, whoever makes them and however late. A lease goes to the head of
a stream, and what was finished before it stays finished, so a call finds the earlier
entries finished even if its lease has long expired; and a lease pays for one
call, so the attempts counted on the row bound the calls. -/

namespace Sintius.Outbox

variable {Data : Type} {s t : Dispatch Data} {table : QueueTable} {maxAttempts : ℕ}

/-- The rows have the shape of the queue. -/
def Dispatch.Shaped (s : Dispatch Data) : Prop := ∃ granted, TableInvariant granted s.rows

theorem Dispatch.Shaped.step (h : s.Shaped) (hstep : StepKind table maxAttempts s t) :
    t.Shaped ∧ Advances s.rows t.rows := by
  obtain ⟨granted, h⟩ := h
  cases hstep with
  | enqueue entryId consumer envelope at_ hfresh =>
    exact ⟨⟨granted, h.append hfresh⟩, advances_append hfresh⟩
  | idle => exact ⟨⟨granted, h⟩, .refl _⟩
  | lease d locked now htable hshared =>
    exact ⟨⟨_, h.leaseBatch d.queue locked (d.leaseRequest now)⟩,
      (h.restated_leaseBatch d.queue locked (d.leaseRequest now)).advances⟩
  | call hpass hprogress hgrants hattempts => exact ⟨⟨granted, h⟩, .refl _⟩
  | answer hpass hprogress hgrants hanswer => exact ⟨⟨granted, h⟩, .refl _⟩
  | settle hpass hgrants hcalled hsettles =>
    refine ⟨⟨granted, h.update_touched hsettles.identity ?_ ?_⟩, ?_⟩
    · intro e _ hsel
      exact .inl (heldBy_spec hsel).2.1
    · intro e _ hsel hc
      exact hsettles.checks e (heldBy_spec hsel).2.1 hc
    · refine (restated_update hsettles.identity ?_).advances
      intro e _ hsel hf
      rw [finished_iff, (heldBy_spec hsel).2.1] at hf
      simp at hf
  | leave events hpass hevents => exact ⟨⟨granted, h⟩, .refl _⟩
  | resolve queue entryId resolution htable =>
    exact ⟨⟨granted, h.resolveDeadLetter queue entryId resolution⟩,
      (restated_resolveDeadLetter queue entryId resolution).advances⟩

/-- The log only grows. -/
theorem StepKind.log (hstep : StepKind table maxAttempts s t) : ∃ events, t.log = s.log ++ events := by
  cases hstep with
  | enqueue => exact ⟨[], by simp⟩
  | idle => exact ⟨[], by simp⟩
  | lease d locked now htable hshared => exact ⟨_, rfl⟩
  | call hpass hprogress hgrants hattempts => exact ⟨_, rfl⟩
  | answer hpass hprogress hgrants hanswer => exact ⟨_, rfl⟩
  | settle hpass hgrants hcalled hsettles => exact ⟨_, rfl⟩
  | leave events hpass hevents => exact ⟨_, rfl⟩
  | resolve queue entryId resolution htable => exact ⟨_, rfl⟩

/-- A pass of the next state is one of the last state's, or what the step made of it, or new. -/
theorem StepKind.pass (hstep : StepKind table maxAttempts s t) {q : RunOnce Data}
    (hq : q ∈ t.passes) :
    (∃ p ∈ s.passes, Continues p q) ∨
      ∃ d locked now, d.maxAttempts = maxAttempts ∧ t = s.lease d locked now ∧
        q = s.opened d locked now := by
  cases hstep with
  | enqueue => exact .inl ⟨q, hq, .refl q⟩
  | idle => exact .inl ⟨q, hq, .refl q⟩
  | lease d locked now htable hshared =>
    rcases List.mem_append.mp hq with hq | hq
    · exact .inl ⟨q, hq, .refl q⟩
    · exact .inr ⟨d, locked, now, hshared, rfl, List.mem_singleton.mp hq⟩
  | call hpass hprogress hgrants hattempts =>
    rcases mem_of_replace hpass hq with rfl | hq
    · exact .inl ⟨_, mem_of_split hpass, continues_setProgress (by simp)⟩
    · exact .inl ⟨q, hq, .refl q⟩
  | answer hpass hprogress hgrants hanswer =>
    rcases mem_of_replace hpass hq with rfl | hq
    · refine .inl ⟨_, mem_of_split hpass, continues_setProgress ?_⟩
      rcases hanswer with ⟨rfl, -⟩ | ⟨rfl, -⟩
      · simp
      · simp
    · exact .inl ⟨q, hq, .refl q⟩
  | settle hpass hgrants hcalled hsettles =>
    rcases mem_of_replace hpass hq with rfl | hq
    · exact .inl ⟨_, mem_of_split hpass, continues_tail _ _⟩
    · exact .inl ⟨q, hq, .refl q⟩
  | leave events hpass hevents => exact .inl ⟨q, mem_of_remove hpass hq, .refl q⟩
  | resolve queue entryId resolution htable => exact .inl ⟨q, hq, .refl q⟩

/-- What a lease finds stays true: the row is there, and everything before it is finished. -/
def Behind (rows : Table Data) (g : Grant Data) : Prop :=
  (∃ r ∈ rows, r.identity = g.entry.identity) ∧ isHead rows g.entry

theorem Behind.mono {rows rows' : Table Data} {g : Grant Data} (h : Behind rows g)
    (hadvances : Advances rows rows') : Behind rows' g := by
  obtain ⟨⟨r, hr, hid⟩, hhead⟩ := h
  obtain ⟨r', hr', hkeeps⟩ := hadvances.exists_kept hr
  exact ⟨⟨r', hr', hkeeps.identity.trans hid⟩, hadvances.isHead hr hid hhead⟩

/-- A leased entry is the row after the lease. -/
theorem mem_batch {d : Dispatcher} {locked : ℕ → Bool} {now : Time} {e : OutboxEntry Data}
    {granted : List ℕ} (h : TableInvariant granted s.rows) (he : e ∈ s.batch d locked now) :
    ∃ r ∈ s.rows, e = grantLease (d.leaseRequest now) r ∧ e ∈ (s.lease d locked now).rows ∧
      eligible d.queue now s.rows r := by
  obtain ⟨ids, hrows, hids, hmem⟩ := leaseBatch_spec d.queue locked (d.leaseRequest now) s.rows
  obtain ⟨r, hr, hgranted, rfl⟩ := (hmem e).mp he
  refine ⟨r, hr, rfl, ?_, h.eligible_of_granted hids hr hgranted⟩
  change _ ∈ (leaseBatch d.queue locked (d.leaseRequest now) s.rows).1
  rw [hrows, Sql.mem_update]
  exact ⟨r, hr, by rw [if_pos (decide_eq_true hgranted)]⟩

theorem behind_step (hshaped : s.Shaped) (h : ∀ p ∈ s.passes, ∀ g ∈ p.grants, Behind s.rows g)
    (hstep : StepKind table maxAttempts s t) : ∀ q ∈ t.passes, ∀ g ∈ q.grants, Behind t.rows g := by
  have hadvances := (hshaped.step hstep).2
  obtain ⟨granted, hrows⟩ := hshaped
  intro q hq g hg
  rcases hstep.pass hq with ⟨p, hp, hcontinues⟩ | ⟨d, locked, now, -, rfl, rfl⟩
  · exact (h p hp g (hcontinues.grants hg)).mono hadvances
  · obtain ⟨-, -, -, hentry⟩ := mem_grantsFrom hg
    obtain ⟨r, hr, heq, hmem, heligible⟩ := mem_batch hrows hentry
    refine Behind.mono ⟨⟨r, hr, ?_⟩, ?_⟩ hadvances
    · rw [heq, grantLease_identity]
    · rw [heq]
      exact (eligible_spec heligible).2.2

/-- An entry is done because a publish call for it returned. -/
structure Delivered (s : Dispatch Data) : Prop where
  returned : ∀ p ∈ s.passes, p.progress = .returned → ∀ g rest, p.grants = g :: rest →
    .returned g ∈ s.log
  done : ∀ e ∈ s.rows, e.status = .done →
    ∃ g, g.entry.entryId = e.entryId ∧ .returned g ∈ s.log

theorem holds_spec {p : RunOnce Data} {g : Grant Data} {e : OutboxEntry Data}
    (h : p.holds g e) : e.entryId = g.entry.entryId ∧ e.status = .leased ∧
      e.leasedBy = some p.dispatcher.workerId := by
  obtain ⟨hid, hstatus, hworker, -⟩ := heldBy_spec h
  exact ⟨entryIdOf_toString hid.symm, hstatus, hworker⟩

theorem resolveEntry_status_ne (resolution : DeadLetterResolution) (e : OutboxEntry Data) :
    (resolveEntry resolution e).status ≠ .done ∧ (resolveEntry resolution e).status ≠ .leased := by
  unfold resolveEntry
  split <;> simp

theorem Delivered.step (h : Delivered s) (hstep : StepKind table maxAttempts s t) :
    Delivered t := by
  cases hstep with
  | enqueue entryId consumer envelope at_ hfresh =>
    refine ⟨h.returned, ?_⟩
    intro e he hdone
    rcases List.mem_append.mp he with he | he
    · exact h.done e he hdone
    · rw [List.mem_singleton.mp he] at hdone
      cases hdone
  | idle => exact h
  | lease d locked now htable hshared =>
    refine ⟨?_, ?_⟩
    · intro p hp hprogress g rest hgrants
      rcases List.mem_append.mp hp with hp | hp
      · exact List.mem_append_left _ (h.returned p hp hprogress g rest hgrants)
      · rw [List.mem_singleton.mp hp] at hprogress
        cases hprogress
    · intro e he hdone
      obtain ⟨ids, hrows, -, -⟩ := leaseBatch_spec d.queue locked (d.leaseRequest now) s.rows
      change e ∈ (leaseBatch d.queue locked (d.leaseRequest now) s.rows).1 at he
      rw [hrows, Sql.mem_update] at he
      obtain ⟨old, hold, rfl⟩ := he
      split_ifs at hdone ⊢
      · cases hdone
      · obtain ⟨g, hid, hmem⟩ := h.done old hold hdone
        exact ⟨g, hid, List.mem_append_left _ hmem⟩
  | call hpass hprogress hgrants hattempts =>
    refine ⟨?_, fun e he hdone => ?_⟩
    · intro q hq hreturned g rest hq'
      rcases mem_of_replace hpass hq with rfl | hq
      · cases hreturned
      · exact List.mem_append_left _ (h.returned q hq hreturned g rest hq')
    · obtain ⟨g, hid, hmem⟩ := h.done e he hdone
      exact ⟨g, hid, List.mem_append_left _ hmem⟩
  | answer hpass hprogress hgrants hanswer =>
    refine ⟨?_, fun e he hdone => ?_⟩
    · intro q hq hreturned g' rest' hq'
      rcases mem_of_replace hpass hq with rfl | hq
      · rcases hanswer with ⟨-, rfl⟩ | ⟨rfl, -⟩
        · rw [hgrants] at hq'
          cases hq'
          exact List.mem_append_right _ (List.mem_singleton.mpr rfl)
        · cases hreturned
      · exact List.mem_append_left _ (h.returned q hq hreturned g' rest' hq')
    · obtain ⟨g, hid, hmem⟩ := h.done e he hdone
      exact ⟨g, hid, List.mem_append_left _ hmem⟩
  | settle hpass hgrants hcalled hsettles =>
    refine ⟨?_, ?_⟩
    · intro q hq hreturned g' rest' hq'
      rcases mem_of_replace hpass hq with rfl | hq
      · cases hreturned
      · exact List.mem_append_left _ (h.returned q hq hreturned g' rest' hq')
    · intro e he hdone
      obtain ⟨old, hold, rfl⟩ := Sql.mem_update.mp he
      split_ifs at hdone ⊢ with hholds
      · refine ⟨_, ?_, List.mem_append_left _
          (h.returned _ (mem_of_split hpass) (hsettles.done old hdone) _ _ hgrants)⟩
        rw [entryId_of_identity (hsettles.identity old), (holds_spec hholds).1]
      · obtain ⟨g, hid, hmem⟩ := h.done old hold hdone
        exact ⟨g, hid, List.mem_append_left _ hmem⟩
  | leave events hpass hevents =>
    refine ⟨?_, fun e he hdone => ?_⟩
    · intro q hq hreturned g rest hq'
      exact List.mem_append_left _ (h.returned q (mem_of_remove hpass hq) hreturned g rest hq')
    · obtain ⟨g, hid, hmem⟩ := h.done e he hdone
      exact ⟨g, hid, List.mem_append_left _ hmem⟩
  | resolve queue entryId resolution htable =>
    refine ⟨?_, ?_⟩
    · intro q hq hreturned g rest hq'
      exact List.mem_append_left _ (h.returned q hq hreturned g rest hq')
    · intro e he hdone
      obtain ⟨old, hold, rfl⟩ := Sql.mem_update.mp he
      split_ifs at hdone ⊢
      · exact absurd hdone (resolveEntry_status_ne resolution old).1
      · obtain ⟨g, hid, hmem⟩ := h.done old hold hdone
        exact ⟨g, hid, List.mem_append_left _ hmem⟩

section Budget

variable {id : ℕ}

def DispatchEvent.isCall (id : ℕ) : DispatchEvent Data → Bool
  | .called g => g.entry.entryId == id
  | _ => false

def DispatchEvent.isRequeue (id : ℕ) : DispatchEvent Data → Bool
  | .resolved entryId resolution => entryId == id && resolution.action == .requeue
  | _ => false

/-- The publish calls for an entry, and its requeues. -/
def calls (id : ℕ) (log : List (DispatchEvent Data)) : ℕ := log.countP (DispatchEvent.isCall id)

def requeues (id : ℕ) (log : List (DispatchEvent Data)) : ℕ :=
  log.countP (DispatchEvent.isRequeue id)

/-- A lease on the entry that a call will be made for. -/
def Grant.callable (maxAttempts id : ℕ) (g : Grant Data) : Bool :=
  g.entry.entryId == id && decide (g.entry.attempts ≤ maxAttempts)

def RunOnce.waiting (maxAttempts id : ℕ) (p : RunOnce Data) : ℕ :=
  p.uncalled.countP (Grant.callable maxAttempts id)

/-- The calls for an entry that may still come from the leases there are. -/
def waiting (maxAttempts id : ℕ) (passes : List (RunOnce Data)) : ℕ :=
  (passes.map (RunOnce.waiting maxAttempts id)).sum

/-- The attempts counted on the entry. -/
def spent (id : ℕ) (rows : Table Data) : ℕ :=
  (rows.find? fun e => e.entryId == id).elim 0 OutboxEntry.attempts

theorem waiting_split (before after : List (RunOnce Data)) (p : RunOnce Data) :
    waiting maxAttempts id (before ++ p :: after) =
      waiting maxAttempts id (before ++ after) + p.waiting maxAttempts id := by
  unfold waiting
  simp only [List.map_append, List.map_cons, List.sum_append, List.sum_cons]
  omega

theorem spent_update {rows : Table Data} {selects : OutboxEntry Data → Bool}
    {set : OutboxEntry Data → OutboxEntry Data} (hid : ∀ e, (set e).identity = e.identity) :
    spent id (Sql.update selects set rows) =
      (rows.find? fun e => e.entryId == id).elim 0 fun e =>
        if selects e then (set e).attempts else e.attempts := by
  unfold spent Sql.update
  rw [List.find?_map]
  have hsame : ((fun e : OutboxEntry Data => e.entryId == id) ∘
      fun e => if selects e then set e else e) = fun e => e.entryId == id := by
    funext e
    simp only [Function.comp_apply]
    split_ifs
    · rw [entryId_of_identity (hid e)]
    · rfl
  rw [hsame]
  cases rows.find? fun e => e.entryId == id with
  | none => rfl
  | some e =>
    simp only [Option.map_some, Option.elim_some]
    split_ifs <;> rfl

theorem spent_append_new {rows : Table Data} (entryId : ℕ) (consumer : Option Consumer)
    (envelope : EventEnvelope Data) (at_ : Time) :
    spent id (rows ++ [newEntry entryId consumer envelope at_]) = spent id rows := by
  unfold spent
  rw [List.find?_append]
  cases rows.find? fun e => e.entryId == id with
  | some e => rfl
  | none =>
    rw [Option.none_or, List.find?_singleton]
    split_ifs <;> rfl

theorem spent_of_mem {granted : List ℕ} {rows : Table Data} (h : TableInvariant granted rows)
    {e : OutboxEntry Data} (he : e ∈ rows) : spent e.entryId rows = e.attempts := by
  unfold spent
  cases hfind : rows.find? fun r => r.entryId == e.entryId with
  | none =>
    have := List.find?_eq_none.mp hfind e he
    simp at this
  | some r =>
    have hid : r.entryId = e.entryId := by simpa using List.find?_some hfind
    rw [Sql.eq_of_key_eq h.ids (List.mem_of_find?_eq_some hfind) he hid]
    rfl

/-- The attempts pay for the calls. -/
def Budgeted (maxAttempts : ℕ) (s : Dispatch Data) : Prop :=
  ∀ id, calls id s.log + waiting maxAttempts id s.passes ≤
    maxAttempts * requeues id s.log + min maxAttempts (spent id s.rows)

/-- A batch holds at most one lease on the entry, and the row counts it. -/
theorem batch_budget (maxAttempts id : ℕ) {granted : List ℕ} (h : TableInvariant granted s.rows)
    (d : Dispatcher) (locked : ℕ → Bool) (now : Time) :
    (s.batch d locked now).countP
        (fun e => e.entryId == id && decide (e.attempts ≤ maxAttempts)) +
      min maxAttempts (spent id s.rows) ≤
    min maxAttempts (spent id (s.lease d locked now).rows) := by
  have hnodup := h.nodup_leased d.queue locked (d.leaseRequest now)
  have hone : (s.batch d locked now).countP
      (fun e => e.entryId == id && decide (e.attempts ≤ maxAttempts)) ≤ 1 := by
    refine le_trans ?_ (List.nodup_iff_count_le_one.mp hnodup id)
    rw [List.count, List.countP_map]
    apply List.countP_mono_left
    intro e _ he
    exact (Bool.and_eq_true_iff.mp he).1
  rcases Nat.eq_zero_or_pos ((s.batch d locked now).countP
    (fun e => e.entryId == id && decide (e.attempts ≤ maxAttempts))) with hzero | hpos
  · rw [hzero, Nat.zero_add]
    obtain ⟨ids, hrows, -, -⟩ := leaseBatch_spec d.queue locked (d.leaseRequest now) s.rows
    have hspent : spent id s.rows ≤ spent id (s.lease d locked now).rows := by
      change _ ≤ spent id (leaseBatch d.queue locked (d.leaseRequest now) s.rows).1
      rw [hrows, spent_update (grantLease_identity _)]
      unfold spent
      cases s.rows.find? fun e => e.entryId == id with
      | none => exact le_rfl
      | some e =>
        simp only [Option.elim_some]
        split_ifs
        · exact Nat.le_succ _
        · exact le_rfl
    omega
  · obtain ⟨e, he, hcounted⟩ := List.countP_pos_iff.mp hpos
    rw [Bool.and_eq_true, beq_iff_eq, decide_eq_true_eq] at hcounted
    obtain ⟨rfl, hattempts⟩ := hcounted
    obtain ⟨r, hr, heq, hmem, -⟩ := mem_batch h he
    have hbefore : spent e.entryId s.rows = r.attempts := by
      rw [show e.entryId = r.entryId from heq ▸ rfl]
      exact spent_of_mem h hr
    have hafter : spent e.entryId (s.lease d locked now).rows = e.attempts :=
      spent_of_mem (h.leaseBatch d.queue locked (d.leaseRequest now)) hmem
    have hsucc : e.attempts = r.attempts + 1 := heq ▸ rfl
    omega

theorem waiting_opened (d : Dispatcher) (locked : ℕ → Bool) (now : Time) :
    (s.opened d locked now).waiting maxAttempts id =
      (s.batch d locked now).countP
        (fun e => e.entryId == id && decide (e.attempts ≤ maxAttempts)) := by
  unfold RunOnce.waiting RunOnce.uncalled Dispatch.opened
  rw [if_pos rfl]
  conv_rhs => rw [← map_entry_grantsFrom d.workerId s.grants (s.batch d locked now),
    List.countP_map]
  rfl

theorem calls_append (log events : List (DispatchEvent Data)) :
    calls id (log ++ events) = calls id log + calls id events := List.countP_append

theorem requeues_append (log events : List (DispatchEvent Data)) :
    requeues id (log ++ events) = requeues id log + requeues id events := List.countP_append

theorem calls_granted (grants : List (Grant Data)) :
    calls id (grants.map DispatchEvent.granted) = 0 := by
  unfold calls
  rw [List.countP_eq_zero]
  intro event hevent
  obtain ⟨g, -, rfl⟩ := List.mem_map.mp hevent
  simp [DispatchEvent.isCall]

/-- A call uses up a lease; the other steps make no call. -/
theorem waiting_replace {before after : List (RunOnce Data)} {p p' : RunOnce Data}
    (hpass : s.passes = before ++ p :: after)
    (h : p'.waiting maxAttempts id ≤ p.waiting maxAttempts id) :
    waiting maxAttempts id (before ++ p' :: after) ≤ waiting maxAttempts id s.passes := by
  rw [hpass, waiting_split, waiting_split]
  omega

/-- A dead letter that a resolution selects is the one it reports. -/
theorem resolveDeadLetter_isSome {granted : List ℕ} {rows : Table Data}
    (h : TableInvariant granted rows) {queue : QueueSelector} {entryId : String}
    {e : OutboxEntry Data} (he : e ∈ rows) (hdead : deadLetter queue (entryIdOf entryId) e)
    (resolution : DeadLetterResolution) :
    (resolveDeadLetter queue entryId resolution rows).2.isSome := by
  have hone : Sql.rowCount (deadLetter queue (entryIdOf entryId)) rows = 1 := by
    have hle : Sql.rowCount (deadLetter queue (entryIdOf entryId)) rows ≤ 1 := by
      refine Sql.rowCount_le_one (k := e.entryId) h.ids ?_
      intro row hrow
      exact Option.some.inj ((deadLetter_spec hrow).1.trans (deadLetter_spec hdead).1.symm)
    have hpos : 0 < Sql.rowCount (deadLetter queue (entryIdOf entryId)) rows :=
      List.countP_pos_iff.mpr ⟨e, he, hdead⟩
    omega
  unfold resolveDeadLetter
  dsimp only
  rw [if_pos hone, Option.isSome_map, List.isSome_head?]
  unfold Sql.returning
  rw [ne_eq, List.map_eq_nil_iff, List.filter_eq_nil_iff]
  intro hnone
  exact hnone e he hdead

theorem resolve_budget (maxAttempts id : ℕ) {granted : List ℕ} (h : TableInvariant granted s.rows)
    (queue : QueueSelector) (entryId : String) (resolution : DeadLetterResolution) :
    maxAttempts * requeues id s.log + min maxAttempts (spent id s.rows) ≤
      maxAttempts * requeues id (s.resolve queue entryId resolution).log +
        min maxAttempts (spent id (s.resolve queue entryId resolution).rows) := by
  have hlog : requeues id s.log ≤ requeues id (s.resolve queue entryId resolution).log := by
    unfold Dispatch.resolve
    dsimp only
    rw [requeues_append]
    exact Nat.le_add_right _ _
  have hmul := Nat.mul_le_mul_left maxAttempts hlog
  have hspent : spent id (s.resolve queue entryId resolution).rows = _ :=
    spent_update (resolveEntry_identity resolution)
  rw [hspent]
  unfold spent
  cases hfind : s.rows.find? fun e => e.entryId == id with
  | none =>
    simp only [Option.elim_none]
    omega
  | some e =>
    simp only [Option.elim_some]
    split_ifs with hdead
    · have he := List.mem_of_find?_eq_some hfind
      have hid : e.entryId = id := by simpa using List.find?_some hfind
      cases haction : resolution.action with
      | skip =>
        have hkept : (resolveEntry resolution e).attempts = e.attempts := by
          unfold resolveEntry
          rw [haction]
        rw [hkept]
        omega
      | requeue =>
        have hevents : (s.resolve queue entryId resolution).log =
            s.log ++ [.resolved id resolution] := by
          unfold Dispatch.resolve
          dsimp only
          rw [if_pos (resolveDeadLetter_isSome h he hdead resolution),
            ← (deadLetter_spec hdead).1, hid]
          rfl
        have hone : requeues id [(.resolved id resolution : DispatchEvent Data)] = 1 := by
          simp [requeues, DispatchEvent.isRequeue, haction]
        rw [hevents, requeues_append, hone, Nat.mul_add]
        omega
    · omega

theorem Budgeted.step (hshaped : s.Shaped)
    (hshared : ∀ p ∈ s.passes, p.dispatcher.maxAttempts = maxAttempts)
    (h : Budgeted maxAttempts s) (hstep : StepKind table maxAttempts s t) :
    Budgeted maxAttempts t := by
  obtain ⟨granted, hrows⟩ := hshaped
  intro id
  have hid := h id
  cases hstep with
  | enqueue entryId consumer envelope at_ hfresh =>
    dsimp only
    rwa [spent_append_new]
  | idle => exact hid
  | lease d locked now htable hshared' =>
    have hbatch := batch_budget maxAttempts id hrows d locked now
    have hpasses : waiting maxAttempts id (s.lease d locked now).passes =
        waiting maxAttempts id s.passes + (s.opened d locked now).waiting maxAttempts id := by
      change waiting maxAttempts id (s.passes ++ [s.opened d locked now]) = _
      rw [waiting_split, List.append_nil]
    have hlog : (s.lease d locked now).log = s.log ++
        (s.opened d locked now).grants.map DispatchEvent.granted := rfl
    rw [hpasses, waiting_opened, hlog, calls_append, calls_granted, requeues_append, Nat.mul_add]
    omega
  | @call before after p g rest hpass hprogress hgrants hattempts =>
    rw [hshared p (mem_of_split hpass)] at hattempts
    rw [hpass, waiting_split] at hid
    -- the lease the call is made for is no longer waiting
    have hcall : calls id [.called g] + ({ p with progress := .handingOver } : RunOnce Data).waiting
        maxAttempts id = p.waiting maxAttempts id := by
      unfold RunOnce.waiting RunOnce.uncalled
      rw [if_pos hprogress, if_neg (by simp), hgrants, List.tail_cons, List.countP_cons]
      simp [calls, DispatchEvent.isCall, Grant.callable, hattempts, List.countP_cons, Nat.add_comm]
    unfold Dispatch.setProgress
    dsimp only
    rw [waiting_split, calls_append, requeues_append, Nat.mul_add]
    omega
  | @answer before after p g rest progress event hpass hprogress hgrants hanswer =>
    have hwaiting : ({ p with progress := progress } : RunOnce Data).waiting maxAttempts id ≤
        p.waiting maxAttempts id := by
      unfold RunOnce.waiting RunOnce.uncalled
      rcases hanswer with ⟨rfl, -⟩ | ⟨rfl, -⟩
      · simp [hprogress]
      · simp [hprogress]
    have hevent : calls id [event] = 0 := by
      rcases hanswer with ⟨-, rfl⟩ | ⟨-, rfl⟩
      · rfl
      · rfl
    have hpasses := waiting_replace hpass hwaiting
    unfold Dispatch.setProgress
    dsimp only
    rw [calls_append, hevent, requeues_append, Nat.mul_add]
    omega
  | @settle before after p g rest set counted hpass hgrants hcalled hsettles =>
    have hwaiting : ∀ report, (⟨p.dispatcher, p.grants.tail, .next, report⟩ : RunOnce Data).waiting
        maxAttempts id ≤ p.waiting maxAttempts id := by
      intro report
      unfold RunOnce.waiting RunOnce.uncalled
      rw [if_pos rfl, hgrants]
      split_ifs
      · exact (List.sublist_cons_self g rest).countP_le
      · exact le_rfl
    have hspent : spent id (Sql.update (p.holds g) set s.rows) = spent id s.rows := by
      rw [spent_update hsettles.identity]
      unfold spent
      simp only [hsettles.attempts, ite_self]
    unfold Dispatch.settle Dispatch.record
    dsimp only
    rw [calls_append, requeues_append, Nat.mul_add, hspent]
    have hevent : calls id [.recorded g (Sql.rowCount (p.holds g) s.rows == 1)] = 0 := rfl
    rw [hevent]
    refine le_trans (Nat.add_le_add_left (waiting_replace hpass (hwaiting _)) _) ?_
    omega
  | @leave before after p events hpass hevents =>
    rw [hpass, waiting_split] at hid
    have hcalls : calls id events = 0 := by
      rcases hevents with rfl | ⟨-, rfl⟩
      · rfl
      · rfl
    dsimp only
    rw [calls_append, hcalls, requeues_append, Nat.mul_add]
    omega
  | resolve queue entryId resolution htable =>
    have hcalls : calls id (s.resolve queue entryId resolution).log = calls id s.log := by
      rcases resolve_log s queue entryId resolution with heq | ⟨e, -, -, heq⟩
      · rw [heq]
      · rw [heq, calls_append]
        rfl
    have hresolve := resolve_budget maxAttempts id hrows queue entryId resolution
    have hpasses : (s.resolve queue entryId resolution).passes = s.passes := rfl
    rw [hcalls, hpasses]
    omega

end Budget

structure DispatchInvariant (maxAttempts : ℕ) (s : Dispatch Data) : Prop where
  shaped : s.Shaped
  shared : ∀ p ∈ s.passes, p.dispatcher.maxAttempts = maxAttempts
  behind : ∀ p ∈ s.passes, ∀ g ∈ p.grants, Behind s.rows g
  delivered : Delivered s
  budgeted : Budgeted maxAttempts s

theorem DispatchInvariant.empty : DispatchInvariant maxAttempts (Dispatch.empty : Dispatch Data) where
  shaped := ⟨[], .nil, by simp, .nil, by simp [Dispatch.empty]⟩
  shared := by simp [Dispatch.empty]
  behind := by simp [Dispatch.empty]
  delivered := ⟨by simp [Dispatch.empty], by simp [Dispatch.empty]⟩
  budgeted _ := Nat.zero_le _

theorem DispatchInvariant.step (h : DispatchInvariant maxAttempts s)
    (hstep : DispatchStep table maxAttempts s t) : DispatchInvariant maxAttempts t where
  shaped := (h.shaped.step hstep.kind).1
  shared := by
    intro q hq
    rcases hstep.kind.pass hq with ⟨p, hp, hcontinues⟩ | ⟨d, locked, now, hshared, -, rfl⟩
    · rw [hcontinues.dispatcher]
      exact h.shared p hp
    · exact hshared
  behind := behind_step h.shaped h.behind hstep.kind
  delivered := h.delivered.step hstep.kind
  budgeted := h.budgeted.step h.shaped h.shared hstep.kind

theorem DispatchInvariant.run (h : DispatchInvariant maxAttempts s)
    (hrun : DispatchRun table maxAttempts s t) : DispatchInvariant maxAttempts t := by
  induction hrun with
  | refl => exact h
  | tail _ hstep ih => exact ih.step hstep

/-- The lease a publish call is made for, at the head of what its pass has left. -/
theorem StepKind.called {g : Grant Data} (hstep : StepKind table maxAttempts s t)
    (hlog : t.log = s.log ++ [.called g]) : ∃ p ∈ s.passes, ∃ rest, p.grants = g :: rest ∧
      p.progress = .next ∧ g.entry.attempts ≤ p.dispatcher.maxAttempts := by
  cases hstep with
  | enqueue => simp at hlog
  | idle => simp at hlog
  | lease d locked now htable hshared =>
    have hgrants := List.append_cancel_left hlog
    cases hbatch : (s.opened d locked now).grants with
    | nil =>
      change (s.opened d locked now).grants.map DispatchEvent.granted = _ at hgrants
      rw [hbatch] at hgrants
      cases hgrants
    | cons g' rest =>
      change (s.opened d locked now).grants.map DispatchEvent.granted = _ at hgrants
      rw [hbatch] at hgrants
      cases hgrants
  | call hpass hprogress hgrants hattempts =>
    have hevent := List.append_cancel_left hlog
    cases hevent
    exact ⟨_, mem_of_split hpass, _, hgrants, hprogress, hattempts⟩
  | answer hpass hprogress hgrants hanswer =>
    have hevent := List.append_cancel_left hlog
    rcases hanswer with ⟨-, rfl⟩ | ⟨-, rfl⟩
    · cases hevent
    · cases hevent
  | settle hpass hgrants hcalled hsettles =>
    have hevent := List.append_cancel_left hlog
    cases hevent
  | leave events hpass hevents =>
    have hevent := List.append_cancel_left hlog
    rcases hevents with rfl | ⟨-, rfl⟩
    · cases hevent
    · cases hevent
  | resolve queue entryId resolution htable =>
    rcases resolve_log s queue entryId resolution with heq | ⟨e, -, -, heq⟩
    · simp [heq] at hlog
    · simp [heq] at hlog

/-- At a publish call every earlier entry of the stream is skipped, or published after a call for it
returned; and an entry's calls stay within the attempts of its first time in the queue and of its
requeues. -/
theorem publish_in_order_within_budget (hrun : DispatchRun table maxAttempts .empty s) :
    (∀ t g, DispatchStep table maxAttempts s t → t.log = s.log ++ [.called g] →
      ∀ earlier ∈ s.rows, earlier.stream = g.entry.stream →
        earlier.entryId < g.entry.entryId →
        earlier.status = .skipped ∨
          earlier.status = .done ∧
            ∃ g', g'.entry.entryId = earlier.entryId ∧ .returned g' ∈ s.log) ∧
    ∀ id, calls id s.log ≤ maxAttempts * (1 + requeues id s.log) := by
  have h := DispatchInvariant.empty.run hrun
  refine ⟨?_, ?_⟩
  · intro t g hstep hlog earlier hearlier hstream hlt
    obtain ⟨p, hp, rest, hgrants, -⟩ := hstep.kind.called hlog
    have hhead := (h.behind p hp g (by simp [hgrants])).2
    have hfinished := isHead_iff.mp hhead earlier hearlier hstream hlt
    rcases finished_iff.mp hfinished with hdone | hskipped
    · exact .inr ⟨hdone, h.delivered.done earlier hearlier hdone⟩
    · exact .inl hskipped
  · intro id
    have hbudget := h.budgeted id
    rw [Nat.mul_add]
    omega

theorem OnePassRun.dispatchRun (h : OnePassRun table maxAttempts s t) :
    DispatchRun table maxAttempts s t :=
  h.lift id fun _ _ hstep => hstep.1

section SlowWorker

theorem leaseBatch_two {queue : QueueSelector} {request : LeaseRequest} {a b : OutboxEntry Data}
    (hlimit : request.limit.integer? = some 50) (hlt : a.entryId < b.entryId)
    (ha : eligible queue request.now [a, b] a) (hb : eligible queue request.now [a, b] b) :
    leaseBatch queue (fun _ => false) request [a, b] =
      ([grantLease request a, grantLease request b],
        [grantLease request a, grantLease request b]) := by
  have hcandidates : candidates queue (fun _ => false) request.now 50 [a, b] =
      [a.entryId, b.entryId] := by
    unfold candidates
    have hfilter : ([a, b].filter fun e => eligible queue request.now [a, b] e && !false) =
        [a, b] := by simp [ha, hb]
    rw [hfilter, List.mergeSort_of_pairwise (by simp [hlt.le])]
    rfl
  have hsorted : ([grantLease request a, grantLease request b].mergeSort
      fun left right => left.entryId ≤ right.entryId) =
      [grantLease request a, grantLease request b] :=
    List.mergeSort_of_pairwise (by simpa [grantLease] using hlt.le)
  unfold leaseBatch
  rw [hlimit]
  simp only [show ¬ (50 : ℤ) < 1 by norm_num, if_false, show (50 : ℤ).toNat = 50 from rfl,
    hcandidates]
  simp [Sql.update, Sql.returning, hsorted]

def slowEnvelope (aggregate : String) : EventEnvelope Unit :=
  { sampleEnvelope with id := aggregate, aggregate_id := aggregate }

def slowEntry (entryId : ℕ) (aggregate : String) : OutboxEntry Unit :=
  newEntry entryId none (slowEnvelope aggregate) 0

def slowWorker (workerId : WorkerId) : Dispatcher :=
  { queue := .outbox, workerId := workerId, maxAttempts := 1 }

/-- What the worker gets from a lease on two rows. -/
theorem lease_two {s : Dispatch Unit} {a b : OutboxEntry Unit} (workerId : WorkerId) (now : Time)
    (hrows : s.rows = [a, b]) (hlt : a.entryId < b.entryId)
    (ha : eligible .outbox now [a, b] a) (hb : eligible .outbox now [a, b] b) :
    let request := (slowWorker workerId).leaseRequest now
    let grants := grantsFrom workerId s.grants [grantLease request a, grantLease request b]
    s.lease (slowWorker workerId) (fun _ => false) now =
      { rows := [grantLease request a, grantLease request b]
        passes := s.passes ++ [⟨slowWorker workerId, grants, .next, { leased := 2 }⟩]
        grants := s.grants + 2
        log := s.log ++ grants.map .granted } := by
  have hbatch : leaseBatch (slowWorker workerId).queue (fun _ => false)
      ((slowWorker workerId).leaseRequest now) s.rows = _ :=
    hrows ▸ leaseBatch_two (Js.Number.integer?_ofNat (by norm_num)) hlt ha hb
  unfold Dispatch.lease
  rw [hbatch]
  rfl

def slowLeased (workerId : WorkerId) (now : Time) (e : OutboxEntry Unit) : OutboxEntry Unit :=
  grantLease ((slowWorker workerId).leaseRequest now) e

/-- The slow worker's pass over the two entries, with the first in its hands. -/
def slowPass (progress : Progress) : RunOnce Unit where
  dispatcher := slowWorker "slow"
  grants := grantsFrom "slow" 0
    [slowLeased "slow" 0 (slowEntry 1 "a"), slowLeased "slow" 0 (slowEntry 2 "b")]
  progress := progress
  report := { leased := 2 }

/-- The slow worker is still publishing the first entry of its batch. -/
theorem slow_run : ∃ s : Dispatch Unit, OnePassRun .outbox_event 1 .empty s ∧
    s.rows = [slowLeased "slow" 0 (slowEntry 1 "a"), slowLeased "slow" 0 (slowEntry 2 "b")] ∧
    s.passes = [slowPass .handingOver] ∧ calls 1 s.log = 1 := by
  have h₁ : OnePassRun .outbox_event 1 .empty
      (⟨[slowEntry 1 "a"], [], 0, []⟩ : Dispatch Unit) :=
    .single ⟨.append 1 (slowEnvelope "a") rfl (by simp [FreshEntry, Dispatch.empty]) (by decide),
      .nil⟩
  have h₂ : OnePassRun .outbox_event 1 .empty
      (⟨[slowEntry 1 "a", slowEntry 2 "b"], [], 0, []⟩ : Dispatch Unit) :=
    h₁.tail ⟨.append 2 (slowEnvelope "b") rfl (by simp [FreshEntry, slowEntry, newEntry])
      (by decide), .nil⟩
  have h₃ := h₂.tail ⟨.lease (slowWorker "slow") (fun _ => false) 0 rfl rfl,
    List.pairwise_singleton _ _⟩
  rw [lease_two "slow" 0 rfl (by decide) (by decide) (by decide)] at h₃
  have h₄ := h₃.tail ⟨.call (List.nil_append _).symm rfl rfl (by decide),
    List.pairwise_singleton _ _⟩
  exact ⟨_, h₄, rfl, rfl, rfl⟩

theorem publish_in_order_within_budget_slow : ∃ s : Dispatch Unit, calls 1 s.log = 1 ∧
    calls 1 s.log ≤ 1 * (1 + requeues 1 s.log) := by
  obtain ⟨s, hrun, -, -, hcalls⟩ := slow_run
  exact ⟨s, hcalls, (publish_in_order_within_budget hrun.dispatchRun).2 1⟩

end SlowWorker

end Sintius.Outbox
