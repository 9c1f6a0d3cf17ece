import Mathlib
import Sintius.Lib.Table
import Sintius.Spec.Queue
import Sintius.Spec.Relay
import Sintius.Spec.Dispatch
import Sintius.Sanity.Queue
import Sintius.Proofs.Queue

/-! What a pass does to the table and to the log, step by step. To the table its
steps are statements of the queue, so the rows keep the shape of the queue. -/

namespace Sintius.Outbox

variable {Data : Type} {s t : Dispatch Data} {table : QueueTable} {maxAttempts : ℕ}

section Grants

variable {workerId : WorkerId} {first : ℕ} {entries : List (OutboxEntry Data)} {g : Grant Data}

theorem map_entry_grantsFrom (workerId : WorkerId) (first : ℕ) (entries : List (OutboxEntry Data)) :
    (grantsFrom workerId first entries).map Grant.entry = entries := by
  induction entries generalizing first with
  | nil => rfl
  | cons e es ih => rw [grantsFrom, List.map_cons, ih]

theorem mem_grantsFrom (h : g ∈ grantsFrom workerId first entries) :
    g.workerId = workerId ∧ first ≤ g.number ∧ g.number < first + entries.length ∧
      g.entry ∈ entries := by
  induction entries generalizing first with
  | nil => cases h
  | cons e es ih =>
    rcases List.mem_cons.mp h with rfl | h
    · simp
    · obtain ⟨hworker, hfirst, hlast, hmem⟩ := ih h
      refine ⟨hworker, by omega, ?_, List.mem_cons_of_mem _ hmem⟩
      rw [List.length_cons]
      omega

theorem nodup_number_grantsFrom (workerId : WorkerId) (first : ℕ)
    (entries : List (OutboxEntry Data)) :
    ((grantsFrom workerId first entries).map Grant.number).Nodup := by
  induction entries generalizing first with
  | nil => exact .nil
  | cons e es ih =>
    rw [grantsFrom, List.map_cons, List.nodup_cons]
    refine ⟨?_, ih _⟩
    intro hmem
    obtain ⟨g, hg, hnumber⟩ := List.mem_map.mp hmem
    have := (mem_grantsFrom hg).2.1
    dsimp only at hnumber
    omega

theorem length_grantsFrom (workerId : WorkerId) (first : ℕ) (entries : List (OutboxEntry Data)) :
    (grantsFrom workerId first entries).length = entries.length := by
  rw [← List.length_map Grant.entry, map_entry_grantsFrom]

/-- A batch holds each entry once. -/
theorem TableInvariant.nodup_leased {granted : List ℕ} {rows : Table Data}
    (h : TableInvariant granted rows) (queue : QueueSelector) (locked : ℕ → Bool)
    (request : LeaseRequest) :
    ((Outbox.leaseBatch queue locked request rows).2.map OutboxEntry.entryId).Nodup := by
  unfold Outbox.leaseBatch
  split
  · exact .nil
  split_ifs
  · exact .nil
  rw [((List.mergeSort_perm _ _).map _).nodup_iff]
  unfold Sql.returning
  rw [List.map_map]
  have hids : (rows.map OutboxEntry.entryId).Nodup := List.pairwise_map.mpr h.ids
  exact (List.filter_sublist.map _).nodup hids

end Grants

section Passes

variable {before after : List (RunOnce Data)} {p p' q : RunOnce Data}

theorem mem_of_split {passes : List (RunOnce Data)} (hpass : passes = before ++ p :: after) :
    p ∈ passes := by
  rw [hpass]
  simp

theorem mem_of_replace {passes : List (RunOnce Data)} (hpass : passes = before ++ p :: after)
    (hq : q ∈ before ++ p' :: after) : q = p' ∨ q ∈ passes := by
  rw [hpass]
  simp only [List.mem_append, List.mem_cons] at hq ⊢
  tauto

theorem mem_of_remove {passes : List (RunOnce Data)} (hpass : passes = before ++ p :: after)
    (hq : q ∈ before ++ after) : q ∈ passes := by
  rw [hpass]
  simp only [List.mem_append, List.mem_cons] at hq ⊢
  tauto

end Passes

/-- The leases of a pass that no call has been made for. -/
def RunOnce.uncalled (p : RunOnce Data) : List (Grant Data) :=
  if p.progress = .next then p.grants else p.grants.tail

/-- A pass further on: it has no other leases than before. -/
structure Continues (p q : RunOnce Data) : Prop where
  dispatcher : q.dispatcher = p.dispatcher
  grants : q.grants ⊆ p.grants
  uncalled : q.uncalled ⊆ p.uncalled

theorem Continues.refl (p : RunOnce Data) : Continues p p :=
  ⟨rfl, List.Subset.refl _, List.Subset.refl _⟩

theorem tail_subset_uncalled (p : RunOnce Data) : p.grants.tail ⊆ p.uncalled := by
  unfold RunOnce.uncalled
  split_ifs
  · exact List.tail_subset _
  · exact List.Subset.refl _

theorem continues_setProgress {p : RunOnce Data} {progress : Progress} (h : progress ≠ .next) :
    Continues p { p with progress := progress } := by
  refine ⟨rfl, List.Subset.refl _, ?_⟩
  conv_lhs => rw [RunOnce.uncalled, if_neg h]
  exact tail_subset_uncalled p

theorem continues_tail (p : RunOnce Data) (report : DispatchReport) :
    Continues p ⟨p.dispatcher, p.grants.tail, .next, report⟩ :=
  ⟨rfl, List.tail_subset _, tail_subset_uncalled p⟩

/-- The batch a lease takes, and the pass it opens. -/
def Dispatch.batch (s : Dispatch Data) (d : Dispatcher) (locked : ℕ → Bool) (now : Time) :
    List (OutboxEntry Data) :=
  (leaseBatch d.queue locked (d.leaseRequest now) s.rows).2

def Dispatch.opened (s : Dispatch Data) (d : Dispatcher) (locked : ℕ → Bool) (now : Time) :
    RunOnce Data :=
  ⟨d, grantsFrom d.workerId s.grants (s.batch d locked now), .next,
    { leased := (s.batch d locked now).length }⟩

/-- The rows a statement of the pass for the lease selects. -/
def RunOnce.holds (p : RunOnce Data) (g : Grant Data) : OutboxEntry Data → Bool :=
  heldBy p.dispatcher.queue (entryIdOf (toString g.entry.entryId)) p.dispatcher.workerId

/-- An outcome is recorded where the row is still held. -/
def Dispatch.settle (s : Dispatch Data) (before after : List (RunOnce Data)) (p : RunOnce Data)
    (g : Grant Data) (set : OutboxEntry Data → OutboxEntry Data) (counted : DispatchReport) :
    Dispatch Data :=
  s.record before after p g
    (Sql.update (p.holds g) set s.rows, Sql.rowCount (p.holds g) s.rows == 1) counted

def DispatchReport.total (r : DispatchReport) : ℕ :=
  r.published + r.retried + r.deadLettered + r.leaseLost

/-- The outcomes a pass may record, by where it stands. -/
structure Settles (p : RunOnce Data) (set : OutboxEntry Data → OutboxEntry Data)
    (counted : DispatchReport) : Prop where
  identity : ∀ e, (set e).identity = e.identity
  attempts : ∀ e, (set e).attempts = e.attempts
  released : ∀ e, (set e).status ≠ .leased
  checks : ∀ e, e.status = .leased → CheckConstraints e → CheckConstraints (set e)
  done : ∀ e, (set e).status = .done → p.progress = .returned
  leased : counted.leased = p.report.leased
  total : counted.total = p.report.total + 1

theorem failEntry_status_ne (error : String) (retryAt : Option Time) (e : OutboxEntry Data) :
    (failEntry error retryAt e).status ≠ .leased ∧ (failEntry error retryAt e).status ≠ .done := by
  unfold failEntry
  dsimp only
  split_ifs <;> simp

theorem settles_failEntry {p : RunOnce Data} (error : String) (retryAt : Option Time)
    {counted : DispatchReport} (hleased : counted.leased = p.report.leased)
    (htotal : counted.total = p.report.total + 1) :
    Settles p (failEntry error retryAt) counted where
  identity := failEntry_identity error retryAt
  attempts _ := rfl
  released e := (failEntry_status_ne error retryAt e).1
  checks _ hstatus h := checkConstraints_failEntry error retryAt h hstatus
  done e h := absurd h (failEntry_status_ne error retryAt e).2
  leased := hleased
  total := htotal

/-- Every outcome a step records is one of these. -/
theorem exceed_settles (p : RunOnce Data) :
    Settles p (failEntry "Exceeded maximum delivery attempts." none)
      { p.report with deadLettered := p.report.deadLettered + 1 } := by
  apply settles_failEntry
  · rfl
  · simp only [DispatchReport.total]
    omega

theorem mark_settles {p : RunOnce Data} (now : Time) (h : p.progress = .returned) :
    Settles p (finishEntry now) { p.report with published := p.report.published + 1 } where
  identity := finishEntry_identity now
  attempts _ := rfl
  released _ := by simp [finishEntry]
  checks _ _ h := checkConstraints_finishEntry now h
  done _ _ := h
  leased := rfl
  total := by
    simp only [DispatchReport.total]
    omega

theorem retry_settles (p : RunOnce Data) (g : Grant Data) (error : String) (now : Time) :
    Settles p (failEntry error (p.dispatcher.retryAt g.entry.attempts now))
      (if p.dispatcher.maxAttempts ≤ g.entry.attempts then
        { p.report with deadLettered := p.report.deadLettered + 1 }
      else { p.report with retried := p.report.retried + 1 }) := by
  apply settles_failEntry
  · split_ifs <;> rfl
  · unfold DispatchReport.total
    split_ifs
    · dsimp only
      omega
    · dsimp only
      omega

theorem exists_of_resolveDeadLetter {queue : QueueSelector} {entryId : String}
    {resolution : DeadLetterResolution} {rows : Table Data}
    (h : (resolveDeadLetter queue entryId resolution rows).2.isSome) :
    ∃ e ∈ rows, deadLetter queue (entryIdOf entryId) e := by
  unfold resolveDeadLetter at h
  dsimp only at h
  split_ifs at h with hone
  · exact Sql.exists_of_rowCount_eq_one hone
  · cases h

theorem resolve_log (s : Dispatch Data) (queue : QueueSelector) (entryId : String)
    (resolution : DeadLetterResolution) :
    (s.resolve queue entryId resolution).log = s.log ∨
      ∃ e ∈ s.rows, deadLetter queue (entryIdOf entryId) e ∧
        (s.resolve queue entryId resolution).log = s.log ++ [.resolved e.entryId resolution] := by
  unfold Dispatch.resolve
  dsimp only
  split_ifs with hsome
  · right
    obtain ⟨e, he, hdead⟩ := exists_of_resolveDeadLetter hsome
    refine ⟨e, he, hdead, ?_⟩
    rw [← (deadLetter_spec hdead).1]
    rfl
  · exact .inl (List.append_nil _)

/-- What a step of the dispatcher is: the statement it makes, and what becomes of its pass. -/
inductive StepKind (table : QueueTable) (maxAttempts : ℕ) (s : Dispatch Data) :
    Dispatch Data → Prop where
  | enqueue (entryId : ℕ) (consumer : Option Consumer) (envelope : EventEnvelope Data) (at_ : Time)
      (hfresh : FreshEntry (newEntry entryId consumer envelope at_) s.rows) :
      StepKind table maxAttempts s
        { s with rows := s.rows ++ [newEntry entryId consumer envelope at_] }
  /-- The event is queued already. -/
  | idle : StepKind table maxAttempts s s
  | lease (d : Dispatcher) (locked : ℕ → Bool) (now : Time) (htable : d.queue.table = table)
      (hshared : d.maxAttempts = maxAttempts) :
      StepKind table maxAttempts s (s.lease d locked now)
  | call {before after : List (RunOnce Data)} {p : RunOnce Data} {g : Grant Data}
      {rest : List (Grant Data)} (hpass : s.passes = before ++ p :: after)
      (hprogress : p.progress = .next) (hgrants : p.grants = g :: rest)
      (hattempts : g.entry.attempts ≤ p.dispatcher.maxAttempts) :
      StepKind table maxAttempts s (s.setProgress before after p .handingOver (.called g))
  | answer {before after : List (RunOnce Data)} {p : RunOnce Data} {g : Grant Data}
      {rest : List (Grant Data)} {progress : Progress} {event : DispatchEvent Data}
      (hpass : s.passes = before ++ p :: after) (hprogress : p.progress = .handingOver)
      (hgrants : p.grants = g :: rest)
      (hanswer : progress = .returned ∧ event = .returned g ∨
        progress = .threw ∧ event = .threw g) :
      StepKind table maxAttempts s (s.setProgress before after p progress event)
  | settle {before after : List (RunOnce Data)} {p : RunOnce Data} {g : Grant Data}
      {rest : List (Grant Data)} {set : OutboxEntry Data → OutboxEntry Data}
      {counted : DispatchReport} (hpass : s.passes = before ++ p :: after)
      (hgrants : p.grants = g :: rest)
      (hcalled : p.progress = .next → p.dispatcher.maxAttempts < g.entry.attempts)
      (hsettles : Settles p set counted) :
      StepKind table maxAttempts s (s.settle before after p g set counted)
  | leave {before after : List (RunOnce Data)} {p : RunOnce Data} (events : List (DispatchEvent Data))
      (hpass : s.passes = before ++ p :: after)
      (hevents : events = [] ∨ p.grants = [] ∧ events = [.completed p.report]) :
      StepKind table maxAttempts s { s with passes := before ++ after, log := s.log ++ events }
  | resolve (queue : QueueSelector) (entryId : String) (resolution : DeadLetterResolution)
      (htable : queue.table = table) :
      StepKind table maxAttempts s (s.resolve queue entryId resolution)

theorem DispatchStep.kind (h : DispatchStep table maxAttempts s t) :
    StepKind table maxAttempts s t := by
  cases h with
  | append entryId envelope htable hfresh happend =>
    obtain ⟨rfl, -⟩ := appendOutboxEvent_spec happend
    exact .enqueue _ _ _ _ hfresh
  | insertDelivery entryId consumer envelope now htable hfresh =>
    rcases insertDelivery_spec s.rows entryId consumer envelope now with ⟨-, heq⟩ | ⟨-, heq⟩
    · rw [heq]
      exact .idle
    · rw [heq]
      exact .enqueue _ _ _ _ hfresh
  | lease d locked now htable hshared => exact .lease d locked now htable hshared
  | exceed hpass hprogress hgrants hattempts =>
    exact .settle hpass hgrants (fun _ => hattempts) (exceed_settles _)
  | call hpass hprogress hgrants hattempts => exact .call hpass hprogress hgrants hattempts
  | callReturns hpass hprogress hgrants =>
    exact .answer hpass hprogress hgrants (.inl ⟨rfl, rfl⟩)
  | callThrows hpass hprogress hgrants =>
    exact .answer hpass hprogress hgrants (.inr ⟨rfl, rfl⟩)
  | mark now hpass hprogress hgrants =>
    exact .settle hpass hgrants (by simp [hprogress]) (mark_settles now hprogress)
  | retry error now hpass hprogress hgrants =>
    exact .settle hpass hgrants (by simp [hprogress]) (retry_settles _ _ error now)
  | complete hpass hgrants => exact .leave _ hpass (.inr ⟨hgrants, rfl⟩)
  | crash hpass =>
    rw [← List.append_nil s.log]
    exact .leave [] hpass (.inl rfl)
  | resolveDeadLetter queue entryId resolution htable =>
    exact .resolve queue entryId resolution htable

end Sintius.Outbox
