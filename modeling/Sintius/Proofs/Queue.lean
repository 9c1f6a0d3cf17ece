import Mathlib
import Sintius.Lib.Table
import Sintius.Spec.Queue
import Sintius.Sanity.Queue

/-! The shape of a stream. Of two entries of one stream, the earlier is finished
or the later has never been touched: every statement keeps this, because a lease
goes only to the head of a stream and the other statements only to rows that hold
a lease or are dead. -/

namespace Sintius.Outbox

variable {Data : Type} {rows : Table Data} {granted : List ℕ} {queue : QueueSelector}
  {table : QueueTable}

/-- Pending, with no attempt, and never leased. -/
def Untouched (granted : List ℕ) (e : OutboxEntry Data) : Prop :=
  e.status = .pending ∧ e.attempts = 0 ∧ e.entryId ∉ granted

/-- What holds of an earlier and a later row. -/
def InOrder (granted : List ℕ) (a b : OutboxEntry Data) : Prop :=
  a.stream = b.stream → a.entryId < b.entryId ∧ (a.finished ∨ Untouched granted b)

structure TableInvariant (granted : List ℕ) (rows : Table Data) : Prop where
  ids : rows.Pairwise fun a b => a.entryId ≠ b.entryId
  known : ∀ id ∈ granted, ∃ e ∈ rows, e.entryId = id
  order : rows.Pairwise (InOrder granted)
  checks : ∀ e ∈ rows, CheckConstraints e

theorem checkConstraints_newEntry (entryId : ℕ) (consumer : Option Consumer)
    (envelope : EventEnvelope Data) (at_ : Time) :
    CheckConstraints (newEntry entryId consumer envelope at_) :=
  ⟨by simp [newEntry], by simp [newEntry], by simp [newEntry]⟩

theorem checkConstraints_grantLease {e : OutboxEntry Data} (request : LeaseRequest)
    (h : CheckConstraints e) (hs : e.status ≠ .done) : CheckConstraints (grantLease request e) := by
  refine ⟨by simp [grantLease], ?_, h.last_error_length⟩
  have := h.done_consistency
  simp_all [grantLease]

theorem checkConstraints_finishEntry {e : OutboxEntry Data} (now : Time)
    (h : CheckConstraints e) : CheckConstraints (finishEntry now e) :=
  ⟨by simp [finishEntry], by simp [finishEntry], h.last_error_length⟩

theorem checkConstraints_failEntry {e : OutboxEntry Data} (error : String)
    (retryAt : Option Time) (h : CheckConstraints e) (hs : e.status = .leased) :
    CheckConstraints (failEntry error retryAt e) := by
  have hdone := h.done_consistency
  refine ⟨?_, ?_, ?_⟩
  · cases retryAt <;> simp [failEntry]
  · cases retryAt <;> simp_all [failEntry]
  · intro text htext
    simp only [failEntry, Option.mem_some_iff] at htext
    subst htext
    exact Js.length_slice_le error MAX_ERROR_LENGTH

theorem checkConstraints_resolveEntry {e : OutboxEntry Data} (resolution : DeadLetterResolution)
    (h : CheckConstraints e) (hs : e.status = .dead) :
    CheckConstraints (resolveEntry resolution e) := by
  have hlease := h.lease_consistency
  have hdone := h.done_consistency
  rw [hs] at hlease hdone
  unfold resolveEntry
  split
  · exact ⟨by simpa using hlease, by simpa using hdone, h.last_error_length⟩
  · exact ⟨by simpa using hlease, by simpa using hdone, h.last_error_length⟩

theorem TableInvariant.order_of_lt (h : TableInvariant granted rows) {a b : OutboxEntry Data}
    (ha : a ∈ rows) (hb : b ∈ rows) (hs : a.stream = b.stream) (hlt : a.entryId < b.entryId) :
    a.finished ∨ Untouched granted b := by
  have hne : a ≠ b := by
    rintro rfl
    exact lt_irrefl _ hlt
  rcases Sql.rel_or_rel_of_pairwise h.order ha hb hne with hab | hba
  · exact (hab hs).2
  · have := (hba hs.symm).1
    omega

/-- A row that has been touched is the head of its stream, or behind finished rows only. -/
theorem TableInvariant.isHead_of_touched (h : TableInvariant granted rows) {e : OutboxEntry Data}
    (he : e ∈ rows) (ht : e.status ≠ .pending) : isHead rows e := by
  rw [isHead_iff]
  intro earlier hearlier hs hlt
  rcases h.order_of_lt hearlier he hs hlt with hf | hu
  · exact hf
  · exact absurd hu.1 ht

/-- Appending the largest entry of its stream. -/
theorem TableInvariant.append (h : TableInvariant granted rows) {entryId : ℕ}
    {consumer : Option Consumer} {envelope : EventEnvelope Data} {at_ : Time}
    (hfresh : FreshEntry (newEntry entryId consumer envelope at_) rows) :
    TableInvariant granted (rows ++ [newEntry entryId consumer envelope at_]) where
  ids := by
    rw [List.pairwise_append]
    refine ⟨h.ids, List.pairwise_singleton _ _, ?_⟩
    intro a ha b hb
    rw [List.mem_singleton.mp hb]
    exact (hfresh a ha).1
  known := by
    intro id hid
    obtain ⟨e, he, heq⟩ := h.known id hid
    exact ⟨e, List.mem_append_left _ he, heq⟩
  order := by
    rw [List.pairwise_append]
    refine ⟨h.order, List.pairwise_singleton _ _, ?_⟩
    intro a ha b hb hs
    rw [List.mem_singleton.mp hb] at hs ⊢
    refine ⟨(hfresh a ha).2 hs, .inr ⟨rfl, rfl, ?_⟩⟩
    -- a granted id belongs to a row, and the new row's id is unused
    intro hid
    obtain ⟨e, he, heq⟩ := h.known _ hid
    exact (hfresh e he).1 heq
  checks := by
    intro e he
    rcases List.mem_append.mp he with he | he
    · exact h.checks e he
    · rw [List.mem_singleton.mp he]
      exact checkConstraints_newEntry _ _ _ _

/-- An update of unfinished heads keeps the invariant. -/
theorem TableInvariant.update (h : TableInvariant granted rows)
    {selects : OutboxEntry Data → Bool} {set : OutboxEntry Data → OutboxEntry Data}
    {granted' : List ℕ} (hid : ∀ e, (set e).identity = e.identity)
    (hunfinished : ∀ e ∈ rows, selects e → ¬ e.finished)
    (hhead : ∀ e ∈ rows, selects e → isHead rows e)
    (hchecks : ∀ e ∈ rows, selects e → CheckConstraints e → CheckConstraints (set e))
    (hgranted : ∀ e ∈ rows, e.entryId ∈ granted' → selects e ∨ e.entryId ∈ granted)
    (hknown : ∀ id ∈ granted', ∃ e ∈ rows, e.entryId = id) :
    TableInvariant granted' (Sql.update selects set rows) where
  ids := by
    have heq : (Sql.update selects set rows).map OutboxEntry.entryId =
        rows.map OutboxEntry.entryId :=
      Sql.map_update OutboxEntry.entryId fun e _ _ => entryId_of_identity (hid e)
    have hids := h.ids
    rw [← List.pairwise_map (f := OutboxEntry.entryId) (R := (· ≠ ·))] at hids ⊢
    rwa [heq]
  known := by
    intro id hmem
    obtain ⟨e, he, rfl⟩ := hknown id hmem
    refine ⟨_, Sql.mem_update.mpr ⟨e, he, rfl⟩, ?_⟩
    split_ifs
    · exact entryId_of_identity (hid e)
    · rfl
  order := by
    apply Sql.pairwise_update h.order
    intro a ha b hb hab
    have hstream : ∀ e : OutboxEntry Data, (if selects e then set e else e).stream = e.stream := by
      intro e
      split_ifs
      · exact stream_of_identity (hid e)
      · rfl
    have hentry : ∀ e : OutboxEntry Data,
        (if selects e then set e else e).entryId = e.entryId := by
      intro e
      split_ifs
      · exact entryId_of_identity (hid e)
      · rfl
    intro hs
    rw [hstream, hstream] at hs
    obtain ⟨hlt, hor⟩ := hab hs
    rw [hentry, hentry]
    refine ⟨hlt, ?_⟩
    by_cases hb' : selects b
    · -- only a head is selected, so everything before it is finished and stays as it is
      have hf := isHead_iff.mp (hhead b hb hb') a ha hs hlt
      have hna : ¬ selects a := fun hsel => hunfinished a ha hsel hf
      left
      simpa [hna] using hf
    · rcases hor with hf | hu
      · have hna : ¬ selects a := fun hsel => hunfinished a ha hsel hf
        left
        simpa [hna] using hf
      · right
        refine ⟨by simpa [hb'] using hu.1, by simpa [hb'] using hu.2.1, ?_⟩
        rw [hentry]
        intro hmem
        exact (hgranted b hb hmem).elim hb' hu.2.2
  checks := Sql.forall_mem_update h.checks hchecks

theorem TableInvariant.insertDelivery (h : TableInvariant granted rows) {entryId : ℕ}
    {consumer : Consumer} {envelope : EventEnvelope Data} {now : Time}
    (hfresh : FreshEntry (newEntry entryId (some consumer) envelope now) rows) :
    TableInvariant granted (insertDelivery entryId consumer envelope now rows) := by
  obtain ⟨-, heq⟩ | ⟨-, heq⟩ := insertDelivery_spec rows entryId consumer envelope now
  · rwa [heq]
  · rw [heq]
    exact h.append hfresh

theorem TableInvariant.eligible_of_granted (h : TableInvariant granted rows) {now : Time}
    {ids : List ℕ} (hids : ∀ id ∈ ids, ∃ e ∈ rows, e.entryId = id ∧ eligible queue now rows e)
    {e : OutboxEntry Data} (he : e ∈ rows) (hmem : e.entryId ∈ ids) :
    eligible queue now rows e := by
  obtain ⟨e', he', hid, hel⟩ := hids _ hmem
  rwa [← Sql.eq_of_key_eq h.ids he' he hid]

theorem TableInvariant.leaseBatch (h : TableInvariant granted rows) (queue : QueueSelector)
    (locked : ℕ → Bool) (request : LeaseRequest) :
    TableInvariant
      (granted ++ (leaseBatch queue locked request rows).2.map OutboxEntry.entryId)
      (leaseBatch queue locked request rows).1 := by
  obtain ⟨ids, hrows, hids, hleased⟩ := leaseBatch_spec queue locked request rows
  rw [hrows]
  have hel : ∀ e ∈ rows, e.entryId ∈ ids → eligible queue request.now rows e :=
    fun e he hmem => h.eligible_of_granted hids he hmem
  have hstatus : ∀ e ∈ rows, e.entryId ∈ ids → e.status = .pending ∨ e.status = .leased :=
    fun e he hmem => (eligible_spec (hel e he hmem)).1
  apply h.update
  · exact grantLease_identity request
  · intro e he hmem hf
    rw [finished_iff] at hf
    rcases hstatus e he (of_decide_eq_true hmem) with hs | hs <;> simp [hs] at hf
  · intro e he hmem
    exact (eligible_spec (hel e he (of_decide_eq_true hmem))).2.2
  · intro e he hmem hc
    apply checkConstraints_grantLease request hc
    rcases hstatus e he (of_decide_eq_true hmem) with hs | hs <;> simp [hs]
  · intro e he hmem
    rcases List.mem_append.mp hmem with hmem | hmem
    · exact .inr hmem
    · obtain ⟨x, hx, hxe⟩ := List.mem_map.mp hmem
      obtain ⟨e', he', hid, rfl⟩ := (hleased x).mp hx
      have hid' : e'.entryId = e.entryId := hxe
      exact .inl (decide_eq_true (hid' ▸ hid))
  · intro id hmem
    rcases List.mem_append.mp hmem with hmem | hmem
    · exact h.known id hmem
    · obtain ⟨x, hx, hxe⟩ := List.mem_map.mp hmem
      obtain ⟨e', he', -, rfl⟩ := (hleased x).mp hx
      exact ⟨e', he', hxe⟩

/-- An update of rows that are leased or dead. -/
theorem TableInvariant.update_touched (h : TableInvariant granted rows)
    {selects : OutboxEntry Data → Bool} {set : OutboxEntry Data → OutboxEntry Data}
    (hid : ∀ e, (set e).identity = e.identity)
    (hstatus : ∀ e ∈ rows, selects e → e.status = .leased ∨ e.status = .dead)
    (hchecks : ∀ e ∈ rows, selects e → CheckConstraints e → CheckConstraints (set e)) :
    TableInvariant granted (Sql.update selects set rows) := by
  apply h.update hid _ _ hchecks (fun e _ hmem => .inr hmem) h.known
  · intro e he hsel hf
    rw [finished_iff] at hf
    rcases hstatus e he hsel with hs | hs <;> simp [hs] at hf
  · intro e he hsel
    apply h.isHead_of_touched he
    rcases hstatus e he hsel with hs | hs <;> simp [hs]

theorem TableInvariant.markPublished (h : TableInvariant granted rows) (queue : QueueSelector)
    (entryId : String) (workerId : WorkerId) (now : Time) :
    TableInvariant granted (markPublished queue entryId workerId now rows).1 := by
  apply h.update_touched (finishEntry_identity now)
  · intro e _ hsel
    exact .inl (heldBy_spec hsel).2.1
  · intro e _ _ hc
    exact checkConstraints_finishEntry now hc

theorem TableInvariant.recordFailure (h : TableInvariant granted rows) (queue : QueueSelector)
    (entryId : String) (workerId : WorkerId) (error : String) (retryAt : Option Time) :
    TableInvariant granted (recordFailure queue entryId workerId error retryAt rows).1 := by
  apply h.update_touched (failEntry_identity error retryAt)
  · intro e _ hsel
    exact .inl (heldBy_spec hsel).2.1
  · intro e _ hsel hc
    exact checkConstraints_failEntry error retryAt hc (heldBy_spec hsel).2.1

theorem TableInvariant.resolveDeadLetter (h : TableInvariant granted rows)
    (queue : QueueSelector) (entryId : String) (resolution : DeadLetterResolution) :
    TableInvariant granted (resolveDeadLetter queue entryId resolution rows).1 := by
  apply h.update_touched (resolveEntry_identity resolution)
  · intro e _ hsel
    exact .inr (deadLetter_spec hsel).2.1
  · intro e _ hsel hc
    exact checkConstraints_resolveEntry resolution hc (deadLetter_spec hsel).2.1

theorem TableInvariant.restated_leaseBatch (h : TableInvariant granted rows)
    (queue : QueueSelector) (locked : ℕ → Bool) (request : LeaseRequest) :
    Restated rows (Outbox.leaseBatch queue locked request rows).1 := by
  obtain ⟨ids, hrows, hids, -⟩ := leaseBatch_spec queue locked request rows
  rw [hrows]
  apply restated_update (grantLease_identity request)
  intro e he hmem hf
  have hel := h.eligible_of_granted hids he (of_decide_eq_true hmem)
  rw [finished_iff] at hf
  rcases (eligible_spec hel).1 with hs | hs <;> simp [hs] at hf

theorem restated_markPublished (queue : QueueSelector) (entryId : String) (workerId : WorkerId)
    (now : Time) : Restated rows (markPublished queue entryId workerId now rows).1 := by
  apply restated_update (finishEntry_identity now)
  intro e _ hsel hf
  rw [finished_iff] at hf
  simp [(heldBy_spec hsel).2.1] at hf

theorem restated_recordFailure (queue : QueueSelector) (entryId : String) (workerId : WorkerId)
    (error : String) (retryAt : Option Time) :
    Restated rows (recordFailure queue entryId workerId error retryAt rows).1 := by
  apply restated_update (failEntry_identity error retryAt)
  intro e _ hsel hf
  rw [finished_iff] at hf
  simp [(heldBy_spec hsel).2.1] at hf

theorem restated_resolveDeadLetter (queue : QueueSelector) (entryId : String)
    (resolution : DeadLetterResolution) :
    Restated rows (resolveDeadLetter queue entryId resolution rows).1 := by
  apply restated_update (resolveEntry_identity resolution)
  intro e _ hsel hf
  rw [finished_iff] at hf
  simp [(deadLetter_spec hsel).2.1] at hf

theorem advances_insertDelivery {entryId : ℕ} {consumer : Consumer}
    {envelope : EventEnvelope Data} {now : Time}
    (hfresh : FreshEntry (newEntry entryId (some consumer) envelope now) rows) :
    Advances rows (insertDelivery entryId consumer envelope now rows) := by
  obtain ⟨-, heq⟩ | ⟨-, heq⟩ := insertDelivery_spec rows entryId consumer envelope now
  · rw [heq]
    exact .refl rows
  · rw [heq]
    exact advances_append hfresh

/-- Rows of the outbox have no consumer. -/
def InTable (table : QueueTable) (rows : Table Data) : Prop :=
  table = .outbox_event → ∀ e ∈ rows, e.consumer = none

theorem InTable.update {selects : OutboxEntry Data → Bool}
    {set : OutboxEntry Data → OutboxEntry Data} (h : InTable table rows)
    (hid : ∀ e, (set e).identity = e.identity) : InTable table (Sql.update selects set rows) := by
  intro ht
  apply Sql.forall_mem_update (h ht)
  intro e _ _ he
  rw [consumer_of_identity (hid e), he]

structure QueueInvariant (table : QueueTable) (s : QueueState Data) : Prop where
  rows : TableInvariant s.granted s.rows
  inTable : InTable table s.rows

theorem QueueInvariant.step {s t : QueueState Data} (h : QueueInvariant table s)
    (hstep : QueueStep table s t) : QueueInvariant table t := by
  cases hstep with
  | append entryId envelope htable hfresh happend =>
    obtain ⟨rfl, -⟩ := appendOutboxEvent_spec happend
    refine ⟨h.rows.append hfresh, ?_⟩
    intro ht e he
    rcases List.mem_append.mp he with he | he
    · exact h.inTable ht e he
    · rw [List.mem_singleton.mp he]
      rfl
  | insertDelivery entryId consumer envelope now htable hfresh =>
    refine ⟨h.rows.insertDelivery hfresh, ?_⟩
    intro ht
    rw [htable] at ht
    cases ht
  | leaseBatch queue locked request htable =>
    refine ⟨h.rows.leaseBatch queue locked request, ?_⟩
    obtain ⟨ids, hrows, -⟩ := leaseBatch_spec queue locked request s.rows
    simp only [hrows]
    exact h.inTable.update (grantLease_identity request)
  | markPublished queue entryId workerId now htable =>
    exact ⟨h.rows.markPublished queue entryId workerId now,
      h.inTable.update (finishEntry_identity now)⟩
  | recordFailure queue entryId workerId error retryAt htable =>
    exact ⟨h.rows.recordFailure queue entryId workerId error retryAt,
      h.inTable.update (failEntry_identity error retryAt)⟩
  | resolveDeadLetter queue entryId resolution htable =>
    exact ⟨h.rows.resolveDeadLetter queue entryId resolution,
      h.inTable.update (resolveEntry_identity resolution)⟩

theorem QueueInvariant.advances {s t : QueueState Data} (h : QueueInvariant table s)
    (hstep : QueueStep table s t) : Advances s.rows t.rows := by
  cases hstep with
  | append entryId envelope htable hfresh happend =>
    obtain ⟨rfl, -⟩ := appendOutboxEvent_spec happend
    exact advances_append hfresh
  | insertDelivery entryId consumer envelope now htable hfresh =>
    exact advances_insertDelivery hfresh
  | leaseBatch queue locked request htable => exact (h.rows.restated_leaseBatch queue locked request).advances
  | markPublished queue entryId workerId now htable =>
    exact (restated_markPublished queue entryId workerId now).advances
  | recordFailure queue entryId workerId error retryAt htable =>
    exact (restated_recordFailure queue entryId workerId error retryAt).advances
  | resolveDeadLetter queue entryId resolution htable =>
    exact (restated_resolveDeadLetter queue entryId resolution).advances

theorem QueueInvariant.empty : QueueInvariant table (QueueState.empty : QueueState Data) :=
  ⟨⟨.nil, by simp [QueueState.empty], .nil, by simp [QueueState.empty]⟩,
    fun _ => by simp [QueueState.empty]⟩

theorem QueueInvariant.run {s t : QueueState Data} (h : QueueInvariant table s)
    (hrun : QueueRun table s t) : QueueInvariant table t ∧ Advances s.rows t.rows := by
  induction hrun with
  | refl => exact ⟨h, .refl _⟩
  | tail _ hstep ih => exact ⟨ih.1.step hstep, ih.2.trans (ih.1.advances hstep)⟩

/-- The entries of a stream, in the order of their rows. -/
def entriesOf (stream : Stream) (rows : Table Data) : List (OutboxEntry Data) :=
  rows.filter fun e => e.stream == stream

theorem TableInvariant.entriesOf_pairwise (h : TableInvariant granted rows) (stream : Stream) :
    (entriesOf stream rows).Pairwise fun a b =>
      a.entryId < b.entryId ∧ (a.finished ∨ Untouched granted b) := by
  unfold entriesOf
  refine (h.order.filter _).imp_of_mem ?_
  intro a b ha hb hab
  have hsa := (List.mem_filter.mp ha).2
  have hsb := (List.mem_filter.mp hb).2
  rw [beq_iff_eq] at hsa hsb
  exact hab (hsa.trans hsb.symm)

/-- Two unfinished, touched entries are never in one stream. -/
theorem TableInvariant.pairwise_held (h : TableInvariant granted rows)
    (p : OutboxEntry Data → Bool) (hp : ∀ e, p e → e.status = .leased ∨ e.status = .dead) :
    (rows.filter p).Pairwise fun a b => a.stream ≠ b.stream := by
  refine (h.order.filter p).imp_of_mem ?_
  intro a b ha hb hab hs
  have hsa := hp a (List.mem_filter.mp ha).2
  have hsb := hp b (List.mem_filter.mp hb).2
  rcases (hab hs).2 with hf | hu
  · rw [finished_iff] at hf
    rcases hsa with hsa | hsa <;> simp [hsa] at hf
  · have hpending := hu.1
    rcases hsb with hsb | hsb <;> simp [hsb] at hpending

theorem TableInvariant.countP_held_le_one (h : TableInvariant granted rows) (stream : Stream) :
    (entriesOf stream rows).countP (fun e => e.status == .leased || e.status == .dead) ≤ 1 := by
  have hpair := h.pairwise_held
    (fun e => (e.status == .leased || e.status == .dead) && e.stream == stream) (by simp; tauto)
  rw [List.countP_eq_length_filter, entriesOf, List.filter_filter]
  by_contra hlen
  obtain ⟨a, b, l, hl⟩ : ∃ a b l, rows.filter (fun e =>
      (e.status == .leased || e.status == .dead) && e.stream == stream) = a :: b :: l := by
    generalize rows.filter (fun e =>
      (e.status == .leased || e.status == .dead) && e.stream == stream) = held at hlen
    match held, hlen with
    | [], hlen => simp at hlen
    | [a], hlen => simp at hlen
    | a :: b :: l, _ => exact ⟨a, b, l, rfl⟩
  have hstream : ∀ e ∈ a :: b :: l, e.stream = stream := by
    intro e he
    rw [← hl, List.mem_filter, Bool.and_eq_true, beq_iff_eq] at he
    exact he.2.2
  rw [hl, List.pairwise_cons] at hpair
  exact hpair.1 b (by simp) ((hstream a (by simp)).trans (hstream b (by simp)).symm)

theorem consumer_of_scope {e : OutboxEntry Data} (ht : InTable queue.table rows) (he : e ∈ rows)
    (hscope : consumerScope queue e) : e.consumer = queue.consumer := by
  cases queue with
  | outbox => exact ht rfl e he
  | delivery c => exact beq_iff_eq.mp hscope

/-- Every dead letter blocks a stream of its own. -/
theorem TableInvariant.deadLetter_eq_blockedStreams (h : TableInvariant granted rows)
    (ht : InTable queue.table rows) (now : Time) :
    (stats queue now rows).deadLetter = (stats queue now rows).blockedStreams := by
  unfold stats
  simp only [List.filter_filter]
  rw [List.Nodup.dedup, List.length_map]
  rw [List.Nodup, List.pairwise_map]
  have hpair := h.pairwise_held
    (fun e => (e.status == .dead) && (!e.finished && consumerScope queue e)) (by simp; tauto)
  refine hpair.imp_of_mem ?_
  intro a b ha hb hne heq
  apply hne
  rw [List.mem_filter] at ha hb
  simp only [Bool.and_eq_true] at ha hb
  have hconsumer : a.consumer = b.consumer :=
    (consumer_of_scope ht ha.1 ha.2.2.2).trans (consumer_of_scope ht hb.1 hb.2.2.2).symm
  simp only [Prod.mk.injEq] at heq
  unfold OutboxEntry.stream
  rw [hconsumer, heq.1, heq.2.1, heq.2.2]

/-- What every reachable state of a queue looks like, and what it keeps. -/
structure QueueShape (table : QueueTable) (s : QueueState Data) : Prop where
  /-- The rows of a stream are in `entry_id` order, and no two rows share an id. -/
  ordered : ∀ stream, (entriesOf stream s.rows).Pairwise fun a b => a.entryId < b.entryId
  ids : s.rows.Pairwise fun a b => a.entryId ≠ b.entryId
  shape : ∀ stream, ∃ front head back, entriesOf stream s.rows = front ++ head ++ back ∧
    (∀ e ∈ front, e.status = .done ∨ e.status = .skipped) ∧
    head.length ≤ 1 ∧ (∀ e ∈ head, ¬ (e.status = .done ∨ e.status = .skipped)) ∧
    ∀ e ∈ back, e.status = .pending ∧ e.attempts = 0 ∧ e.entryId ∉ s.granted
  one_held : ∀ stream, (entriesOf stream s.rows).countP
    (fun e => e.status == .leased || e.status == .dead) ≤ 1
  blocked : ∀ queue : QueueSelector, queue.table = table → ∀ now,
    (stats queue now s.rows).deadLetter = (stats queue now s.rows).blockedStreams
  checks : ∀ e ∈ s.rows, CheckConstraints e
  /-- Whatever happens next, every row stays under its id, with its envelope and its stream, and
  keeps its status once that is done or skipped. -/
  kept : ∀ t, QueueRun table s t → ∀ e ∈ s.rows, ∃ e' ∈ t.rows, e'.entryId = e.entryId ∧
    e'.envelope = e.envelope ∧ e'.stream = e.stream ∧
    (e.status = .done ∨ e.status = .skipped → e'.status = e.status)

theorem queue_stream_shape {s : QueueState Data} (hrun : QueueRun table .empty s) :
    QueueShape table s := by
  have hinv := (QueueInvariant.empty.run hrun).1
  have hrows := hinv.rows
  refine ⟨?_, hrows.ids, ?_, hrows.countP_held_le_one, ?_, hrows.checks, ?_⟩
  · intro stream
    exact (hrows.entriesOf_pairwise stream).imp fun h => h.1
  · intro stream
    simp only [← finished_iff]
    exact Sql.exists_split_of_pairwise ((hrows.entriesOf_pairwise stream).imp fun h => h.2)
  · intro queue hq now
    exact hrows.deadLetter_eq_blockedStreams (hq ▸ hinv.inTable) now
  · intro t ht e he
    obtain ⟨e', he', hk⟩ := (hinv.run ht).2.exists_kept he
    refine ⟨e', he', entryId_of_identity hk.identity, envelope_of_identity hk.identity,
      stream_of_identity hk.identity, ?_⟩
    rw [← finished_iff]
    exact fun hf => congrArg OutboxEntry.status (hk.finished hf)

def sampleEnvelope : EventEnvelope Unit where
  id := "evt_1"
  type := "com.subrevos.tenant.provisioned.v1"
  tenant_id := "tenant-a"
  aggregate_type := "Tenant"
  aggregate_id := "tenant-a"
  aggregate_version := 1
  correlation_id := "corr-1"
  causation_id := none
  recorded_at := 0
  data := ()

def sampleRequest : LeaseRequest where
  workerId := "worker-a"
  now := 0
  leaseLength := 60000000
  limit := .ofNat 50 fifty_safe

/-- An event is appended, leased, and dead-lettered. -/
theorem queue_stream_shape_dead_letter :
    let rows : Table Unit := [newEntry 1 none sampleEnvelope 0]
    let leased := leaseBatch .outbox (fun _ => false) sampleRequest rows
    QueueShape .outbox_event
      ⟨(recordFailure .outbox "1" "worker-a" "Error: down" none leased.1).1,
        [] ++ leased.2.map OutboxEntry.entryId⟩ := by
  intro rows
  have happend : QueueRun .outbox_event .empty (⟨rows, []⟩ : QueueState Unit) :=
    .single (.append 1 sampleEnvelope rfl (by simp [FreshEntry, QueueState.empty]) (by decide))
  have hlease := happend.tail (.leaseBatch .outbox (fun _ => false) sampleRequest rfl)
  generalize leaseBatch .outbox (fun _ => false) sampleRequest rows = leased at hlease ⊢
  exact queue_stream_shape
    (hlease.tail (.recordFailure .outbox "1" "worker-a" "Error: down" none rfl))

end Sintius.Outbox
