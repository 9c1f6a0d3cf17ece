import Mathlib
import Sintius.Lib.Table
import Sintius.Spec.Queue
import Sintius.Spec.Relay
import Sintius.Sanity.Queue
import Sintius.Proofs.Queue

/-! Safety of the relay. An entry is handed over only by a pass that leased it as
the head of its stream, and whatever was before it is finished for good. So an
event reaches a consumer's queue after the earlier events of its stream, and its
effect commits after theirs. -/

namespace Sintius.Outbox

variable {Data : Type} {routes : List EventRoute} {s t : Relay Data} {p : Pass Data}

/-- What a hand-over has to achieve before the entry may be marked: every subscribed consumer has
the event queued, or the consumer's effect is committed. -/
def Completed (routes : List EventRoute) (s : Relay Data) (table : QueueTable)
    (e : OutboxEntry Data) : Prop :=
  match table with
  | .outbox_event => ∀ c ∈ consumersFor routes e.envelope.type,
      ∃ d ∈ s.deliveries, d.consumer = some c ∧ d.envelope = e.envelope
  | .event_delivery => ∀ c, e.consumer = some c → ⟨c, e.envelope⟩ ∈ s.effects

/-- The two tables and the effects. -/
structure StoreInvariant (routes : List EventRoute) (s : Relay Data) : Prop where
  outboxRows : ∃ granted, TableInvariant granted s.outbox
  deliveryRows : ∃ granted, TableInvariant granted s.deliveries
  outboxConsumer : ∀ e ∈ s.outbox, e.consumer = none
  outboxEvents : ∀ a ∈ s.outbox, ∀ b ∈ s.outbox, a.envelope.tenant_id = b.envelope.tenant_id →
    a.envelope.id = b.envelope.id → a.identity = b.identity
  /-- A delivery is for a subscribed consumer, of an event in the outbox. -/
  origin : ∀ d ∈ s.deliveries, ∃ c ∈ consumersFor routes d.envelope.type,
    d.consumer = some c ∧ ∃ e ∈ s.outbox, e.envelope = d.envelope
  /-- Before the event of a delivery, its stream is finished in the outbox; what was published
  there is queued before it. -/
  fanOut : ∀ d ∈ s.deliveries, ∀ e₂ ∈ s.outbox, e₂.envelope = d.envelope →
    ∀ e₁ ∈ s.outbox, e₁.stream = e₂.stream → e₁.entryId < e₂.entryId →
      e₁.finished ∧ (e₁.status = .done → ∀ c ∈ consumersFor routes e₁.envelope.type,
        d.consumer = some c → ∃ d₁ ∈ s.deliveries, d₁.consumer = some c ∧
          d₁.envelope = e₁.envelope ∧ d₁.entryId < d.entryId)
  completed : ∀ table, ∀ e ∈ s.rows table, e.status = .done → Completed routes s table e
  /-- An effect comes from a delivery before which its stream is finished; what was delivered
  there has its effect before it. -/
  effects : ∀ front x back, s.effects = front ++ x :: back →
    ∃ d ∈ s.deliveries, d.consumer = some x.consumer ∧ d.envelope = x.envelope ∧
      ∀ d₁ ∈ s.deliveries, d₁.stream = d.stream → d₁.entryId < d.entryId →
        d₁.finished ∧ (d₁.status = .done → ⟨x.consumer, d₁.envelope⟩ ∈ front)

/-- A running pass holds rows it leased as heads. -/
structure PassOk (routes : List EventRoute) (s : Relay Data) (p : Pass Data) : Prop where
  leased : ∀ e ∈ p.entries, ∃ r ∈ s.rows p.dispatcher.queue.table, r.identity = e.identity ∧
    consumerScope p.dispatcher.queue e ∧ isHead (s.rows p.dispatcher.queue.table) e
  returned : p.stage = .returned → ∀ e rest, p.entries = e :: rest →
    Completed routes s p.dispatcher.queue.table e

/-- Nobody else holds an inbox record that a pass holds. -/
def Exclusive (p q : Pass Data) : Prop := ∀ key, p.held = some key → q.held ≠ some key

structure RelayInvariant (routes : List EventRoute) (s : Relay Data) : Prop where
  store : StoreInvariant routes s
  passes : ∀ p ∈ s.passes, PassOk routes s p
  inbox : s.inbox = s.effects.map Effect.key
  nodup : s.inbox.Nodup
  exclusive : s.passes.Pairwise Exclusive
  uncommitted : ∀ p ∈ s.passes, ∀ key, p.held = some key → key ∉ s.inbox

/-- How the tables and the effects of two states are related by any step. -/
structure Grows (s t : Relay Data) : Prop where
  rows : ∀ table, Advances (s.rows table) (t.rows table)
  effects : s.effects ⊆ t.effects

theorem Grows.refl (s : Relay Data) : Grows s s :=
  ⟨fun table => .refl (s.rows table), List.Subset.refl _⟩

theorem Completed.congr {table : QueueTable} {a b : OutboxEntry Data}
    (h : Completed routes s table a) (hid : a.identity = b.identity) :
    Completed routes s table b := by
  cases table with
  | outbox_event =>
    intro c hc
    rw [← envelope_of_identity hid] at hc ⊢
    exact h c hc
  | event_delivery =>
    intro c hc
    rw [← envelope_of_identity hid]
    rw [← consumer_of_identity hid] at hc
    exact h c hc

theorem Completed.mono {table : QueueTable} {e : OutboxEntry Data}
    (h : Completed routes s table e) (hg : Grows s t) : Completed routes t table e := by
  cases table with
  | outbox_event =>
    intro c hc
    obtain ⟨d, hd, hconsumer, henvelope⟩ := h c hc
    obtain ⟨d', hd', hk⟩ := (hg.rows .event_delivery).exists_kept hd
    refine ⟨d', hd', ?_, ?_⟩
    · rw [consumer_of_identity hk.identity, hconsumer]
    · rw [envelope_of_identity hk.identity, henvelope]
  | event_delivery =>
    intro c hc
    exact hg.effects (h c hc)

theorem PassOk.mono (h : PassOk routes s p) (hg : Grows s t) : PassOk routes t p where
  leased := by
    intro e he
    obtain ⟨r, hr, hid, hscope, hhead⟩ := h.leased e he
    obtain ⟨r', hr', hk⟩ := (hg.rows _).exists_kept hr
    exact ⟨r', hr', hk.identity.trans hid, hscope, (hg.rows _).isHead hr hid hhead⟩
  returned := by
    intro hstage e rest hentries
    exact (h.returned hstage e rest hentries).mono hg

theorem PassOk.advance (h : PassOk routes s p) (report : DispatchReport) :
    PassOk routes s (p.advance report) where
  leased := fun e he => h.leased e (List.mem_of_mem_tail he)
  returned := fun hstage => by cases hstage

theorem PassOk.setStage (h : PassOk routes s p) {stage : Stage}
    (hcompleted : stage = .returned → ∀ e rest, p.entries = e :: rest →
      Completed routes s p.dispatcher.queue.table e) :
    PassOk routes s { p with stage := stage } :=
  ⟨h.leased, hcompleted⟩

theorem held_eq_some_iff {key : InboxKey} :
    p.held = some key ↔ p.stage = .recorded ∧ ∃ c, p.dispatcher.queue = .delivery c ∧
      ∃ e rest, p.entries = e :: rest ∧ inboxKey c e.envelope = key := by
  unfold Pass.held
  split
  · rename_i c e rest hstage hqueue hentries
    simp [hstage, hqueue, hentries]
  · rename_i hnone
    simp only [reduceCtorEq, false_iff]
    rintro ⟨hstage, c, hqueue, e, rest, hentries, -⟩
    exact hnone c e rest hstage hqueue hentries

theorem held_of_stage (h : p.stage ≠ .recorded) : p.held = none := by
  rw [Option.eq_none_iff_forall_ne_some]
  intro key hkey
  exact h (held_eq_some_iff.mp hkey).1

/-- One pass is replaced by another that holds nothing the others hold. -/
theorem exclusive_replace {before after : List (Pass Data)} {p p' : Pass Data}
    (h : (before ++ p :: after).Pairwise Exclusive)
    (hp : ∀ key, p'.held = some key → ∀ q ∈ before ++ after, q.held ≠ some key) :
    (before ++ p' :: after).Pairwise Exclusive := by
  rw [List.pairwise_append, List.pairwise_cons] at h ⊢
  obtain ⟨hbefore, ⟨-, hafter⟩, hacross⟩ := h
  refine ⟨hbefore, ⟨?_, hafter⟩, ?_⟩
  · intro q hq key hkey
    exact hp key hkey q (List.mem_append_right _ hq)
  · intro a ha b hb
    rcases List.mem_cons.mp hb with rfl | hb
    · intro key hkey hkey'
      exact hp key hkey' a (List.mem_append_left _ ha) hkey
    · exact hacross a ha b (List.mem_cons_of_mem _ hb)

theorem exclusive_others {before after : List (Pass Data)}
    (h : (before ++ p :: after).Pairwise Exclusive) {key : InboxKey} (hkey : p.held = some key) :
    ∀ q ∈ before ++ after, q.held ≠ some key := by
  rw [List.pairwise_append, List.pairwise_cons] at h
  obtain ⟨-, ⟨hafter, -⟩, hacross⟩ := h
  intro q hq hkey'
  rcases List.mem_append.mp hq with hq | hq
  · exact hacross q hq p (by simp) key hkey' hkey
  · exact hafter q hq key hkey hkey'

@[simp] theorem setRows_rows_self (s : Relay Data) (table : QueueTable) (rows : Table Data) :
    (s.setRows table rows).rows table = rows := by
  cases table <;> rfl

theorem setRows_rows_of_ne (s : Relay Data) {table table' : QueueTable} (rows : Table Data)
    (h : table' ≠ table) : (s.setRows table rows).rows table' = s.rows table' := by
  cases table <;> cases table' <;> first | rfl | exact absurd rfl h

@[simp] theorem setRows_effects (s : Relay Data) (table : QueueTable) (rows : Table Data) :
    (s.setRows table rows).effects = s.effects := by
  cases table <;> rfl

@[simp] theorem setRows_inbox (s : Relay Data) (table : QueueTable) (rows : Table Data) :
    (s.setRows table rows).inbox = s.inbox := by
  cases table <;> rfl

@[simp] theorem setRows_passes (s : Relay Data) (table : QueueTable) (rows : Table Data) :
    (s.setRows table rows).passes = s.passes := by
  cases table <;> rfl

theorem grows_setRows {table : QueueTable} {rows' : Table Data}
    (h : Advances (s.rows table) rows') : Grows s (s.setRows table rows') where
  rows := by
    intro table'
    by_cases heq : table' = table
    · subst heq
      rwa [setRows_rows_self]
    · rw [setRows_rows_of_ne s rows' heq]
      exact .refl _
  effects := by simp

theorem StoreInvariant.tableInvariant (h : StoreInvariant routes s) (table : QueueTable) :
    ∃ granted, TableInvariant granted (s.rows table) := by
  cases table with
  | outbox_event => exact h.outboxRows
  | event_delivery => exact h.deliveryRows

/-- The outbox is restated. -/
theorem StoreInvariant.restateOutbox (h : StoreInvariant routes s) {rows' : Table Data}
    (hr : Restated s.outbox rows') (hinv : ∃ granted, TableInvariant granted rows')
    (hdone : ∀ e ∈ rows', e.status = .done → Completed routes s .outbox_event e) :
    StoreInvariant routes { s with outbox := rows' } where
  outboxRows := hinv
  deliveryRows := h.deliveryRows
  outboxConsumer := by
    intro e' he'
    obtain ⟨e, he, hk⟩ := hr.exists_old he'
    rw [consumer_of_identity hk.identity, h.outboxConsumer e he]
  outboxEvents := by
    intro a' ha' b' hb' htenant hevent
    obtain ⟨a, ha, hka⟩ := hr.exists_old ha'
    obtain ⟨b, hb, hkb⟩ := hr.exists_old hb'
    rw [hka.identity, hkb.identity]
    rw [envelope_of_identity hka.identity, envelope_of_identity hkb.identity] at htenant hevent
    exact h.outboxEvents a ha b hb htenant hevent
  origin := by
    intro d hd
    obtain ⟨c, hc, hconsumer, e, he, henvelope⟩ := h.origin d hd
    obtain ⟨e', he', hk⟩ := hr.exists_kept he
    exact ⟨c, hc, hconsumer, e', he', (envelope_of_identity hk.identity).trans henvelope⟩
  fanOut := by
    intro d hd b' hb' henvelope a' ha' hs hlt
    obtain ⟨a, ha, hka⟩ := hr.exists_old ha'
    obtain ⟨b, hb, hkb⟩ := hr.exists_old hb'
    rw [envelope_of_identity hkb.identity] at henvelope
    rw [stream_of_identity hka.identity, stream_of_identity hkb.identity] at hs
    rw [entryId_of_identity hka.identity, entryId_of_identity hkb.identity] at hlt
    obtain ⟨hf, hqueued⟩ := h.fanOut d hd b hb henvelope a ha hs hlt
    obtain rfl := hka.finished hf
    exact ⟨hf, hqueued⟩
  completed := by
    intro table e he hstatus
    cases table with
    | outbox_event => exact hdone e he hstatus
    | event_delivery => exact h.completed .event_delivery e he hstatus
  effects := h.effects

/-- The deliveries are restated. -/
theorem StoreInvariant.restateDeliveries (h : StoreInvariant routes s) {rows' : Table Data}
    (hr : Restated s.deliveries rows') (hinv : ∃ granted, TableInvariant granted rows')
    (hdone : ∀ e ∈ rows', e.status = .done → Completed routes s .event_delivery e) :
    StoreInvariant routes { s with deliveries := rows' } where
  outboxRows := h.outboxRows
  deliveryRows := hinv
  outboxConsumer := h.outboxConsumer
  outboxEvents := h.outboxEvents
  origin := by
    intro d' hd'
    obtain ⟨d, hd, hk⟩ := hr.exists_old hd'
    rw [consumer_of_identity hk.identity, envelope_of_identity hk.identity]
    exact h.origin d hd
  fanOut := by
    intro d' hd' b hb henvelope a ha hs hlt
    obtain ⟨d, hd, hk⟩ := hr.exists_old hd'
    rw [envelope_of_identity hk.identity] at henvelope
    rw [consumer_of_identity hk.identity, entryId_of_identity hk.identity]
    obtain ⟨hf, hqueued⟩ := h.fanOut d hd b hb henvelope a ha hs hlt
    refine ⟨hf, ?_⟩
    intro hstatus c hc hconsumer
    obtain ⟨d₁, hd₁, hc₁, he₁, hlt₁⟩ := hqueued hstatus c hc hconsumer
    obtain ⟨d₁', hd₁', hk₁⟩ := hr.exists_kept hd₁
    refine ⟨d₁', hd₁', ?_⟩
    rw [consumer_of_identity hk₁.identity, envelope_of_identity hk₁.identity,
      entryId_of_identity hk₁.identity]
    exact ⟨hc₁, he₁, hlt₁⟩
  completed := by
    intro table e he hstatus
    cases table with
    | outbox_event =>
      have hg : Grows s (s.setRows .event_delivery rows') := grows_setRows hr.advances
      exact (h.completed .outbox_event e he hstatus).mono hg
    | event_delivery => exact hdone e he hstatus
  effects := by
    intro front x back heq
    obtain ⟨d, hd, hconsumer, henvelope, hearlier⟩ := h.effects front x back heq
    obtain ⟨d', hd', hk⟩ := hr.exists_kept hd
    refine ⟨d', hd', ?_, ?_, ?_⟩
    · rw [consumer_of_identity hk.identity, hconsumer]
    · rw [envelope_of_identity hk.identity, henvelope]
    intro d₁' hd₁' hs hlt
    obtain ⟨d₁, hd₁, hk₁⟩ := hr.exists_old hd₁'
    rw [stream_of_identity hk.identity, stream_of_identity hk₁.identity] at hs
    rw [entryId_of_identity hk.identity, entryId_of_identity hk₁.identity] at hlt
    obtain ⟨hf, hdelivered⟩ := hearlier d₁ hd₁ hs hlt
    obtain rfl := hk₁.finished hf
    exact ⟨hf, hdelivered⟩

theorem StoreInvariant.restate (h : StoreInvariant routes s) (table : QueueTable)
    {rows' : Table Data} (hr : Restated (s.rows table) rows')
    (hinv : ∃ granted, TableInvariant granted rows')
    (hdone : ∀ e ∈ rows', e.status = .done → Completed routes s table e) :
    StoreInvariant routes (s.setRows table rows') := by
  cases table with
  | outbox_event => exact h.restateOutbox hr hinv hdone
  | event_delivery => exact h.restateDeliveries hr hinv hdone

/-- A producer appends an event at the end of its stream. -/
theorem StoreInvariant.append (h : StoreInvariant routes s) {entryId : ℕ}
    {envelope : EventEnvelope Data} {at_ : Time}
    (hfresh : FreshEntry (newEntry entryId none envelope at_) s.outbox)
    (hunique : ∀ e ∈ s.outbox, ¬ sameEvent none envelope e) :
    StoreInvariant routes
      { s with outbox := s.outbox ++ [newEntry entryId none envelope at_] } := by
  have hnew : ∀ e ∈ s.outbox, e.envelope.tenant_id = envelope.tenant_id →
      e.envelope.id ≠ envelope.id := by
    intro e he htenant hevent
    exact hunique e he (sameEvent_iff.mpr ⟨h.outboxConsumer e he, htenant, hevent⟩)
  refine ⟨?_, h.deliveryRows, ?_, ?_, ?_, ?_, ?_, h.effects⟩
  · obtain ⟨granted, hrows⟩ := h.outboxRows
    exact ⟨granted, hrows.append hfresh⟩
  · intro e he
    rcases List.mem_append.mp he with he | he
    · exact h.outboxConsumer e he
    · rw [List.mem_singleton.mp he]
      rfl
  · intro a ha b hb htenant hevent
    rcases List.mem_append.mp ha with ha | ha <;> rcases List.mem_append.mp hb with hb | hb
    · exact h.outboxEvents a ha b hb htenant hevent
    · rw [List.mem_singleton.mp hb] at htenant hevent
      exact absurd hevent (hnew a ha htenant)
    · rw [List.mem_singleton.mp ha] at htenant hevent
      exact absurd hevent.symm (hnew b hb htenant.symm)
    · rw [List.mem_singleton.mp ha, List.mem_singleton.mp hb]
  · intro d hd
    obtain ⟨c, hc, hconsumer, e, he, henvelope⟩ := h.origin d hd
    exact ⟨c, hc, hconsumer, e, List.mem_append_left _ he, henvelope⟩
  · intro d hd b hb henvelope a ha hs hlt
    -- the new event has no delivery yet, and nothing of its stream is behind it
    obtain ⟨-, -, -, e, he, heq⟩ := h.origin d hd
    rcases List.mem_append.mp hb with hb | hb
    · rcases List.mem_append.mp ha with ha | ha
      · exact h.fanOut d hd b hb henvelope a ha hs hlt
      · rw [List.mem_singleton.mp ha] at hs hlt
        have := (hfresh b hb).2 hs.symm
        omega
    · rw [List.mem_singleton.mp hb] at henvelope
      have hsame : e.envelope = envelope := heq.trans henvelope.symm
      exact absurd (by rw [hsame]) (hnew e he (by rw [hsame]))
  · intro table e he hstatus
    cases table with
    | outbox_event =>
      rcases List.mem_append.mp he with he | he
      · exact h.completed .outbox_event e he hstatus
      · rw [List.mem_singleton.mp he] at hstatus
        cases hstatus
    | event_delivery => exact h.completed .event_delivery e he hstatus

/-- The publisher queues an event for one consumer. -/
theorem StoreInvariant.enqueue (h : StoreInvariant routes s) {first : ℕ} {c : Consumer}
    {r : OutboxEntry Data} {now : Time} (hr : r ∈ s.outbox) (hhead : isHead s.outbox r)
    (hc : c ∈ consumersFor routes r.envelope.type)
    (hfirst : ∀ d ∈ s.deliveries, d.entryId < first) :
    StoreInvariant routes
      { s with deliveries := s.deliveries ++ [newEntry first (some c) r.envelope now] } := by
  have hfresh : FreshEntry (newEntry first (some c) r.envelope now) s.deliveries :=
    fun d hd => ⟨(hfirst d hd).ne, fun _ => hfirst d hd⟩
  refine ⟨h.outboxRows, ?_, h.outboxConsumer, h.outboxEvents, ?_, ?_, ?_, ?_⟩
  · obtain ⟨granted, hrows⟩ := h.deliveryRows
    exact ⟨granted, hrows.append hfresh⟩
  · intro d hd
    rcases List.mem_append.mp hd with hd | hd
    · exact h.origin d hd
    · rw [List.mem_singleton.mp hd]
      exact ⟨c, hc, rfl, r, hr, rfl⟩
  · intro d hd b hb henvelope a ha hs hlt
    rcases List.mem_append.mp hd with hd | hd
    · obtain ⟨hf, hqueued⟩ := h.fanOut d hd b hb henvelope a ha hs hlt
      refine ⟨hf, ?_⟩
      intro hstatus c' hc' hconsumer
      obtain ⟨d₁, hd₁, hrest⟩ := hqueued hstatus c' hc' hconsumer
      exact ⟨d₁, List.mem_append_left _ hd₁, hrest⟩
    · rw [List.mem_singleton.mp hd] at henvelope ⊢
      have hid := h.outboxEvents b hb r hr (by rw [henvelope]; rfl) (by rw [henvelope]; rfl)
      rw [stream_of_identity hid] at hs
      rw [entryId_of_identity hid] at hlt
      refine ⟨isHead_iff.mp hhead a ha hs hlt, ?_⟩
      intro hstatus c' hc' _
      obtain ⟨d₁, hd₁, hconsumer, henv⟩ := h.completed .outbox_event a ha hstatus c' hc'
      exact ⟨d₁, List.mem_append_left _ hd₁, hconsumer, henv, hfirst d₁ hd₁⟩
  · intro table e he hstatus
    cases table with
    | outbox_event =>
      intro c' hc'
      obtain ⟨d, hd, hrest⟩ := h.completed .outbox_event e he hstatus c' hc'
      exact ⟨d, List.mem_append_left _ hd, hrest⟩
    | event_delivery =>
      rcases List.mem_append.mp he with he | he
      · exact h.completed .event_delivery e he hstatus
      · rw [List.mem_singleton.mp he] at hstatus
        cases hstatus
  · intro front x back heq
    obtain ⟨d, hd, hconsumer, henvelope, hearlier⟩ := h.effects front x back heq
    refine ⟨d, List.mem_append_left _ hd, hconsumer, henvelope, ?_⟩
    intro d₁ hd₁ hs hlt
    rcases List.mem_append.mp hd₁ with hd₁ | hd₁
    · exact hearlier d₁ hd₁ hs hlt
    · have := hfirst d hd
      rw [List.mem_singleton.mp hd₁] at hlt
      simp only [newEntry] at hlt
      omega

/-- The publisher queues an event for all its consumers: the store invariant holds, nothing else
happens to the deliveries, and each of the consumers has the event. -/
theorem StoreInvariant.insertDeliveries {r : OutboxEntry Data} (now : Time)
    (hr : r ∈ s.outbox) (hhead : isHead s.outbox r) :
    ∀ (cs : List Consumer) (first : ℕ) (rows : Table Data),
      (∀ c ∈ cs, c ∈ consumersFor routes r.envelope.type) →
      StoreInvariant routes { s with deliveries := rows } → (∀ d ∈ rows, d.entryId < first) →
      StoreInvariant routes
        { s with deliveries := insertDeliveries r.envelope now first cs rows } ∧
      Advances rows (insertDeliveries r.envelope now first cs rows) ∧
      ∀ c ∈ cs, ∃ d ∈ Outbox.insertDeliveries r.envelope now first cs rows,
        d.consumer = some c ∧ d.envelope = r.envelope := by
  intro cs
  induction cs with
  | nil =>
    intro first rows _ h _
    exact ⟨h, .refl rows, by simp⟩
  | cons c cs ih =>
    intro first rows hcs h hfirst
    rw [Outbox.insertDeliveries]
    have hc := hcs c (by simp)
    have hcs' : ∀ c' ∈ cs, c' ∈ consumersFor routes r.envelope.type :=
      fun c' hc' => hcs c' (by simp [hc'])
    obtain ⟨⟨d, hd, hsame⟩, heq⟩ | ⟨-, heq⟩ :=
      insertDelivery_spec rows first c r.envelope now
    · -- the event is queued already, from the one outbox entry that has its id
      rw [heq]
      obtain ⟨hstore, hadv, hall⟩ := ih (first + 1) rows hcs' h
        fun d' hd' => Nat.lt_succ_of_lt (hfirst d' hd')
      refine ⟨hstore, hadv, ?_⟩
      intro c' hc'
      rcases List.mem_cons.mp hc' with rfl | hc'
      · obtain ⟨hconsumer, htenant, hevent⟩ := sameEvent_iff.mp hsame
        obtain ⟨-, -, -, e, he, henvelope⟩ := h.origin d hd
        rw [← henvelope] at htenant hevent
        have hid := h.outboxEvents e he r hr htenant hevent
        obtain ⟨d', hd', hk⟩ := hadv.exists_kept hd
        refine ⟨d', hd', ?_, ?_⟩
        · rw [consumer_of_identity hk.identity, hconsumer]
        · rw [envelope_of_identity hk.identity, ← henvelope, envelope_of_identity hid]
      · exact hall c' hc'
    · rw [heq]
      have hstore' : StoreInvariant routes
          { s with deliveries := rows ++ [newEntry first (some c) r.envelope now] } :=
        h.enqueue hr hhead hc hfirst
      have hadv' : Advances rows (rows ++ [newEntry first (some c) r.envelope now]) :=
        advances_append fun d hd => ⟨(hfirst d hd).ne, fun _ => hfirst d hd⟩
      obtain ⟨hstore, hadv, hall⟩ := ih (first + 1) _ hcs' hstore' (by
        intro d hd
        rcases List.mem_append.mp hd with hd | hd
        · exact Nat.lt_succ_of_lt (hfirst d hd)
        · rw [List.mem_singleton.mp hd]
          exact Nat.lt_succ_self first)
      refine ⟨hstore, hadv'.trans hadv, ?_⟩
      intro c' hc'
      rcases List.mem_cons.mp hc' with rfl | hc'
      · have hmem : newEntry first (some c') r.envelope now ∈
            rows ++ [newEntry first (some c') r.envelope now] := by simp
        obtain ⟨d', hd', hk⟩ := hadv.exists_kept hmem
        refine ⟨d', hd', consumer_of_identity hk.identity, ?_⟩
        rw [envelope_of_identity hk.identity]
        rfl
      · exact hall c' hc'

theorem grows_commit (s : Relay Data) (before after : List (Pass Data)) (p : Pass Data)
    (c : Consumer) (envelope : EventEnvelope Data) (outcome : Stage) :
    Grows s (s.commit before after p c envelope outcome) := by
  refine ⟨?_, List.subset_append_left _ _⟩
  intro table
  cases table <;> exact .refl _

/-- A consumer's transaction commits the effect of a delivery that is the head of its stream. -/
theorem StoreInvariant.commit (h : StoreInvariant routes s) {c : Consumer}
    {d : OutboxEntry Data} (hd : d ∈ s.deliveries) (hconsumer : d.consumer = some c)
    (hhead : isHead s.deliveries d) (before after : List (Pass Data)) (p : Pass Data)
    (outcome : Stage) :
    StoreInvariant routes (s.commit before after p c d.envelope outcome) := by
  refine ⟨h.outboxRows, h.deliveryRows, h.outboxConsumer, h.outboxEvents, h.origin, h.fanOut,
    ?_, ?_⟩
  · intro table e he hstatus
    have hg : Grows s (s.commit before after p c d.envelope outcome) := grows_commit s ..
    cases table with
    | outbox_event => exact (h.completed .outbox_event e he hstatus).mono hg
    | event_delivery => exact (h.completed .event_delivery e he hstatus).mono hg
  · intro front x back heq
    rcases List.eq_nil_or_concat back with rfl | ⟨back', y, rfl⟩
    · obtain ⟨rfl, hx⟩ := List.append_inj' heq rfl
      cases hx
      refine ⟨d, hd, hconsumer, rfl, ?_⟩
      intro d₁ hd₁ hs hlt
      refine ⟨isHead_iff.mp hhead d₁ hd₁ hs hlt, ?_⟩
      intro hstatus
      have hc₁ : d₁.consumer = some c := by
        rw [← hconsumer]
        exact congrArg Stream.consumer hs
      exact h.completed .event_delivery d₁ hd₁ hstatus c hc₁
    · have heq' : s.effects ++ [⟨c, d.envelope⟩] = (front ++ x :: back') ++ [y] := by
        simpa [Relay.commit] using heq
      obtain ⟨hold, -⟩ := List.append_inj' heq' rfl
      exact h.effects front x back' hold

theorem StoreInvariant.completed_update (h : StoreInvariant routes s) {table : QueueTable}
    {selects : OutboxEntry Data → Bool} {set : OutboxEntry Data → OutboxEntry Data}
    (hset : ∀ e ∈ s.rows table, selects e → (set e).status = .done →
      Completed routes s table (set e)) :
    ∀ e ∈ Sql.update selects set (s.rows table), e.status = .done →
      Completed routes s table e :=
  Sql.forall_mem_update (h.completed table) fun e he hsel _ => hset e he hsel

theorem StoreInvariant.leaseBatch (h : StoreInvariant routes s) (queue : QueueSelector)
    (locked : ℕ → Bool) (request : LeaseRequest) :
    StoreInvariant routes (s.setRows queue.table
      (leaseBatch queue locked request (s.rows queue.table)).1) := by
  obtain ⟨granted, hrows⟩ := h.tableInvariant queue.table
  refine h.restate _ (hrows.restated_leaseBatch queue locked request)
    ⟨_, hrows.leaseBatch queue locked request⟩ ?_
  obtain ⟨ids, heq, -⟩ := leaseBatch_spec queue locked request (s.rows queue.table)
  rw [heq]
  apply h.completed_update
  intro e _ _ hstatus
  cases hstatus

theorem StoreInvariant.recordFailure (h : StoreInvariant routes s) (queue : QueueSelector)
    (entryId : String) (workerId : WorkerId) (error : String) (retryAt : Option Time) :
    StoreInvariant routes (s.setRows queue.table
      (recordFailure queue entryId workerId error retryAt (s.rows queue.table)).1) := by
  obtain ⟨granted, hrows⟩ := h.tableInvariant queue.table
  refine h.restate _ (restated_recordFailure queue entryId workerId error retryAt)
    ⟨_, hrows.recordFailure queue entryId workerId error retryAt⟩ ?_
  apply h.completed_update
  intro e _ _ hstatus
  simp only [failEntry] at hstatus
  split_ifs at hstatus

theorem StoreInvariant.resolveDeadLetter (h : StoreInvariant routes s) (queue : QueueSelector)
    (entryId : String) (resolution : DeadLetterResolution) :
    StoreInvariant routes (s.setRows queue.table
      (resolveDeadLetter queue entryId resolution (s.rows queue.table)).1) := by
  obtain ⟨granted, hrows⟩ := h.tableInvariant queue.table
  refine h.restate _ (restated_resolveDeadLetter queue entryId resolution)
    ⟨_, hrows.resolveDeadLetter queue entryId resolution⟩ ?_
  apply h.completed_update
  intro e _ _ hstatus
  unfold resolveEntry at hstatus
  split at hstatus <;> cases hstatus

/-- An entry is marked by a pass whose hand-over returned. -/
theorem StoreInvariant.markPublished (h : StoreInvariant routes s) (hp : PassOk routes s p)
    {e : OutboxEntry Data} {rest : List (OutboxEntry Data)} (hstage : p.stage = .returned)
    (hentries : p.entries = e :: rest) (workerId : WorkerId) (now : Time) :
    StoreInvariant routes (s.setRows p.dispatcher.queue.table
      (markPublished p.dispatcher.queue (toString e.entryId) workerId now
        (s.rows p.dispatcher.queue.table)).1) := by
  obtain ⟨granted, hrows⟩ := h.tableInvariant p.dispatcher.queue.table
  refine h.restate _ (restated_markPublished p.dispatcher.queue (toString e.entryId) workerId now)
    ⟨_, hrows.markPublished p.dispatcher.queue (toString e.entryId) workerId now⟩ ?_
  apply h.completed_update
  intro row hrow hsel _
  obtain ⟨r, hr, hid, -, -⟩ := hp.leased e (by simp [hentries])
  have hrowId : row.entryId = r.entryId := by
    rw [entryIdOf_toString (heldBy_spec hsel).1.symm, entryId_of_identity hid]
  rw [Sql.eq_of_key_eq hrows.ids hrow hr hrowId]
  exact (hp.returned hstage e rest hentries).congr hid.symm

/-- The passes of a state that grew out of another, with one of them replaced. -/
theorem RelayInvariant.replace (h : RelayInvariant routes s) {before after : List (Pass Data)}
    {p p' : Pass Data} (hpass : s.passes = before ++ p :: after)
    (hstore : StoreInvariant routes t) (hg : Grows s t) (hinbox : t.inbox = s.inbox)
    (heffects : t.effects = s.effects) (hpasses : t.passes = before ++ p' :: after)
    (hok : PassOk routes t p')
    (hheld : ∀ key, p'.held = some key →
      key ∉ s.inbox ∧ ∀ q ∈ before ++ after, q.held ≠ some key) :
    RelayInvariant routes t where
  store := hstore
  passes := by
    intro q hq
    rw [hpasses, List.mem_append, List.mem_cons] at hq
    obtain hq | rfl | hq := hq
    · exact (h.passes q (by simp [hpass, hq])).mono hg
    · exact hok
    · exact (h.passes q (by simp [hpass, hq])).mono hg
  inbox := by rw [hinbox, heffects, h.inbox]
  nodup := by rw [hinbox]; exact h.nodup
  exclusive := by
    have hex := h.exclusive
    rw [hpass] at hex
    rw [hpasses]
    exact exclusive_replace hex fun key hkey => (hheld key hkey).2
  uncommitted := by
    intro q hq key hkey
    rw [hinbox]
    rw [hpasses, List.mem_append, List.mem_cons] at hq
    obtain hq | rfl | hq := hq
    · exact h.uncommitted q (by simp [hpass, hq]) key hkey
    · exact (hheld key hkey).1
    · exact h.uncommitted q (by simp [hpass, hq]) key hkey

/-- A pass is replaced by one that holds no inbox record. -/
theorem RelayInvariant.replace_free (h : RelayInvariant routes s)
    {before after : List (Pass Data)} {p p' : Pass Data}
    (hpass : s.passes = before ++ p :: after) (hstore : StoreInvariant routes t)
    (hg : Grows s t) (hinbox : t.inbox = s.inbox) (heffects : t.effects = s.effects)
    (hpasses : t.passes = before ++ p' :: after) (hok : PassOk routes t p')
    (hstage : p'.stage ≠ .recorded) : RelayInvariant routes t := by
  apply h.replace hpass hstore hg hinbox heffects hpasses hok
  intro key hkey
  rw [held_of_stage hstage] at hkey
  cases hkey

/-- Some passes of a state that grew out of another. -/
theorem RelayInvariant.sublist (h : RelayInvariant routes s) (hstore : StoreInvariant routes t)
    (hg : Grows s t) (hinbox : t.inbox = s.inbox) (heffects : t.effects = s.effects)
    (hpasses : t.passes.Sublist s.passes) : RelayInvariant routes t where
  store := hstore
  passes := fun q hq => (h.passes q (hpasses.subset hq)).mono hg
  inbox := by rw [hinbox, heffects, h.inbox]
  nodup := by rw [hinbox]; exact h.nodup
  exclusive := h.exclusive.sublist hpasses
  uncommitted := by
    intro q hq
    rw [hinbox]
    exact h.uncommitted q (hpasses.subset hq)

/-- Passes are not part of the stores. -/
theorem StoreInvariant.withPasses (h : StoreInvariant routes s) (passes : List (Pass Data)) :
    StoreInvariant routes { s with passes := passes } := by
  refine ⟨h.outboxRows, h.deliveryRows, h.outboxConsumer, h.outboxEvents, h.origin, h.fanOut,
    ?_, h.effects⟩
  intro table e he hstatus
  cases table with
  | outbox_event => exact h.completed .outbox_event e he hstatus
  | event_delivery => exact h.completed .event_delivery e he hstatus

theorem Grows.withPasses (h : Grows s t) (passes : List (Pass Data)) :
    Grows s { t with passes := passes } := by
  refine ⟨?_, h.effects⟩
  intro table
  cases table with
  | outbox_event => exact h.rows .outbox_event
  | event_delivery => exact h.rows .event_delivery

theorem RelayInvariant.append (h : RelayInvariant routes s) {entryId : ℕ}
    {envelope : EventEnvelope Data} {rows' : Table Data}
    (hfresh : FreshEntry (newEntry entryId none envelope envelope.recorded_at) s.outbox)
    (happend : appendOutboxEvent entryId envelope s.outbox = some rows') :
    RelayInvariant routes { s with outbox := rows' } := by
  obtain ⟨rfl, -, hunique⟩ := appendOutboxEvent_spec happend
  have hg : Grows s (s.setRows .outbox_event
      (s.outbox ++ [newEntry entryId none envelope envelope.recorded_at])) :=
    grows_setRows (advances_append hfresh)
  exact h.sublist (h.store.append hfresh hunique) hg rfl rfl (List.Sublist.refl _)

theorem RelayInvariant.lease (h : RelayInvariant routes s) (d : Dispatcher) (locked : ℕ → Bool)
    (now : Time) : RelayInvariant routes (s.lease d locked now) := by
  obtain ⟨granted, hrows⟩ := h.store.tableInvariant d.queue.table
  have hadv := (hrows.restated_leaseBatch d.queue locked (d.leaseRequest now)).advances
  have hg : Grows s (s.lease d locked now) := (grows_setRows hadv).withPasses _
  obtain ⟨ids, -, hids, hleased⟩ :=
    leaseBatch_spec d.queue locked (d.leaseRequest now) (s.rows d.queue.table)
  have hpasses : (s.lease d locked now).passes = s.passes ++ [⟨d,
      (leaseBatch d.queue locked (d.leaseRequest now) (s.rows d.queue.table)).2, .next,
      { leased := (leaseBatch d.queue locked (d.leaseRequest now)
        (s.rows d.queue.table)).2.length }⟩] := by
    simp [Relay.lease]
  refine ⟨(h.store.leaseBatch d.queue locked _).withPasses _, ?_, ?_, ?_, ?_, ?_⟩
  · intro q hq
    rw [hpasses] at hq
    rcases List.mem_append.mp hq with hq | hq
    · exact (h.passes q hq).mono hg
    · rw [List.mem_singleton.mp hq]
      refine ⟨?_, fun hstage => by cases hstage⟩
      intro x hx
      obtain ⟨e, he, hid, rfl⟩ := (hleased x).mp hx
      obtain ⟨-, hscope, hhead⟩ := eligible_spec (hrows.eligible_of_granted hids he hid)
      obtain ⟨r, hr, hk⟩ := (hg.rows d.queue.table).exists_kept he
      exact ⟨r, hr, hk.identity, hscope, (hg.rows d.queue.table).isHead he rfl hhead⟩
  · simpa [Relay.lease] using h.inbox
  · simpa [Relay.lease] using h.nodup
  · rw [hpasses, List.pairwise_append]
    refine ⟨h.exclusive, List.pairwise_singleton _ _, ?_⟩
    intro a _ b hb key _
    rw [List.mem_singleton.mp hb, held_of_stage (by simp)]
    simp
  · intro q hq key hkey
    rw [hpasses] at hq
    rcases List.mem_append.mp hq with hq | hq
    · simpa [Relay.lease] using h.uncommitted q hq key hkey
    · rw [List.mem_singleton.mp hq, held_of_stage (by simp)] at hkey
      cases hkey

theorem RelayInvariant.publish (h : RelayInvariant routes s) {before after : List (Pass Data)}
    {e : OutboxEntry Data} {rest : List (OutboxEntry Data)} {first : ℕ} {outcome : Stage}
    (now : Time) (hpass : s.passes = before ++ p :: after) (hentries : p.entries = e :: rest)
    (hqueue : p.dispatcher.queue = .outbox) (hfirst : ∀ d ∈ s.deliveries, d.entryId < first)
    (houtcome : Reported outcome) :
    RelayInvariant routes
      { s with
        deliveries := publish routes first now e.envelope s.deliveries
        passes := before ++ { p with stage := outcome } :: after } := by
  have hok := h.passes p (by simp [hpass])
  obtain ⟨r, hr, hid, -, hhead⟩ := hok.leased e (by simp [hentries])
  rw [hqueue] at hr hhead
  have hhead' : isHead s.outbox r := by
    rw [isHead_iff] at hhead ⊢
    rw [stream_of_identity hid, entryId_of_identity hid]
    exact hhead
  rw [← envelope_of_identity hid]
  obtain ⟨hstore, hadv, hall⟩ := StoreInvariant.insertDeliveries now hr hhead'
    (consumersFor routes r.envelope.type) first s.deliveries (fun c hc => hc) h.store hfirst
  have hg : Grows s (s.setRows .event_delivery (Outbox.publish routes first now r.envelope
      s.deliveries)) := grows_setRows hadv
  refine h.replace_free hpass (hstore.withPasses _) (hg.withPasses _) rfl rfl rfl ?_ ?_
  · apply (hok.mono (hg.withPasses _)).setStage
    intro _ e' rest' hentries'
    rw [hqueue]
    intro c hc
    rw [hentries] at hentries'
    cases hentries'
    rw [← envelope_of_identity hid] at hc ⊢
    exact hall c hc
  · rcases houtcome with rfl | rfl <;> simp

theorem RelayInvariant.commit (h : RelayInvariant routes s) {before after : List (Pass Data)}
    {e : OutboxEntry Data} {rest : List (OutboxEntry Data)} {c : Consumer} {outcome : Stage}
    (hpass : s.passes = before ++ p :: after) (hstage : p.stage = .recorded)
    (hentries : p.entries = e :: rest) (hqueue : p.dispatcher.queue = .delivery c)
    (houtcome : Reported outcome) :
    RelayInvariant routes (s.commit before after p c e.envelope outcome) := by
  have hok := h.passes p (by simp [hpass])
  obtain ⟨r, hr, hid, hscope, hhead⟩ := hok.leased e (by simp [hentries])
  rw [hqueue] at hr hscope hhead
  have hconsumer : e.consumer = some c := beq_iff_eq.mp hscope
  have hhead' : isHead s.deliveries r := by
    rw [isHead_iff] at hhead ⊢
    rw [stream_of_identity hid, entryId_of_identity hid]
    exact hhead
  have hheld : p.held = some (inboxKey c e.envelope) :=
    held_eq_some_iff.mpr ⟨hstage, c, hqueue, e, rest, hentries, rfl⟩
  have hex := h.exclusive
  rw [hpass] at hex
  have hnew := h.uncommitted p (by simp [hpass]) _ hheld
  have hg := grows_commit s before after p c e.envelope outcome
  have hfree : outcome ≠ .recorded := by rcases houtcome with rfl | rfl <;> simp
  refine ⟨?_, ?_, ?_, ?_, ?_, ?_⟩
  · rw [← envelope_of_identity hid]
    exact h.store.commit hr ((consumer_of_identity hid).trans hconsumer) hhead' ..
  · intro q hq
    rw [Relay.commit, List.mem_append, List.mem_cons] at hq
    obtain hq | rfl | hq := hq
    · exact (h.passes q (by simp [hpass, hq])).mono hg
    · apply (hok.mono hg).setStage
      intro _ e' rest' hentries'
      rw [hentries] at hentries'
      cases hentries'
      rw [hqueue]
      intro c' hc'
      rw [hconsumer] at hc'
      cases hc'
      simp [Relay.commit]
    · exact (h.passes q (by simp [hpass, hq])).mono hg
  · simp [Relay.commit, h.inbox, Effect.key]
  · rw [Relay.commit, ← List.concat_eq_append]
    exact List.Nodup.concat hnew h.nodup
  · apply exclusive_replace hex
    intro key hkey
    rw [held_of_stage hfree] at hkey
    cases hkey
  · intro q hq key hkey
    rw [Relay.commit, List.mem_append, List.mem_cons] at hq
    have hother : q ∈ before ++ after → key ∉ s.inbox ++ [inboxKey c e.envelope] := by
      intro hmem hin
      rcases List.mem_append.mp hin with hin | hin
      · have hq' : q ∈ s.passes := by
          rw [hpass]
          rcases List.mem_append.mp hmem with hmem | hmem <;> simp [hmem]
        exact h.uncommitted q hq' key hkey hin
      · rw [List.mem_singleton.mp hin] at hkey
        exact exclusive_others hex hheld q hmem hkey
    obtain hq | rfl | hq := hq
    · exact hother (List.mem_append_left _ hq)
    · rw [held_of_stage hfree] at hkey
      cases hkey
    · exact hother (List.mem_append_right _ hq)

theorem RelayInvariant.exceed (h : RelayInvariant routes s) {before after : List (Pass Data)}
    (e : OutboxEntry Data) (hpass : s.passes = before ++ p :: after) :
    RelayInvariant routes (s.exceed before after p e) := by
  have hg : Grows s (s.exceed before after p e) :=
    (grows_setRows (restated_recordFailure ..).advances).withPasses _
  have hok := h.passes p (by simp [hpass])
  exact h.replace_free hpass ((h.store.recordFailure ..).withPasses _) hg (by simp [Relay.exceed])
    (by simp [Relay.exceed]) rfl ((hok.mono hg).advance _) (by simp [Pass.advance])

theorem RelayInvariant.retry (h : RelayInvariant routes s) {before after : List (Pass Data)}
    (e : OutboxEntry Data) (error : String) (now : Time)
    (hpass : s.passes = before ++ p :: after) :
    RelayInvariant routes (s.retry before after p e error now) := by
  have hg : Grows s (s.retry before after p e error now) :=
    (grows_setRows (restated_recordFailure ..).advances).withPasses _
  have hok := h.passes p (by simp [hpass])
  exact h.replace_free hpass ((h.store.recordFailure ..).withPasses _) hg (by simp [Relay.retry])
    (by simp [Relay.retry]) rfl ((hok.mono hg).advance _) (by simp [Pass.advance])

theorem RelayInvariant.mark (h : RelayInvariant routes s) {before after : List (Pass Data)}
    {e : OutboxEntry Data} {rest : List (OutboxEntry Data)} (now : Time)
    (hpass : s.passes = before ++ p :: after) (hstage : p.stage = .returned)
    (hentries : p.entries = e :: rest) :
    RelayInvariant routes (s.mark before after p e now) := by
  have hg : Grows s (s.mark before after p e now) :=
    (grows_setRows (restated_markPublished ..).advances).withPasses _
  have hok := h.passes p (by simp [hpass])
  have hstore := h.store.markPublished hok hstage hentries p.dispatcher.workerId now
  exact h.replace_free hpass (hstore.withPasses _) hg (by simp [Relay.mark])
    (by simp [Relay.mark]) rfl ((hok.mono hg).advance _) (by simp [Pass.advance])

/-- The pass alone changes, and gets to a stage where it holds no inbox record. -/
theorem RelayInvariant.setStage (h : RelayInvariant routes s) {before after : List (Pass Data)}
    {stage : Stage} (hpass : s.passes = before ++ p :: after) (hfree : stage ≠ .recorded)
    (hcompleted : stage = .returned → ∀ e rest, p.entries = e :: rest →
      Completed routes s p.dispatcher.queue.table e) :
    RelayInvariant routes { s with passes := before ++ { p with stage := stage } :: after } := by
  have hok := (h.passes p (by simp [hpass])).setStage hcompleted
  have hg := (Grows.refl s).withPasses (before ++ { p with stage := stage } :: after)
  exact h.replace_free hpass (h.store.withPasses _) hg rfl rfl rfl (hok.mono hg) hfree

/-- Deliveries of one event carry one envelope: there is one outbox entry they come from. -/
theorem StoreInvariant.envelope_eq (h : StoreInvariant routes s) {d₁ d₂ : OutboxEntry Data}
    (hd₁ : d₁ ∈ s.deliveries) (hd₂ : d₂ ∈ s.deliveries)
    (htenant : d₁.envelope.tenant_id = d₂.envelope.tenant_id)
    (hevent : d₁.envelope.id = d₂.envelope.id) : d₁.envelope = d₂.envelope := by
  obtain ⟨-, -, -, e₁, he₁, henvelope₁⟩ := h.origin d₁ hd₁
  obtain ⟨-, -, -, e₂, he₂, henvelope₂⟩ := h.origin d₂ hd₂
  rw [← henvelope₁, ← henvelope₂] at htenant hevent ⊢
  exact envelope_of_identity (h.outboxEvents e₁ he₁ e₂ he₂ htenant hevent)

theorem StoreInvariant.exists_delivery (h : StoreInvariant routes s) {x : Effect Data}
    (hx : x ∈ s.effects) :
    ∃ d ∈ s.deliveries, d.consumer = some x.consumer ∧ d.envelope = x.envelope := by
  obtain ⟨front, back, heq⟩ := List.append_of_mem hx
  obtain ⟨d, hd, hconsumer, henvelope, -⟩ := h.effects front x back heq
  exact ⟨d, hd, hconsumer, henvelope⟩

/-- The inbox record says that the effect is committed. -/
theorem RelayInvariant.duplicate (h : RelayInvariant routes s) {before after : List (Pass Data)}
    {e : OutboxEntry Data} {rest : List (OutboxEntry Data)} {c : Consumer} {outcome : Stage}
    (hpass : s.passes = before ++ p :: after) (hentries : p.entries = e :: rest)
    (hqueue : p.dispatcher.queue = .delivery c) (hinbox : inboxKey c e.envelope ∈ s.inbox)
    (houtcome : Reported outcome) :
    RelayInvariant routes { s with passes := before ++ { p with stage := outcome } :: after } := by
  apply h.setStage hpass
  · rcases houtcome with rfl | rfl <;> simp
  intro _ e' rest' hentries'
  rw [hentries] at hentries'
  cases hentries'
  obtain ⟨r, hr, hid, hscope, -⟩ := (h.passes p (by simp [hpass])).leased e (by simp [hentries])
  rw [hqueue] at hr hscope ⊢
  intro c' hc'
  have hconsumer : e.consumer = some c := beq_iff_eq.mp hscope
  rw [hconsumer] at hc'
  cases hc'
  rw [h.inbox, List.mem_map] at hinbox
  obtain ⟨x, hx, hkey⟩ := hinbox
  simp only [Effect.key, inboxKey, InboxKey.mk.injEq] at hkey
  obtain ⟨d, hd, -, henvelope⟩ := h.store.exists_delivery hx
  have hsame : d.envelope = r.envelope := by
    apply h.store.envelope_eq hd hr
    · rw [henvelope, envelope_of_identity hid, hkey.1]
    · rw [henvelope, envelope_of_identity hid, hkey.2.2]
  rw [← envelope_of_identity hid, ← hsame, henvelope, ← hkey.2.1]
  exact hx

/-- The inbox record is inserted, where nobody has inserted it. -/
theorem RelayInvariant.record (h : RelayInvariant routes s) {before after : List (Pass Data)}
    {e : OutboxEntry Data} {rest : List (OutboxEntry Data)} {c : Consumer}
    (hpass : s.passes = before ++ p :: after) (hentries : p.entries = e :: rest)
    (hqueue : p.dispatcher.queue = .delivery c) (hinbox : inboxKey c e.envelope ∉ s.inbox)
    (hheld : ∀ q ∈ before ++ after, q.held ≠ some (inboxKey c e.envelope)) :
    RelayInvariant routes
      { s with passes := before ++ { p with stage := .recorded } :: after } := by
  have hok : PassOk routes s { p with stage := .recorded } :=
    (h.passes p (by simp [hpass])).setStage (by simp)
  have hg := (Grows.refl s).withPasses (before ++ { p with stage := .recorded } :: after)
  refine h.replace hpass (h.store.withPasses _) hg rfl rfl rfl (hok.mono hg) ?_
  intro key hkey
  obtain ⟨-, c', hqueue', e', rest', hentries', rfl⟩ := held_eq_some_iff.mp hkey
  rw [hqueue] at hqueue'
  cases hqueue'
  rw [hentries] at hentries'
  cases hentries'
  exact ⟨hinbox, hheld⟩

theorem RelayInvariant.stop (h : RelayInvariant routes s) {before after : List (Pass Data)}
    (hpass : s.passes = before ++ p :: after) :
    RelayInvariant routes { s with passes := before ++ after } := by
  refine h.sublist (h.store.withPasses _) ((Grows.refl s).withPasses _) rfl rfl ?_
  rw [hpass]
  exact (List.Sublist.refl before).append (List.sublist_cons_self p after)

theorem RelayInvariant.resolveDeadLetter (h : RelayInvariant routes s) (queue : QueueSelector)
    (entryId : String) (resolution : DeadLetterResolution) :
    RelayInvariant routes (s.setRows queue.table
      (resolveDeadLetter queue entryId resolution (s.rows queue.table)).1) :=
  h.sublist (h.store.resolveDeadLetter queue entryId resolution)
    (grows_setRows (restated_resolveDeadLetter queue entryId resolution).advances)
    (setRows_inbox ..) (setRows_effects ..) (by rw [setRows_passes])

theorem RelayInvariant.step (h : RelayInvariant routes s) (hstep : RelayStep routes s t) :
    RelayInvariant routes t := by
  cases hstep with
  | append entryId envelope hfresh happend => exact h.append hfresh happend
  | lease d locked now => exact h.lease d locked now
  | exceed hpass _ _ _ => exact h.exceed _ hpass
  | publish first now outcome hpass _ hentries _ hqueue hfirst houtcome =>
    exact h.publish now hpass hentries hqueue hfirst houtcome
  | handOverThrows hpass _ _ _ => exact h.setStage hpass (by simp) (by simp)
  | duplicate c outcome hpass _ hentries _ hqueue _ hinbox houtcome =>
    exact h.duplicate hpass hentries hqueue hinbox houtcome
  | record c hpass _ hentries _ hqueue _ hinbox hheld =>
    exact h.record hpass hentries hqueue hinbox hheld
  | commit c outcome hpass hstage hentries hqueue houtcome =>
    exact h.commit hpass hstage hentries hqueue houtcome
  | rollback hpass _ => exact h.setStage hpass (by simp) (by simp)
  | mark now hpass hstage hentries => exact h.mark now hpass hstage hentries
  | retry error now hpass _ _ => exact h.retry _ error now hpass
  | stop hpass => exact h.stop hpass
  | resolveDeadLetter queue entryId resolution =>
    exact h.resolveDeadLetter queue entryId resolution

theorem RelayInvariant.empty : RelayInvariant routes (Relay.empty : Relay Data) where
  store := by
    refine ⟨⟨[], .nil, by simp, .nil, by simp [Relay.empty]⟩,
      ⟨[], .nil, by simp, .nil, by simp [Relay.empty]⟩, ?_, ?_, ?_, ?_, ?_, ?_⟩
    all_goals simp [Relay.empty]
    intro table e he
    cases table <;> cases he
  passes := by simp [Relay.empty]
  inbox := rfl
  nodup := List.nodup_nil
  exclusive := .nil
  uncommitted := by simp [Relay.empty]

theorem RelayInvariant.run (h : RelayInvariant routes s) (hrun : RelayRun routes s t) :
    RelayInvariant routes t := by
  induction hrun with
  | refl => exact h
  | tail _ hstep ih => exact ih.step hstep

/-- The consumers of an event type are those that some route subscribes to it. -/
theorem mem_consumersFor {eventType : String} {c : Consumer} :
    c ∈ consumersFor routes eventType ↔
      ∃ route ∈ routes, eventType ∈ route.eventTypes ∧ route.consumer = c := by
  unfold consumersFor
  rw [List.mem_flatMap]
  refine exists_congr fun route => and_congr_right fun _ => ?_
  simp only [List.mem_map, List.mem_filter, beq_iff_eq]
  constructor
  · rintro ⟨_, ⟨htype, rfl⟩, hconsumer⟩
    exact ⟨htype, hconsumer⟩
  · rintro ⟨htype, hconsumer⟩
    exact ⟨eventType, ⟨htype, rfl⟩, hconsumer⟩

/-- What the relay promises every consumer. -/
structure RelaySafe (routes : List EventRoute) (s : Relay Data) : Prop where
  /-- The effect of an event commits at most once. -/
  at_most_once : (s.effects.map Effect.key).Nodup
  /-- A published event is queued for every subscribed consumer. -/
  published : ∀ e ∈ s.outbox, e.status = .done → ∀ route ∈ routes,
    e.envelope.type ∈ route.eventTypes →
      ∃ d ∈ s.deliveries, d.consumer = some route.consumer ∧ d.envelope = e.envelope
  /-- A delivered event has its effect committed. -/
  delivered : ∀ d ∈ s.deliveries, d.status = .done → ∀ c, d.consumer = some c →
    ⟨c, d.envelope⟩ ∈ s.effects
  /-- Effects commit in stream order, except around what an operator skipped. -/
  in_order : ∀ c, ∀ e₁ ∈ s.outbox, ∀ e₂ ∈ s.outbox, e₁.stream = e₂.stream →
    e₁.entryId < e₂.entryId → e₁.status ≠ .skipped →
    (∀ d ∈ s.deliveries, d.consumer = some c → d.envelope = e₁.envelope → d.status ≠ .skipped) →
    ∀ i j : ℕ, s.effects[i]? = some (Effect.mk c e₁.envelope) →
      s.effects[j]? = some (Effect.mk c e₂.envelope) → i < j

/-- Before an effect at a consumer come the effects of the earlier events of its stream. -/
theorem StoreInvariant.effect_before (h : StoreInvariant routes s) {c : Consumer}
    {e₁ e₂ : OutboxEntry Data} (he₁ : e₁ ∈ s.outbox) (he₂ : e₂ ∈ s.outbox)
    (hs : e₁.stream = e₂.stream) (hlt : e₁.entryId < e₂.entryId) (hskip : e₁.status ≠ .skipped)
    (hskip' : ∀ d ∈ s.deliveries, d.consumer = some c → d.envelope = e₁.envelope →
      d.status ≠ .skipped)
    (hx : ⟨c, e₁.envelope⟩ ∈ s.effects) {front back : List (Effect Data)}
    (heq : s.effects = front ++ ⟨c, e₂.envelope⟩ :: back) : ⟨c, e₁.envelope⟩ ∈ front := by
  obtain ⟨d₂, hd₂, hconsumer₂, henvelope₂, hearlier⟩ := h.effects front _ back heq
  obtain ⟨hf, hqueued⟩ := h.fanOut d₂ hd₂ e₂ he₂ henvelope₂.symm e₁ he₁ hs hlt
  have hdone : e₁.status = .done := (finished_iff.mp hf).resolve_right hskip
  -- the consumer is subscribed, since it has an effect of the event
  obtain ⟨d, hd, hconsumer, henvelope⟩ := h.exists_delivery hx
  obtain ⟨c', hc', hconsumer', -⟩ := h.origin d hd
  rw [hconsumer] at hconsumer'
  cases hconsumer'
  rw [henvelope] at hc'
  obtain ⟨d₁, hd₁, hconsumer₁, henvelope₁, hlt₁⟩ := hqueued hdone c hc' hconsumer₂
  have hstream : d₁.stream = d₂.stream := by
    simp only [OutboxEntry.stream, Stream.mk.injEq] at hs ⊢
    rw [hconsumer₁, hconsumer₂, henvelope₁, henvelope₂]
    exact ⟨rfl, hs.2⟩
  obtain ⟨hf₁, hdelivered⟩ := hearlier d₁ hd₁ hstream hlt₁
  have hdone₁ : d₁.status = .done :=
    (finished_iff.mp hf₁).resolve_right (hskip' d₁ hd₁ hconsumer₁ henvelope₁)
  rw [← henvelope₁]
  exact hdelivered hdone₁

theorem relay_safety (hrun : RelayRun routes (.empty : Relay Data) s) : RelaySafe routes s := by
  have h := RelayInvariant.empty.run hrun
  have hnodup : (s.effects.map Effect.key).Nodup := h.inbox ▸ h.nodup
  refine ⟨hnodup, ?_, h.store.completed .event_delivery, ?_⟩
  · intro e he hdone route hroute htype
    exact h.store.completed .outbox_event e he hdone route.consumer
      (mem_consumersFor.mpr ⟨route, hroute, htype, rfl⟩)
  intro c e₁ he₁ e₂ he₂ hs hlt hskip hskip' i j hi hj
  obtain ⟨hjlt, hjeq⟩ := List.getElem?_eq_some_iff.mp hj
  have hsplit : s.effects = s.effects.take j ++ ⟨c, e₂.envelope⟩ :: s.effects.drop (j + 1) := by
    rw [← hjeq, List.cons_getElem_drop_succ, List.take_append_drop]
  have hmem := h.store.effect_before he₁ he₂ hs hlt hskip hskip' (List.mem_of_getElem? hi) hsplit
  obtain ⟨k, hk⟩ := List.mem_iff_getElem?.mp hmem
  rw [List.getElem?_take] at hk
  split_ifs at hk with hkj
  -- the effect is committed once, so the two places are the same
  have hklt : k < s.effects.length := (List.getElem?_eq_some_iff.mp hk).1
  have hki : k = i :=
    (List.getElem?_inj hklt (List.Nodup.of_map _ hnodup)).mp (hk.trans hi.symm)
  omega

theorem lease_eq {d : Dispatcher} {locked : ℕ → Bool} {now : Time}
    {rows entries : Table Data}
    (h : leaseBatch d.queue locked (d.leaseRequest now) (s.rows d.queue.table) =
      (rows, entries)) :
    s.lease d locked now = { s.setRows d.queue.table rows with
      passes := s.passes ++ [⟨d, entries, .next, { leased := entries.length }⟩] } := by
  unfold Relay.lease
  simp only [h, setRows_passes]

def sampleRoutes : List EventRoute := [⟨"ledger", ["com.subrevos.tenant.provisioned.v1"]⟩]

def sampleWorker (queue : QueueSelector) : Dispatcher := { queue := queue, workerId := "worker-a" }

/-- The row of `sampleEnvelope`, leased at time 0 by the worker. -/
def sampleEntry (consumer : Option Consumer) : OutboxEntry Unit :=
  newEntry 1 consumer sampleEnvelope 0

def sampleLeased (consumer : Option Consumer) : OutboxEntry Unit :=
  grantLease ((sampleWorker .outbox).leaseRequest 0) (sampleEntry consumer)

theorem sample_lease_outbox : leaseBatch .outbox (fun _ => false)
    ((sampleWorker .outbox).leaseRequest 0) [sampleEntry none] =
      ([sampleLeased none], [sampleLeased none]) := by
  decide +kernel

theorem sample_lease_delivery : leaseBatch (.delivery "ledger") (fun _ => false)
    ((sampleWorker (.delivery "ledger")).leaseRequest 0) [sampleEntry (some "ledger")] =
      ([sampleLeased (some "ledger")], [sampleLeased (some "ledger")]) := by
  decide +kernel

/-- An event is appended, published to its consumer, and its effect there committed. -/
theorem relay_safety_delivered : ∃ s : Relay Unit, RelayRun sampleRoutes .empty s ∧
    s.effects = [⟨"ledger", sampleEnvelope⟩] ∧ RelaySafe sampleRoutes s := by
  have h₁ : RelayRun sampleRoutes .empty
      (⟨[sampleEntry none], [], [], [], []⟩ : Relay Unit) :=
    .single (.append 1 sampleEnvelope (by simp [FreshEntry, Relay.empty]) (by decide))
  have h₂ := h₁.tail (.lease (sampleWorker .outbox) (fun _ => false) 0)
  rw [lease_eq (s := ⟨[sampleEntry none], [], [], [], []⟩) (d := sampleWorker .outbox)
    sample_lease_outbox] at h₂
  have h₃ := h₂.tail (.publish 1 0 .returned rfl rfl rfl (by decide) rfl
    (by simp [Relay.setRows, sampleWorker, QueueSelector.table]) (.inl rfl))
  have h₄ := h₃.tail (.stop rfl)
  change RelayRun sampleRoutes .empty
    (⟨[sampleLeased none], [sampleEntry (some "ledger")], [], [], []⟩ : Relay Unit) at h₄
  have h₅ := h₄.tail (.lease (sampleWorker (.delivery "ledger")) (fun _ => false) 0)
  rw [lease_eq (s := ⟨[sampleLeased none], [sampleEntry (some "ledger")], [], [], []⟩)
    (d := sampleWorker (.delivery "ledger")) sample_lease_delivery] at h₅
  have h₆ := h₅.tail
    (.record "ledger" rfl rfl rfl (by decide) rfl (by decide) (by decide) (by simp))
  have h₇ := h₆.tail (.commit "ledger" .returned rfl rfl rfl rfl (.inl rfl))
  exact ⟨_, h₇, rfl, relay_safety h₇⟩

end Sintius.Outbox
