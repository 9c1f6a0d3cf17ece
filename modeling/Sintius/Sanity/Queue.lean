import Mathlib
import Sintius.Lib.Table
import Sintius.Lib.Text
import Sintius.Spec.Queue

/-! What each statement of the queue store can do to the table: which rows it may
select, and what it leaves of a row it changes. Callers use these facts and
never unfold the statements. -/

namespace Sintius.Outbox

variable {Data : Type} {rows : Table Data} {queue : QueueSelector}

theorem finished_iff {e : OutboxEntry Data} :
    e.finished ↔ e.status = .done ∨ e.status = .skipped := by
  simp [OutboxEntry.finished]

@[simp] theorem grantLease_identity (request : LeaseRequest) (e : OutboxEntry Data) :
    (grantLease request e).identity = e.identity := rfl

@[simp] theorem finishEntry_identity (now : Time) (e : OutboxEntry Data) :
    (finishEntry now e).identity = e.identity := rfl

@[simp] theorem failEntry_identity (error : String) (retryAt : Option Time)
    (e : OutboxEntry Data) : (failEntry error retryAt e).identity = e.identity := rfl

@[simp] theorem resolveEntry_identity (resolution : DeadLetterResolution)
    (e : OutboxEntry Data) : (resolveEntry resolution e).identity = e.identity := by
  unfold resolveEntry
  split <;> rfl

theorem entryId_of_identity {a b : OutboxEntry Data} (h : a.identity = b.identity) :
    a.entryId = b.entryId := congrArg Prod.fst h

theorem envelope_of_identity {a b : OutboxEntry Data} (h : a.identity = b.identity) :
    a.envelope = b.envelope := congrArg (fun i => i.2.2) h

theorem consumer_of_identity {a b : OutboxEntry Data} (h : a.identity = b.identity) :
    a.consumer = b.consumer := congrArg (fun i => i.2.1) h

theorem stream_of_identity {a b : OutboxEntry Data} (h : a.identity = b.identity) :
    a.stream = b.stream := by
  unfold OutboxEntry.stream
  rw [envelope_of_identity h, consumer_of_identity h]

theorem isHead_iff {head : OutboxEntry Data} :
    isHead rows head ↔ ∀ earlier ∈ rows, earlier.stream = head.stream →
      earlier.entryId < head.entryId → earlier.finished := by
  unfold isHead
  simp only [Bool.not_eq_true', List.any_eq_false, Bool.and_eq_true, beq_iff_eq,
    decide_eq_true_eq, Bool.not_eq_true', not_and, Bool.not_eq_false]
  constructor
  · intro h earlier hmem hs hlt
    exact h earlier hmem ⟨hs, hlt⟩
  · intro h earlier hmem hs
    exact h earlier hmem hs.1 hs.2

/-- A row that may be leased is unfinished, in the queue, and the head of its stream. -/
theorem eligible_spec {now : Time} {e : OutboxEntry Data} (h : eligible queue now rows e) :
    (e.status = .pending ∨ e.status = .leased) ∧ consumerScope queue e ∧ isHead rows e := by
  unfold eligible at h
  simp only [Bool.and_eq_true, Bool.or_eq_true, beq_iff_eq] at h
  obtain ⟨⟨hstatus, hscope⟩, hhead⟩ := h
  exact ⟨hstatus.imp And.left And.left, hscope, hhead⟩

theorem mem_candidates {locked : ℕ → Bool} {now : Time} {limit id : ℕ}
    (h : id ∈ candidates queue locked now limit rows) :
    ∃ e ∈ rows, e.entryId = id ∧ eligible queue now rows e := by
  unfold candidates at h
  have hsorted := List.mem_of_mem_take h
  rw [List.mem_mergeSort, List.mem_map] at hsorted
  obtain ⟨e, he, rfl⟩ := hsorted
  rw [List.mem_filter, Bool.and_eq_true] at he
  exact ⟨e, he.1, rfl, he.2.1⟩

/-- A lease changes exactly the rows it reports, and each of them was eligible. -/
theorem leaseBatch_spec (queue : QueueSelector) (locked : ℕ → Bool) (request : LeaseRequest)
    (rows : Table Data) :
    ∃ granted : List ℕ,
      (leaseBatch queue locked request rows).1 =
        Sql.update (fun e => decide (e.entryId ∈ granted)) (grantLease request) rows ∧
      (∀ id ∈ granted, ∃ e ∈ rows, e.entryId = id ∧ eligible queue request.now rows e) ∧
      ∀ x, x ∈ (leaseBatch queue locked request rows).2 ↔
        ∃ e ∈ rows, e.entryId ∈ granted ∧ grantLease request e = x := by
  have hnone : rows = Sql.update (fun e : OutboxEntry Data => decide (e.entryId ∈ []))
      (grantLease request) rows := by
    simp [Sql.update]
  unfold leaseBatch
  split
  · exact ⟨[], hnone, by simp, by simp⟩
  rename_i limit _
  split_ifs with hlimit
  · exact ⟨[], hnone, by simp, by simp⟩
  refine ⟨candidates queue locked request.now limit.toNat rows, rfl, ?_, ?_⟩
  · intro id hid
    exact mem_candidates hid
  · intro x
    simp [Sql.returning, and_assoc]

theorem heldBy_spec {entryId : Option ℕ} {workerId : WorkerId} {e : OutboxEntry Data}
    (h : heldBy queue entryId workerId e) :
    some e.entryId = entryId ∧ e.status = .leased ∧ e.leasedBy = some workerId ∧
      consumerScope queue e := by
  unfold heldBy at h
  simpa [and_assoc] using h

theorem deadLetter_spec {entryId : Option ℕ} {e : OutboxEntry Data}
    (h : deadLetter queue entryId e) :
    some e.entryId = entryId ∧ e.status = .dead ∧ consumerScope queue e := by
  unfold deadLetter at h
  simpa [and_assoc] using h

theorem appendOutboxEvent_spec {entryId : ℕ} {envelope : EventEnvelope Data}
    {rows' : Table Data} (h : appendOutboxEvent entryId envelope rows = some rows') :
    rows' = rows ++ [newEntry entryId none envelope envelope.recorded_at] ∧
      envelopeColumnsValid envelope ∧ ∀ e ∈ rows, ¬ sameEvent none envelope e := by
  unfold appendOutboxEvent at h
  split_ifs at h with hc
  rw [Bool.and_eq_true, Bool.not_eq_true', List.any_eq_false] at hc
  exact ⟨(Option.some.inj h).symm, hc.1, hc.2⟩

/-- Either the event is already queued for the consumer, or the row is appended. -/
theorem insertDelivery_spec (rows : Table Data) (entryId : ℕ) (consumer : Consumer)
    (envelope : EventEnvelope Data) (now : Time) :
    ((∃ e ∈ rows, sameEvent (some consumer) envelope e) ∧
      insertDelivery entryId consumer envelope now rows = rows) ∨
    ((∀ e ∈ rows, ¬ sameEvent (some consumer) envelope e) ∧
      insertDelivery entryId consumer envelope now rows =
        rows ++ [newEntry entryId (some consumer) envelope now]) := by
  unfold insertDelivery
  split_ifs with hc
  · exact .inl ⟨List.any_eq_true.mp hc, rfl⟩
  · exact .inr ⟨by simpa using hc, rfl⟩

theorem sameEvent_iff {consumer : Option Consumer} {envelope : EventEnvelope Data}
    {e : OutboxEntry Data} :
    sameEvent consumer envelope e ↔ e.consumer = consumer ∧
      e.envelope.tenant_id = envelope.tenant_id ∧ e.envelope.id = envelope.id := by
  simp [sameEvent, and_assoc]

/-- What any statement may make of a row: it keeps the identity, and a finished row as it is. -/
structure Keeps (e e' : OutboxEntry Data) : Prop where
  identity : e'.identity = e.identity
  finished : e.finished → e' = e

theorem Keeps.refl (e : OutboxEntry Data) : Keeps e e := ⟨rfl, fun _ => rfl⟩

theorem Keeps.trans {e e' e'' : OutboxEntry Data} (h : Keeps e e') (h' : Keeps e' e'') :
    Keeps e e'' where
  identity := h'.identity.trans h.identity
  finished := by
    intro hf
    obtain rfl := h.finished hf
    exact h'.finished hf

/-- What an update may make of a table. -/
def Restated (rows rows' : Table Data) : Prop :=
  ∃ f : OutboxEntry Data → OutboxEntry Data, rows' = rows.map f ∧ ∀ e ∈ rows, Keeps e (f e)

/-- What any statement may make of a table: rows are kept in place, and rows are added at the end
of their streams. -/
def Advances (rows rows' : Table Data) : Prop :=
  ∃ kept added : Table Data, Restated rows kept ∧ rows' = kept ++ added ∧
    ∀ a ∈ added, ∀ e ∈ rows, e.stream = a.stream → e.entryId < a.entryId

theorem Restated.refl (rows : Table Data) : Restated rows rows :=
  ⟨id, by simp, fun e _ => .refl e⟩

theorem Restated.advances {rows' : Table Data} (h : Restated rows rows') : Advances rows rows' :=
  ⟨rows', [], h, by simp, by simp⟩

theorem Advances.refl (rows : Table Data) : Advances rows rows := (Restated.refl rows).advances

theorem Restated.exists_kept {rows' : Table Data} (h : Restated rows rows')
    {e : OutboxEntry Data} (he : e ∈ rows) : ∃ e' ∈ rows', Keeps e e' := by
  obtain ⟨f, rfl, hkeeps⟩ := h
  exact ⟨f e, List.mem_map_of_mem he, hkeeps e he⟩

theorem Restated.exists_old {rows' : Table Data} (h : Restated rows rows')
    {e' : OutboxEntry Data} (he : e' ∈ rows') : ∃ e ∈ rows, Keeps e e' := by
  obtain ⟨f, rfl, hkeeps⟩ := h
  obtain ⟨e, hmem, rfl⟩ := List.mem_map.mp he
  exact ⟨e, hmem, hkeeps e hmem⟩

theorem Advances.exists_kept {rows' : Table Data} (h : Advances rows rows')
    {e : OutboxEntry Data} (he : e ∈ rows) : ∃ e' ∈ rows', Keeps e e' := by
  obtain ⟨kept, added, hkept, rfl, -⟩ := h
  obtain ⟨e', he', hk⟩ := hkept.exists_kept he
  exact ⟨e', List.mem_append_left _ he', hk⟩

theorem Restated.trans {rows' rows'' : Table Data} (h : Restated rows rows')
    (h' : Restated rows' rows'') : Restated rows rows'' := by
  obtain ⟨f, rfl, hkeeps⟩ := h
  obtain ⟨g, rfl, hkeeps'⟩ := h'
  exact ⟨g ∘ f, by simp, fun e he => (hkeeps e he).trans (hkeeps' _ (List.mem_map_of_mem he))⟩

theorem Advances.trans {rows' rows'' : Table Data} (h : Advances rows rows')
    (h' : Advances rows' rows'') : Advances rows rows'' := by
  obtain ⟨kept, added, hkept, rfl, hadded⟩ := h
  obtain ⟨_, added', ⟨g, rfl, hkeeps'⟩, rfl, hadded'⟩ := h'
  refine ⟨kept.map g, added.map g ++ added', ?_, by simp, ?_⟩
  · exact hkept.trans ⟨g, rfl, fun e he => hkeeps' e (List.mem_append_left _ he)⟩
  intro a ha e he hs
  rcases List.mem_append.mp ha with ha | ha
  · obtain ⟨b, hb, rfl⟩ := List.mem_map.mp ha
    have hk := hkeeps' b (List.mem_append_right _ hb)
    rw [stream_of_identity hk.identity] at hs
    rw [entryId_of_identity hk.identity]
    exact hadded b hb e he hs
  · obtain ⟨e', he', hk⟩ := hkept.exists_kept he
    have := hadded' a ha e' (List.mem_append_left _ he')
      ((stream_of_identity hk.identity).trans hs)
    rwa [entryId_of_identity hk.identity] at this

/-- A row that was there and had only finished rows before it still has. -/
theorem Advances.isHead {rows' : Table Data} (h : Advances rows rows') {e r : OutboxEntry Data}
    (hr : r ∈ rows) (hid : r.identity = e.identity) (hhead : isHead rows e) :
    Outbox.isHead rows' e := by
  obtain ⟨kept, added, hkept, rfl, hadded⟩ := h
  rw [isHead_iff] at hhead ⊢
  intro earlier hmem hs hlt
  rcases List.mem_append.mp hmem with hmem | hmem
  · obtain ⟨old, hold, hk⟩ := hkept.exists_old hmem
    rw [stream_of_identity hk.identity] at hs
    rw [entryId_of_identity hk.identity] at hlt
    have hf := hhead old hold hs hlt
    rwa [hk.finished hf]
  · have := hadded earlier hmem r hr ((stream_of_identity hid).trans hs.symm)
    rw [entryId_of_identity hid] at this
    omega

theorem advances_append {added : OutboxEntry Data} (hfresh : FreshEntry added rows) :
    Advances rows (rows ++ [added]) := by
  refine ⟨rows, [added], .refl rows, rfl, ?_⟩
  intro a ha e he
  rw [List.mem_singleton.mp ha]
  exact (hfresh e he).2

/-- An update restates the table if it selects unfinished rows only and keeps identities. -/
theorem restated_update {selects : OutboxEntry Data → Bool}
    {set : OutboxEntry Data → OutboxEntry Data} (hid : ∀ e, (set e).identity = e.identity)
    (hs : ∀ e ∈ rows, selects e → ¬ e.finished) :
    Restated rows (Sql.update selects set rows) := by
  refine ⟨fun e => if selects e then set e else e, rfl, ?_⟩
  intro e he
  dsimp only
  split_ifs with hsel
  · exact ⟨hid e, fun hf => absurd hf (hs e he hsel)⟩
  · exact .refl e

theorem entryIdOf_toString {n id : ℕ} (h : entryIdOf (toString n) = some id) : id = n := by
  unfold entryIdOf at h
  split at h
  · cases h
  · split_ifs at h
    have := Nat.toNat?_repr n
    rw [show toString n = n.repr from rfl] at h
    rw [h] at this
    exact Option.some.inj this

theorem entryIdOf_one : entryIdOf "1" = some 1 := by
  have h : "1".toNat? = some 1 := Nat.toNat?_repr 1
  unfold entryIdOf
  rw [h]
  simp

end Sintius.Outbox
