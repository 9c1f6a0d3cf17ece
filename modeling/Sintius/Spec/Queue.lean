import Mathlib
import Sintius.Lib.Double
import Sintius.Lib.Table
import Sintius.Lib.Text

/-! `platform/outbox`: the queue both relay stages share. The store keeps the
producers' outbox in one table and every consumer's deliveries in another, and
works on both with the same statements. Times are PostgreSQL timestamps in
microseconds. A value PostgreSQL refuses fails its statement, which then changes
nothing. -/

namespace Sintius.Outbox

abbrev Time := ℤ
abbrev Consumer := String
abbrev WorkerId := String

/-- The fields of `EventEnvelope` the relay reads. -/
structure EventEnvelope (Data : Type) where
  id : String
  type : String
  tenant_id : String
  aggregate_type : String
  aggregate_id : String
  aggregate_version : ℕ
  correlation_id : String
  causation_id : Option String
  recorded_at : Time
  data : Data
deriving DecidableEq, Repr

/-- `done` is `'published'` in the outbox and `'delivered'` in a delivery queue. -/
inductive OutboxStatus where
  | pending
  | leased
  | done
  | dead
  | skipped
deriving DecidableEq, Repr

inductive DeadLetterAction where
  | requeue
  | skip
deriving DecidableEq, Repr

structure DeadLetterResolution where
  action : DeadLetterAction
  operatorId : String
  reason : String
  resolvedAt : Time
deriving DecidableEq, Repr

/-- A row of `outbox_event`, where there is no consumer, or of `event_delivery`. -/
structure OutboxEntry (Data : Type) where
  entryId : ℕ
  consumer : Option Consumer
  envelope : EventEnvelope Data
  status : OutboxStatus
  attempts : ℕ
  nextAttemptAt : Time
  queuedAt : Time
  leasedBy : Option WorkerId
  leaseExpiresAt : Option Time
  lastError : Option String
  doneAt : Option Time
  resolution : Option DeadLetterResolution
deriving DecidableEq, Repr

/-- The ordering scope: tenant, aggregate type and aggregate, within one consumer's queue. -/
structure Stream where
  consumer : Option Consumer
  tenant_id : String
  aggregate_type : String
  aggregate_id : String
deriving DecidableEq, Repr

inductive QueueSelector where
  | outbox
  | delivery (consumer : Consumer)
deriving DecidableEq, Repr

inductive QueueTable where
  | outbox_event
  | event_delivery
deriving DecidableEq, Repr

def QueueSelector.table : QueueSelector → QueueTable
  | .outbox => .outbox_event
  | .delivery _ => .event_delivery

def QueueSelector.consumer : QueueSelector → Option Consumer
  | .outbox => none
  | .delivery c => some c

variable {Data : Type}

abbrev Table (Data : Type) := List (OutboxEntry Data)

namespace OutboxEntry

def stream (e : OutboxEntry Data) : Stream where
  consumer := e.consumer
  tenant_id := e.envelope.tenant_id
  aggregate_type := e.envelope.aggregate_type
  aggregate_id := e.envelope.aggregate_id

/-- `status IN (done, 'skipped')` -/
def finished (e : OutboxEntry Data) : Bool := e.status == .done || e.status == .skipped

/-- The columns a statement may not change. -/
def identity (e : OutboxEntry Data) : ℕ × Option Consumer × EventEnvelope Data :=
  (e.entryId, e.consumer, e.envelope)

end OutboxEntry

/-- `AND consumer = $n` for delivery queues; nothing for the outbox. -/
def consumerScope (queue : QueueSelector) (e : OutboxEntry Data) : Bool :=
  match queue with
  | .outbox => true
  | .delivery c => e.consumer == some c

/-- `CHECK (btrim(value) <> '')` -/
def btrimNonEmpty (s : String) : Bool := s.toList.any (· != ' ')

/-- The CHECK constraints on the envelope columns of both tables. -/
def envelopeColumnsValid (envelope : EventEnvelope Data) : Bool :=
  btrimNonEmpty envelope.id && btrimNonEmpty envelope.type &&
    btrimNonEmpty envelope.aggregate_type && btrimNonEmpty envelope.aggregate_id &&
    1 ≤ envelope.aggregate_version

/-- `UNIQUE (tenant_id, event_id)`, with the consumer in front for deliveries. -/
def sameEvent (consumer : Option Consumer) (envelope : EventEnvelope Data)
    (e : OutboxEntry Data) : Bool :=
  e.consumer == consumer && e.envelope.tenant_id == envelope.tenant_id &&
    e.envelope.id == envelope.id

/-- The row an INSERT writes, with the column defaults. -/
def newEntry (entryId : ℕ) (consumer : Option Consumer) (envelope : EventEnvelope Data)
    (at_ : Time) : OutboxEntry Data where
  entryId := entryId
  consumer := consumer
  envelope := envelope
  status := .pending
  attempts := 0
  nextAttemptAt := at_
  queuedAt := at_
  leasedBy := none
  leaseExpiresAt := none
  lastError := none
  doneAt := none
  resolution := none

/-- `appendOutboxEvent`; `none` when a constraint refuses the row. -/
def appendOutboxEvent (entryId : ℕ) (envelope : EventEnvelope Data) (rows : Table Data) :
    Option (Table Data) :=
  if envelopeColumnsValid envelope && !rows.any (sameEvent none envelope) then
    some (rows ++ [newEntry entryId none envelope envelope.recorded_at])
  else none

/-- One row of the publisher's INSERT, `ON CONFLICT (consumer, tenant_id, event_id) DO NOTHING`. -/
def insertDelivery (entryId : ℕ) (consumer : Consumer) (envelope : EventEnvelope Data)
    (now : Time) (rows : Table Data) : Table Data :=
  if rows.any (sameEvent (some consumer) envelope) then rows
  else rows ++ [newEntry entryId (some consumer) envelope now]

/-- The default size of a batch is a safe integer. -/
theorem fifty_safe : 50 < 2 ^ 53 := by norm_num

structure LeaseRequest where
  workerId : WorkerId
  now : Time
  /-- `make_interval(secs => leaseSeconds)` -/
  leaseLength : ℤ
  limit : Js.Number
deriving DecidableEq

/-- No earlier entry of the stream is unfinished. -/
def isHead (rows : Table Data) (head : OutboxEntry Data) : Bool :=
  !rows.any fun earlier =>
    earlier.stream == head.stream && decide (earlier.entryId < head.entryId) && !earlier.finished

/-- The WHERE clause of the `candidate` query. -/
def eligible (queue : QueueSelector) (now : Time) (rows : Table Data)
    (head : OutboxEntry Data) : Bool :=
  ((head.status == .pending && decide (head.nextAttemptAt ≤ now)) ||
    (head.status == .leased && head.leaseExpiresAt.any fun t => decide (t ≤ now))) &&
    consumerScope queue head && isHead rows head

/-- `ORDER BY entry_id LIMIT limit FOR UPDATE SKIP LOCKED`; rows that another transaction has
locked are passed over before the limit counts. -/
def candidates (queue : QueueSelector) (locked : ℕ → Bool) (now : Time) (limit : ℕ)
    (rows : Table Data) : List ℕ :=
  (((rows.filter fun e => eligible queue now rows e && !locked e.entryId).map
    OutboxEntry.entryId).mergeSort (· ≤ ·)).take limit

def grantLease (request : LeaseRequest) (e : OutboxEntry Data) : OutboxEntry Data :=
  { e with
    status := .leased
    attempts := e.attempts + 1
    leasedBy := some request.workerId
    leaseExpiresAt := some (request.now + request.leaseLength) }

/-- `leaseBatch`: the rows afterwards and the entries granted, by `sequence`. -/
def leaseBatch (queue : QueueSelector) (locked : ℕ → Bool) (request : LeaseRequest)
    (rows : Table Data) : Table Data × List (OutboxEntry Data) :=
  match request.limit.integer? with
  | none => (rows, [])
  | some limit =>
    if limit < 1 then (rows, [])
    else
      let granted := candidates queue locked request.now limit.toNat rows
      let selects := fun e : OutboxEntry Data => decide (e.entryId ∈ granted)
      (Sql.update selects (grantLease request) rows,
        (Sql.returning selects (grantLease request) rows).mergeSort
          fun left right => left.entryId ≤ right.entryId)

/-- `ENTRY_ID_PATTERN`, with the number PostgreSQL reads. -/
def entryIdOf (text : String) : Option ℕ :=
  match text.toList with
  | [] => none
  | first :: rest =>
    if '1' ≤ first ∧ first ≤ '9' ∧ rest.length ≤ 18 ∧ rest.all Char.isDigit then text.toNat?
    else none

/-- `entry_id = $1 AND status = 'leased' AND leased_by = $2`, within the queue. -/
def heldBy (queue : QueueSelector) (entryId : Option ℕ) (workerId : WorkerId)
    (e : OutboxEntry Data) : Bool :=
  some e.entryId == entryId && e.status == .leased && e.leasedBy == some workerId &&
    consumerScope queue e

def finishEntry (now : Time) (e : OutboxEntry Data) : OutboxEntry Data :=
  { e with status := .done, doneAt := some now, leasedBy := none, leaseExpiresAt := none }

def markPublished (queue : QueueSelector) (entryId : String) (workerId : WorkerId) (now : Time)
    (rows : Table Data) : Table Data × Bool :=
  let selects := heldBy queue (entryIdOf entryId) workerId
  (Sql.update selects (finishEntry now) rows, Sql.rowCount selects rows == 1)

def MAX_ERROR_LENGTH : ℕ := 2000

def failEntry (error : String) (retryAt : Option Time) (e : OutboxEntry Data) :
    OutboxEntry Data :=
  { e with
    status := if retryAt.isNone then .dead else .pending
    nextAttemptAt := retryAt.getD e.nextAttemptAt
    lastError := some (Js.slice error MAX_ERROR_LENGTH)
    leasedBy := none
    leaseExpiresAt := none }

def recordFailure (queue : QueueSelector) (entryId : String) (workerId : WorkerId)
    (error : String) (retryAt : Option Time) (rows : Table Data) : Table Data × Bool :=
  let selects := heldBy queue (entryIdOf entryId) workerId
  (Sql.update selects (failEntry error retryAt) rows, Sql.rowCount selects rows == 1)

structure DeadLetterInfo where
  entryId : String
  tenantId : String
  eventId : String
  eventType : String
  aggregateType : String
  aggregateId : String
deriving DecidableEq, Repr

def resolveEntry (resolution : DeadLetterResolution) (e : OutboxEntry Data) : OutboxEntry Data :=
  match resolution.action with
  | .skip => { e with status := .skipped, resolution := some resolution }
  | .requeue =>
    { e with
      status := .pending
      attempts := 0
      nextAttemptAt := resolution.resolvedAt
      resolution := some resolution }

/-- `entry_id = $1 AND status = 'dead'`, within the queue. -/
def deadLetter (queue : QueueSelector) (entryId : Option ℕ) (e : OutboxEntry Data) : Bool :=
  some e.entryId == entryId && e.status == .dead && consumerScope queue e

def deadLetterInfo (e : OutboxEntry Data) : DeadLetterInfo where
  entryId := toString e.entryId
  tenantId := e.envelope.tenant_id
  eventId := e.envelope.id
  eventType := e.envelope.type
  aggregateType := e.envelope.aggregate_type
  aggregateId := e.envelope.aggregate_id

/-- `resolveDeadLetterWith` -/
def resolveDeadLetter (queue : QueueSelector) (entryId : String)
    (resolution : DeadLetterResolution) (rows : Table Data) :
    Table Data × Option DeadLetterInfo :=
  let selects := deadLetter queue (entryIdOf entryId)
  (Sql.update selects (resolveEntry resolution) rows,
    if Sql.rowCount selects rows = 1 then
      ((Sql.returning selects (resolveEntry resolution) rows).head?).map deadLetterInfo
    else none)

structure OutboxStats where
  pending : ℕ
  leased : ℕ
  deadLetter : ℕ
  blockedStreams : ℕ
  oldestDeadLetterAgeSeconds : Option ℚ
  oldestUnpublishedAgeSeconds : Option ℚ

/-- Dates keep milliseconds of a timestamp. -/
def ageSeconds (now : Time) (oldest : Option Time) : Option ℚ :=
  oldest.map fun t => ((now / 1000 - t / 1000 : ℤ) : ℚ) / 1000

def stats (queue : QueueSelector) (now : Time) (rows : Table Data) : OutboxStats :=
  let unfinished := rows.filter fun e => !e.finished && consumerScope queue e
  let dead := unfinished.filter fun e => e.status == .dead
  { pending := unfinished.countP fun e => e.status == .pending
    leased := unfinished.countP fun e => e.status == .leased
    deadLetter := dead.length
    -- `count(DISTINCT jsonb_build_array(tenant_id, aggregate_type, aggregate_id))`
    blockedStreams := (dead.map fun e =>
      (e.envelope.tenant_id, e.envelope.aggregate_type, e.envelope.aggregate_id)).dedup.length
    oldestDeadLetterAgeSeconds := ageSeconds now (dead.map OutboxEntry.queuedAt).min?
    oldestUnpublishedAgeSeconds := ageSeconds now (unfinished.map OutboxEntry.queuedAt).min? }

/-- The CHECK constraints on the dispatch columns of both tables. -/
structure CheckConstraints (e : OutboxEntry Data) : Prop where
  lease_consistency : e.status = .leased ↔ e.leasedBy.isSome ∧ e.leaseExpiresAt.isSome
  done_consistency : e.status = .done ↔ e.doneAt.isSome
  last_error_length : ∀ error ∈ e.lastError, error.length ≤ 2000

/-- One table of the queue, with the entry ids that leases have ever been granted on. -/
structure QueueState (Data : Type) where
  rows : Table Data
  granted : List ℕ

/-- The identity column gives an unused entry id, the largest of its stream. -/
def FreshEntry (added : OutboxEntry Data) (rows : Table Data) : Prop :=
  ∀ e ∈ rows, e.entryId ≠ added.entryId ∧ (e.stream = added.stream → e.entryId < added.entryId)

/-- The statements of producers, publisher, workers and operators on one table. -/
inductive QueueStep (table : QueueTable) : QueueState Data → QueueState Data → Prop where
  | append {s : QueueState Data} {rows' : Table Data} (entryId : ℕ)
      (envelope : EventEnvelope Data) (htable : table = .outbox_event)
      (hfresh : FreshEntry (newEntry entryId none envelope envelope.recorded_at) s.rows)
      (happend : appendOutboxEvent entryId envelope s.rows = some rows') :
      QueueStep table s { s with rows := rows' }
  | insertDelivery {s : QueueState Data} (entryId : ℕ) (consumer : Consumer)
      (envelope : EventEnvelope Data) (now : Time) (htable : table = .event_delivery)
      (hfresh : FreshEntry (newEntry entryId (some consumer) envelope now) s.rows) :
      QueueStep table s { s with rows := insertDelivery entryId consumer envelope now s.rows }
  | leaseBatch {s : QueueState Data} (queue : QueueSelector) (locked : ℕ → Bool)
      (request : LeaseRequest) (htable : queue.table = table) :
      QueueStep table s
        { rows := (leaseBatch queue locked request s.rows).1
          granted := s.granted ++
            (leaseBatch queue locked request s.rows).2.map OutboxEntry.entryId }
  | markPublished {s : QueueState Data} (queue : QueueSelector) (entryId : String)
      (workerId : WorkerId) (now : Time) (htable : queue.table = table) :
      QueueStep table s { s with rows := (markPublished queue entryId workerId now s.rows).1 }
  | recordFailure {s : QueueState Data} (queue : QueueSelector) (entryId : String)
      (workerId : WorkerId) (error : String) (retryAt : Option Time)
      (htable : queue.table = table) :
      QueueStep table s
        { s with rows := (recordFailure queue entryId workerId error retryAt s.rows).1 }
  | resolveDeadLetter {s : QueueState Data} (queue : QueueSelector) (entryId : String)
      (resolution : DeadLetterResolution) (htable : queue.table = table) :
      QueueStep table s { s with rows := (resolveDeadLetter queue entryId resolution s.rows).1 }

/-- Any number of statements, in any order. -/
def QueueRun (table : QueueTable) : QueueState Data → QueueState Data → Prop :=
  Relation.ReflTransGen (QueueStep table)

def QueueState.empty : QueueState Data := ⟨[], []⟩

/-- A statement with what it is given, as it reaches the table. -/
inductive QueueOperation (Data : Type) where
  | append (entryId : ℕ) (envelope : EventEnvelope Data)
  | insertDelivery (entryId : ℕ) (consumer : Consumer) (envelope : EventEnvelope Data) (now : Time)
  | leaseBatch (queue : QueueSelector) (locked : ℕ → Bool) (request : LeaseRequest)
  | markPublished (queue : QueueSelector) (entryId : String) (workerId : WorkerId) (now : Time)
  | recordFailure (queue : QueueSelector) (entryId : String) (workerId : WorkerId)
      (error : String) (retryAt : Option Time)
  | resolveDeadLetter (queue : QueueSelector) (entryId : String)
      (resolution : DeadLetterResolution)

namespace QueueOperation

def run : QueueOperation Data → Table Data → Table Data
  | .append entryId envelope, rows => (appendOutboxEvent entryId envelope rows).getD rows
  | .insertDelivery entryId consumer envelope now, rows =>
    Outbox.insertDelivery entryId consumer envelope now rows
  | .leaseBatch queue locked request, rows => (Outbox.leaseBatch queue locked request rows).1
  | .markPublished queue entryId workerId now, rows =>
    (Outbox.markPublished queue entryId workerId now rows).1
  | .recordFailure queue entryId workerId error retryAt, rows =>
    (Outbox.recordFailure queue entryId workerId error retryAt rows).1
  | .resolveDeadLetter queue entryId resolution, rows =>
    (Outbox.resolveDeadLetter queue entryId resolution rows).1

/-- The statement is for this table, and the identity column numbers what it inserts. -/
def Admissible (table : QueueTable) (rows : Table Data) : QueueOperation Data → Prop
  | .append entryId envelope => table = .outbox_event ∧
    FreshEntry (newEntry entryId none envelope envelope.recorded_at) rows
  | .insertDelivery entryId consumer envelope now => table = .event_delivery ∧
    FreshEntry (newEntry entryId (some consumer) envelope now) rows
  | .leaseBatch queue _ _ => queue.table = table
  | .markPublished queue _ _ _ => queue.table = table
  | .recordFailure queue _ _ _ _ => queue.table = table
  | .resolveDeadLetter queue _ _ => queue.table = table

/-- The table after a sequence of statements. -/
def runAll (operations : List (QueueOperation Data)) : Table Data :=
  operations.foldl (fun rows operation => operation.run rows) []

def AllAdmissible (table : QueueTable) (operations : List (QueueOperation Data)) : Prop :=
  ∀ front operation back, operations = front ++ operation :: back →
    operation.Admissible table (runAll front)

end QueueOperation

end Sintius.Outbox
