import Mathlib
import Sintius.Lib.Double
import Sintius.Lib.Text
import Sintius.Spec.Queue

/-! The relay end to end: producers, outbox dispatchers, the publisher's fan-out,
delivery workers and the idempotent consumer. Every statement and every commit is
one step; between two steps of a pass anything else may happen. A pass may stop
at any point, so a process that died with a statement under way is a pass that
takes one step more and then stops, whatever its restarted successor does. -/

namespace Sintius.Outbox

variable {Data : Type}

structure EventRoute where
  consumer : Consumer
  eventTypes : List String
deriving DecidableEq, Repr

/-- `consumersFor` over the map that `validatedRoutes` builds, route by route. -/
def consumersFor (routes : List EventRoute) (eventType : String) : List Consumer :=
  routes.flatMap fun route =>
    (route.eventTypes.filter (· == eventType)).map fun _ => route.consumer

/-- The rows of one INSERT, numbered by the identity column from `first` on. -/
def insertDeliveries (envelope : EventEnvelope Data) (now : Time) :
    ℕ → List Consumer → Table Data → Table Data
  | _, [], rows => rows
  | first, c :: cs, rows =>
    insertDeliveries envelope now (first + 1) cs (insertDelivery first c envelope now rows)

/-- `PostgresEventPublisher.publish` -/
def publish (routes : List EventRoute) (first : ℕ) (now : Time) (envelope : EventEnvelope Data)
    (rows : Table Data) : Table Data :=
  insertDeliveries envelope now first (consumersFor routes envelope.type) rows

/-- 5s, 10s, 20s ... capped at 15 minutes. -/
def defaultRetryDelaySeconds (failedAttempt : ℕ) : ℤ := min (5 * 2 ^ (failedAttempt - 1)) 900

/-- `DispatcherDependencies`, with the defaults of `createOutboxDispatcher`. -/
structure Dispatcher where
  queue : QueueSelector
  workerId : WorkerId
  leaseSeconds : ℤ := 60
  batchSize : Js.Number := .ofNat 50 fifty_safe
  maxAttempts : ℕ := 8
  retryDelaySeconds : ℕ → ℤ := defaultRetryDelaySeconds

structure DispatchReport where
  leased : ℕ
  published : ℕ := 0
  retried : ℕ := 0
  deadLettered : ℕ := 0
  leaseLost : ℕ := 0
deriving DecidableEq, Repr

/-- Where a pass stands with the first of its remaining entries. -/
inductive Stage where
  /-- About to look at the entry. -/
  | next
  /-- Handling it in a transaction that holds its inbox record. -/
  | recorded
  /-- The hand-over returned. -/
  | returned
  /-- The hand-over threw. -/
  | threw
deriving DecidableEq, Repr

/-- A running `runOnce`. -/
structure Pass (Data : Type) where
  dispatcher : Dispatcher
  entries : List (OutboxEntry Data)
  stage : Stage
  report : DispatchReport

/-- Primary key of `inbox_record`. -/
structure InboxKey where
  tenant_id : String
  consumer : Consumer
  event_id : String
deriving DecidableEq, Repr

def inboxKey (consumer : Consumer) (envelope : EventEnvelope Data) : InboxKey :=
  ⟨envelope.tenant_id, consumer, envelope.id⟩

/-- The committed effect of a consumer's handler on an event. -/
structure Effect (Data : Type) where
  consumer : Consumer
  envelope : EventEnvelope Data

def Effect.key (x : Effect Data) : InboxKey := inboxKey x.consumer x.envelope

structure Relay (Data : Type) where
  outbox : Table Data
  deliveries : Table Data
  inbox : List InboxKey
  /-- In commit order. -/
  effects : List (Effect Data)
  passes : List (Pass Data)

def Relay.empty : Relay Data := ⟨[], [], [], [], []⟩

def Relay.rows (s : Relay Data) : QueueTable → Table Data
  | .outbox_event => s.outbox
  | .event_delivery => s.deliveries

def Relay.setRows (s : Relay Data) (table : QueueTable) (rows : Table Data) : Relay Data :=
  match table with
  | .outbox_event => { s with outbox := rows }
  | .event_delivery => { s with deliveries := rows }

/-- The inbox record a pass has inserted and not yet committed. -/
def Pass.held (p : Pass Data) : Option InboxKey :=
  match p.stage, p.dispatcher.queue, p.entries with
  | .recorded, .delivery c, e :: _ => some (inboxKey c e.envelope)
  | _, _, _ => none

/-- The checks `consume` makes before its transaction. -/
def consumable (envelope : EventEnvelope Data) : Bool :=
  Js.nonBlank envelope.id && Js.nonBlank envelope.tenant_id && Js.nonBlank envelope.type

def Dispatcher.leaseRequest (d : Dispatcher) (now : Time) : LeaseRequest where
  workerId := d.workerId
  now := now
  leaseLength := d.leaseSeconds * 1000000
  limit := d.batchSize

/-- The lease that opens a pass. -/
def Relay.lease (s : Relay Data) (d : Dispatcher) (locked : ℕ → Bool) (now : Time) : Relay Data :=
  let leased := leaseBatch d.queue locked (d.leaseRequest now) (s.rows d.queue.table)
  let t := s.setRows d.queue.table leased.1
  { t with passes := t.passes ++ [⟨d, leased.2, .next, { leased := leased.2.length }⟩] }

/-- The pass goes on with the entries after the current one. -/
def Pass.advance (p : Pass Data) (report : DispatchReport) : Pass Data :=
  { p with entries := p.entries.tail, stage := .next, report := report }

/-- `recordFailure` for an entry leased more often than `maxAttempts`. -/
def Relay.exceed (s : Relay Data) (before after : List (Pass Data)) (p : Pass Data)
    (e : OutboxEntry Data) : Relay Data :=
  let d := p.dispatcher
  let failed := recordFailure d.queue (toString e.entryId) d.workerId
    "Exceeded maximum delivery attempts." none (s.rows d.queue.table)
  let r := p.report
  { s.setRows d.queue.table failed.1 with
    passes := before ++ p.advance
      (if failed.2 then { r with deadLettered := r.deadLettered + 1 }
      else { r with leaseLost := r.leaseLost + 1 }) :: after }

/-- `markPublished` after a hand-over that returned. -/
def Relay.mark (s : Relay Data) (before after : List (Pass Data)) (p : Pass Data)
    (e : OutboxEntry Data) (now : Time) : Relay Data :=
  let d := p.dispatcher
  let marked := markPublished d.queue (toString e.entryId) d.workerId now (s.rows d.queue.table)
  let r := p.report
  { s.setRows d.queue.table marked.1 with
    passes := before ++ p.advance
      (if marked.2 then { r with published := r.published + 1 }
      else { r with leaseLost := r.leaseLost + 1 }) :: after }

/-- `recordFailure` after a hand-over that threw. -/
def Relay.retry (s : Relay Data) (before after : List (Pass Data)) (p : Pass Data)
    (e : OutboxEntry Data) (error : String) (now : Time) : Relay Data :=
  let d := p.dispatcher
  let exhausted := decide (d.maxAttempts ≤ e.attempts)
  let retryAt := if exhausted then none
    else some (now + d.retryDelaySeconds e.attempts * 1000000)
  let failed := recordFailure d.queue (toString e.entryId) d.workerId error retryAt
    (s.rows d.queue.table)
  let r := p.report
  { s.setRows d.queue.table failed.1 with
    passes := before ++ p.advance
      (if !failed.2 then { r with leaseLost := r.leaseLost + 1 }
      else if exhausted then { r with deadLettered := r.deadLettered + 1 }
      else { r with retried := r.retried + 1 }) :: after }

/-- The transaction of `consume` commits: inbox record and effect together. -/
def Relay.commit (s : Relay Data) (before after : List (Pass Data)) (p : Pass Data)
    (c : Consumer) (envelope : EventEnvelope Data) (outcome : Stage) : Relay Data :=
  { s with
    inbox := s.inbox ++ [inboxKey c envelope]
    effects := s.effects ++ [⟨c, envelope⟩]
    passes := before ++ { p with stage := outcome } :: after }

/-- A statement that was executed may still be reported as failed. -/
def Reported (outcome : Stage) : Prop := outcome = .returned ∨ outcome = .threw

inductive RelayStep (routes : List EventRoute) : Relay Data → Relay Data → Prop where
  | append {s : Relay Data} {rows' : Table Data} (entryId : ℕ) (envelope : EventEnvelope Data)
      (hfresh : FreshEntry (newEntry entryId none envelope envelope.recorded_at) s.outbox)
      (happend : appendOutboxEvent entryId envelope s.outbox = some rows') :
      RelayStep routes s { s with outbox := rows' }
  | lease {s : Relay Data} (d : Dispatcher) (locked : ℕ → Bool) (now : Time) :
      RelayStep routes s (s.lease d locked now)
  | exceed {s : Relay Data} {before after : List (Pass Data)} {p : Pass Data}
      {e : OutboxEntry Data} {rest : List (OutboxEntry Data)}
      (hpass : s.passes = before ++ p :: after) (hstage : p.stage = .next)
      (hentries : p.entries = e :: rest) (hattempts : p.dispatcher.maxAttempts < e.attempts) :
      RelayStep routes s (s.exceed before after p e)
  /-- The outbox dispatcher hands over to the publisher. -/
  | publish {s : Relay Data} {before after : List (Pass Data)} {p : Pass Data}
      {e : OutboxEntry Data} {rest : List (OutboxEntry Data)} (first : ℕ) (now : Time)
      (outcome : Stage)
      (hpass : s.passes = before ++ p :: after) (hstage : p.stage = .next)
      (hentries : p.entries = e :: rest) (hattempts : e.attempts ≤ p.dispatcher.maxAttempts)
      (hqueue : p.dispatcher.queue = .outbox) (hfirst : ∀ d ∈ s.deliveries, d.entryId < first)
      (houtcome : Reported outcome) :
      RelayStep routes s
        { s with
          deliveries := publish routes first now e.envelope s.deliveries
          passes := before ++ { p with stage := outcome } :: after }
  /-- A hand-over fails before anything is executed. -/
  | handOverThrows {s : Relay Data} {before after : List (Pass Data)} {p : Pass Data}
      {e : OutboxEntry Data} {rest : List (OutboxEntry Data)}
      (hpass : s.passes = before ++ p :: after) (hstage : p.stage = .next)
      (hentries : p.entries = e :: rest) (hattempts : e.attempts ≤ p.dispatcher.maxAttempts) :
      RelayStep routes s { s with passes := before ++ { p with stage := .threw } :: after }
  /-- `tryRecord` finds the inbox record: the consumer does nothing. -/
  | duplicate {s : Relay Data} {before after : List (Pass Data)} {p : Pass Data}
      {e : OutboxEntry Data} {rest : List (OutboxEntry Data)} (c : Consumer) (outcome : Stage)
      (hpass : s.passes = before ++ p :: after) (hstage : p.stage = .next)
      (hentries : p.entries = e :: rest) (hattempts : e.attempts ≤ p.dispatcher.maxAttempts)
      (hqueue : p.dispatcher.queue = .delivery c) (hconsumable : consumable e.envelope)
      (hinbox : inboxKey c e.envelope ∈ s.inbox) (houtcome : Reported outcome) :
      RelayStep routes s { s with passes := before ++ { p with stage := outcome } :: after }
  /-- `tryRecord` inserts the inbox record; it would wait while another transaction holds it. -/
  | record {s : Relay Data} {before after : List (Pass Data)} {p : Pass Data}
      {e : OutboxEntry Data} {rest : List (OutboxEntry Data)} (c : Consumer)
      (hpass : s.passes = before ++ p :: after) (hstage : p.stage = .next)
      (hentries : p.entries = e :: rest) (hattempts : e.attempts ≤ p.dispatcher.maxAttempts)
      (hqueue : p.dispatcher.queue = .delivery c) (hconsumable : consumable e.envelope)
      (hinbox : inboxKey c e.envelope ∉ s.inbox)
      (hheld : ∀ q ∈ before ++ after, q.held ≠ some (inboxKey c e.envelope)) :
      RelayStep routes s { s with passes := before ++ { p with stage := .recorded } :: after }
  | commit {s : Relay Data} {before after : List (Pass Data)} {p : Pass Data}
      {e : OutboxEntry Data} {rest : List (OutboxEntry Data)} (c : Consumer) (outcome : Stage)
      (hpass : s.passes = before ++ p :: after) (hstage : p.stage = .recorded)
      (hentries : p.entries = e :: rest) (hqueue : p.dispatcher.queue = .delivery c)
      (houtcome : Reported outcome) :
      RelayStep routes s (s.commit before after p c e.envelope outcome)
  /-- The handler or the commit fails, and the transaction is rolled back. -/
  | rollback {s : Relay Data} {before after : List (Pass Data)} {p : Pass Data}
      (hpass : s.passes = before ++ p :: after) (hstage : p.stage = .recorded) :
      RelayStep routes s { s with passes := before ++ { p with stage := .threw } :: after }
  | mark {s : Relay Data} {before after : List (Pass Data)} {p : Pass Data}
      {e : OutboxEntry Data} {rest : List (OutboxEntry Data)} (now : Time)
      (hpass : s.passes = before ++ p :: after) (hstage : p.stage = .returned)
      (hentries : p.entries = e :: rest) :
      RelayStep routes s (s.mark before after p e now)
  | retry {s : Relay Data} {before after : List (Pass Data)} {p : Pass Data}
      {e : OutboxEntry Data} {rest : List (OutboxEntry Data)} (error : String) (now : Time)
      (hpass : s.passes = before ++ p :: after) (hstage : p.stage = .threw)
      (hentries : p.entries = e :: rest) :
      RelayStep routes s (s.retry before after p e error now)
  /-- The pass is over, or its process died; an open transaction is rolled back. -/
  | stop {s : Relay Data} {before after : List (Pass Data)} {p : Pass Data}
      (hpass : s.passes = before ++ p :: after) :
      RelayStep routes s { s with passes := before ++ after }
  | resolveDeadLetter {s : Relay Data} (queue : QueueSelector) (entryId : String)
      (resolution : DeadLetterResolution) :
      RelayStep routes s
        (s.setRows queue.table (resolveDeadLetter queue entryId resolution
          (s.rows queue.table)).1)

def RelayRun (routes : List EventRoute) : Relay Data → Relay Data → Prop :=
  Relation.ReflTransGen (RelayStep routes)

end Sintius.Outbox
