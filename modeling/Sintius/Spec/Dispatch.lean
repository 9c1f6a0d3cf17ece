import Mathlib
import Sintius.Spec.Queue
import Sintius.Spec.Relay

/-! `createOutboxDispatcher` on one table, whoever the publisher is. A pass leases a
batch and then works on it without looking at the rows again; between any two of its
statements, and while a publish call is under way, everybody else goes on. The log
tells what has happened, lease by lease. -/

namespace Sintius.Outbox

variable {Data : Type}

/-- A lease on an entry, as `leaseBatch` returned it; no two have one number. -/
structure Grant (Data : Type) where
  number : ℕ
  workerId : WorkerId
  entry : OutboxEntry Data
deriving DecidableEq

inductive DispatchEvent (Data : Type) where
  | granted (g : Grant Data)
  /-- `publisher.publish` is called. -/
  | called (g : Grant Data)
  /-- The call returned. -/
  | returned (g : Grant Data)
  | threw (g : Grant Data)
  /-- `markPublished` or `recordFailure` ran for the lease, and what it returned. -/
  | recorded (g : Grant Data) (accepted : Bool)
  /-- A resolution of a dead letter committed. -/
  | resolved (entryId : ℕ) (resolution : DeadLetterResolution)
  | completed (report : DispatchReport)
deriving DecidableEq

/-- How far a pass is with the first of its remaining leases. -/
inductive Progress where
  | next
  | handingOver
  | returned
  | threw
deriving DecidableEq, Repr

/-- A running `runOnce`. -/
structure RunOnce (Data : Type) where
  dispatcher : Dispatcher
  grants : List (Grant Data)
  progress : Progress
  report : DispatchReport

structure Dispatch (Data : Type) where
  rows : Table Data
  passes : List (RunOnce Data)
  /-- How many leases have been granted. -/
  grants : ℕ
  log : List (DispatchEvent Data)

def Dispatch.empty : Dispatch Data := ⟨[], [], 0, []⟩

/-- The entries of a batch as leases, numbered from `first` on. -/
def grantsFrom (workerId : WorkerId) : ℕ → List (OutboxEntry Data) → List (Grant Data)
  | _, [] => []
  | first, e :: es => ⟨first, workerId, e⟩ :: grantsFrom workerId (first + 1) es

/-- The lease that opens a pass. -/
def Dispatch.lease (s : Dispatch Data) (d : Dispatcher) (locked : ℕ → Bool) (now : Time) :
    Dispatch Data :=
  let leased := leaseBatch d.queue locked (d.leaseRequest now) s.rows
  let grants := grantsFrom d.workerId s.grants leased.2
  { rows := leased.1
    passes := s.passes ++ [⟨d, grants, .next, { leased := leased.2.length }⟩]
    grants := s.grants + leased.2.length
    log := s.log ++ grants.map .granted }

/-- The pass gets to another point with the same lease. -/
def Dispatch.setProgress (s : Dispatch Data) (before after : List (RunOnce Data))
    (p : RunOnce Data) (progress : Progress) (event : DispatchEvent Data) : Dispatch Data :=
  { s with
    passes := before ++ { p with progress := progress } :: after
    log := s.log ++ [event] }

/-- The pass records an outcome, counts it, or the lease as lost, and goes on with the next lease. -/
def Dispatch.record (s : Dispatch Data) (before after : List (RunOnce Data)) (p : RunOnce Data)
    (g : Grant Data) (recorded : Table Data × Bool) (counted : DispatchReport) : Dispatch Data :=
  let report := if recorded.2 then counted else { p.report with leaseLost := p.report.leaseLost + 1 }
  { s with
    rows := recorded.1
    passes := before ++ { p with grants := p.grants.tail, progress := .next, report := report } :: after
    log := s.log ++ [.recorded g recorded.2] }

/-- `recordFailure` for an entry leased more often than `maxAttempts`. -/
def Dispatch.exceed (s : Dispatch Data) (before after : List (RunOnce Data)) (p : RunOnce Data)
    (g : Grant Data) : Dispatch Data :=
  s.record before after p g
    (recordFailure p.dispatcher.queue (toString g.entry.entryId) p.dispatcher.workerId
      "Exceeded maximum delivery attempts." none s.rows)
    { p.report with deadLettered := p.report.deadLettered + 1 }

/-- `markPublished` after a call that returned. -/
def Dispatch.mark (s : Dispatch Data) (before after : List (RunOnce Data)) (p : RunOnce Data)
    (g : Grant Data) (now : Time) : Dispatch Data :=
  s.record before after p g
    (markPublished p.dispatcher.queue (toString g.entry.entryId) p.dispatcher.workerId now s.rows)
    { p.report with published := p.report.published + 1 }

/-- When an entry whose hand-over failed is tried again. -/
def Dispatcher.retryAt (d : Dispatcher) (attempts : ℕ) (now : Time) : Option Time :=
  if d.maxAttempts ≤ attempts then none
  else some (now + d.retryDelaySeconds attempts * 1000000)

/-- `recordFailure` after a call that threw. -/
def Dispatch.retry (s : Dispatch Data) (before after : List (RunOnce Data)) (p : RunOnce Data)
    (g : Grant Data) (error : String) (now : Time) : Dispatch Data :=
  s.record before after p g
    (recordFailure p.dispatcher.queue (toString g.entry.entryId) p.dispatcher.workerId error
      (p.dispatcher.retryAt g.entry.attempts now) s.rows)
    (if p.dispatcher.maxAttempts ≤ g.entry.attempts then
      { p.report with deadLettered := p.report.deadLettered + 1 }
    else { p.report with retried := p.report.retried + 1 })

/-- An operator's resolution; it is logged where there was a dead letter. -/
def Dispatch.resolve (s : Dispatch Data) (queue : QueueSelector) (entryId : String)
    (resolution : DeadLetterResolution) : Dispatch Data :=
  let resolved := resolveDeadLetter queue entryId resolution s.rows
  { s with
    rows := resolved.1
    log := s.log ++
      if resolved.2.isSome then
        ((entryIdOf entryId).map fun id => .resolved id resolution).toList
      else [] }

inductive DispatchStep (table : QueueTable) (maxAttempts : ℕ) :
    Dispatch Data → Dispatch Data → Prop where
  | append {s : Dispatch Data} {rows' : Table Data} (entryId : ℕ) (envelope : EventEnvelope Data)
      (htable : table = .outbox_event)
      (hfresh : FreshEntry (newEntry entryId none envelope envelope.recorded_at) s.rows)
      (happend : appendOutboxEvent entryId envelope s.rows = some rows') :
      DispatchStep table maxAttempts s { s with rows := rows' }
  | insertDelivery {s : Dispatch Data} (entryId : ℕ) (consumer : Consumer)
      (envelope : EventEnvelope Data) (now : Time) (htable : table = .event_delivery)
      (hfresh : FreshEntry (newEntry entryId (some consumer) envelope now) s.rows) :
      DispatchStep table maxAttempts s
        { s with rows := insertDelivery entryId consumer envelope now s.rows }
  | lease {s : Dispatch Data} (d : Dispatcher) (locked : ℕ → Bool) (now : Time)
      (htable : d.queue.table = table) (hshared : d.maxAttempts = maxAttempts) :
      DispatchStep table maxAttempts s (s.lease d locked now)
  | exceed {s : Dispatch Data} {before after : List (RunOnce Data)} {p : RunOnce Data}
      {g : Grant Data} {rest : List (Grant Data)} (hpass : s.passes = before ++ p :: after)
      (hprogress : p.progress = .next) (hgrants : p.grants = g :: rest)
      (hattempts : p.dispatcher.maxAttempts < g.entry.attempts) :
      DispatchStep table maxAttempts s (s.exceed before after p g)
  /-- Whether or not the lease still holds. -/
  | call {s : Dispatch Data} {before after : List (RunOnce Data)} {p : RunOnce Data}
      {g : Grant Data} {rest : List (Grant Data)} (hpass : s.passes = before ++ p :: after)
      (hprogress : p.progress = .next) (hgrants : p.grants = g :: rest)
      (hattempts : g.entry.attempts ≤ p.dispatcher.maxAttempts) :
      DispatchStep table maxAttempts s (s.setProgress before after p .handingOver (.called g))
  | callReturns {s : Dispatch Data} {before after : List (RunOnce Data)} {p : RunOnce Data}
      {g : Grant Data} {rest : List (Grant Data)} (hpass : s.passes = before ++ p :: after)
      (hprogress : p.progress = .handingOver) (hgrants : p.grants = g :: rest) :
      DispatchStep table maxAttempts s (s.setProgress before after p .returned (.returned g))
  | callThrows {s : Dispatch Data} {before after : List (RunOnce Data)} {p : RunOnce Data}
      {g : Grant Data} {rest : List (Grant Data)} (hpass : s.passes = before ++ p :: after)
      (hprogress : p.progress = .handingOver) (hgrants : p.grants = g :: rest) :
      DispatchStep table maxAttempts s (s.setProgress before after p .threw (.threw g))
  | mark {s : Dispatch Data} {before after : List (RunOnce Data)} {p : RunOnce Data}
      {g : Grant Data} {rest : List (Grant Data)} (now : Time)
      (hpass : s.passes = before ++ p :: after) (hprogress : p.progress = .returned)
      (hgrants : p.grants = g :: rest) :
      DispatchStep table maxAttempts s (s.mark before after p g now)
  | retry {s : Dispatch Data} {before after : List (RunOnce Data)} {p : RunOnce Data}
      {g : Grant Data} {rest : List (Grant Data)} (error : String) (now : Time)
      (hpass : s.passes = before ++ p :: after) (hprogress : p.progress = .threw)
      (hgrants : p.grants = g :: rest) :
      DispatchStep table maxAttempts s (s.retry before after p g error now)
  | complete {s : Dispatch Data} {before after : List (RunOnce Data)} {p : RunOnce Data}
      (hpass : s.passes = before ++ p :: after) (hgrants : p.grants = []) :
      DispatchStep table maxAttempts s
        { s with passes := before ++ after, log := s.log ++ [.completed p.report] }
  /-- The process dies, or a statement of the pass fails. -/
  | crash {s : Dispatch Data} {before after : List (RunOnce Data)} {p : RunOnce Data}
      (hpass : s.passes = before ++ p :: after) :
      DispatchStep table maxAttempts s { s with passes := before ++ after }
  | resolveDeadLetter {s : Dispatch Data} (queue : QueueSelector) (entryId : String)
      (resolution : DeadLetterResolution) (htable : queue.table = table) :
      DispatchStep table maxAttempts s (s.resolve queue entryId resolution)

def DispatchRun (table : QueueTable) (maxAttempts : ℕ) : Dispatch Data → Dispatch Data → Prop :=
  Relation.ReflTransGen (DispatchStep table maxAttempts)

/-- Each worker has a name of its own and runs one pass at a time. -/
def OnePassEach (s : Dispatch Data) : Prop :=
  s.passes.Pairwise fun p q => p.dispatcher.workerId ≠ q.dispatcher.workerId

def OnePassRun (table : QueueTable) (maxAttempts : ℕ) : Dispatch Data → Dispatch Data → Prop :=
  Relation.ReflTransGen fun s t => DispatchStep table maxAttempts s t ∧ OnePassEach t

end Sintius.Outbox
