import Mathlib
import Sintius.Lib.Progress
import Sintius.Lib.Utf16
import Sintius.Spec.Redaction
import Sintius.Spec.Queue
import Sintius.Spec.Relay
import Sintius.Spec.Dispatch

/-! `runOnce` as one function of the table, for a pass that nobody comes between: what
the clock and the publisher do is given with the pass. `Spec.Dispatch` has the same
pass cut into its statements. -/

namespace Sintius.Outbox

open Js

variable {Data : Type}

/-- What a publisher throws: an `Error`, or something else. -/
inductive Thrown where
  | error (name message : Text)
  | other

def safeError (error : Thrown) : Text :=
  Redaction.redactSensitiveText (match error with
    | .error name message => name ++ ascii ": " ++ message
    | .other => ascii "non-error failure")

/-- What a pass meets outside the table: the clock when it leases, what the publisher throws for
an event, if anything, and the clock after the hand-over of an entry. -/
structure Surroundings (Data : Type) where
  leaseNow : Time
  publish : EventEnvelope Data → Option Thrown
  now : OutboxEntry Data → Time

/-- The table and the counts so far. -/
abbrev Dispatched (Data : Type) := Table Data × DispatchReport

variable (d : Dispatcher) (w : Surroundings Data)

/-- Counts an outcome that was recorded, and the lease as lost where it was not. -/
def count (report counted : DispatchReport) (recorded : Table Data × Bool) : Dispatched Data :=
  (recorded.1,
    if recorded.2 then counted else { report with leaseLost := report.leaseLost + 1 })

/-- The body of the loop of `runOnce`. -/
def Dispatcher.dispatch (s : Dispatched Data) (entry : OutboxEntry Data) : Dispatched Data :=
  let entryId := toString entry.entryId
  if d.maxAttempts < entry.attempts then
    count s.2 { s.2 with deadLettered := s.2.deadLettered + 1 }
      (recordFailure d.queue entryId d.workerId "Exceeded maximum delivery attempts." none s.1)
  else
    match w.publish entry.envelope with
    | some error =>
      count s.2
        (if d.maxAttempts ≤ entry.attempts then
          { s.2 with deadLettered := s.2.deadLettered + 1 }
        else { s.2 with retried := s.2.retried + 1 })
        (recordFailure d.queue entryId d.workerId (decode (safeError error))
          (d.retryAt entry.attempts (w.now entry)) s.1)
    | none =>
      count s.2 { s.2 with published := s.2.published + 1 }
        (markPublished d.queue entryId d.workerId (w.now entry) s.1)

def Dispatcher.runOnce (rows : Table Data) : Dispatched Data :=
  let leased := leaseBatch d.queue (fun _ => false) (d.leaseRequest w.leaseNow) rows
  leased.2.foldl (d.dispatch w) (leased.1, { leased := leased.2.length })

/-- The table after the first `n` passes of a dispatcher that runs alone. -/
def Dispatcher.afterPasses (surroundings : ℕ → Surroundings Data) (rows : Table Data) :
    ℕ → Table Data :=
  Progress.after (fun n rows => (d.runOnce (surroundings n) rows).1) rows

/-- Every row of the queue is finished, dead, or behind a dead row of its stream. -/
def AtRest (queue : QueueSelector) (rows : Table Data) : Prop :=
  ∀ e ∈ rows, consumerScope queue e → ¬ e.finished →
    ∃ f ∈ rows, f.stream = e.stream ∧ f.entryId ≤ e.entryId ∧ f.status = .dead

/-- The clock of the passes gets past every time in the end. -/
def ClockAdvances (surroundings : ℕ → Surroundings Data) : Prop :=
  ∀ t, ∃ N, ∀ n, N ≤ n → t ≤ (surroundings n).leaseNow

/-- The entry and everything unfinished before it in its stream can still be handed over: the
publisher takes the event, the entry is not dead and has attempts left. -/
def Deliverable (takes : EventEnvelope Data → Bool) (rows : Table Data) (e : OutboxEntry Data) :
    Prop :=
  ¬ e.finished ∧ ∀ f ∈ rows, f.stream = e.stream → f.entryId ≤ e.entryId → ¬ f.finished →
    f.status ≠ .dead ∧ f.attempts < d.maxAttempts ∧ takes f.envelope

end Sintius.Outbox
