import Mathlib
import Sintius.Lib.Date
import Sintius.Lib.Text
import Sintius.Lib.Utf16
import Sintius.Spec.Problem
import Sintius.Spec.Queue
import Sintius.Spec.TenantContext
import Sintius.Spec.EventEnvelope
import Sintius.Spec.Canonical
import Sintius.Spec.AuditRecorder
import Sintius.Spec.Tenant

/-! `platform/outbox/src/operations.ts` and `PostgresDeadLetterPersistence`: an operator
resolves a dead letter, and the audit event is written in the same transaction, for
the tenant of the entry. A transaction works through a unit of work with two methods;
what PostgreSQL says to each of its statements comes from outside. -/

namespace Sintius.Outbox

open Js Js.Date Sintius.Canonical Sintius.Tenancy Sintius.Audit

variable {Data A : Type}

structure DeadLetterDb (Data : Type) where
  outbox_event : Table Data
  event_delivery : Table Data
  audit_event : List AuditEvent

def DeadLetterDb.rows (db : DeadLetterDb Data) : QueueTable → Table Data
  | .outbox_event => db.outbox_event
  | .event_delivery => db.event_delivery

def DeadLetterDb.setRows (db : DeadLetterDb Data) (table : QueueTable) (rows : Table Data) :
    DeadLetterDb Data :=
  match table with
  | .outbox_event => { db with outbox_event := rows }
  | .event_delivery => { db with event_delivery := rows }

/-- `DeadLetterUnitOfWork`: the calls a piece of work makes on it, one after the other. -/
inductive UnitOfWork (A : Type) where
  | done (a : A)
  | throw (e : Failure)
  | resolveDeadLetter (entryId : String) (resolution : DeadLetterResolution)
      (next : Option DeadLetterInfo → UnitOfWork A)
  | appendAudit (event : AuditEvent) (next : UnitOfWork A)

/-- What an open transaction sees, and the variables of `runInTransaction`. -/
structure DeadLetterTx (Data : Type) where
  rows : Table Data
  audit : List AuditEvent
  bound : Option TenantId
  resolved : Bool
  /-- How many statements it has made. -/
  statements : ℕ

section Transaction

variable (queue : QueueSelector)
  /- What PostgreSQL answers to the statements of the transaction: it may refuse any of them. -/
  (database : ℕ → Except Failure Unit)

def DeadLetterTx.query (tx : DeadLetterTx Data) : Except Failure (DeadLetterTx Data) := do
  database tx.statements
  .ok { tx with statements := tx.statements + 1 }

/-- `bindTenant`; the second statement reads back what the first has set. -/
def DeadLetterTx.bindTenant (tx : DeadLetterTx Data) (boundTenantId : TenantId) :
    Except Failure (DeadLetterTx Data) := do
  let tx ← tx.query database
  let tx ← tx.query database
  .ok { tx with bound := some boundTenantId }

/-- What follows a resolution: the transaction is bound to the tenant of the entry, if there was
one. -/
def DeadLetterTx.bindResolved (tx : DeadLetterTx Data) (info : Option DeadLetterInfo) :
    Except Failure (DeadLetterTx Data) :=
  match info with
  | none => .ok tx
  | some info => do
    let boundTenantId ← tenantId info.tenantId
    tx.bindTenant database boundTenantId

/-- `resolveDeadLetterWith` on the transaction's client; a malformed entry id makes no statement. -/
def DeadLetterTx.resolveDeadLetterWith (tx : DeadLetterTx Data) (entryId : String)
    (resolution : DeadLetterResolution) :
    Except Failure (Option DeadLetterInfo × DeadLetterTx Data) :=
  match entryIdOf entryId with
  | none => .ok (none, tx)
  | some _ => do
    let tx ← tx.query database
    let (rows, info) := Outbox.resolveDeadLetter queue entryId resolution tx.rows
    .ok (info, { tx with rows := rows })

/-- `if (resolved) throw new Error(...)` -/
def DeadLetterTx.requireUnresolved (tx : DeadLetterTx Data) : Except Failure Unit :=
  if tx.resolved then .error (.error "One dead-letter resolution per transaction.") else .ok ()

/-- `unitOfWork.outbox.resolveDeadLetter` -/
def DeadLetterTx.resolveDeadLetter (tx : DeadLetterTx Data) (entryId : String)
    (resolution : DeadLetterResolution) :
    Except Failure (Option DeadLetterInfo × DeadLetterTx Data) := do
  tx.requireUnresolved
  let (info, tx) ← { tx with resolved := true }.resolveDeadLetterWith queue database entryId resolution
  let tx ← tx.bindResolved database info
  .ok (info, tx)

/-- `appendAuditEvent`, with the constraints of `audit_event`. -/
def insertAuditEvent (event : AuditEvent) (audit : List AuditEvent) :
    Except Failure (List AuditEvent) :=
  if Identity.auditChecks event = false then .error Identity.checkViolation
  else if audit.any fun row =>
      row.tenantId == event.tenantId && row.auditEventId == event.auditEventId then
    .error Identity.uniqueViolation
  else .ok (audit ++ [event])

/-- `boundAuditWriter` -/
def DeadLetterTx.appendAudit (tx : DeadLetterTx Data) (event : AuditEvent) :
    Except Failure (DeadLetterTx Data) := do
  throwIf (tx.bound.map units ≠ some event.tenantId) .tenant_context_mismatch
    "The audit event does not belong to the bound tenant."
  let tx ← tx.query database
  let audit ← insertAuditEvent event tx.audit
  .ok { tx with audit := audit }

def UnitOfWork.run : UnitOfWork A → DeadLetterTx Data → Except Failure (A × DeadLetterTx Data)
  | .done a, tx => .ok (a, tx)
  | .throw e, _ => .error e
  | .resolveDeadLetter entryId resolution next, tx => do
    let (info, tx) ← tx.resolveDeadLetter queue database entryId resolution
    (next info).run tx
  | .appendAudit event next, tx => do
    let tx ← tx.appendAudit database event
    next.run tx

/-- `withTransaction`: the work between `BEGIN` and `COMMIT`. -/
def UnitOfWork.commit (work : UnitOfWork A) (tx : DeadLetterTx Data) :
    Except Failure (A × DeadLetterTx Data) := do
  let tx ← tx.query database
  let (a, tx) ← work.run queue database tx
  let tx ← tx.query database
  .ok (a, tx)

/-- `PostgresDeadLetterPersistence.runInTransaction`: an error rolls everything back. -/
def runInTransaction (work : UnitOfWork A) (db : DeadLetterDb Data) :
    Except Failure A × DeadLetterDb Data :=
  match work.commit queue database ⟨db.rows queue.table, db.audit_event, none, false, 0⟩ with
  | .error e => (.error e, db)
  | .ok (a, tx) => (.ok a, { db.setRows queue.table tx.rows with audit_event := tx.audit })

end Transaction

/-- A call of `resolveDeadLetter`: the queue its persistence works on, its recorder, and what it is
given from outside, which is the authorizer's answer, what the clocks of the command and of the
recorder show, a fresh identifier, and PostgreSQL. -/
structure DeadLetterCommand where
  queue : QueueSelector
  audit : AuditRecorder
  context : PlatformCommandContext
  entryId : String
  action : String
  reason : Option String
  authorized : Except Failure Unit
  now : Option Instant
  recordedAt : Option Instant
  newAuditId : String
  database : ℕ → Except Failure Unit

/-- `input.action` where it is one of the two. -/
def deadLetterAction : String → Option DeadLetterAction
  | "requeue" => some .requeue
  | "skip" => some .skip
  | _ => none

def auditAction : DeadLetterAction → Text
  | .skip => ascii "outbox.dead_letter_skipped"
  | .requeue => ascii "outbox.dead_letter_requeued"

/-- What the audit event says of a resolution. -/
def deadLetterRecord (command : DeadLetterCommand) (action : DeadLetterAction) (reason : String)
    (info : DeadLetterInfo) : AuditRecordInput where
  action := auditAction action
  targetType := "OutboxEntry"
  targetId := command.entryId
  reason := some reason
  approvalId := none
  before := some [(ascii "previous_status", .string (ascii "dead"))]
  after := some [
    (ascii "event_id", .string (units info.eventId)),
    (ascii "event_type", .string (units info.eventType)),
    (ascii "aggregate_type", .string (units info.aggregateType)),
    (ascii "aggregate_id", .string (units info.aggregateId)),
    (ascii "resolution", .string (units command.action))]
  occurredAt := command.recordedAt

/-- The event that `recordForPlatformCommand` appends. -/
def deadLetterEvent (command : DeadLetterCommand) (action : DeadLetterAction) (reason : String)
    (info : DeadLetterInfo) : Except Failure AuditEvent := do
  let scope ← eventScopeForPlatformCommand command.context info.tenantId
  recordForScope command.audit scope (deadLetterRecord command action reason info)
    command.newAuditId command.recordedAt

/-- The work after the resolution: it must have found a dead letter, and is audited. -/
def auditResolved (command : DeadLetterCommand) (action : DeadLetterAction) (reason : String) :
    Option DeadLetterInfo → UnitOfWork DeadLetterInfo
  | none => .throw (.problem
      { code := .dead_letter_not_resolvable
        detail := "The entry is not a dead-lettered event."
        correlation_id := some command.context.correlationId })
  | some info =>
    match deadLetterEvent command action reason info with
    | .error e => .throw e
    | .ok event => .appendAudit event (.done info)

/-- The work of the transaction; `now.toISOString()` throws where the clock shows no instant. -/
def deadLetterWork (command : DeadLetterCommand) (action : DeadLetterAction) (reason : String) :
    UnitOfWork DeadLetterInfo :=
  match command.now with
  | none => .throw (.error "RangeError: Invalid time value")
  | some now =>
    .resolveDeadLetter command.entryId
      ⟨action, command.context.actorId, reason, timestamp now⟩
      (auditResolved command action reason)

def requireAction (command : DeadLetterCommand) : Except Failure DeadLetterAction :=
  match deadLetterAction command.action with
  | none => refuse .invalid_trusted_context "Dead-letter action must be requeue or skip."
      command.context.correlationId
  | some action => .ok action

/-- The checks before the transaction, with the trimmed reason. -/
def checkDeadLetterCommand (command : DeadLetterCommand) :
    Except Failure (DeadLetterAction × String) := do
  command.authorized
  let reason := (command.reason.map trim).getD ""
  refuseIf (reason = "") .dead_letter_reason_required
    "A reason is required to resolve a dead-lettered event." command.context.correlationId
  let action ← requireAction command
  .ok (action, reason)

/-- `createDeadLetterOperations(...)`: what the command returns or throws, and the database after
it. -/
def DeadLetterCommand.resolve (command : DeadLetterCommand) (db : DeadLetterDb Data) :
    Except Failure DeadLetterInfo × DeadLetterDb Data :=
  match checkDeadLetterCommand command with
  | .error e => (.error e, db)
  | .ok (action, reason) =>
    runInTransaction command.queue command.database (deadLetterWork command action reason) db

/-- The database after a sequence of commands. -/
def DeadLetterDb.after (db : DeadLetterDb Data) (commands : List DeadLetterCommand) :
    DeadLetterDb Data :=
  commands.foldl (fun db command => (command.resolve db).2) db

/-- `PRIMARY KEY (entry_id)` in both tables. -/
def DeadLetterDb.Keyed (db : DeadLetterDb Data) : Prop :=
  ∀ table, (db.rows table).Pairwise fun a b => a.entryId ≠ b.entryId

end Sintius.Outbox
