import Mathlib
import Sintius.Lib.Date
import Sintius.Lib.Double
import Sintius.Lib.Text
import Sintius.Lib.Utf16
import Sintius.Lib.Transaction
import Sintius.Spec.Problem
import Sintius.Spec.TenantContext
import Sintius.Spec.Canonical
import Sintius.Spec.Queue
import Sintius.Spec.EventEnvelope
import Sintius.Spec.AuditRecorder
import Sintius.Spec.Idempotency
import Sintius.Spec.Tenant

/-! `modules/foundation-proof`: one command that writes a record, its audit evidence and
its event in one idempotent transaction, and the tables it writes. -/

namespace Sintius.FoundationProof

open Js Js.Date Sintius.Canonical Sintius.Tenancy Sintius.Outbox Sintius.Audit
  Sintius.Idempotency Sintius.Identity Sql

structure FoundationProofRecord where
  tenantId : TenantId
  proofRecordId : String
  label : String
  actorId : ActorId
  correlationId : String
  recordedAt : Instant
deriving DecidableEq

/-- The data of the event. -/
structure ProofEventData where
  proof_record_id : String
  label : String
deriving DecidableEq, Repr

structure ProofDb where
  foundation_proof_record : List FoundationProofRecord
  audit_event : List AuditEvent
  outbox_event : Table ProofEventData

abbrev ProofStatement (B : Type) := Statement Failure ProofDb Empty B

abbrev ProofTx (A : Type) := Tx Failure ProofDb Empty A

/-- `length(btrim(value))` -/
def btrimLength (value : String) : ℕ :=
  ((value.toList.dropWhile (· == ' ')).reverse.dropWhile (· == ' ')).length

/-- The CHECK constraints of `foundation_proof_record`. -/
def proofChecks (record : FoundationProofRecord) : Bool :=
  btrimNonEmpty record.proofRecordId && 1 ≤ btrimLength record.label &&
    btrimLength record.label ≤ 200 && btrimNonEmpty record.actorId &&
    btrimNonEmpty record.correlationId

def assertProofTenant (actual expected : TenantId) : Except Failure Unit :=
  throwIf (actual ≠ expected) .tenant_context_mismatch
    "The proof transaction is bound to another tenant."

def ProofDb.addRecord (record : FoundationProofRecord) (d : ProofDb) : ProofDb :=
  { d with foundation_proof_record := d.foundation_proof_record ++ [record] }

def insertRecordRow (record : FoundationProofRecord) : ProofStatement Unit := fun _ d =>
  if proofChecks record = false then .error checkViolation
  else if d.foundation_proof_record.any fun row =>
      row.tenantId == record.tenantId && row.proofRecordId == record.proofRecordId then
    .error uniqueViolation
  else .ok ⟨(), ProofDb.addRecord record, none⟩

def ProofDb.addAudit (event : AuditEvent) (d : ProofDb) : ProofDb :=
  { d with audit_event := d.audit_event ++ [event] }

/-- `appendAuditEvent` -/
def insertAuditRow (event : AuditEvent) : ProofStatement Unit := fun _ d =>
  if auditChecks event = false then .error checkViolation
  else if d.audit_event.any fun row =>
      row.tenantId == event.tenantId && row.auditEventId == event.auditEventId then
    .error uniqueViolation
  else .ok ⟨(), ProofDb.addAudit event, none⟩

def ProofDb.addEvent (entry : OutboxEntry ProofEventData) (d : ProofDb) : ProofDb :=
  { d with outbox_event := d.outbox_event ++ [entry] }

/-- `appendOutboxEvent`; the entry's number is the next of the sequence. -/
def insertOutboxRow (envelope : EventEnvelope ProofEventData) : ProofStatement Unit := fun n d =>
  match appendOutboxEvent n envelope d.outbox_event with
  | none => .error uniqueViolation
  | some _ => .ok ⟨(), ProofDb.addEvent (newEntry n none envelope envelope.recorded_at), none⟩

section UnitOfWork

variable (boundTenantId : TenantId)

def insertRecord (record : FoundationProofRecord) : ProofTx Unit := do
  Tx.lift (assertProofTenant record.tenantId boundTenantId)
  Tx.query (insertRecordRow record) Tx.done

def appendAudit (event : AuditEvent) : ProofTx Unit := do
  Tx.lift (throwIf (event.tenantId ≠ units boundTenantId) .tenant_context_mismatch
    "The proof transaction is bound to another tenant.")
  Tx.query (insertAuditRow event) Tx.done

def appendOutbox (envelope : EventEnvelope ProofEventData) : ProofTx Unit := do
  Tx.lift (assertProofTenant envelope.tenant_id boundTenantId)
  Tx.query (insertOutboxRow envelope) Tx.done

end UnitOfWork

/-- What a call is given from outside: the authorizer's answer, what the clocks of the command, of
the executor and of the recorder show, and fresh identifiers. -/
structure ProofEnvironment where
  permitted : Except Failure Unit
  now : Option Instant
  executorNow : Option Instant
  recordedAt : Option Instant
  newProofRecordId : String
  newEventId : String
  newAuditId : String

def normalizedLabel (value correlationId : String) : Except Failure String := do
  let label := trim value
  refuseIf (label = "" ∨ 200 < (units label).length) .invalid_trusted_context
    "Foundation proof label must contain 1 to 200 characters." correlationId
  .ok label

structure PreparedProof where
  record : FoundationProofRecord
  envelope : EventEnvelope ProofEventData
deriving DecidableEq

/-- The command up to the executor. -/
def prepareProof (context : TenantContext) (label : String) (env : ProofEnvironment) :
    Except Failure PreparedProof := do
  let label ← normalizedLabel label context.correlationId
  match env.now with
  | none => .error (.error "RangeError: Invalid time value")
  | some now => do
    let envelope ← buildEventEnvelopeFor (eventScopeFromContext context)
      { eventType := "foundation.proof_recorded.v1"
        aggregateType := "FoundationProofRecord"
        aggregateId := env.newProofRecordId
        aggregateVersion := 1
        occurredAt := some now
        data := ⟨env.newProofRecordId, label⟩ } env.newEventId (some now)
    .ok
      { record :=
          { tenantId := context.tenantId
            proofRecordId := env.newProofRecordId
            label := label
            actorId := context.actorId
            correlationId := context.correlationId
            recordedAt := now }
        envelope := envelope }

/-- A call that opens a transaction: the others throw before. -/
structure ProofCall where
  context : TenantContext
  label : String
  idempotencyKey : Option Text
  env : ProofEnvironment
  prepared : PreparedProof
  prepares : prepareProof context label env = .ok prepared

namespace ProofCall

def auditInput (c : ProofCall) : AuditRecordInput where
  action := ascii "foundation.proof_recorded"
  targetType := "ProofRecord"
  targetId := c.prepared.record.proofRecordId
  reason := none
  approvalId := none
  before := none
  after := some [(ascii "label", .string (units c.prepared.record.label))]
  occurredAt := some c.prepared.record.recordedAt

/-- `audit.recordForCurrentContext` -/
def evidence (recorder : AuditRecorder) (c : ProofCall) : Except Failure AuditEvent :=
  recordForScope recorder (eventScopeFromContext c.context) c.auditInput c.env.newAuditId
    c.env.recordedAt

def response (c : ProofCall) : WorkResponse Empty where
  status := .ofNat 201 created_safe
  heap := Empty.elim
  body := literal [
    (ascii "proof_record_id", .string (units c.prepared.record.proofRecordId)),
    (ascii "label", .string (units c.prepared.record.label)),
    (ascii "recorded_at", .string (units (toISOString c.prepared.record.recordedAt)))]

def work (recorder : AuditRecorder) (c : ProofCall) : ProofTx (WorkResponse Empty) := do
  insertRecord c.context.tenantId c.prepared.record
  let event ← Tx.lift (c.evidence recorder)
  appendAudit c.context.tenantId event
  appendOutbox c.context.tenantId c.prepared.envelope
  return c.response

def call (recorder : AuditRecorder) (c : ProofCall) : Call ProofDb Empty Empty where
  context := ⟨c.context.tenantId, c.context.correlationId⟩
  heap := Empty.elim
  request :=
    { scope := ascii "foundation.proof.record"
      key := c.idempotencyKey
      payload := literal [(ascii "label", .string (units c.prepared.record.label))] }
  authorize := c.env.permitted
  now := c.env.executorNow
  work := c.work recorder

end ProofCall

/-- `executeIdempotently` of the command. -/
def recordProof (dependencies : CommandDependencies) (c : ProofCall) :
    StoreTx ProofDb Empty IdempotentResult :=
  executeUntraced dependencies.executor (c.call dependencies.recorder)

structure FoundationProofResult where
  proofRecordId : Text
  label : Text
  recordedAt : Text
deriving DecidableEq

/-- `typeof value === "string"` -/
def stringOf : Option Json → Option Text
  | some (.string s) => some s
  | _ => none

def resultFrom (response : StoredResponse) (correlationId : String) :
    Except Failure FoundationProofResult :=
  let invalid := refuse .invalid_trusted_context "Stored foundation proof response is invalid."
    correlationId
  if response.status ≠ 201 then invalid
  else
    match response.body with
    | .object members =>
      match stringOf (members (ascii "proof_record_id")), stringOf (members (ascii "label")),
        stringOf (members (ascii "recorded_at")) with
      | some proofRecordId, some label, some recordedAt =>
        .ok ⟨proofRecordId, label, recordedAt⟩
      | _, _, _ => invalid
    | _ => invalid

end Sintius.FoundationProof
