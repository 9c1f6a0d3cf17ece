import Mathlib
import Sintius.Lib.Date
import Sintius.Lib.Double
import Sintius.Lib.Text
import Sintius.Lib.Utf16
import Sintius.Lib.Transaction
import Sintius.Spec.Problem
import Sintius.Spec.TenantContext
import Sintius.Spec.Canonical
import Sintius.Spec.Queue
import Sintius.Spec.EventEnvelope
import Sintius.Spec.AuditRecorder
import Sintius.Spec.Idempotency
import Sintius.Spec.Tenant
import Sintius.Spec.Approval
import Sintius.Spec.ApprovalStore

/-! `modules/audit-governance/application/approval-commands.ts`: proposing, deciding
and cancelling a request, each as one transaction with its audit fact and its event. -/

namespace Sintius.Approval

open Js Js.Date Sintius.Canonical Sintius.Outbox Sintius.Audit Sql

structure DecideApprovalCommand where
  approvalId : String
  decision : ApprovalDecisionKind
  expectedVersion : Js.Number
  target : ApprovalTarget
  reason : Option String

structure CancelApprovalCommand where
  approvalId : String
  expectedVersion : Js.Number

/-- What a command is given from outside: the authorizer's answers, what the policy reader finds,
what the clocks of the command and of the recorder show, and fresh identifiers. -/
structure ApprovalEnvironment where
  assertPermission : Except Failure Unit
  hasPermission : String → Except Failure Bool
  policy : Except Failure (Option ApprovalPolicy)
  now : Option Instant
  recordedAt : Option Instant
  newApprovalId : String
  newEventId : String
  newAuditId : String

def ApprovalStatus.text : ApprovalStatus → String
  | .PENDING => "PENDING"
  | .APPROVED => "APPROVED"
  | .REJECTED => "REJECTED"
  | .EXPIRED => "EXPIRED"
  | .CANCELLED => "CANCELLED"

/-- A step of the command that makes no statement. -/
def attempt {A : Type} (x : Except Failure A) : ApprovalTx A := Tx.lift (x.mapError .failure)

def assertTenant (actual expected : TenantId) : Except Failure Unit :=
  throwIf (actual ≠ expected) .tenant_context_mismatch
    "The approval request is not for the bound tenant."

def ApprovalDb.addAudit (event : AuditEvent) (d : ApprovalDb) : ApprovalDb :=
  { d with audit_event := d.audit_event ++ [event] }

def ApprovalDb.addEvent (entry : OutboxEntry ApprovalEventData) (d : ApprovalDb) : ApprovalDb :=
  { d with outbox_event := d.outbox_event ++ [entry] }

/-- `appendAuditEvent` -/
def insertAuditRow (event : AuditEvent) : ApprovalStatement Unit := fun _ d =>
  if Identity.auditChecks event = false then .error (.failure Identity.checkViolation)
  else if d.audit_event.any fun row =>
      row.tenantId == event.tenantId && row.auditEventId == event.auditEventId then
    .error (.failure Identity.uniqueViolation)
  else .ok ⟨(), ApprovalDb.addAudit event, none⟩

/-- `appendOutboxEvent`; the entry's number is the next of the sequence. -/
def insertOutboxRow (envelope : EventEnvelope ApprovalEventData) : ApprovalStatement Unit :=
  fun n d =>
    match appendOutboxEvent n envelope d.outbox_event with
    | none => .error (.failure Identity.uniqueViolation)
    | some _ =>
      .ok ⟨(), ApprovalDb.addEvent (newEntry n none envelope envelope.recorded_at), none⟩

section Language

variable (other : String → Option ℤ) (secondsAfter : Instant → Js.Number → Option Instant)
  (timestamptz : String → Option Instant) (recorder : AuditRecorder)

section UnitOfWork

variable (boundTenantId : TenantId)

def insertApproval (request : ApprovalRequest) : ApprovalTx Unit := do
  attempt (assertTenant request.tenantId boundTenantId)
  Tx.query (insertApprovalRow timestamptz request) Tx.done

def findById (tenantId : TenantId) (id : String) : ApprovalTx (Option ApprovalRequest) := do
  attempt (assertTenant tenantId boundTenantId)
  let row ← Tx.query (selectApproval tenantId id) Tx.done
  match row with
  | none => return none
  | some row => do
    let request ← attempt (requestFrom row)
    return some request

/-- The row count of the update; an exception of the trigger ends the transaction. -/
def updatedRows : Except String ℕ → ApprovalTx ℕ
  | .error message => Tx.throw (.raised message)
  | .ok rowCount => return rowCount

def updateApproval (request : ApprovalRequest) (expectedVersion : ℕ) : ApprovalTx Unit := do
  attempt (assertTenant request.tenantId boundTenantId)
  let outcome ← Tx.query (updateApprovalRow request expectedVersion) Tx.done
  let rowCount ← updatedRows outcome
  attempt (throwIf (rowCount ≠ 1) .approval_version_conflict
    "The approval request changed concurrently.")

def appendAudit (event : AuditEvent) : ApprovalTx Unit := do
  attempt (throwIf (event.tenantId ≠ units boundTenantId) .tenant_context_mismatch
    "The approval request is not for the bound tenant.")
  Tx.query (insertAuditRow event) Tx.done

def appendOutbox (envelope : EventEnvelope ApprovalEventData) : ApprovalTx Unit := do
  attempt (assertTenant envelope.tenant_id boundTenantId)
  Tx.query (insertOutboxRow envelope) Tx.done

end UnitOfWork

def changeRecord (request : ApprovalRequest) (action : Text) (now : Option Instant)
    (details : Audit.Fields) (reason : Option String) : AuditRecordInput where
  action := action
  targetType := "ApprovalRequest"
  targetId := request.id
  reason := reason
  approvalId := some request.id
  before := none
  after := some (details ++ [(ascii "status", .string (ascii request.status.text)),
    (ascii "version", .number (Identity.versionNumber request.version))])
  occurredAt := now

def changeEvent (request : ApprovalRequest) (eventType : String) (now : Option Instant) :
    BuildEventInput ApprovalEventData where
  eventType := eventType
  aggregateType := "ApprovalRequest"
  aggregateId := request.id
  aggregateVersion := request.version
  occurredAt := now
  data := .status request.actionType request.status request.makerId

/-- `record` -/
def record (context : Tenancy.TenantContext) (request : ApprovalRequest) (action : Text)
    (eventType : String) (env : ApprovalEnvironment) (details : Audit.Fields) (reason : Option String) :
    ApprovalTx Unit := do
  let scope := eventScopeFromContext context
  let event ← attempt (recordForScope recorder scope
    (changeRecord request action env.now details reason) env.newAuditId env.recordedAt)
  appendAudit context.tenantId event
  let envelope ← attempt (buildEventEnvelopeFor scope (changeEvent request eventType env.now)
    env.newEventId env.now)
  appendOutbox context.tenantId envelope

/-- `load` -/
def requireFound (context : Tenancy.TenantContext) (request : Option ApprovalRequest) :
    Except Failure ApprovalRequest :=
  match request with
  | none => Tenancy.refuse .approval_not_found "The approval request does not exist."
      context.correlationId
  | some request =>
    if request.tenantId ≠ context.tenantId then
      Tenancy.refuse .approval_not_found "The approval request does not exist."
        context.correlationId
    else .ok request

def load (context : Tenancy.TenantContext) (approvalId : String) : ApprovalTx ApprovalRequest := do
  let request ← findById context.tenantId context.tenantId approvalId
  attempt (requireFound context request)

def requirePolicy (context : Tenancy.TenantContext) (policy : Option ApprovalPolicy) :
    Except Failure ApprovalPolicy :=
  match policy with
  | none => Tenancy.refuse .approval_policy_not_found "No approval policy governs this action."
      context.correlationId
  | some policy =>
    if policy.tenantId ≠ context.tenantId then
      Tenancy.refuse .approval_policy_not_found "No approval policy governs this action."
        context.correlationId
    else .ok policy

def propose (context : Tenancy.TenantContext) (input : ApprovalTarget)
    (env : ApprovalEnvironment) : ApprovalTx ApprovalRequest := do
  attempt env.assertPermission
  let found ← attempt env.policy
  let policy ← attempt (requirePolicy context found)
  let request ← attempt (proposeApproval secondsAfter
    { input with id := env.newApprovalId, policy := policy, makerId := context.actorId } env.now)
  insertApproval timestamptz context.tenantId request
  record recorder context request (ascii "approval.requested") "approval.requested.v1" env
    [(ascii "action_type", .string (units request.actionType)),
      (ascii "target_id", .string (units request.targetId))] none
  return request

/-- The requirement permissions the approver holds now, asked for in order. -/
def approverPermissions (env : ApprovalEnvironment) :
    List ApproverRequirement → Except Failure (List String)
  | [] => .ok []
  | requirement :: requirements => do
    let holds ← env.hasPermission requirement.permission
    let rest ← approverPermissions env requirements
    .ok (if holds then requirement.permission :: rest else rest)

def decideInput (context : Tenancy.TenantContext) (input : DecideApprovalCommand)
    (permissions : List String) : DecideApprovalInput where
  approverId := context.actorId
  decision := input.decision
  expectedVersion := input.expectedVersion
  target := input.target
  reason := input.reason
  approverPermissions := some permissions

def decidedAction : ApprovalDecisionKind → Text
  | .approve => ascii "approval.approved"
  | .reject => ascii "approval.rejected"

/-- The checks of `decide` before its transaction. -/
def checkDecider (context : Tenancy.TenantContext) (env : ApprovalEnvironment) :
    Except Failure Unit := do
  env.assertPermission
  Tenancy.refuseIf (context.principalKind ≠ .interactive) .permission_denied
    "Approvals must be decided by an interactive user." context.correlationId
  Tenancy.refuseIf (context.assurance ≠ .mfa) .authentication_assurance_insufficient
    "Multi-factor authentication is required to decide an approval." context.correlationId

def decide (context : Tenancy.TenantContext) (input : DecideApprovalCommand)
    (env : ApprovalEnvironment) : ApprovalTx ApprovalRequest := do
  attempt (checkDecider context env)
  let current ← load context input.approvalId
  let permissions ← attempt (approverPermissions env current.approverRequirements)
  let next ← attempt (decideApproval other current (decideInput context input permissions) env.now)
  updateApproval context.tenantId next current.version
  record recorder context next (decidedAction input.decision) "approval.decided.v1" env
    [(ascii "decision", .string (ascii input.decision.text)),
      (ascii "resulting_status", .string (ascii next.status.text)),
      (ascii "previous_version", .number (Identity.versionNumber current.version))] input.reason
  return next

def cancel (context : Tenancy.TenantContext) (input : CancelApprovalCommand)
    (env : ApprovalEnvironment) : ApprovalTx ApprovalRequest := do
  attempt env.assertPermission
  let current ← load context input.approvalId
  let next ← attempt (cancelApproval current context.actorId input.expectedVersion)
  updateApproval context.tenantId next current.version
  record recorder context next (ascii "approval.cancelled") "approval.cancelled.v1" env
    [(ascii "previous_version", .number (Identity.versionNumber current.version))] none
  return next

inductive ApprovalCommand where
  | propose (context : Tenancy.TenantContext) (input : ApprovalTarget) (env : ApprovalEnvironment)
  | decide (context : Tenancy.TenantContext) (input : DecideApprovalCommand)
      (env : ApprovalEnvironment)
  | cancel (context : Tenancy.TenantContext) (input : CancelApprovalCommand)
      (env : ApprovalEnvironment)

def program : ApprovalCommand → ApprovalTx ApprovalRequest
  | .propose context input env => propose secondsAfter timestamptz recorder context input env
  | .decide context input env => decide other recorder context input env
  | .cancel context input env => cancel recorder context input env

end Language

end Sintius.Approval
