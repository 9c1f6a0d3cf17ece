import Mathlib
import Sintius.Lib.Date
import Sintius.Lib.Text
import Sintius.Lib.Transaction
import Sintius.Spec.Problem
import Sintius.Spec.TenantContext
import Sintius.Spec.Canonical
import Sintius.Spec.Queue
import Sintius.Spec.EventEnvelope
import Sintius.Spec.AuditRecorder
import Sintius.Spec.Idempotency
import Sintius.Spec.Tenant
import Sintius.Spec.Approval

/-! `modules/audit-governance/infrastructure/postgres`: the columns of an approval
request, the two JSON columns among them, and the statements on the table with its
append-only trigger. PostgreSQL's reading of a timestamp is a parameter: it may
refuse a text. -/

namespace Sintius.Approval

open Js Js.Date Sintius.Outbox Sql

inductive JsonScalar where
  | null
  | bool (b : Bool)
  | number (n : ℕ)
  | string (s : String)
deriving DecidableEq, Repr

/-- The members of an object, in the order they were written. -/
abbrev JsonObject := List (String × JsonScalar)

structure ApprovalRow where
  tenant_id : TenantId
  approval_id : String
  action_type : String
  target_type : String
  target_id : String
  target_version : ℕ
  maker_id : ActorId
  required_approvals : ℕ
  separation_of_duties : Bool
  approver_requirements : List JsonObject
  status : ApprovalStatus
  decisions : List JsonObject
  row_version : ℕ
  created_at : Instant
  expires_at : Instant
deriving DecidableEq

def ApprovalDecisionKind.text : ApprovalDecisionKind → String
  | .approve => "approve"
  | .reject => "reject"

/-- An optional member of an object literal. -/
def optionalMember (key : String) (value : Option String) : JsonObject :=
  (value.map fun text => (key, JsonScalar.string text)).toList

/-- `JSON.stringify` of a decision. -/
def encodeDecision (decision : ApprovalDecision) : JsonObject :=
  [("actorId", .string decision.actorId), ("decision", .string decision.decision.text),
    ("decidedAt", .string decision.decidedAt)] ++
    optionalMember "reason" decision.reason ++
    optionalMember "creditedPermission" decision.creditedPermission

def encodeRequirement (requirement : ApproverRequirement) : JsonObject :=
  [("permission", .string requirement.permission), ("count", .number requirement.count)]

/-- `String(value)` -/
def stringOf : Option JsonScalar → String
  | none => "undefined"
  | some .null => "null"
  | some (.bool b) => toString b
  | some (.number n) => toString n
  | some (.string s) => s

/-- `typeof value === "string" ? { key: value } : {}` -/
def whenString : Option JsonScalar → Option String
  | some (.string s) => some s
  | _ => none

def notANumber : Failure := .error "NaN"

/-- `Number(value)` of a count that was stored. -/
def countOf : Option JsonScalar → Except Failure ℕ
  | some (.number n) => .ok n
  | _ => .error notANumber

/-- A `bigint` as the driver hands it over. -/
def bigintText (n : ℕ) : String := toString n

/-- `Number(text)` of a decimal text. -/
def numberOf (text : String) : Except Failure ℕ :=
  match text.toNat? with
  | none => .error notANumber
  | some n => .ok n

/-- `new Date(String(date)).toISOString()` -/
def isoFrom (date : Instant) : Except Failure String := do
  let date ← Identity.isoDate date
  .ok (Js.Date.toISOString date)

def decisionFrom (item : JsonObject) : Except Failure ApprovalDecision := do
  let actorId ← Tenancy.actorId (stringOf (item.lookup "actorId"))
  .ok
    { actorId := actorId
      decision := if item.lookup "decision" = some (.string "reject") then .reject else .approve
      decidedAt := stringOf (item.lookup "decidedAt")
      reason := whenString (item.lookup "reason")
      creditedPermission := whenString (item.lookup "creditedPermission") }

def requirementFrom (item : JsonObject) : Except Failure ApproverRequirement := do
  let count ← countOf (item.lookup "count")
  .ok ⟨stringOf (item.lookup "permission"), count⟩

def requestFrom (row : ApprovalRow) : Except Failure ApprovalRequest := do
  let decisions ← row.decisions.mapM decisionFrom
  let requirements ← row.approver_requirements.mapM requirementFrom
  let tenantId ← Tenancy.tenantId row.tenant_id
  let targetVersion ← numberOf (bigintText row.target_version)
  let makerId ← Tenancy.actorId row.maker_id
  let version ← numberOf (bigintText row.row_version)
  let createdAt ← isoFrom row.created_at
  let expiresAt ← isoFrom row.expires_at
  .ok
    { id := row.approval_id
      tenantId := tenantId
      actionType := row.action_type
      targetType := row.target_type
      targetId := row.target_id
      targetVersion := targetVersion
      makerId := makerId
      requiredApprovals := row.required_approvals
      separationOfDuties := row.separation_of_duties
      approverRequirements := requirements
      status := row.status
      decisions := decisions
      version := version
      createdAt := createdAt
      expiresAt := expiresAt }

/-- The CHECK constraints of `approval_request`, and the ranges of its number columns. -/
def approvalChecks (row : ApprovalRow) : Bool :=
  btrimNonEmpty row.approval_id && btrimNonEmpty row.action_type &&
    btrimNonEmpty row.target_type && btrimNonEmpty row.target_id && 1 ≤ row.target_version &&
    row.target_version < 2 ^ 63 && btrimNonEmpty row.maker_id && 1 ≤ row.required_approvals &&
    row.required_approvals < 2 ^ 31 && 1 ≤ row.row_version && row.row_version < 2 ^ 63 &&
    row.created_at.1 < row.expires_at.1

/-- `approval_request_append_only`, with the message of its `RAISE EXCEPTION`. JSON objects that the
adapter writes list their members in one order, so that comparing them is comparing lists. -/
def approvalRequestAppendOnly (old new : ApprovalRow) : Except String Unit :=
  if old.status ≠ .PENDING then
    .error ("approval request " ++ old.approval_id ++ " is already settled")
  else if new.row_version ≠ old.row_version + 1 then
    .error "approval request versions advance by exactly one"
  else if new.decisions.length < old.decisions.length ∨
      new.decisions.take old.decisions.length ≠ old.decisions then
    .error "approval decisions are append-only"
  else .ok ()

/-- What ends an approval transaction; an exception of the trigger is told apart. -/
inductive ApprovalError where
  | failure (e : Failure)
  | raised (message : String)

inductive ApprovalEventData where
  | status (action_type : String) (status : ApprovalStatus) (maker_id : ActorId)
deriving DecidableEq, Repr

/-- The tables that approval transactions write. -/
structure ApprovalDb where
  approval_request : TenantId × String → Option ApprovalRow
  audit_event : List Canonical.AuditEvent
  outbox_event : Table ApprovalEventData

/-- The row lock of a request. -/
abbrev RequestLock := TenantId × String

abbrev ApprovalStatement (B : Type) := Statement ApprovalError ApprovalDb RequestLock B

abbrev ApprovalTx (A : Type) := Tx ApprovalError ApprovalDb RequestLock A

def ApprovalRow.key (row : ApprovalRow) : TenantId × String := (row.tenant_id, row.approval_id)

def ApprovalDb.setRequest (row : ApprovalRow) (d : ApprovalDb) : ApprovalDb :=
  { d with approval_request := Function.update d.approval_request row.key (some row) }

section Statements

variable (timestamptz : String → Option Instant)

/-- The row that `INSERT` makes of a request. -/
def rowOf (request : ApprovalRequest) : Option ApprovalRow := do
  let created_at ← timestamptz request.createdAt
  let expires_at ← timestamptz request.expiresAt
  some
    { tenant_id := request.tenantId
      approval_id := request.id
      action_type := request.actionType
      target_type := request.targetType
      target_id := request.targetId
      target_version := request.targetVersion
      maker_id := request.makerId
      required_approvals := request.requiredApprovals
      separation_of_duties := request.separationOfDuties
      approver_requirements := request.approverRequirements.map encodeRequirement
      status := request.status
      decisions := request.decisions.map encodeDecision
      row_version := request.version
      created_at := created_at
      expires_at := expires_at }

def insertApprovalRow (request : ApprovalRequest) : ApprovalStatement Unit := fun _ d =>
  match rowOf timestamptz request with
  | none => .error (.failure Identity.invalidTimestamp)
  | some row =>
    if approvalChecks row = false then .error (.failure Identity.checkViolation)
    else if (d.approval_request row.key).isSome then .error (.failure Identity.uniqueViolation)
    else .ok ⟨(), ApprovalDb.setRequest row, some row.key⟩

def selectApproval (tenantId : TenantId) (id : String) : ApprovalStatement (Option ApprovalRow) :=
  fun _ d => .ok ⟨d.approval_request (tenantId, id), fun d => d, none⟩

/-- What `UPDATE` sets. -/
def settle (request : ApprovalRequest) (row : ApprovalRow) : ApprovalRow :=
  { row with
    status := request.status
    decisions := request.decisions.map encodeDecision
    row_version := request.version }

/-- `UPDATE approval_request … WHERE row_version = $6`, with its row count or the exception of the
trigger. -/
def updateApprovalRow (request : ApprovalRequest) (expectedVersion : ℕ) :
    ApprovalStatement (Except String ℕ) := fun _ d =>
  match d.approval_request (request.tenantId, request.id) with
  | none => .ok ⟨.ok 0, id, none⟩
  | some row =>
    if row.row_version ≠ expectedVersion then .ok ⟨.ok 0, id, none⟩
    else
      match approvalRequestAppendOnly row (settle request row) with
      | .error message => .ok ⟨.error message, id, none⟩
      | .ok _ =>
        if approvalChecks (settle request row) = false then .error (.failure Identity.checkViolation)
        else .ok ⟨.ok 1, ApprovalDb.setRequest (settle request row), some row.key⟩

end Statements

end Sintius.Approval
