import Mathlib
import Sintius.Lib.Date
import Sintius.Lib.Table
import Sintius.Lib.Utf16
import Sintius.Lib.Transaction
import Sintius.Spec.Problem
import Sintius.Spec.TenantContext
import Sintius.Spec.Canonical
import Sintius.Spec.Queue
import Sintius.Spec.EventEnvelope
import Sintius.Spec.AuditRecorder
import Sintius.Spec.Idempotency
import Sintius.Spec.Tenant

/-! Role administration of `modules/identity-tenant`, and all commands of the
module as the transactions of one database. -/

namespace Sintius.Identity

open Js Js.Date Sintius.Canonical Sintius.Tenancy Sintius.Outbox Sintius.Audit
  Sintius.Idempotency Sql

/-- `SELECT … FOR UPDATE` of a role; the row it finds is locked. -/
def selectRoleForUpdate (tenantId : TenantId) (roleCode : String) :
    IdentityStatement (Option TenantRole) := fun _ d =>
  match d.tenant_role (tenantId, roleCode) with
  | none => .ok ⟨none, id, none⟩
  | some role => .ok ⟨some role, id, some (.role tenantId roleCode)⟩

def setStatus (status : AssignmentStatus) (row : RoleAssignment) : RoleAssignment :=
  { row with status := status }

/-- The rows of an assignment that have this status. -/
def RoleAssignment.is (tenantId : TenantId) (actorId : ActorId) (roleCode : String)
    (status : AssignmentStatus) (row : RoleAssignment) : Bool :=
  row.hasKey tenantId actorId roleCode && row.status == status

def IdentityDb.updateAssignments (selects : RoleAssignment → Bool)
    (set : RoleAssignment → RoleAssignment) (d : IdentityDb) : IdentityDb :=
  { d with tenant_role_assignment := Sql.update selects set d.tenant_role_assignment }

/-- `INSERT … ON CONFLICT DO UPDATE … WHERE status = 'revoked'`, with its row count. -/
def upsertAssignment (tenantId : TenantId) (actorId : ActorId) (roleCode : String) :
    IdentityStatement ℕ := fun _ d =>
  if btrimNonEmpty actorId = false then .error checkViolation
  else if d.tenant_role_assignment.any (RoleAssignment.hasKey tenantId actorId roleCode) then
    let revoked := RoleAssignment.is tenantId actorId roleCode .revoked
    .ok ⟨Sql.rowCount revoked d.tenant_role_assignment,
      IdentityDb.updateAssignments revoked (setStatus .active), none⟩
  else .ok ⟨1, IdentityDb.addAssignment ⟨tenantId, actorId, roleCode, .active⟩, none⟩

/-- `UPDATE … SET status = 'revoked' … WHERE status = 'active'`, with its row count. -/
def revokeAssignment (tenantId : TenantId) (actorId : ActorId) (roleCode : String) :
    IdentityStatement ℕ := fun _ d =>
  let active := RoleAssignment.is tenantId actorId roleCode .active
  .ok ⟨Sql.rowCount active d.tenant_role_assignment,
    IdentityDb.updateAssignments active (setStatus .revoked), none⟩

/-- An active assignment of a role. -/
def RoleAssignment.holds (tenantId : TenantId) (roleCode : String) (row : RoleAssignment) : Bool :=
  row.tenant_id == tenantId && row.role_code == roleCode && row.status == .active

def selectActiveHolders (tenantId : TenantId) (roleCode : String) : IdentityStatement ℕ := fun _ d =>
  .ok ⟨d.tenant_role_assignment.countP (RoleAssignment.holds tenantId roleCode), id, none⟩

section UnitOfWork

variable (boundTenantId : TenantId)

def assertRoleTenant (actual expected : TenantId) : Except Failure Unit :=
  throwIf (actual ≠ expected) .tenant_context_mismatch
    "The role change is not for the bound tenant."

def findByCode (tenantId : TenantId) (roleCode : String) : IdentityTx (Option TenantRole) := do
  Tx.lift (assertRoleTenant tenantId boundTenantId)
  Tx.query (selectRoleForUpdate tenantId roleCode) Tx.done

def insertAssignment (tenantId : TenantId) (actorId : ActorId) (roleCode : String) :
    IdentityTx Unit := do
  Tx.lift (assertRoleTenant tenantId boundTenantId)
  let rowCount ← Tx.query (upsertAssignment tenantId actorId roleCode) Tx.done
  Tx.lift (throwIf (rowCount ≠ 1) .role_assignment_exists "The actor already holds this role.")

def removeAssignment (tenantId : TenantId) (actorId : ActorId) (roleCode : String) :
    IdentityTx Unit := do
  Tx.lift (assertRoleTenant tenantId boundTenantId)
  let rowCount ← Tx.query (revokeAssignment tenantId actorId roleCode) Tx.done
  Tx.lift (throwIf (rowCount ≠ 1) .role_assignment_not_found "The actor does not hold this role.")

def countActiveHolders (tenantId : TenantId) (roleCode : String) : IdentityTx ℕ := do
  Tx.lift (assertRoleTenant tenantId boundTenantId)
  Tx.query (selectActiveHolders tenantId roleCode) Tx.done

end UnitOfWork

structure RoleAssignmentInput where
  targetActorId : String
  roleCode : String
deriving DecidableEq, Repr

inductive RoleChange where
  | assigned
  | revoked
deriving DecidableEq, Repr

def RoleChange.text : RoleChange → String
  | .assigned => "assigned"
  | .revoked => "revoked"

/-- What a role command is given from outside; the permission check ran before. -/
structure RoleEnvironment where
  permitted : Except Failure Unit
  now : Option Instant
  recordedAt : Option Instant
  newEventId : String
  newAuditId : String

/-- The assignment itself, with the check that keeps the last administrator. -/
def changeAssignment (context : TenantContext) (target : ActorId) (roleCode : String) :
    RoleChange → IdentityTx Unit
  | .assigned => insertAssignment context.tenantId context.tenantId target roleCode
  | .revoked => do
    if roleCode = ADMINISTRATOR_ROLE then
      let holders ← countActiveHolders context.tenantId context.tenantId roleCode
      Tx.lift (refuseIf (holders ≤ 1) .last_administrator_protected
        "The tenant's last administrator cannot be removed. Assign another administrator first."
        context.correlationId)
    removeAssignment context.tenantId context.tenantId target roleCode

/-- The transaction of `assignRole` and `revokeRole`. -/
def changeRole (recorder : AuditRecorder) (context : TenantContext) (target : ActorId)
    (roleCode : String) (kind : RoleChange) (env : RoleEnvironment) : IdentityTx Unit := do
  let role ← findByCode context.tenantId context.tenantId roleCode
  Tx.lift (refuseIf (role.map TenantRole.status ≠ some .active) .role_not_found
    "The role does not exist." context.correlationId)
  changeAssignment context target roleCode kind
  let scope := eventScopeFromContext context
  let event ← Tx.lift (recordForScope recorder scope
    { action := ascii ("role." ++ kind.text)
      targetType := "RoleAssignment"
      targetId := target
      reason := none
      approvalId := none
      before := none
      after := some [(ascii "role_code", .string (units roleCode))]
      occurredAt := env.now } env.newAuditId env.recordedAt)
  appendAudit context.tenantId event
  let envelope ← Tx.lift (buildEventEnvelopeFor scope
    { eventType := "role." ++ kind.text ++ ".v1"
      aggregateType := "RoleAssignment"
      aggregateId := target ++ ":" ++ roleCode
      aggregateVersion := 1
      occurredAt := env.now
      data := .role target roleCode } env.newEventId env.now)
  appendOutbox context.tenantId envelope

/-- `change` of `createRoleAdministration`, up to the transaction. -/
def prepareRoleChange (context : TenantContext) (input : RoleAssignmentInput)
    (env : RoleEnvironment) : Except Failure ActorId := do
  env.permitted
  let target ← actorId input.targetActorId
  refuseIf (target = context.actorId) .separation_of_duties_violation
    "You cannot change your own role assignments." context.correlationId
  .ok target

/-- The commands that write the module's tables. -/
inductive Command where
  | provision (context : PlatformCommandContext) (input : ProvisionTenantInput)
      (idempotencyKey : Option Text) (env : CommandEnvironment)
  | lifecycle (command : LifecycleCommand) (context : PlatformCommandContext)
      (input : TenantLifecycleInput) (idempotencyKey : Option Text) (env : CommandEnvironment)
  | role (kind : RoleChange) (context : TenantContext) (input : RoleAssignmentInput)
      (env : RoleEnvironment)

/-- What a command returns from its transaction. -/
inductive Reply where
  | tenant (result : IdempotentResult)
  | role

def program (dependencies : CommandDependencies) : Command → StoreTx IdentityDb RowLock Reply
  | .provision context input idempotencyKey env => do
    let result ← provision dependencies context input idempotencyKey env
    return .tenant result
  | .lifecycle command context input idempotencyKey env => do
    let result ← transition dependencies command context input idempotencyKey env
    return .tenant result
  | .role kind context input env => do
    let target ← Tx.lift (prepareRoleChange context input env)
    (changeRole dependencies.recorder context target input.roleCode kind env).zoom
      Store.effects Store.mapEffects Sum.inr
    return .role

end Sintius.Identity
