import Mathlib
import Sintius.Lib.Date
import Sintius.Lib.DateString
import Sintius.Lib.Double
import Sintius.Lib.Text
import Sintius.Lib.Utf16
import Sintius.Lib.Transaction
import Sintius.Spec.Problem
import Sintius.Spec.TenantContext
import Sintius.Spec.Canonical
import Sintius.Spec.Queue
import Sintius.Spec.EventEnvelope
import Sintius.Spec.AuditRecorder
import Sintius.Spec.Idempotency

/-! `modules/identity-tenant`: the tenant aggregate, the tables of the module with
the statements on them, and the platform's tenant commands. -/

namespace Sintius.Identity

open Js Js.Date Sintius.Canonical Sintius.Tenancy Sintius.Outbox Sintius.Audit
  Sintius.Idempotency Sql

abbrev TenantState := TenantOperationalState

inductive TenantEventType where
  | provisioned
  | activated
  | suspended
  | closed
deriving DecidableEq, Repr

def TenantEventType.text : TenantEventType → String
  | .provisioned => "tenant.provisioned.v1"
  | .activated => "tenant.activated.v1"
  | .suspended => "tenant.suspended.v1"
  | .closed => "tenant.closed.v1"

def stateText : TenantState → String
  | .PROVISIONING => "PROVISIONING"
  | .ACTIVE => "ACTIVE"
  | .SUSPENDED => "SUSPENDED"
  | .CLOSED => "CLOSED"

structure TenantSnapshot where
  id : TenantId
  displayName : String
  state : TenantState
  version : ℕ
  createdAt : Instant
  updatedAt : Instant
deriving DecidableEq

structure TenantDomainEvent where
  type : TenantEventType
  tenantId : TenantId
  aggregateVersion : ℕ
  occurredAt : Instant
deriving DecidableEq

structure TenantChange where
  tenant : TenantSnapshot
  event : TenantDomainEvent
deriving DecidableEq

def transitions : TenantState → List TenantState
  | .PROVISIONING => [.ACTIVE]
  | .ACTIVE => [.SUSPENDED, .CLOSED]
  | .SUSPENDED => [.ACTIVE, .CLOSED]
  | .CLOSED => []

/-- `Exclude<TenantState, "PROVISIONING">` -/
inductive LifecycleTarget where
  | ACTIVE
  | SUSPENDED
  | CLOSED
deriving DecidableEq, Repr

def LifecycleTarget.state : LifecycleTarget → TenantState
  | .ACTIVE => .ACTIVE
  | .SUSPENDED => .SUSPENDED
  | .CLOSED => .CLOSED

def transitionEvents : LifecycleTarget → TenantEventType
  | .ACTIVE => .activated
  | .SUSPENDED => .suspended
  | .CLOSED => .closed

def isoInstant (value : Option Instant) : Except Failure Instant :=
  match value with
  | none => fail .invalid_timestamp "Tenant lifecycle commands require a valid instant."
  | some t => .ok t

def provisionTenant (id : TenantId) (displayName : String) (now : Option Instant) :
    Except Failure TenantChange := do
  let normalizedName := trim displayName
  throwIf (normalizedName = "") .tenant_display_name_required
    "Tenant display name must not be blank."
  let occurredAt ← isoInstant now
  .ok
    { tenant :=
        { id := id
          displayName := normalizedName
          state := .PROVISIONING
          version := 1
          createdAt := occurredAt
          updatedAt := occurredAt }
      event := ⟨.provisioned, id, 1, occurredAt⟩ }

def transitionTenant (current : TenantSnapshot) (target : LifecycleTarget)
    (expectedVersion : Number) (now : Option Instant) : Except Failure TenantChange := do
  throwIf (expectedVersion.integer? ≠ some (current.version : ℤ)) .tenant_version_conflict
    "The tenant changed after this command was prepared."
  throwIf (target.state ∉ transitions current.state) .invalid_tenant_transition
    ("Tenant cannot transition from " ++ stateText current.state ++ " to " ++
      stateText target.state ++ ".")
  let occurredAt ← isoInstant now
  let nextVersion := current.version + 1
  .ok
    { tenant := { current with state := target.state, version := nextVersion, updatedAt := occurredAt }
      event := ⟨transitionEvents target, current.id, nextVersion, occurredAt⟩ }

/-- The data of the module's events. -/
inductive IdentityEventData where
  | provisioned (display_name : String) (new_state : TenantState)
  | transitioned (previous_state new_state : TenantState)
  | role (subject_actor_id role_code : String)
deriving DecidableEq, Repr

inductive RoleStatus where
  | draft
  | active
  | retired
deriving DecidableEq, Repr

structure TenantRole where
  permissions : List String
  status : RoleStatus
deriving DecidableEq, Repr

inductive AssignmentStatus where
  | active
  | revoked
deriving DecidableEq, Repr

/-- A row of `tenant_role_assignment`; its timestamps are read by nobody. -/
structure RoleAssignment where
  tenant_id : TenantId
  actor_id : ActorId
  role_code : String
  status : AssignmentStatus
deriving DecidableEq, Repr

structure ApproverRequirement where
  permission : String
  count : ℕ
deriving DecidableEq, Repr

structure ApprovalPolicyRow where
  requiredApprovals : ℕ
  separationOfDuties : Bool
  expiresAfterSeconds : ℕ
  approverRequirements : List ApproverRequirement
deriving DecidableEq, Repr

structure DefaultApprovalPolicy extends ApprovalPolicyRow where
  actionType : String
deriving DecidableEq, Repr

def DEFAULT_APPROVAL_POLICIES : List DefaultApprovalPolicy := [
  { actionType := "pricing:rate_card:activate"
    requiredApprovals := 2
    separationOfDuties := true
    expiresAfterSeconds := 7 * 24 * 60 * 60
    approverRequirements := [⟨"pricing:rate_card:activate", 1⟩, ⟨"billing:invoice:finalize", 1⟩] }]

/-- The tables of the module. Tables with a primary key that statements look up are maps. -/
structure IdentityDb where
  tenant : TenantId → Option TenantSnapshot
  tenant_role : TenantId × String → Option TenantRole
  tenant_role_assignment : List RoleAssignment
  approval_policy : TenantId × String → Option ApprovalPolicyRow
  audit_event : List AuditEvent
  outbox_event : Table IdentityEventData

/-- The row locks of the module's statements. -/
inductive RowLock where
  | tenant (id : TenantId)
  | role (tenant : TenantId) (code : String)
deriving DecidableEq, Repr

abbrev IdentityStatement (B : Type) := Statement Failure IdentityDb RowLock B

abbrev IdentityTx (A : Type) := Tx Failure IdentityDb RowLock A

def uniqueViolation : Failure := .error "duplicate key value violates unique constraint"

def checkViolation : Failure := .error "new row violates check constraint"

/-- The CHECK constraints of `tenant`. -/
def tenantChecks (tenant : TenantSnapshot) : Bool :=
  btrimNonEmpty tenant.id && btrimNonEmpty tenant.displayName && 1 ≤ tenant.version &&
    tenant.createdAt.1 ≤ tenant.updatedAt.1

def assertTenantMatch (actual expected : TenantId) : Except Failure Unit :=
  throwIf (actual ≠ expected) .tenant_context_mismatch
    "The database transaction is not bound to the required tenant."

def IdentityDb.setTenant (row : TenantSnapshot) (d : IdentityDb) : IdentityDb :=
  { d with tenant := Function.update d.tenant row.id (some row) }

/-- `timestamptz` takes the texts of the years 1 to 9999. -/
def isTimestamp (t : Instant) : Bool := 1 ≤ yearOf t && yearOf t ≤ 9999

def invalidTimestamp : Failure :=
  .error "invalid input syntax for type timestamp with time zone"

def insertTenantRow (tenant : TenantSnapshot) : IdentityStatement Unit := fun _ d =>
  if isTimestamp tenant.createdAt = false ∨ isTimestamp tenant.updatedAt = false then
    .error invalidTimestamp
  else
    match d.tenant tenant.id with
    | some _ => fail .tenant_already_exists "The tenant already exists."
    | none =>
      if tenantChecks tenant then .ok ⟨(), IdentityDb.setTenant tenant, some (.tenant tenant.id)⟩
      else .error checkViolation

/-- `new Date(String(date)).toISOString()`, as the instant of that text. -/
def isoDate (date : Instant) : Except Failure Instant :=
  match ofString date with
  | none => .error (.error "RangeError: Invalid time value")
  | some t => .ok t

/-- What the application sees of a row. -/
def snapshot (row : TenantSnapshot) : Except Failure TenantSnapshot := do
  let createdAt ← isoDate row.createdAt
  let updatedAt ← isoDate row.updatedAt
  .ok { row with createdAt := createdAt, updatedAt := updatedAt }

def selectTenant (tenantId : TenantId) : IdentityStatement (Option TenantSnapshot) := fun _ d =>
  .ok ⟨d.tenant tenantId, id, none⟩

/-- `UPDATE tenant … WHERE row_version = $6`, with its row count. -/
def updateTenantRow (tenant : TenantSnapshot) (expectedVersion : ℕ) : IdentityStatement ℕ :=
  fun _ d =>
    if isTimestamp tenant.updatedAt = false then .error invalidTimestamp
    else
      match d.tenant tenant.id with
      | none => .ok ⟨0, id, none⟩
      | some row =>
        if row.version = expectedVersion then
          let updated := { tenant with createdAt := row.createdAt }
          if tenantChecks updated then
            .ok ⟨1, IdentityDb.setTenant updated, some (.tenant tenant.id)⟩
          else .error checkViolation
        else .ok ⟨0, id, none⟩

def IdentityDb.setRole (key : TenantId × String) (row : TenantRole) (d : IdentityDb) :
    IdentityDb :=
  { d with tenant_role := Function.update d.tenant_role key (some row) }

def insertRoleRow (tenantId : TenantId) (roleCode : String) (role : TenantRole) :
    IdentityStatement Unit := fun _ d =>
  match d.tenant_role (tenantId, roleCode) with
  | some _ => .error uniqueViolation
  | none =>
    .ok ⟨(), IdentityDb.setRole (tenantId, roleCode) role, some (.role tenantId roleCode)⟩

/-- The primary key of an assignment. -/
def RoleAssignment.hasKey (tenantId : TenantId) (actorId : ActorId) (roleCode : String)
    (row : RoleAssignment) : Bool :=
  row.tenant_id == tenantId && row.actor_id == actorId && row.role_code == roleCode

def IdentityDb.addAssignment (row : RoleAssignment) (d : IdentityDb) : IdentityDb :=
  { d with tenant_role_assignment := d.tenant_role_assignment ++ [row] }

def insertAssignmentRow (tenantId : TenantId) (actorId : ActorId) (roleCode : String) :
    IdentityStatement Unit := fun _ d =>
  if btrimNonEmpty actorId = false then .error checkViolation
  else if d.tenant_role_assignment.any (RoleAssignment.hasKey tenantId actorId roleCode) then
    .error uniqueViolation
  else .ok ⟨(), IdentityDb.addAssignment ⟨tenantId, actorId, roleCode, .active⟩, none⟩

def IdentityDb.setPolicy (key : TenantId × String) (row : ApprovalPolicyRow) (d : IdentityDb) :
    IdentityDb :=
  { d with approval_policy := Function.update d.approval_policy key (some row) }

def insertPolicyRow (tenantId : TenantId) (policy : DefaultApprovalPolicy) :
    IdentityStatement Unit := fun _ d =>
  match d.approval_policy (tenantId, policy.actionType) with
  | some _ => .error uniqueViolation
  | none =>
    .ok ⟨(), IdentityDb.setPolicy (tenantId, policy.actionType) policy.toApprovalPolicyRow, none⟩

def IdentityDb.addAudit (event : AuditEvent) (d : IdentityDb) : IdentityDb :=
  { d with audit_event := d.audit_event ++ [event] }

/-- The CHECK constraints of `audit_event`. -/
def auditChecks (event : AuditEvent) : Bool :=
  event.auditEventId.any (· != 0x20) && event.action.any (· != 0x20) &&
    event.correlationId.any (· != 0x20) && event.evidenceHash.length == 64

/-- `appendAuditEvent` -/
def insertAuditRow (event : AuditEvent) : IdentityStatement Unit := fun _ d =>
  if auditChecks event = false then .error checkViolation
  else if d.audit_event.any fun row =>
      row.tenantId == event.tenantId && row.auditEventId == event.auditEventId then
    .error uniqueViolation
  else .ok ⟨(), IdentityDb.addAudit event, none⟩

def IdentityDb.addEvent (entry : OutboxEntry IdentityEventData) (d : IdentityDb) : IdentityDb :=
  { d with outbox_event := d.outbox_event ++ [entry] }

/-- `appendOutboxEvent`; the entry's number is the next of the sequence. -/
def insertOutboxRow (envelope : EventEnvelope IdentityEventData) : IdentityStatement Unit :=
  fun n d =>
    match appendOutboxEvent n envelope d.outbox_event with
    | none => .error uniqueViolation
    | some _ =>
      .ok ⟨(), IdentityDb.addEvent (newEntry n none envelope envelope.recorded_at), none⟩

section UnitOfWork

variable (boundTenantId : TenantId)

def insertTenant (tenant : TenantSnapshot) : IdentityTx Unit := do
  Tx.lift (assertTenantMatch tenant.id boundTenantId)
  Tx.query (insertTenantRow tenant) Tx.done

def findById (tenantId : TenantId) : IdentityTx (Option TenantSnapshot) := do
  Tx.lift (assertTenantMatch tenantId boundTenantId)
  let row ← Tx.query (selectTenant tenantId) Tx.done
  match row with
  | none => return none
  | some row => do
    let current ← Tx.lift (snapshot row)
    return some current

def updateTenant (tenant : TenantSnapshot) (expectedVersion : ℕ) : IdentityTx Unit := do
  Tx.lift (assertTenantMatch tenant.id boundTenantId)
  let rowCount ← Tx.query (updateTenantRow tenant expectedVersion) Tx.done
  Tx.lift (throwIf (rowCount ≠ 1) .tenant_version_conflict "The tenant changed concurrently.")

def insertDefaultAdministratorRole (tenantId : TenantId) (roleCode : String) :
    IdentityTx Unit := do
  Tx.lift (assertTenantMatch tenantId boundTenantId)
  Tx.query (insertRoleRow tenantId roleCode
    ⟨["tenant:role:manage", "tenant:role:assign"], .active⟩) Tx.done

def insertInitialAdministrator (tenantId : TenantId) (actorId : ActorId) (roleCode : String) :
    IdentityTx Unit := do
  Tx.lift (assertTenantMatch tenantId boundTenantId)
  Tx.query (insertAssignmentRow tenantId actorId roleCode) Tx.done

def insertApprovalPolicies (tenantId : TenantId) : List DefaultApprovalPolicy → IdentityTx Unit
  | [] => return ()
  | policy :: policies => do
    Tx.lift (assertTenantMatch tenantId boundTenantId)
    Tx.query (insertPolicyRow tenantId policy) Tx.done
    insertApprovalPolicies tenantId policies

def appendAudit (event : AuditEvent) : IdentityTx Unit := do
  Tx.lift (throwIf (event.tenantId ≠ units boundTenantId) .tenant_context_mismatch
    "The database transaction is not bound to the required tenant.")
  Tx.query (insertAuditRow event) Tx.done

def appendOutbox (envelope : EventEnvelope IdentityEventData) : IdentityTx Unit := do
  Tx.lift (assertTenantMatch envelope.tenant_id boundTenantId)
  Tx.query (insertOutboxRow envelope) Tx.done

end UnitOfWork

structure ProvisionTenantInput where
  tenantId : String
  displayName : String
  initialAdministratorActorId : String
deriving DecidableEq, Repr

structure TenantLifecycleInput where
  tenantId : String
  expectedVersion : Number
  reason : Option String
deriving DecidableEq

/-- What a command is given from outside: the authorizer's answer, what the clocks of the command,
of the executor and of the recorder show, and fresh identifiers. -/
structure CommandEnvironment where
  authorized : Except Failure Unit
  now : Option Instant
  executorNow : Option Instant
  recordedAt : Option Instant
  newEventId : String
  newAuditId : String

structure CommandDependencies where
  executor : ExecutorDependencies
  recorder : AuditRecorder

def isDigitUnit (c : CodeUnit) : Bool := 0x30 ≤ c.val && c.val ≤ 0x39

/-- `type.replace(/\.v[0-9]+$/, "")` -/
def withoutVersion (type : Text) : Text :=
  match type.reverse.span isDigitUnit with
  | (_ :: _, 0x76 :: 0x2e :: rest) => rest.reverse
  | _ => type

def auditActionFor (change : TenantChange) : Text := withoutVersion (ascii change.event.type.text)

def eventInputFor (change : TenantChange) (data : IdentityEventData) :
    BuildEventInput IdentityEventData where
  eventType := change.event.type.text
  aggregateType := "Tenant"
  aggregateId := change.tenant.id
  aggregateVersion := change.event.aggregateVersion
  occurredAt := some change.event.occurredAt
  data := data

/-- A version as a number of the language; they stay below `2 ^ 53`. -/
def versionNumber (version : ℕ) : Number :=
  if h : version < 2 ^ 53 then .ofNat version h else .nan

def storedTenant (tenant : TenantSnapshot) (status : Number) : WorkResponse Empty where
  status := status
  heap := Empty.elim
  body := literal [
    (ascii "id", .string (units tenant.id)),
    (ascii "display_name", .string (units tenant.displayName)),
    (ascii "state", .string (ascii (stateText tenant.state))),
    (ascii "version", .number (versionNumber tenant.version)),
    (ascii "created_at", .string (units (toISOString tenant.createdAt))),
    (ascii "updated_at", .string (units (toISOString tenant.updatedAt)))]

def ADMINISTRATOR_ROLE : String := "tenant_administrator"

/-- `audit.recordForPlatformCommand` -/
def recordForPlatformCommand (dependencies : CommandDependencies)
    (context : PlatformCommandContext) (tenantId : TenantId) (env : CommandEnvironment)
    (input : AuditRecordInput) : IdentityTx Unit := do
  let scope ← Tx.lift (eventScopeForPlatformCommand context tenantId)
  let event ← Tx.lift (recordForScope dependencies.recorder scope input env.newAuditId
    env.recordedAt)
  appendAudit tenantId event

/-- The work of `provisionTenant`. -/
def provisionWork (dependencies : CommandDependencies) (context : PlatformCommandContext)
    (env : CommandEnvironment) (administrator : ActorId) (change : TenantChange)
    (envelope : EventEnvelope IdentityEventData) : IdentityTx (WorkResponse Empty) := do
  let tenantId := change.tenant.id
  insertTenant tenantId change.tenant
  insertDefaultAdministratorRole tenantId tenantId ADMINISTRATOR_ROLE
  insertInitialAdministrator tenantId tenantId administrator ADMINISTRATOR_ROLE
  insertApprovalPolicies tenantId tenantId DEFAULT_APPROVAL_POLICIES
  recordForPlatformCommand dependencies context tenantId env
    { action := auditActionFor change
      targetType := "Tenant"
      targetId := tenantId
      reason := none
      approvalId := none
      before := none
      after := some [(ascii "state", .string (ascii (stateText change.tenant.state))),
        (ascii "version", .number (versionNumber change.tenant.version)),
        (ascii "display_name", .string (units change.tenant.displayName))]
      occurredAt := some change.event.occurredAt }
  appendOutbox tenantId envelope
  return storedTenant change.tenant (.ofNat 201 created_safe)

/-- The executor's call of a platform command. -/
def platformCall (context : PlatformCommandContext) (tenantId : TenantId)
    (env : CommandEnvironment) (scope : String) (idempotencyKey : Option Text)
    (payload : Value Empty) (work : IdentityTx (WorkResponse Empty)) :
    Call IdentityDb RowLock Empty where
  context := ⟨tenantId, context.correlationId⟩
  heap := Empty.elim
  request := ⟨ascii scope, idempotencyKey, payload⟩
  authorize := do
    assertIssuedPlatformContext context
    env.authorized
  now := env.executorNow
  work := work

/-- `executeIdempotently` of a platform command. -/
def executeIdempotently (dependencies : CommandDependencies) (context : PlatformCommandContext)
    (call : Call IdentityDb RowLock Empty) : StoreTx IdentityDb RowLock IdempotentResult := do
  Tx.lift (assertIssuedPlatformContext context)
  executeUntraced dependencies.executor call

structure PreparedProvision where
  administrator : ActorId
  change : TenantChange
  envelope : EventEnvelope IdentityEventData

/-- `provision` up to the executor. -/
def prepareProvision (context : PlatformCommandContext) (input : ProvisionTenantInput)
    (env : CommandEnvironment) : Except Failure PreparedProvision := do
  let id ← tenantId input.tenantId
  let administrator ← actorId input.initialAdministratorActorId
  let change ← provisionTenant id input.displayName env.now
  let scope ← eventScopeForPlatformCommand context id
  let envelope ← buildEventEnvelopeFor scope
    (eventInputFor change (.provisioned change.tenant.displayName change.tenant.state))
    env.newEventId env.now
  .ok ⟨administrator, change, envelope⟩

def provision (dependencies : CommandDependencies) (context : PlatformCommandContext)
    (input : ProvisionTenantInput) (idempotencyKey : Option Text) (env : CommandEnvironment) :
    StoreTx IdentityDb RowLock IdempotentResult := do
  let prepared ← Tx.lift (prepareProvision context input env)
  executeIdempotently dependencies context
    (platformCall context prepared.change.tenant.id env "tenant.provision" idempotencyKey
      (literal [(ascii "display_name", .string (units prepared.change.tenant.displayName)),
        (ascii "initial_administrator_actor_id", .string (units prepared.administrator))])
      (provisionWork dependencies context env prepared.administrator prepared.change
        prepared.envelope))

inductive LifecycleCommand where
  | activateTenant
  | suspendTenant
  | reactivateTenant
  | closeTenant
deriving DecidableEq, Repr

def LifecycleCommand.target : LifecycleCommand → LifecycleTarget
  | .activateTenant => .ACTIVE
  | .suspendTenant => .SUSPENDED
  | .reactivateTenant => .ACTIVE
  | .closeTenant => .CLOSED

def LifecycleCommand.scope : LifecycleCommand → String
  | .activateTenant => "tenant.activate"
  | .suspendTenant => "tenant.suspend"
  | .reactivateTenant => "tenant.reactivate"
  | .closeTenant => "tenant.close"

def REASON_REQUIRED : LifecycleTarget → Bool
  | .ACTIVE => false
  | .SUSPENDED => true
  | .CLOSED => true

/-- The work of the other commands. -/
def transitionWork (dependencies : CommandDependencies) (context : PlatformCommandContext)
    (env : CommandEnvironment) (tenantId : TenantId) (target : LifecycleTarget)
    (expectedVersion : Number) (reason : Option String) : IdentityTx (WorkResponse Empty) := do
  let found ← findById tenantId tenantId
  match found with
  | none => Tx.lift (refuse .tenant_not_found "The tenant does not exist." context.correlationId)
  | some current => do
    let change ← Tx.lift (transitionTenant current target expectedVersion env.now)
    updateTenant tenantId change.tenant current.version
    recordForPlatformCommand dependencies context tenantId env
      { action := auditActionFor change
        targetType := "Tenant"
        targetId := tenantId
        reason := reason
        approvalId := none
        before := some [(ascii "state", .string (ascii (stateText current.state))),
          (ascii "version", .number (versionNumber current.version))]
        after := some [(ascii "state", .string (ascii (stateText change.tenant.state))),
          (ascii "version", .number (versionNumber change.tenant.version))]
        occurredAt := some change.event.occurredAt }
    let envelope ← Tx.lift (do
      let scope ← eventScopeForPlatformCommand context tenantId
      buildEventEnvelopeFor scope
        (eventInputFor change (.transitioned current.state change.tenant.state))
        env.newEventId env.now)
    appendOutbox tenantId envelope
    return storedTenant change.tenant (.ofNat 200 (by norm_num))

/-- The reason a command records: trimmed, and none if it is blank. -/
def recordedReason (input : TenantLifecycleInput) : Option String :=
  (input.reason.map trim).filter (· ≠ "")

def checkReason (context : PlatformCommandContext) (target : LifecycleTarget)
    (reason : Option String) : Except Failure Unit :=
  refuseIf (REASON_REQUIRED target = true ∧ reason = none) .tenant_reason_required
    "A reason is required to suspend or close a tenant." context.correlationId

def transition (dependencies : CommandDependencies) (command : LifecycleCommand)
    (context : PlatformCommandContext) (input : TenantLifecycleInput)
    (idempotencyKey : Option Text) (env : CommandEnvironment) :
    StoreTx IdentityDb RowLock IdempotentResult := do
  let reason := recordedReason input
  Tx.lift (checkReason context command.target reason)
  let id ← Tx.lift (tenantId input.tenantId)
  executeIdempotently dependencies context
    (platformCall context id env command.scope idempotencyKey
      (literal [(ascii "expected_version", .number input.expectedVersion),
        (ascii "reason", optionalText (reason.map units))])
      (transitionWork dependencies context env id command.target input.expectedVersion reason))

end Sintius.Identity
