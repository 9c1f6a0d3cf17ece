import Mathlib
import Sintius.Lib.Double
import Sintius.Lib.JsonValue
import Sintius.Lib.Programs
import Sintius.Lib.Transaction
import Sintius.Spec.Problem
import Sintius.Spec.TenantContext
import Sintius.Spec.Idempotency
import Sintius.Spec.Tenant
import Sintius.Spec.Roles
import Sintius.Spec.Authorization

/-! `createTenantAuthorizer` of `modules/identity-tenant`, with the live lookup of
`grant-store.ts`, and the commands of the module as the authorizer admits them. -/

namespace Sintius.Identity

open Js Sintius.Tenancy Sintius.Idempotency Sql

def assertKnownPermission (permission : String) : Except Failure Unit :=
  throwIf (permission ∉ PERMISSION_CATALOG) .unknown_permission
    "The requested permission is not in the platform catalog."

/-- The dependencies of `createTenantAuthorizer`. -/
structure TenantAuthorizer where
  loadAssignedRoles : TenantId → ActorId → Except Failure (List RoleSnapshot)
  constraintsFor : Option (TenantId → String → Except Failure (List PermissionConstraint))

def isGranted (dependencies : TenantAuthorizer) (context : TenantContext) (permission : String)
    (resourceAttributes : ResourceAttributes) : Except Failure Bool :=
  match context.principalKind with
  | .workload => .ok (context.scopes.contains permission)
  | .interactive => do
    let roles ← dependencies.loadAssignedRoles context.tenantId context.actorId
    .ok (grantedByRoles roles permission resourceAttributes)

/-- A constraint store that fails denies. -/
def narrowed (dependencies : TenantAuthorizer) (context : TenantContext) (permission : String)
    (resourceAttributes : ResourceAttributes) : Bool :=
  match dependencies.constraintsFor with
  | none => true
  | some constraintsFor =>
    match constraintsFor context.tenantId permission with
    | .ok constraints => constraintsSatisfied constraints resourceAttributes
    | .error _ => false

def hasPermission (dependencies : TenantAuthorizer) (context : TenantContext)
    (permission : String) (resourceAttributes : ResourceAttributes) : Except Failure Bool := do
  assertKnownPermission permission
  let granted ← isGranted dependencies context permission resourceAttributes
  .ok (granted && narrowed dependencies context permission resourceAttributes)

def assertPermission (dependencies : TenantAuthorizer) (context : TenantContext)
    (permission : String) (resourceAttributes : ResourceAttributes) : Except Failure Unit := do
  let allowed ← hasPermission dependencies context permission resourceAttributes
  refuseIf (allowed = false) .permission_denied
    "You do not have permission to perform this action." context.correlationId

/-- The column `permission_limits`, which no command writes; its default is no limit. -/
abbrev PermissionLimits := TenantId × String → List JsonValue

/-- A row that the join of `loadAssignedRoles` gives for an assignment. -/
def grantRow (limits : PermissionLimits) (d : IdentityDb) (assignment : RoleAssignment) :
    Option GrantRow :=
  (d.tenant_role (assignment.tenant_id, assignment.role_code)).map fun role =>
    { role_code := assignment.role_code
      permissions := .array (role.permissions.map .string)
      status := role.status
      permission_limits := limits (assignment.tenant_id, assignment.role_code) }

/-- `loadAssignedRoles`; the roles come in the order of their assignments. -/
def loadAssignedRoles (limits : PermissionLimits) (d : IdentityDb) (tenantId : TenantId)
    (actorId : ActorId) : Except Failure (List RoleSnapshot) :=
  ((d.tenant_role_assignment.filter fun assignment => assignment.tenant_id == tenantId &&
    assignment.actor_id == actorId && assignment.status == .active).filterMap
      (grantRow limits d)).mapM roleFrom

/-- The authorizer of the composed application, on what is committed. -/
def liveAuthorizer (limits : PermissionLimits) (d : IdentityDb) : TenantAuthorizer where
  loadAssignedRoles := loadAssignedRoles limits d
  constraintsFor := none

/-- A role command is told what the authorizer says when it begins. -/
def admits (limits : PermissionLimits) (w : World (Store IdentityDb) Command Reply) :
    Command → Prop
  | .role _ context _ env => env.permitted =
      assertPermission (liveAuthorizer limits w.db.effects) context "tenant:role:assign"
        fun _ => none
  | _ => True

end Sintius.Identity
