import Mathlib
import Sintius.Lib.Double
import Sintius.Lib.JsonValue
import Sintius.Spec.Problem
import Sintius.Spec.Tenant

/-! `modules/identity-tenant/domain/authorization.ts` and
`infrastructure/postgres/grant-store.ts`: roles with the limits that are stored on them,
and what a role grants. -/

namespace Sintius.Identity

open Js

def PERMISSION_CATALOG : List String := [
  "tenant:role:manage",
  "tenant:role:assign",
  "approval:request:propose",
  "approval:request:decide",
  "billing:invoice:preview",
  "billing:invoice:finalize",
  "pricing:rate_card:activate",
  "payments:payment:refund",
  "subscription:change:backdate",
  "collections:case:approve_exception",
  "portal:subscription:change",
  "audit:read",
  "outbox:dead_letter:resolve",
  "foundation:proof:execute"]

inductive ConstraintValue where
  | string (s : String)
  | number (n : Number)
deriving DecidableEq

/-- The value of a limit: one, or for `in` a list. -/
inductive LimitValue where
  | one (value : ConstraintValue)
  | many (values : List ConstraintValue)

/-- A limit as it was loaded; permission and operator are any strings. -/
structure PermissionConstraint where
  permission : String
  attribute_ : String
  operator : String
  value : LimitValue

structure RoleSnapshot where
  roleCode : String
  permissions : List String
  status : RoleStatus
  limits : List PermissionConstraint

/-- The own properties of the resource attributes. -/
abbrev ResourceAttributes := String → Option ConstraintValue

/-- `actual === expected` -/
def ConstraintValue.strictEquals : ConstraintValue → ConstraintValue → Bool
  | .string a, .string b => a == b
  | .number a, .number b => a.le b && b.le a
  | _, _ => false

/-- The equality of `includes`, for which NaN is NaN. -/
def ConstraintValue.sameValueZero (a b : ConstraintValue) : Bool :=
  a == .number .nan && b == .number .nan || a.strictEquals b

/-- Two finite numbers, where both are such. -/
def finitePair : ConstraintValue → LimitValue → Option (ℚ × ℚ)
  | .number (.finite a), .one (.number (.finite b)) => some (a.value, b.value)
  | _, _ => none

/-- One constraint, against the attribute it names. -/
def PermissionConstraint.satisfiedBy (constraint : PermissionConstraint)
    (actual : ConstraintValue) : Bool :=
  match constraint.operator, constraint.value with
  | "eq", .one expected => actual.strictEquals expected
  | "in", .many expected => expected.any fun value => value.sameValueZero actual
  | "lt", expected => (finitePair actual expected).any fun pair => pair.1 < pair.2
  | "lte", expected => (finitePair actual expected).any fun pair => pair.1 ≤ pair.2
  | "gt", expected => (finitePair actual expected).any fun pair => pair.2 < pair.1
  | "gte", expected => (finitePair actual expected).any fun pair => pair.2 ≤ pair.1
  | _, _ => false

def constraintsSatisfied (constraints : List PermissionConstraint)
    (attributes : ResourceAttributes) : Bool :=
  constraints.all fun constraint =>
    (attributes constraint.attribute_).any constraint.satisfiedBy

/-- `grantedByRoles` -/
def grantedByRoles (roles : List RoleSnapshot) (permission : String)
    (attributes : ResourceAttributes) : Bool :=
  roles.any fun role =>
    role.status == .active && role.permissions.contains permission &&
      constraintsSatisfied (role.limits.filter fun limit => limit.permission == permission)
        attributes

/-! ### Stored roles -/

/-- The columns of a role; the limits are a JSON array. -/
structure GrantRow where
  role_code : String
  permissions : JsonValue
  status : RoleStatus
  permission_limits : List JsonValue

/-- `typeof candidate === "string" || typeof candidate === "number"` -/
def scalar : JsonValue → Option ConstraintValue
  | .string s => some (.string s)
  | .number n => some (.number n)
  | _ => none

def stringProperty (item : JsonValue) (name fallback : String) : String :=
  match item.property name with
  | some (.string s) => s
  | _ => fallback

/-- `String(item.permission)`; some objects have no string. -/
def permissionText (item : JsonValue) : Option String :=
  match item.property "permission" with
  | none => some "undefined"
  | some value => value.toText

def limitValue (item : JsonValue) : LimitValue :=
  match item.property "value" with
  | some (.array items) => .many (items.filterMap scalar)
  | some value => .one ((scalar value).getD (.string ""))
  | none => .one (.string "")

def limitFrom (item : JsonValue) : Except Failure PermissionConstraint :=
  match permissionText item with
  | none => .error (.error "TypeError: Cannot convert object to primitive value")
  | some permission =>
    .ok
      { permission := permission
        attribute_ := stringProperty item "attribute" ""
        operator := stringProperty item "operator" "invalid"
        value := limitValue item }

def stringItem : JsonValue → Option String
  | .string s => some s
  | _ => none

/-- A row of `loadAssignedRoles`. -/
def roleFrom (row : GrantRow) : Except Failure RoleSnapshot := do
  let limits ← row.permission_limits.mapM limitFrom
  .ok
    { roleCode := row.role_code
      permissions := match row.permissions with
        | .array items => items.filterMap stringItem
        | _ => []
      status := row.status
      limits := limits }

end Sintius.Identity
