import Mathlib
import Sintius.Lib.Date
import Sintius.Lib.Except
import Sintius.Lib.Text
import Sintius.Spec.Problem

/-! `platform/tenant-context/src/context.ts` and `platform.ts`: issued principals and
the two contexts resolved from them. The modules keep the objects they issued in a
WeakSet; here an object carries whether it is in that set, so a literal has
`issued := false`. `Date.now()` is an argument. -/

namespace Sintius.Tenancy

open Js.Date

abbrev TenantId := String
abbrev ActorId := String

inductive TenantOperationalState where
  | PROVISIONING
  | ACTIVE
  | SUSPENDED
  | CLOSED
deriving DecidableEq, Repr

inductive PrincipalKind where
  | interactive
  | workload
deriving DecidableEq, Repr

inductive Assurance where
  | single_factor
  | mfa
  | workload
deriving DecidableEq, Repr

/-- Fields of `IssueAuthenticatedPrincipalInput` and of `AuthenticatedPrincipal`. -/
structure PrincipalFields where
  actorId : ActorId
  kind : PrincipalKind
  tenantMemberships : List TenantId
  assurance : Assurance
  credentialId : String
  issuer : String
  audiences : List String
  scopes : List String
  expiresAt : String
deriving DecidableEq, Repr

structure AuthenticatedPrincipal extends PrincipalFields where
  /-- membership in `issuedPrincipals` -/
  issued : Bool
deriving DecidableEq, Repr

structure TenantContext where
  tenantId : TenantId
  actorId : ActorId
  principalKind : PrincipalKind
  assurance : Assurance
  correlationId : String
  causationId : Option String
  credentialId : String
  audiences : List String
  scopes : List String
  /-- membership in `issuedContexts` -/
  issued : Bool
deriving DecidableEq, Repr

structure PlatformCommandContext where
  actorId : ActorId
  principalKind : PrincipalKind
  assurance : Assurance
  correlationId : String
  causationId : Option String
  credentialId : String
  audiences : List String
  scopes : List String
  /-- membership in `issuedPlatformContexts` -/
  issued : Bool
deriving DecidableEq, Repr

def requireNonBlank (value field : String) : Except Failure String := do
  throwIf (Js.nonBlank value = false) .invalid_trusted_context s!"{field} must not be blank."
  .ok value

theorem requireNonBlank_eq_ok {value field result : String}
    (h : requireNonBlank value field = .ok result) : result = value := by
  obtain ⟨_, -, h⟩ := Except.bind_eq_ok_iff.mp h
  cases h
  rfl

def tenantId (value : String) : Except Failure TenantId := requireNonBlank value "tenantId"

def actorId (value : String) : Except Failure ActorId := requireNonBlank value "actorId"

section Language

variable (other : String → Option ℤ)

/-- `Date.parse` where the caller requires a finite result. -/
def finiteInstant (text detail : String) (correlation_id : Option String) : Except Failure ℤ :=
  match Js.Date.parse other text with
  | some t => .ok t
  | none =>
    .error (.problem
      { code := .authentication_failed
        detail := detail
        correlation_id := correlation_id })

def metadataValid (input : PrincipalFields) : Bool :=
  (if input.kind = .workload then input.assurance = .workload else input.assurance ≠ .workload) &&
    Js.nonBlank input.actorId && Js.nonBlank input.credentialId && Js.nonBlank input.issuer &&
    Js.nonBlank input.expiresAt && input.tenantMemberships.all Js.nonBlank &&
    !input.audiences.isEmpty && input.audiences.all Js.nonBlank && input.scopes.all Js.nonBlank

def issueAuthenticatedPrincipal (input : PrincipalFields) :
    Except Failure AuthenticatedPrincipal := do
  throwIf (metadataValid input = false) .authentication_failed
    "Authenticated principal metadata is invalid."
  let expiry ← finiteInstant other input.expiresAt
    "Authenticated principal metadata is invalid." none
  let actor ← actorId input.actorId
  let memberships ← input.tenantMemberships.mapM tenantId
  match timeClip expiry with
  | none => .error (.error "RangeError: Invalid time value")
  | some t =>
    .ok
      { actorId := actor
        kind := input.kind
        tenantMemberships := memberships.eraseDups
        assurance := input.assurance
        credentialId := input.credentialId
        issuer := input.issuer
        audiences := input.audiences.eraseDups
        scopes := input.scopes.eraseDups
        expiresAt := toISOString t
        issued := true }

/-- A problem of the resolvers, which name the request they refuse. -/
def refuse {α : Type} (code : ProblemCode) (detail correlationId : String) : Except Failure α :=
  .error (.problem { code := code, detail := detail, correlation_id := some correlationId })

def refuseIf (condition : Prop) [Decidable condition] (code : ProblemCode)
    (detail correlationId : String) : Except Failure Unit :=
  if condition then refuse code detail correlationId else .ok ()

theorem refuseIf_eq_ok_iff {condition : Prop} [Decidable condition] {code : ProblemCode}
    {detail correlationId : String} {u : Unit} :
    refuseIf condition code detail correlationId = .ok u ↔ ¬ condition := by
  unfold refuseIf refuse
  split_ifs with h <;> simp [h]

def assertIssuedAuthenticatedPrincipal (principal : AuthenticatedPrincipal)
    (correlationId : String) : Except Failure Unit :=
  refuseIf (principal.issued = false) .authentication_failed
    "The authenticated principal is not trusted." correlationId

/-- The expiry check both resolvers make. -/
def assertUnexpired (principal : AuthenticatedPrincipal) (correlationId : String) (dateNow : ℤ) :
    Except Failure Unit := do
  let expiry ← finiteInstant other principal.expiresAt
    "The authenticated principal is no longer valid." (some correlationId)
  refuseIf (expiry ≤ dateNow) .authentication_failed
    "The authenticated principal is no longer valid." correlationId

structure ResolveTenantContextInput where
  principal : AuthenticatedPrincipal
  selectedTenantId : TenantId
  tenantState : TenantOperationalState
  correlationId : String
  causationId : Option String
  bodyTenantId : Option String

def assertPrincipalCurrent (principal : AuthenticatedPrincipal) (correlationId : String)
    (dateNow : ℤ) : Except Failure Unit := do
  assertIssuedAuthenticatedPrincipal principal correlationId
  assertUnexpired other principal correlationId dateNow

def resolveTenantContext (input : ResolveTenantContextInput) (dateNow : ℤ) :
    Except Failure TenantContext := do
  assertPrincipalCurrent other input.principal input.correlationId dateNow
  refuseIf input.bodyTenantId.isSome .untrusted_tenant_context
    "Tenant identity must not be supplied in a request body." input.correlationId
  refuseIf (input.selectedTenantId ∉ input.principal.tenantMemberships) .tenant_access_denied
    "The authenticated principal is not authorized for the selected tenant." input.correlationId
  refuseIf (input.tenantState ≠ .ACTIVE) .tenant_not_active
    "The selected tenant is not active." input.correlationId
  let correlationId ← requireNonBlank input.correlationId "correlationId"
  .ok
    { tenantId := input.selectedTenantId
      actorId := input.principal.actorId
      principalKind := input.principal.kind
      assurance := input.principal.assurance
      correlationId := correlationId
      causationId := input.causationId
      credentialId := input.principal.credentialId
      audiences := input.principal.audiences
      scopes := input.principal.scopes
      issued := true }

structure ResolvePlatformCommandContextInput where
  principal : AuthenticatedPrincipal
  correlationId : String
  causationId : Option String

def resolvePlatformCommandContext (input : ResolvePlatformCommandContextInput) (dateNow : ℤ) :
    Except Failure PlatformCommandContext := do
  assertIssuedAuthenticatedPrincipal input.principal input.correlationId
  throwIf (Js.nonBlank input.correlationId = false) .invalid_trusted_context
    "correlationId must not be blank."
  throwIf (∃ text ∈ input.causationId, Js.nonBlank text = false) .invalid_trusted_context
    "causationId must not be blank."
  assertUnexpired other input.principal input.correlationId dateNow
  let actor ← actorId input.principal.actorId
  .ok
    { actorId := actor
      principalKind := input.principal.kind
      assurance := input.principal.assurance
      correlationId := input.correlationId
      causationId := input.causationId
      credentialId := input.principal.credentialId
      audiences := input.principal.audiences
      scopes := input.principal.scopes
      issued := true }

end Language

def assertIssuedPlatformContext (context : PlatformCommandContext) : Except Failure Unit :=
  throwIf (context.issued = false) .tenant_context_mismatch
    "Only a platform command context issued by the trusted resolver may be used."

end Sintius.Tenancy
