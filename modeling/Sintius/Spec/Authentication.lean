import Mathlib
import Sintius.Lib.Double
import Sintius.Lib.DoubleArithmetic
import Sintius.Spec.TenantContext

/-! `modules/identity-tenant/application/authentication.ts` with the platform-access
catalogue and the platform authorizer. The policy store, the verifier, the revocation
store and the clock are the dependencies the source injects; a failing one throws.
Security facts and telemetry are recorded beside the outcome and never change it, so
they are left out. -/

namespace Sintius.Identity

open Js.Date Sintius.Tenancy

/-! ### Platform access catalogue -/

def PLATFORM_AUDIENCE : String := "sintius-platform"

def PLATFORM_PERMISSION_CATALOG : List String :=
  ["platform:tenant:provision", "platform:tenant:lifecycle"]

def PLATFORM_ROLES : List (String × List String) :=
  [("platform_tenant_provisioner", ["platform:tenant:provision"]),
    ("platform_tenant_lifecycle_operator", ["platform:tenant:lifecycle"])]

def isPlatformPermission (value : String) : Bool := PLATFORM_PERMISSION_CATALOG.contains value

/-- The union of the known roles' permissions, sorted. -/
def platformPermissionsFor (roles : List String) : List String :=
  let granted := roles.flatMap fun role => (PLATFORM_ROLES.lookup role).getD []
  granted.eraseDups.mergeSort fun a b => decide (a ≤ b)

/-- `createPlatformAuthorizer().assertAllowed` -/
def assertAllowed (context : PlatformCommandContext) (permission : String) :
    Except Failure Unit := do
  assertIssuedPlatformContext context
  let allowed := isPlatformPermission permission && context.principalKind = .interactive &&
    context.assurance = .mfa && context.audiences.contains PLATFORM_AUDIENCE &&
    context.scopes.contains permission
  refuseIf (allowed = false) .platform_access_denied "The platform action is not permitted."
    context.correlationId

/-! ### Authentication -/

inductive AuthenticationMechanism where
  | oidc
  | saml
  | workload_token
deriving DecidableEq, Repr

structure IdentityProviderPolicy where
  id : String
  mechanism : AuthenticationMechanism
  issuer : String
  allowedAudiences : List String
  clockSkewSeconds : Js.Number
  requireMfa : Bool
  allowedWorkloadScopes : List String
deriving DecidableEq

structure VerifiedCredentialClaims where
  mechanism : AuthenticationMechanism
  credentialId : String
  subject : String
  issuer : String
  audiences : List String
  tenantIds : List TenantId
  authenticationMethods : List String
  scopes : List String
  expiresAt : String
  notBefore : Option String
  platformRoles : Option (List String)
deriving DecidableEq, Repr

structure AuthenticationDependencies where
  findById : String → Except Failure (Option IdentityProviderPolicy)
  verify : String → IdentityProviderPolicy → Except Failure VerifiedCredentialClaims
  isRevoked : String → String → Except Failure Bool
  clock : Option Instant

structure InteractiveAuthenticationInput where
  providerId : String
  rawCredential : String
  requiredAudience : String
  correlationId : String
deriving DecidableEq, Repr

structure WorkloadAuthenticationInput extends InteractiveAuthenticationInput where
  requiredScopes : List String
deriving DecidableEq, Repr

structure PlatformAuthenticationInput where
  providerId : String
  rawCredential : String
  correlationId : String
deriving DecidableEq, Repr

inductive AuthenticationFailureReason where
  | malformed_request
  | unknown_provider
  | credential_invalid
  | claims_invalid
  | revoked
  | mfa_required
  | no_tenant_membership
  | tenant_claims_on_platform_token
  | scope_denied
deriving DecidableEq, Repr

inductive RejectionCode where
  | authentication_failed
  | authentication_assurance_insufficient
  | workload_scope_denied
deriving DecidableEq, Repr

def RejectionCode.problemCode : RejectionCode → ProblemCode
  | .authentication_failed => .authentication_failed
  | .authentication_assurance_insufficient => .authentication_assurance_insufficient
  | .workload_scope_denied => .workload_scope_denied

def DETAIL : RejectionCode → String
  | .authentication_failed => "The supplied credential could not be authenticated."
  | .authentication_assurance_insufficient =>
    "The credential does not meet the required authentication assurance."
  | .workload_scope_denied =>
    "The workload credential is not valid for the required audience and operations."

/-- What an attempt throws inside: an expected refusal, or anything else. -/
inductive Thrown where
  | rejection (reason : AuthenticationFailureReason) (code : RejectionCode)
  | failure (f : Failure)
deriving DecidableEq, Repr

def reject {α : Type} (reason : AuthenticationFailureReason)
    (code : RejectionCode := .authentication_failed) : Except Thrown α :=
  .error (.rejection reason code)

def rejectIf (condition : Prop) [Decidable condition] (reason : AuthenticationFailureReason)
    (code : RejectionCode := .authentication_failed) : Except Thrown Unit :=
  if condition then reject reason code else .ok ()

/-- A dependency's or helper's own exception, thrown through. -/
def lift {α : Type} (x : Except Failure α) : Except Thrown α := x.mapError .failure

/-- Turns an expected refusal into the generic problem and rethrows anything else. -/
def attempt {α : Type} (correlationId : String) (work : Except Thrown α) : Except Failure α :=
  work.mapError fun
    | .rejection _ code =>
      .problem { code := code.problemCode, detail := DETAIL code, correlation_id := some correlationId }
    | .failure f => f

def hasOnlyNonBlank (values : List String) : Bool := values.all Js.nonBlank

/-- `policy.clockSkewSeconds * 1_000` -/
def skewMilliseconds (skewSeconds : Js.Double) : ℤ := Js.nearest (skewSeconds.ticks * 1000)

/-- `expiry <= now - skew` in milliseconds; comparisons with NaN are false. -/
def expiredWithSkew (expiry : ℤ) (now : Option Instant) (skewSeconds : Js.Number) : Bool :=
  match now, skewSeconds with
  | some t, .finite d =>
    decide (Js.ticksOf expiry ≤ Js.nearest (Js.ticksOf t.1 - skewMilliseconds d))
  | some _, .infinity negative => negative
  | _, _ => false

/-- `notBefore > now + skew`. -/
def earlyWithSkew (notBefore : ℤ) (now : Option Instant) (skewSeconds : Js.Number) : Bool :=
  match now, skewSeconds with
  | some t, .finite d =>
    decide (Js.nearest (Js.ticksOf t.1 + skewMilliseconds d) < Js.ticksOf notBefore)
  | some _, .infinity negative => negative
  | _, _ => false

section Language

variable (other : String → Option ℤ)

def baseClaimsInvalid (claims : VerifiedCredentialClaims) (policy : IdentityProviderPolicy)
    (requiredAudience : String) (now : Option Instant) : Bool :=
  claims.mechanism ≠ policy.mechanism || claims.issuer != policy.issuer ||
    !Js.nonBlank claims.credentialId || !Js.nonBlank claims.subject ||
    !Js.nonBlank requiredAudience || !hasOnlyNonBlank claims.audiences ||
    !policy.allowedAudiences.contains requiredAudience ||
    !claims.audiences.contains requiredAudience ||
    (match Js.Date.parse other claims.expiresAt with
      | none => true
      | some expiry => expiredWithSkew expiry now policy.clockSkewSeconds) ||
    (match claims.notBefore with
      | none => false
      | some text =>
        match Js.Date.parse other text with
        | none => true
        | some notBefore => earlyWithSkew notBefore now policy.clockSkewSeconds)

def validateBaseClaims (claims : VerifiedCredentialClaims) (policy : IdentityProviderPolicy)
    (requiredAudience : String) (now : Option Instant) : Except Thrown Unit :=
  rejectIf (baseClaimsInvalid other claims policy requiredAudience now) .claims_invalid

def normalizedTenants (claims : VerifiedCredentialClaims) : Except Thrown (List TenantId) := do
  rejectIf (claims.tenantIds.all Js.nonBlank = false) .claims_invalid
  let values := claims.tenantIds.eraseDups
  rejectIf (values = []) .no_tenant_membership
  .ok values

def verify (deps : AuthenticationDependencies) (input : InteractiveAuthenticationInput)
    (expectedMechanisms : List AuthenticationMechanism) :
    Except Thrown (IdentityProviderPolicy × VerifiedCredentialClaims) := do
  rejectIf (Js.nonBlank input.providerId = false ∨ Js.nonBlank input.rawCredential = false)
    .malformed_request
  match ← lift (deps.findById input.providerId) with
  | none => reject .unknown_provider
  | some policy =>
    rejectIf (policy.mechanism ∉ expectedMechanisms) .unknown_provider
    match deps.verify input.rawCredential policy with
    | .error _ => reject .credential_invalid
    | .ok claims =>
      validateBaseClaims other claims policy input.requiredAudience deps.clock
      let revoked ← lift (deps.isRevoked claims.issuer claims.credentialId)
      rejectIf revoked .revoked
      .ok (policy, claims)

def authenticateInteractive (deps : AuthenticationDependencies)
    (input : InteractiveAuthenticationInput) : Except Failure AuthenticatedPrincipal :=
  attempt input.correlationId do
    rejectIf (input.requiredAudience = PLATFORM_AUDIENCE) .claims_invalid
    let (policy, claims) ← verify other deps input [.oidc, .saml]
    rejectIf (policy.requireMfa = true ∧ "mfa" ∉ claims.authenticationMethods) .mfa_required
      .authentication_assurance_insufficient
    let memberships ← normalizedTenants claims
    let actor ← lift (actorId claims.subject)
    lift (issueAuthenticatedPrincipal other
      { actorId := actor
        kind := .interactive
        tenantMemberships := memberships
        assurance := if "mfa" ∈ claims.authenticationMethods then .mfa else .single_factor
        credentialId := claims.credentialId
        issuer := claims.issuer
        audiences := [input.requiredAudience]
        scopes := []
        expiresAt := claims.expiresAt })

/-- The workload scope rules: one tenant, and only scopes the policy allows and the claims hold. -/
def workloadScopesDenied (policy : IdentityProviderPolicy) (claims : VerifiedCredentialClaims)
    (memberships requiredScopes : List String) : Bool :=
  memberships.length ≠ 1 || requiredScopes.isEmpty || !hasOnlyNonBlank requiredScopes ||
    !hasOnlyNonBlank claims.scopes ||
    claims.scopes.any (fun scope => !policy.allowedWorkloadScopes.contains scope) ||
    requiredScopes.any fun scope =>
      !policy.allowedWorkloadScopes.contains scope || !claims.scopes.contains scope

def authenticateWorkload (deps : AuthenticationDependencies) (input : WorkloadAuthenticationInput) :
    Except Failure AuthenticatedPrincipal :=
  attempt input.correlationId do
    rejectIf (input.requiredAudience = PLATFORM_AUDIENCE) .claims_invalid
    let (policy, claims) ← verify other deps input.toInteractiveAuthenticationInput
      [.workload_token]
    let memberships ← normalizedTenants claims
    let requiredScopes := input.requiredScopes.eraseDups
    rejectIf (workloadScopesDenied policy claims memberships requiredScopes) .scope_denied
      .workload_scope_denied
    let actor ← lift (actorId claims.subject)
    lift (issueAuthenticatedPrincipal other
      { actorId := actor
        kind := .workload
        tenantMemberships := memberships
        assurance := .workload
        credentialId := claims.credentialId
        issuer := claims.issuer
        audiences := [input.requiredAudience]
        scopes := requiredScopes
        expiresAt := claims.expiresAt })

def authenticatePlatformOperator (deps : AuthenticationDependencies)
    (input : PlatformAuthenticationInput) : Except Failure AuthenticatedPrincipal :=
  attempt input.correlationId do
    let (_, claims) ← verify other deps
      { providerId := input.providerId
        rawCredential := input.rawCredential
        correlationId := input.correlationId
        requiredAudience := PLATFORM_AUDIENCE } [.oidc, .saml]
    rejectIf (claims.tenantIds ≠ []) .tenant_claims_on_platform_token
    rejectIf ("mfa" ∉ claims.authenticationMethods) .mfa_required
      .authentication_assurance_insufficient
    let roles := claims.platformRoles.getD []
    rejectIf (hasOnlyNonBlank roles = false) .claims_invalid
    let actor ← lift (actorId claims.subject)
    lift (issueAuthenticatedPrincipal other
      { actorId := actor
        kind := .interactive
        tenantMemberships := []
        assurance := .mfa
        credentialId := claims.credentialId
        issuer := claims.issuer
        audiences := [PLATFORM_AUDIENCE]
        scopes := platformPermissionsFor roles
        expiresAt := claims.expiresAt })

end Language

end Sintius.Identity
