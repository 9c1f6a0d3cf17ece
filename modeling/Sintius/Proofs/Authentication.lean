import Mathlib
import Sintius.Lib.Except
import Sintius.Spec.Authentication

/-! Platform and tenant authority never mix: what each entry point issues, and what
the two resolvers and the platform authorizer make of it, for every policy store,
verifier, revocation store and clock. -/

namespace Sintius.Identity

open Js.Date Sintius.Tenancy

variable {other : String → Option ℤ} {deps : AuthenticationDependencies}

theorem rejectIf_ok {c : Prop} [Decidable c] {reason : AuthenticationFailureReason}
    {code : RejectionCode} {u : Unit} : rejectIf c reason code = .ok u ↔ ¬ c := by
  unfold rejectIf reject
  split_ifs with h <;> simp [h]

theorem lift_ok {α : Type} {x : Except Failure α} {a : α} : lift x = .ok a ↔ x = .ok a := by
  cases x <;> simp [lift, Except.mapError]

theorem attempt_ok {α : Type} {c : String} {w : Except Thrown α} {a : α} :
    attempt c w = .ok a ↔ w = .ok a := by
  cases w <;> simp [attempt, Except.mapError]

theorem mapM_tenantId_ok {xs : List String} :
    ∀ {ys : List String}, xs.mapM tenantId = .ok ys → ys = xs := by
  induction xs with
  | nil => intro ys h; cases h; rfl
  | cons x xs ih =>
    intro ys h
    rw [List.mapM_cons] at h
    obtain ⟨y, hy, h⟩ := Except.bind_eq_ok_iff.mp h
    obtain ⟨rest, hrest, h⟩ := Except.bind_eq_ok_iff.mp h
    cases h
    rw [requireNonBlank_eq_ok hy, ih hrest]

/-- An issued principal carries its input with duplicates removed. -/
theorem issue_ok {input : PrincipalFields} {p : AuthenticatedPrincipal}
    (h : issueAuthenticatedPrincipal other input = .ok p) :
    p.kind = input.kind ∧ p.assurance = input.assurance ∧
      p.tenantMemberships = input.tenantMemberships.eraseDups ∧
      p.audiences = input.audiences.eraseDups ∧ p.scopes = input.scopes.eraseDups := by
  unfold issueAuthenticatedPrincipal at h
  simp only [Except.bind_eq_ok_iff] at h
  obtain ⟨_, -, expiry, -, actor, -, memberships, hm, h⟩ := h
  split at h
  · cases h
  · cases h
    exact ⟨rfl, rfl, by rw [mapM_tenantId_ok hm], rfl, rfl⟩

/-- What a successful verification established about the credential. -/
structure VerifiedAs (other : String → Option ℤ) (deps : AuthenticationDependencies)
    (input : InteractiveAuthenticationInput) (mechanisms : List AuthenticationMechanism)
    (policy : IdentityProviderPolicy) (claims : VerifiedCredentialClaims) : Prop where
  found : deps.findById input.providerId = .ok (some policy)
  mechanism : policy.mechanism ∈ mechanisms
  verified : deps.verify input.rawCredential policy = .ok claims
  base : baseClaimsInvalid other claims policy input.requiredAudience deps.clock = false
  current : deps.isRevoked claims.issuer claims.credentialId = .ok false

theorem verify_ok {input : InteractiveAuthenticationInput}
    {mechanisms : List AuthenticationMechanism} {policy : IdentityProviderPolicy}
    {claims : VerifiedCredentialClaims}
    (h : verify other deps input mechanisms = .ok (policy, claims)) :
    VerifiedAs other deps input mechanisms policy claims := by
  unfold verify at h
  simp only [Except.bind_eq_ok_iff] at h
  obtain ⟨_, -, found, hfound, h⟩ := h
  cases found with
  | none => cases h
  | some policy' =>
    simp only [Except.bind_eq_ok_iff, rejectIf_ok] at h
    obtain ⟨_, hmech, h⟩ := h
    cases hv : deps.verify input.rawCredential policy' with
    | error e => rw [hv] at h; cases h
    | ok claims' =>
      rw [hv] at h
      simp only [Except.bind_eq_ok_iff, rejectIf_ok, validateBaseClaims] at h
      obtain ⟨_, hbase, revoked, hrev, _, hnot, h⟩ := h
      cases h
      refine ⟨lift_ok.mp hfound, by simpa using hmech, hv, by simpa using hbase, ?_⟩
      rw [lift_ok.mp hrev]
      simpa using hnot

theorem VerifiedAs.audience {input : InteractiveAuthenticationInput}
    {mechanisms : List AuthenticationMechanism} {policy : IdentityProviderPolicy}
    {claims : VerifiedCredentialClaims}
    (h : VerifiedAs other deps input mechanisms policy claims) :
    input.requiredAudience ∈ claims.audiences := by
  have hb := h.base
  unfold baseClaimsInvalid at hb
  simp only [Bool.or_eq_false_iff] at hb
  simpa using hb.1.1.2

theorem normalizedTenants_ok {claims : VerifiedCredentialClaims} {ts : List TenantId}
    (h : normalizedTenants claims = .ok ts) : ts = claims.tenantIds.eraseDups := by
  unfold normalizedTenants at h
  simp only [Except.bind_eq_ok_iff] at h
  obtain ⟨_, -, _, -, h⟩ := h
  cases h
  rfl

/-- The three ways a principal is issued. -/
inductive EntryPoint where
  | interactive (input : InteractiveAuthenticationInput)
  | workload (input : WorkloadAuthenticationInput)
  | platform (input : PlatformAuthenticationInput)

def EntryPoint.authenticate (other : String → Option ℤ) (deps : AuthenticationDependencies) :
    EntryPoint → Except Failure AuthenticatedPrincipal
  | .interactive input => authenticateInteractive other deps input
  | .workload input => authenticateWorkload other deps input
  | .platform input => authenticatePlatformOperator other deps input

def EntryPoint.providerId : EntryPoint → String
  | .interactive input => input.providerId
  | .workload input => input.providerId
  | .platform input => input.providerId

def EntryPoint.rawCredential : EntryPoint → String
  | .interactive input => input.rawCredential
  | .workload input => input.rawCredential
  | .platform input => input.rawCredential

def EntryPoint.requiredAudience : EntryPoint → String
  | .interactive input => input.requiredAudience
  | .workload input => input.requiredAudience
  | .platform _ => PLATFORM_AUDIENCE

def EntryPoint.isPlatform : EntryPoint → Prop
  | .platform _ => True
  | _ => False

/-- The claims the verifier returned for the credential of this attempt. -/
def VerifiedFor (deps : AuthenticationDependencies) (e : EntryPoint)
    (policy : IdentityProviderPolicy) (claims : VerifiedCredentialClaims) : Prop :=
  deps.findById e.providerId = .ok (some policy) ∧
    deps.verify e.rawCredential policy = .ok claims

/-- `role` is a key of `PLATFORM_ROLES` that grants `q`. -/
def RoleGrants (role q : String) : Prop := ∃ permissions, (role, permissions) ∈ PLATFORM_ROLES ∧
  q ∈ permissions

/-- The one ground for platform authority. -/
def OperatorGrant (e : EntryPoint) (claims : VerifiedCredentialClaims) (q : String) : Prop :=
  e.isPlatform ∧ PLATFORM_AUDIENCE ∈ claims.audiences ∧ "mfa" ∈ claims.authenticationMethods ∧
    claims.tenantIds = [] ∧ ∃ role ∈ claims.platformRoles.getD [], RoleGrants role q

/-- Bounds on the scopes an entry point may put on a principal. -/
def ScopesBounded (e : EntryPoint) (policy : IdentityProviderPolicy)
    (claims : VerifiedCredentialClaims) (scopes : List String) : Prop :=
  match e with
  | .interactive _ => scopes ⊆ claims.scopes
  | .workload _ => scopes ⊆ claims.scopes ∧ scopes ⊆ policy.allowedWorkloadScopes
  | .platform _ => scopes ⊆ PLATFORM_PERMISSION_CATALOG

theorem mem_lookup_iff (role q : String) :
    q ∈ (PLATFORM_ROLES.lookup role).getD [] ↔ RoleGrants role q := by
  unfold RoleGrants PLATFORM_ROLES
  simp only [List.lookup_cons, List.lookup_nil]
  by_cases h1 : role = "platform_tenant_provisioner"
  · subst h1; simp
  · by_cases h2 : role = "platform_tenant_lifecycle_operator"
    · subst h2; simp
    · simp [h1, h2, beq_eq_false_iff_ne.mpr]

theorem mem_platformPermissionsFor (roles : List String) (q : String) :
    q ∈ platformPermissionsFor roles ↔ ∃ role ∈ roles, RoleGrants role q := by
  unfold platformPermissionsFor
  simp only [List.mem_mergeSort, List.mem_eraseDups, List.mem_flatMap, mem_lookup_iff]

theorem roleGrants_catalog {role q : String} (h : RoleGrants role q) :
    q ∈ PLATFORM_PERMISSION_CATALOG := by
  obtain ⟨permissions, hmem, hq⟩ := h
  simp only [PLATFORM_ROLES, List.mem_cons, Prod.mk.injEq, List.not_mem_nil, or_false] at hmem
  rcases hmem with ⟨-, rfl⟩ | ⟨-, rfl⟩
  · rw [List.mem_singleton.mp hq]; decide
  · rw [List.mem_singleton.mp hq]; decide

/-- What the entry points issue, each in its own terms. -/
structure IssuedFacts (e : EntryPoint) (policy : IdentityProviderPolicy)
    (claims : VerifiedCredentialClaims) (p : AuthenticatedPrincipal) : Prop where
  memberships : ∀ t, t ∈ p.tenantMemberships ↔ t ∈ claims.tenantIds
  audiences : p.audiences = [e.requiredAudience]
  audience : e.requiredAudience ∈ claims.audiences
  assurance : p.assurance = .mfa → "mfa" ∈ claims.authenticationMethods
  scopes : ScopesBounded e policy claims p.scopes
  tenant : ¬ e.isPlatform → e.requiredAudience ≠ PLATFORM_AUDIENCE
  operator : e.isPlatform → p.kind = .interactive ∧ p.assurance = .mfa ∧ claims.tenantIds = [] ∧
    ∀ q, q ∈ p.scopes ↔ ∃ role ∈ claims.platformRoles.getD [], RoleGrants role q

theorem interactive_issued {input : InteractiveAuthenticationInput} {p : AuthenticatedPrincipal}
    (h : authenticateInteractive other deps input = .ok p) :
    ∃ policy claims, VerifiedFor deps (.interactive input) policy claims ∧
      IssuedFacts (.interactive input) policy claims p := by
  unfold authenticateInteractive at h
  rw [attempt_ok] at h
  simp only [Except.bind_eq_ok_iff, rejectIf_ok] at h
  obtain ⟨_, haud, ⟨policy, claims⟩, hv, _, -, memberships, hm, actor, -, h⟩ := h
  have hver := verify_ok hv
  obtain ⟨-, hassur, hmem, hauds, hscopes⟩ := issue_ok (lift_ok.mp h)
  refine ⟨policy, claims, ⟨hver.found, hver.verified⟩, ?_, hauds, hver.audience,
    ?_, ?_, fun _ => haud, fun hp => hp.elim⟩
  · intro t
    rw [hmem, normalizedTenants_ok hm, List.mem_eraseDups, List.mem_eraseDups]
  · intro hmfa
    rw [hassur] at hmfa
    by_contra hno
    rw [if_neg hno] at hmfa
    cases hmfa
  · intro s hs
    rw [hscopes] at hs
    simp at hs

theorem workload_issued {input : WorkloadAuthenticationInput} {p : AuthenticatedPrincipal}
    (h : authenticateWorkload other deps input = .ok p) :
    ∃ policy claims, VerifiedFor deps (.workload input) policy claims ∧
      IssuedFacts (.workload input) policy claims p := by
  unfold authenticateWorkload at h
  rw [attempt_ok] at h
  simp only [Except.bind_eq_ok_iff, rejectIf_ok] at h
  obtain ⟨_, haud, ⟨policy, claims⟩, hv, memberships, hm, _, hdenied, actor, -, h⟩ := h
  have hver := verify_ok hv
  obtain ⟨-, hassur, hmem, hauds, hscopes⟩ := issue_ok (lift_ok.mp h)
  have hscope : ∀ s ∈ input.requiredScopes.eraseDups,
      s ∈ policy.allowedWorkloadScopes ∧ s ∈ claims.scopes := by
    intro s hs
    simp only [workloadScopesDenied, Bool.or_eq_true, not_or, List.any_eq_true, not_exists,
      not_and] at hdenied
    have := hdenied.2 s hs
    simpa using this
  refine ⟨policy, claims, ⟨hver.found, hver.verified⟩, ?_, hauds, hver.audience,
    ?_, ?_, fun _ => haud, fun hp => hp.elim⟩
  · intro t
    rw [hmem, normalizedTenants_ok hm, List.mem_eraseDups, List.mem_eraseDups]
  · intro hmfa
    rw [hassur] at hmfa
    cases hmfa
  · have hsub : ∀ s ∈ p.scopes, s ∈ input.requiredScopes.eraseDups := by
      intro s hs
      rw [hscopes] at hs
      exact List.mem_eraseDups.mp hs
    exact ⟨fun s hs => (hscope s (hsub s hs)).2, fun s hs => (hscope s (hsub s hs)).1⟩

theorem platform_issued {input : PlatformAuthenticationInput} {p : AuthenticatedPrincipal}
    (h : authenticatePlatformOperator other deps input = .ok p) :
    ∃ policy claims, VerifiedFor deps (.platform input) policy claims ∧
      IssuedFacts (.platform input) policy claims p := by
  unfold authenticatePlatformOperator at h
  rw [attempt_ok] at h
  simp only [Except.bind_eq_ok_iff, rejectIf_ok, not_not] at h
  obtain ⟨⟨policy, claims⟩, hv, _, htenants, _, hmfa, _, -, actor, -, h⟩ := h
  have hver := verify_ok hv
  obtain ⟨hkind, hassur, hmem, hauds, hscopes⟩ := issue_ok (lift_ok.mp h)
  have hgrants : ∀ q, q ∈ p.scopes ↔ ∃ role ∈ claims.platformRoles.getD [], RoleGrants role q := by
    intro q
    rw [hscopes, List.mem_eraseDups, mem_platformPermissionsFor]
  refine ⟨policy, claims, ⟨hver.found, hver.verified⟩, ?_, hauds, hver.audience,
    fun _ => hmfa, ?_, fun hp => (hp trivial).elim, fun _ => ⟨hkind, hassur, htenants, hgrants⟩⟩
  · intro t
    rw [hmem, htenants]
    simp
  · intro q hq
    obtain ⟨role, -, hg⟩ := (hgrants q).mp hq
    exact roleGrants_catalog hg

theorem issued_facts {e : EntryPoint} {p : AuthenticatedPrincipal}
    (h : e.authenticate other deps = .ok p) :
    ∃ policy claims, VerifiedFor deps e policy claims ∧ IssuedFacts e policy claims p := by
  cases e with
  | interactive input => exact interactive_issued h
  | workload input => exact workload_issued h
  | platform input => exact platform_issued h

theorem resolveTenantContext_ok {input : ResolveTenantContextInput} {now : ℤ} {ctx : TenantContext}
    (h : resolveTenantContext other input now = .ok ctx) :
    ctx.tenantId = input.selectedTenantId ∧
      input.selectedTenantId ∈ input.principal.tenantMemberships := by
  unfold resolveTenantContext at h
  simp only [Except.bind_eq_ok_iff, refuseIf_eq_ok_iff, not_not] at h
  obtain ⟨_, -, _, -, _, hmem, _, -, correlationId, -, h⟩ := h
  cases h
  exact ⟨rfl, hmem⟩

/-- A platform context carries its principal's authority unchanged. -/
theorem resolvePlatformCommandContext_ok {input : ResolvePlatformCommandContextInput} {now : ℤ}
    {ctx : PlatformCommandContext} (h : resolvePlatformCommandContext other input now = .ok ctx) :
    ctx.principalKind = input.principal.kind ∧ ctx.assurance = input.principal.assurance ∧
      ctx.audiences = input.principal.audiences ∧ ctx.scopes = input.principal.scopes ∧
      ctx.issued = true := by
  unfold resolvePlatformCommandContext at h
  simp only [Except.bind_eq_ok_iff] at h
  obtain ⟨_, -, _, -, _, -, _, -, actor, -, h⟩ := h
  cases h
  exact ⟨rfl, rfl, rfl, rfl, rfl⟩

theorem assertAllowed_iff (ctx : PlatformCommandContext) (q : String) (hi : ctx.issued = true) :
    assertAllowed ctx q = .ok () ↔
      q ∈ PLATFORM_PERMISSION_CATALOG ∧ ctx.principalKind = .interactive ∧ ctx.assurance = .mfa ∧
        PLATFORM_AUDIENCE ∈ ctx.audiences ∧ q ∈ ctx.scopes := by
  unfold assertAllowed assertIssuedPlatformContext
  rw [Except.bind_eq_ok_iff]
  simp only [throwIf_eq_ok_iff, hi, Bool.true_eq_false, not_false_eq_true, true_and, exists_const]
  rw [refuseIf_eq_ok_iff]
  simp only [isPlatformPermission, Bool.not_eq_false, Bool.and_eq_true, List.contains_iff_mem,
    decide_eq_true_eq, and_assoc]

/-- The separation of platform and tenant authority for one issued principal. -/
structure AuthoritySeparated (other : String → Option ℤ) (e : EntryPoint)
    (policy : IdentityProviderPolicy) (claims : VerifiedCredentialClaims)
    (p : AuthenticatedPrincipal) : Prop where
  platform : ∀ correlationId causationId now ctx q,
    resolvePlatformCommandContext other ⟨p, correlationId, causationId⟩ now = .ok ctx →
      (assertAllowed ctx q = .ok () ↔ OperatorGrant e claims q)
  tenant : ∀ tenant state correlationId causationId body now ctx,
    resolveTenantContext other ⟨p, tenant, state, correlationId, causationId, body⟩ now = .ok ctx →
      ctx.tenantId = tenant ∧ tenant ∈ claims.tenantIds ∧ ¬ e.isPlatform
  /-- no principal passes both -/
  exclusive : ∀ correlationId causationId now pctx q tenant state correlationId' causationId' body
      now' tctx,
    resolvePlatformCommandContext other ⟨p, correlationId, causationId⟩ now = .ok pctx →
      assertAllowed pctx q = .ok () →
        resolveTenantContext other ⟨p, tenant, state, correlationId', causationId', body⟩ now' ≠
          .ok tctx
  audiences : p.audiences = [e.requiredAudience]
  scopes : ScopesBounded e policy claims p.scopes
  assurance : p.assurance = .mfa → "mfa" ∈ claims.authenticationMethods

theorem platform_allowed_iff {e : EntryPoint} {policy : IdentityProviderPolicy}
    {claims : VerifiedCredentialClaims} {p : AuthenticatedPrincipal}
    (h : IssuedFacts e policy claims p) {correlationId : String} {causationId : Option String}
    {now : ℤ} {ctx : PlatformCommandContext}
    (hctx : resolvePlatformCommandContext other ⟨p, correlationId, causationId⟩ now = .ok ctx)
    (q : String) : assertAllowed ctx q = .ok () ↔ OperatorGrant e claims q := by
  obtain ⟨hkind, hassur, hauds, hscopes, hi⟩ := resolvePlatformCommandContext_ok hctx
  rw [assertAllowed_iff ctx q hi, hkind, hassur, hauds, hscopes, h.audiences]
  constructor
  · rintro ⟨-, -, hmfa, haud, hq⟩
    have hreq : e.requiredAudience = PLATFORM_AUDIENCE := (List.mem_singleton.mp haud).symm
    have hp : e.isPlatform := by
      by_contra hno
      exact h.tenant hno hreq
    obtain ⟨-, -, htenants, hgrants⟩ := h.operator hp
    exact ⟨hp, hreq ▸ h.audience, h.assurance hmfa, htenants, (hgrants q).mp hq⟩
  · rintro ⟨hp, -, -, -, hrole⟩
    obtain ⟨hk, hm, -, hgrants⟩ := h.operator hp
    have hreq : e.requiredAudience = PLATFORM_AUDIENCE := by
      cases e with
      | interactive _ => exact hp.elim
      | workload _ => exact hp.elim
      | platform _ => rfl
    obtain ⟨role, hr, hg⟩ := hrole
    exact ⟨roleGrants_catalog hg, hk, hm, by rw [hreq]; simp, (hgrants q).mpr ⟨role, hr, hg⟩⟩

theorem tenant_only_claimed {e : EntryPoint} {policy : IdentityProviderPolicy}
    {claims : VerifiedCredentialClaims} {p : AuthenticatedPrincipal}
    (h : IssuedFacts e policy claims p) {input : ResolveTenantContextInput}
    (hp : input.principal = p) {now : ℤ} {ctx : TenantContext}
    (hctx : resolveTenantContext other input now = .ok ctx) :
    ctx.tenantId = input.selectedTenantId ∧ input.selectedTenantId ∈ claims.tenantIds ∧
      ¬ e.isPlatform := by
  obtain ⟨hid, hmem⟩ := resolveTenantContext_ok hctx
  rw [hp, h.memberships] at hmem
  refine ⟨hid, hmem, fun hplat => ?_⟩
  rw [(h.operator hplat).2.2.1] at hmem
  simp at hmem

/-- Every principal any entry point issues has separated authority. -/
theorem authority_never_mixes {e : EntryPoint} {p : AuthenticatedPrincipal}
    (h : e.authenticate other deps = .ok p) :
    ∃ policy claims, VerifiedFor deps e policy claims ∧
      AuthoritySeparated other e policy claims p := by
  obtain ⟨policy, claims, hver, hf⟩ := issued_facts h
  refine ⟨policy, claims, hver, ?_, ?_, ?_, hf.audiences, hf.scopes, hf.assurance⟩
  · intro correlationId causationId now ctx q hctx
    exact platform_allowed_iff hf hctx q
  · intro tenant state correlationId causationId body now ctx hctx
    exact tenant_only_claimed hf rfl hctx
  · intro correlationId causationId now pctx q tenant state correlationId' causationId' body now'
      tctx hpctx hallowed htctx
    have hgrant := (platform_allowed_iff hf hpctx q).mp hallowed
    exact (tenant_only_claimed hf rfl htctx).2.2 hgrant.1

inductive AuthenticationKind where
  | interactive
  | workload
  | platform
deriving DecidableEq, Repr

def EntryPoint.kind : EntryPoint → AuthenticationKind
  | .interactive _ => .interactive
  | .workload _ => .workload
  | .platform _ => .platform

/-- What tells the entry points apart: the provider's mechanism, and whether the token names
tenants. The audiences play no part, so a token may carry several. -/
def Admits (policy : IdentityProviderPolicy) (claims : VerifiedCredentialClaims) :
    AuthenticationKind → Prop
  | .interactive => policy.mechanism ∈ [.oidc, .saml] ∧ claims.tenantIds ≠ []
  | .workload => policy.mechanism ∈ [.workload_token]
  | .platform => policy.mechanism ∈ [.oidc, .saml] ∧ claims.tenantIds = []

theorem Admits.unique {policy : IdentityProviderPolicy} {claims : VerifiedCredentialClaims}
    {kind kind' : AuthenticationKind} (h : Admits policy claims kind)
    (h' : Admits policy claims kind') : kind = kind' := by
  have hmechanism : policy.mechanism ∈ [.oidc, .saml] →
      policy.mechanism ∈ [AuthenticationMechanism.workload_token] → False := by
    cases policy.mechanism <;> simp
  cases kind with
  | interactive =>
    cases kind' with
    | interactive => rfl
    | workload => exact (hmechanism h.1 h').elim
    | platform => exact (h.2 h'.2).elim
  | workload =>
    cases kind' with
    | interactive => exact (hmechanism h'.1 h).elim
    | workload => rfl
    | platform => exact (hmechanism h'.1 h).elim
  | platform =>
    cases kind' with
    | interactive => exact (h'.2 h.2).elim
    | workload => exact (hmechanism h.1 h').elim
    | platform => rfl

theorem tenantIds_ne_nil_of_normalizedTenants {claims : VerifiedCredentialClaims}
    {ts : List TenantId} (h : normalizedTenants claims = .ok ts) : claims.tenantIds ≠ [] := by
  unfold normalizedTenants at h
  simp only [Except.bind_eq_ok_iff, rejectIf_ok] at h
  obtain ⟨_, -, _, hne, -⟩ := h
  intro hnil
  rw [hnil] at hne
  exact hne rfl

theorem admits_of_authenticate {e : EntryPoint} {p : AuthenticatedPrincipal}
    (h : e.authenticate other deps = .ok p) :
    ∃ policy claims, VerifiedFor deps e policy claims ∧ Admits policy claims e.kind := by
  cases e with
  | interactive input =>
    unfold EntryPoint.authenticate authenticateInteractive at h
    rw [attempt_ok] at h
    simp only [Except.bind_eq_ok_iff] at h
    obtain ⟨_, -, ⟨policy, claims⟩, hv, _, -, memberships, hm, -⟩ := h
    have hver := verify_ok hv
    exact ⟨policy, claims, ⟨hver.found, hver.verified⟩, hver.mechanism,
      tenantIds_ne_nil_of_normalizedTenants hm⟩
  | workload input =>
    unfold EntryPoint.authenticate authenticateWorkload at h
    rw [attempt_ok] at h
    simp only [Except.bind_eq_ok_iff] at h
    obtain ⟨_, -, ⟨policy, claims⟩, hv, -⟩ := h
    have hver := verify_ok hv
    exact ⟨policy, claims, ⟨hver.found, hver.verified⟩, hver.mechanism⟩
  | platform input =>
    unfold EntryPoint.authenticate authenticatePlatformOperator at h
    rw [attempt_ok] at h
    simp only [Except.bind_eq_ok_iff, rejectIf_ok, not_not] at h
    obtain ⟨⟨policy, claims⟩, hv, _, htenants, -⟩ := h
    have hver := verify_ok hv
    exact ⟨policy, claims, ⟨hver.found, hver.verified⟩, hver.mechanism, htenants⟩

/-- One provider and credential pass one entry point at most, whatever audience and scopes are
required, and even where the clock has moved and revocations have changed in between. -/
theorem entry_points_exclusive {e e' : EntryPoint} {p p' : AuthenticatedPrincipal}
    {isRevoked : String → String → Except Failure Bool} {clock : Option Instant}
    (hprovider : e.providerId = e'.providerId) (hcredential : e.rawCredential = e'.rawCredential)
    (h : e.authenticate other deps = .ok p)
    (h' : e'.authenticate other { deps with isRevoked := isRevoked, clock := clock } = .ok p') :
    e.kind = e'.kind := by
  obtain ⟨policy, claims, ⟨hfound, hverified⟩, hadmits⟩ := admits_of_authenticate h
  obtain ⟨policy', claims', ⟨hfound', hverified'⟩, hadmits'⟩ := admits_of_authenticate h'
  rw [hprovider] at hfound
  cases hfound.symm.trans hfound'
  rw [hcredential] at hverified
  cases hverified.symm.trans hverified'
  exact hadmits.unique hadmits'

/-- A platform identity provider whose verifier accepts one operator token. -/
def samplePolicy : IdentityProviderPolicy :=
  { id := "platform-idp"
    mechanism := .oidc
    issuer := "https://idp.example.test"
    allowedAudiences := [PLATFORM_AUDIENCE]
    clockSkewSeconds := .ofNat 30 (by norm_num)
    requireMfa := true
    allowedWorkloadScopes := [] }

def sampleClaims : VerifiedCredentialClaims :=
  { mechanism := .oidc
    credentialId := "token-1"
    subject := "operator"
    issuer := "https://idp.example.test"
    audiences := [PLATFORM_AUDIENCE]
    tenantIds := []
    authenticationMethods := ["pwd", "mfa"]
    scopes := ["openid"]
    expiresAt := "2026-09-24T11:04:05.000Z"
    notBefore := none
    platformRoles := some ["platform_tenant_provisioner", "toString"] }

def sampleDeps : AuthenticationDependencies :=
  { findById := fun id => .ok (if id = "platform-idp" then some samplePolicy else none)
    verify := fun raw _ => if raw = "jwt" then .ok sampleClaims else .error (.error "bad signature")
    isRevoked := fun _ _ => .ok false
    clock := timeClip 1790244245000 }

def sampleEntry : EntryPoint :=
  .platform { providerId := "platform-idp", rawCredential := "jwt", correlationId := "c-1" }

def sampleOperator : AuthenticatedPrincipal :=
  { actorId := "operator"
    kind := .interactive
    tenantMemberships := []
    assurance := .mfa
    credentialId := "token-1"
    issuer := "https://idp.example.test"
    audiences := [PLATFORM_AUDIENCE]
    scopes := ["platform:tenant:provision"]
    expiresAt := "2026-09-24T11:04:05.000Z"
    issued := true }

/-- The operator token issues a principal with separated authority. -/
theorem authority_never_mixes_operator :
    sampleEntry.authenticate (fun _ => none) sampleDeps = .ok sampleOperator ∧
    ∃ policy claims, VerifiedFor sampleDeps sampleEntry policy claims ∧
      AuthoritySeparated (fun _ => none) sampleEntry policy claims sampleOperator :=
  have issued : sampleEntry.authenticate (fun _ => none) sampleDeps = .ok sampleOperator := by
    decide +kernel
  ⟨issued, authority_never_mixes issued⟩

/-- The operator token again, a second later and in another request. -/
def sampleRepeat : EntryPoint :=
  .platform { providerId := "platform-idp", rawCredential := "jwt", correlationId := "c-2" }

theorem entry_points_exclusive_operator :
    sampleEntry.authenticate (fun _ => none) sampleDeps = .ok sampleOperator ∧
    sampleRepeat.authenticate (fun _ => none)
      { sampleDeps with clock := timeClip 1790244246000 } = .ok sampleOperator ∧
    sampleEntry.kind = sampleRepeat.kind :=
  have first : sampleEntry.authenticate (fun _ => none) sampleDeps = .ok sampleOperator := by
    decide +kernel
  have second : sampleRepeat.authenticate (fun _ => none)
      { sampleDeps with clock := timeClip 1790244246000 } = .ok sampleOperator := by
    decide +kernel
  ⟨first, second, entry_points_exclusive rfl rfl first second⟩

end Sintius.Identity
