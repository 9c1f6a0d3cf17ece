import Mathlib
import Sintius.Lib.Date
import Sintius.Lib.Double
import Sintius.Lib.Except
import Sintius.Lib.Text
import Sintius.Spec.Problem
import Sintius.Spec.TenantContext
import Sintius.Spec.Authentication
import Sintius.Proofs.Authentication

/-! The two expiry checks of a credential: the authenticator allows for clock skew, the
resolvers that turn its principal into a context do not. -/

namespace Sintius.Identity

open Js.Date Sintius.Tenancy

variable {other : String → Option ℤ} {deps : AuthenticationDependencies}

section Skew

variable {t : Instant} {s : ℕ}

theorem ticksOf_le_iff {m n : ℤ} : Js.ticksOf m ≤ Js.ticksOf n ↔ m ≤ n :=
  mul_le_mul_iff_of_pos_right (by positivity)

theorem skewMilliseconds_ofNat (hs : s < 2 ^ 53) (hskew : s * 1000 ≤ 2 ^ 48) :
    skewMilliseconds ⟨false, Js.Double.ofNatCode s, Js.Double.ofNatCode_lt hs⟩ =
      Js.ticksOf (s * 1000) := by
  have hticks : Js.Double.ticks ⟨false, Js.Double.ofNatCode s, Js.Double.ofNatCode_lt hs⟩ * 1000 =
      Js.ticksOf (s * 1000) := by
    unfold Js.Double.ticks Js.ticksOf
    dsimp only
    rw [Js.magnitude_ofNatCode hs, if_neg Bool.false_ne_true]
    push_cast
    ring
  unfold skewMilliseconds
  rw [hticks]
  exact Js.nearest_ticksOf (by rw [abs_lt]; omega)

/-- A skew of whole seconds, below some nine thousand years, is taken off and added exactly. -/
theorem expiredWithSkew_ofNat (hs : s < 2 ^ 53) (hskew : s * 1000 ≤ 2 ^ 48) (expiry : ℤ) :
    expiredWithSkew expiry (some t) (.ofNat s hs) = decide (expiry ≤ t.1 - s * 1000) := by
  have hrange := abs_le.mp t.2
  have hdifference : Js.ticksOf t.1 - Js.ticksOf (s * 1000) = Js.ticksOf (t.1 - s * 1000) := by
    unfold Js.ticksOf
    ring
  have hexact : |t.1 - s * 1000| < 2 ^ 53 := by
    unfold maxTime at hrange
    rw [abs_lt]
    omega
  unfold expiredWithSkew Js.Number.ofNat
  dsimp only
  rw [skewMilliseconds_ofNat hs hskew, hdifference, Js.nearest_ticksOf hexact]
  simp only [ticksOf_le_iff]

theorem earlyWithSkew_ofNat (hs : s < 2 ^ 53) (hskew : s * 1000 ≤ 2 ^ 48) (notBefore : ℤ) :
    earlyWithSkew notBefore (some t) (.ofNat s hs) = decide (t.1 + s * 1000 < notBefore) := by
  have hrange := abs_le.mp t.2
  have hsum : Js.ticksOf t.1 + Js.ticksOf (s * 1000) = Js.ticksOf (t.1 + s * 1000) := by
    unfold Js.ticksOf
    ring
  have hexact : |t.1 + s * 1000| < 2 ^ 53 := by
    unfold maxTime at hrange
    rw [abs_lt]
    omega
  unfold earlyWithSkew Js.Number.ofNat
  dsimp only
  rw [skewMilliseconds_ofNat hs hskew, hsum, Js.nearest_ticksOf hexact]
  simp only [← not_le, ticksOf_le_iff]

-- a tenth of a second is 100 milliseconds, although no double is a tenth
example : expiredWithSkew 1790244244900 (some ⟨1790244245000, by decide⟩)
    (.finite ⟨false, 4591870180066957722, by decide⟩) = true := by
  decide +kernel

end Skew

/-- The refusal of a principal that has expired. -/
def noLongerValid (correlationId : String) : Failure :=
  .problem
    { code := .authentication_failed
      detail := "The authenticated principal is no longer valid."
      correlation_id := some correlationId }

/-- A principal expires when its credential does. -/
structure ExpiresWith (other : String → Option ℤ) (expiresAt : String)
    (p : AuthenticatedPrincipal) (expiry : Instant) : Prop where
  stated : parse other expiresAt = some expiry.1
  kept : p.expiresAt = toISOString expiry
  issued : p.issued = true

theorem issue_expiresWith {input : PrincipalFields} {p : AuthenticatedPrincipal}
    (h : issueAuthenticatedPrincipal other input = .ok p) :
    ∃ expiry, ExpiresWith other input.expiresAt p expiry := by
  unfold issueAuthenticatedPrincipal at h
  simp only [Except.bind_eq_ok_iff] at h
  obtain ⟨_, -, expiry, hexpiry, _, -, _, -, h⟩ := h
  split at h
  · cases h
  · next t ht =>
    cases h
    unfold finiteInstant at hexpiry
    split at hexpiry
    · next t' hparse =>
      cases hexpiry
      have hval : t.1 = expiry := by
        unfold timeClip at ht
        split_ifs at ht
        cases ht
        rfl
      exact ⟨t, by rw [hparse, hval], rfl, rfl⟩
    · cases hexpiry

/-- Whatever entry point accepts, its principal expires with the credential it was shown; a tenant
credential names a tenant. -/
theorem exists_expiresWith {e : EntryPoint} {p : AuthenticatedPrincipal}
    (h : e.authenticate other deps = .ok p) :
    ∃ policy claims expiry, VerifiedFor deps e policy claims ∧
      ExpiresWith other claims.expiresAt p expiry ∧ (¬ e.isPlatform → claims.tenantIds ≠ []) := by
  cases e with
  | interactive input =>
    unfold EntryPoint.authenticate authenticateInteractive at h
    rw [attempt_ok] at h
    simp only [Except.bind_eq_ok_iff] at h
    obtain ⟨_, -, ⟨policy, claims⟩, hverify, _, -, _, htenants, _, -, h⟩ := h
    have hverified := verify_ok hverify
    obtain ⟨expiry, hexpires⟩ := issue_expiresWith (lift_ok.mp h)
    exact ⟨policy, claims, expiry, ⟨hverified.found, hverified.verified⟩, hexpires,
      fun _ => tenantIds_ne_nil_of_normalizedTenants htenants⟩
  | workload input =>
    unfold EntryPoint.authenticate authenticateWorkload at h
    rw [attempt_ok] at h
    simp only [Except.bind_eq_ok_iff] at h
    obtain ⟨_, -, ⟨policy, claims⟩, hverify, _, htenants, _, -, _, -, h⟩ := h
    have hverified := verify_ok hverify
    obtain ⟨expiry, hexpires⟩ := issue_expiresWith (lift_ok.mp h)
    exact ⟨policy, claims, expiry, ⟨hverified.found, hverified.verified⟩, hexpires,
      fun _ => tenantIds_ne_nil_of_normalizedTenants htenants⟩
  | platform input =>
    unfold EntryPoint.authenticate authenticatePlatformOperator at h
    rw [attempt_ok] at h
    simp only [Except.bind_eq_ok_iff] at h
    obtain ⟨⟨policy, claims⟩, hverify, _, -, _, -, _, -, _, -, h⟩ := h
    have hverified := verify_ok hverify
    obtain ⟨expiry, hexpires⟩ := issue_expiresWith (lift_ok.mp h)
    exact ⟨policy, claims, expiry, ⟨hverified.found, hverified.verified⟩, hexpires,
      fun htenant => absurd trivial htenant⟩

section Resolvers

variable {p : AuthenticatedPrincipal} {expiry : Instant} {expiresAt correlationId : String}
  {t : ℤ}

/-- What the resolvers' own check makes of the principal. -/
theorem assertUnexpired_eq (h : ExpiresWith other expiresAt p expiry) :
    assertUnexpired other p correlationId t =
      if expiry.1 ≤ t then .error (noLongerValid correlationId) else .ok () := by
  unfold assertUnexpired finiteInstant refuseIf refuse noLongerValid
  rw [h.kept, parse_toISOString, Except.ok_bind]

theorem assertIssued_eq (h : ExpiresWith other expiresAt p expiry) :
    assertIssuedAuthenticatedPrincipal p correlationId = .ok () := by
  unfold assertIssuedAuthenticatedPrincipal
  rw [refuseIf_eq_ok_iff]
  simp [h.issued]

/-- A member of an active tenant is refused as expired exactly from the expiry on. -/
theorem resolveTenantContext_eq_noLongerValid_iff (h : ExpiresWith other expiresAt p expiry)
    {tenant : TenantId} {causationId : Option String} (hmember : tenant ∈ p.tenantMemberships) :
    resolveTenantContext other ⟨p, tenant, .ACTIVE, correlationId, causationId, none⟩ t =
      .error (noLongerValid correlationId) ↔ expiry.1 ≤ t := by
  unfold resolveTenantContext assertPrincipalCurrent
  rw [assertIssued_eq h, Except.ok_bind, assertUnexpired_eq h]
  split_ifs with hexpired
  · exact iff_of_true rfl hexpired
  · refine iff_of_false ?_ hexpired
    simp only [Except.ok_bind, refuseIf, Option.isSome_none, Bool.false_eq_true, if_false,
      hmember, not_true_eq_false, ne_eq, requireNonBlank, throwIf]
    split_ifs
    · intro heq
      cases heq
    · intro heq
      cases heq

/-- So is an operator. -/
theorem resolvePlatformCommandContext_eq_noLongerValid_iff
    (h : ExpiresWith other expiresAt p expiry) :
    (∃ correlationId causationId, resolvePlatformCommandContext other
      ⟨p, correlationId, causationId⟩ t = .error (noLongerValid correlationId)) ↔ expiry.1 ≤ t := by
  constructor
  · rintro ⟨correlationId, causationId, heq⟩
    by_contra hlive
    unfold resolvePlatformCommandContext at heq
    rw [assertIssued_eq h, Except.ok_bind, assertUnexpired_eq h, if_neg hlive] at heq
    simp only [Except.ok_bind, throwIf, fail, actorId, requireNonBlank] at heq
    split_ifs at heq <;> cases heq
  · intro hexpired
    refine ⟨"c", none, ?_⟩
    have hcorrelation : Js.nonBlank "c" = true := by decide +kernel
    unfold resolvePlatformCommandContext
    rw [assertIssued_eq h, Except.ok_bind, assertUnexpired_eq h, if_pos hexpired]
    simp [throwIf, hcorrelation]

end Resolvers

/-- The resolver that this entry point's principals are for does not refuse one as expired. -/
def EntryPoint.StillValid (other : String → Option ℤ) (e : EntryPoint)
    (p : AuthenticatedPrincipal) (t : Instant) : Prop :=
  match e with
  | .platform _ => ∀ correlationId causationId,
    resolvePlatformCommandContext other ⟨p, correlationId, causationId⟩ t.1 ≠
      .error (noLongerValid correlationId)
  | _ => ∀ tenant ∈ p.tenantMemberships, ∀ correlationId causationId,
    resolveTenantContext other ⟨p, tenant, .ACTIVE, correlationId, causationId, none⟩ t.1 ≠
      .error (noLongerValid correlationId)

/-- The credential's expiry is later than this, without any allowance. -/
def EntryPoint.ExpiresAfter (other : String → Option ℤ) (deps : AuthenticationDependencies)
    (e : EntryPoint) (t : Instant) : Prop :=
  ∃ policy claims expiry, VerifiedFor deps e policy claims ∧
    parse other claims.expiresAt = some expiry ∧ t.1 < expiry

theorem VerifiedFor.unique {e : EntryPoint} {policy policy' : IdentityProviderPolicy}
    {claims claims' : VerifiedCredentialClaims} (h : VerifiedFor deps e policy claims)
    (h' : VerifiedFor deps e policy' claims') : claims' = claims := by
  obtain ⟨hfound, hverified⟩ := h
  obtain ⟨hfound', hverified'⟩ := h'
  rw [hfound] at hfound'
  cases hfound'
  rw [hverified] at hverified'
  exact (Except.ok.inj hverified').symm

theorem expiresAfter_iff {e : EntryPoint} {policy : IdentityProviderPolicy}
    {claims : VerifiedCredentialClaims} {p : AuthenticatedPrincipal} {expiry t : Instant}
    (hverified : VerifiedFor deps e policy claims)
    (hexpires : ExpiresWith other claims.expiresAt p expiry) :
    e.ExpiresAfter other deps t ↔ t.1 < expiry.1 := by
  constructor
  · rintro ⟨policy', claims', expiry', hverified', hparse, hlt⟩
    cases hverified.unique hverified'
    rw [hexpires.stated] at hparse
    cases hparse
    exact hlt
  · exact fun hlt => ⟨policy, claims, expiry.1, hverified, hexpires.stated, hlt⟩

theorem stillValid_iff {e : EntryPoint} {claims : VerifiedCredentialClaims}
    {p : AuthenticatedPrincipal} {expiry t : Instant}
    (hexpires : ExpiresWith other claims.expiresAt p expiry)
    (hmember : ¬ e.isPlatform → ∃ tenant, tenant ∈ p.tenantMemberships) :
    e.StillValid other p t ↔ t.1 < expiry.1 := by
  have htenant : (∃ tenant, tenant ∈ p.tenantMemberships) →
      ((∀ tenant ∈ p.tenantMemberships, ∀ correlationId causationId,
        resolveTenantContext other ⟨p, tenant, .ACTIVE, correlationId, causationId, none⟩ t.1 ≠
          .error (noLongerValid correlationId)) ↔ t.1 < expiry.1) := by
    rintro ⟨tenant, hmem⟩
    constructor
    · intro h
      by_contra hnot
      refine h tenant hmem "c" none ?_
      exact (resolveTenantContext_eq_noLongerValid_iff hexpires hmem).mpr (not_lt.mp hnot)
    · intro hlt tenant' hmem' correlationId causationId heq
      have hle := (resolveTenantContext_eq_noLongerValid_iff hexpires hmem').mp heq
      exact absurd hlt (not_lt.mpr hle)
  cases e with
  | interactive input => exact htenant (hmember not_false)
  | workload input => exact htenant (hmember not_false)
  | platform input =>
    have hiff := resolvePlatformCommandContext_eq_noLongerValid_iff (t := t.1) hexpires
    unfold EntryPoint.StillValid
    rw [← not_le, ← hiff]
    simp only [not_exists, ne_eq]

/-- A credential that is accepted is still valid for the resolver, at the same instant, exactly when
it expires later: the skew that the authenticator allowed for is lost. -/
theorem skew_honoured_iff {e : EntryPoint} {p : AuthenticatedPrincipal} {t : Instant}
    (h : e.authenticate other { deps with clock := some t } = .ok p) :
    e.StillValid other p t ↔ e.ExpiresAfter other deps t := by
  obtain ⟨policy, claims, expiry, hverified, hexpires, htenants⟩ := exists_expiresWith h
  obtain ⟨policy', claims', hverified', hfacts⟩ := issued_facts h
  cases hverified.unique hverified'
  have hmember : ¬ e.isPlatform → ∃ tenant, tenant ∈ p.tenantMemberships := by
    intro htenant
    obtain ⟨tenant, hmem⟩ := List.exists_mem_of_ne_nil _ (htenants htenant)
    exact ⟨tenant, (hfacts.memberships tenant).mpr hmem⟩
  have hverified₀ : VerifiedFor deps e policy claims := hverified
  rw [stillValid_iff hexpires hmember, expiresAfter_iff hverified₀ hexpires]

/-- The operator's token in the hour it is good for. -/
theorem skew_honoured_iff_operator :
    sampleEntry.StillValid (fun _ => none) sampleOperator ⟨1790244245000, by decide⟩ ↔
      sampleEntry.ExpiresAfter (fun _ => none) sampleDeps ⟨1790244245000, by decide⟩ := by
  have haccepts : sampleEntry.authenticate (fun _ => none)
      { sampleDeps with clock := some ⟨1790244245000, by decide⟩ } = .ok sampleOperator := by
    decide +kernel
  exact skew_honoured_iff haccepts

/-- Twenty seconds after the expiry, within the skew of thirty: accepted, and then refused. -/
theorem skew_lost : ∃ t : Instant, t.1 = 1790247865000 ∧
    sampleEntry.authenticate (fun _ => none) { sampleDeps with clock := some t } =
      .ok sampleOperator ∧ ¬ sampleEntry.StillValid (fun _ => none) sampleOperator t := by
  refine ⟨⟨1790247865000, by decide⟩, rfl, by decide +kernel, ?_⟩
  intro hvalid
  refine hvalid "c" none ?_
  decide +kernel

end Sintius.Identity
