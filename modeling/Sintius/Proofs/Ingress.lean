import Mathlib
import Sintius.Lib.Date
import Sintius.Lib.Except
import Sintius.Lib.JsonValue
import Sintius.Lib.Text
import Sintius.Spec.Problem
import Sintius.Spec.TenantContext
import Sintius.Spec.Ingress

/-! A tenant context rests on a state that was looked up, and who is not a member learns
nothing about a tenant. -/

namespace Sintius.Api

open Js Sintius.Tenancy

variable {other : String → Option ℤ} {tenantStates tenantStates' : TenantStates}
  {request : TenantRequest} {dateNow : ℤ} {ctx : TenantContext} {tenant : TenantId}

/-- The body has a `tenant_id` of its own. -/
def TenantRequest.namesTenant (request : TenantRequest) : Prop :=
  (request.body.bind (JsonValue.property "tenant_id")).isSome

theorem selectTenant_eq_ok (h : selectTenant request = .ok tenant) :
    request.selected = some tenant := by
  unfold selectTenant refuse at h
  split at h
  · cases h
  · next hselected =>
    split_ifs at h
    cases h
    exact hselected

theorem bodyTenant_eq_ok_none_iff :
    bodyTenant request.body = .ok none ↔ ¬ request.namesTenant := by
  unfold bodyTenant TenantRequest.namesTenant
  cases request.body.bind (JsonValue.property "tenant_id") with
  | none => simp
  | some value =>
    dsimp only
    cases value.toText <;> simp

/-- What the resolver has checked of a principal that it accepts. -/
theorem resolveTenantContext_evidence {input : ResolveTenantContextInput}
    (h : resolveTenantContext other input dateNow = .ok ctx) :
    ctx.tenantId = input.selectedTenantId ∧ input.bodyTenantId = none ∧
      input.selectedTenantId ∈ input.principal.tenantMemberships ∧ input.tenantState = .ACTIVE ∧
      ∃ expiry, Js.Date.parse other input.principal.expiresAt = some expiry ∧ dateNow < expiry := by
  unfold resolveTenantContext assertPrincipalCurrent assertUnexpired finiteInstant at h
  simp only [Except.bind_eq_ok_iff, refuseIf_eq_ok_iff, not_not, not_le] at h
  obtain ⟨_, ⟨_, -, expiry, hexpiry, hlive⟩, _, hbody, _, hmember, _, hstate, _, -, h⟩ := h
  cases h
  refine ⟨rfl, by simpa using hbody, hmember, hstate, expiry, ?_, hlive⟩
  split at hexpiry
  · next hparse =>
    cases hexpiry
    exact hparse
  · cases hexpiry

/-- The ways a request goes. -/
theorem resolveTenant_cases (other : String → Option ℤ) (tenantStates : TenantStates)
    (request : TenantRequest) (dateNow : ℤ) :
    (∃ e, ∀ tenantStates', resolveTenant other tenantStates' request dateNow = ⟨.error e, []⟩) ∨
    (∃ tenant, request.selected = some tenant ∧ tenant ∈ request.principal.tenantMemberships ∧
      ¬ request.namesTenant ∧ resolveTenant other tenantStates request dateNow =
        ⟨tenantStates tenant request.correlationId >>= fun state =>
          resolveSelected other request tenant none state dateNow, [tenant]⟩) ∨
    ∃ tenant bodyTenantId, request.selected = some tenant ∧
      (tenant ∉ request.principal.tenantMemberships ∨ bodyTenantId ≠ none) ∧
      ∀ tenantStates', resolveTenant other tenantStates' request dateNow =
        ⟨resolveSelected other request tenant bodyTenantId (some .ACTIVE) dateNow, []⟩ := by
  unfold resolveTenant
  cases hselect : selectTenant request with
  | error e => exact .inl ⟨e, fun _ => rfl⟩
  | ok selected =>
    have hselected := selectTenant_eq_ok hselect
    cases hbody : bodyTenant request.body with
    | error e => exact .inl ⟨e, fun _ => rfl⟩
    | ok bodyTenantId =>
      simp only [Except.ok_bind]
      cases htenant : tenantId selected with
      | error e => exact .inl ⟨e, fun _ => rfl⟩
      | ok tenant =>
        obtain rfl : tenant = selected := requireNonBlank_eq_ok htenant
        simp only [Except.ok_bind]
        by_cases hlook : tenant ∈ request.principal.tenantMemberships ∧ bodyTenantId = none
        · obtain ⟨hmember, rfl⟩ := hlook
          refine .inr (.inl ⟨tenant, hselected, hmember, bodyTenant_eq_ok_none_iff.mp hbody, ?_⟩)
          rw [if_pos ⟨hmember, rfl⟩]
          cases tenantStates tenant request.correlationId <;> rfl
        · refine .inr (.inr ⟨tenant, bodyTenantId, hselected, ?_, ?_⟩)
          · by_contra hboth
            push Not at hboth
            exact hlook hboth
          · intro tenantStates'
            rw [if_neg hlook]

/-- A context is issued on evidence: a membership, a state that was looked up, a body that names no
tenant, a principal that has not expired. -/
structure Evidence (other : String → Option ℤ) (tenantStates : TenantStates)
    (request : TenantRequest) (dateNow : ℤ) (tenant : TenantId) : Prop where
  membership : tenant ∈ request.principal.tenantMemberships
  consulted : (resolveTenant other tenantStates request dateNow).consulted = [tenant]
  active : tenantStates tenant request.correlationId = .ok (some .ACTIVE)
  body : ¬ request.namesTenant
  unexpired : ∃ expiry, Js.Date.parse other request.principal.expiresAt = some expiry ∧
    dateNow < expiry

theorem evidence_of_resolveTenant
    (h : (resolveTenant other tenantStates request dateNow).result = .ok ctx) :
    Evidence other tenantStates request dateNow ctx.tenantId := by
  rcases resolveTenant_cases other tenantStates request dateNow with
    ⟨e, hrun⟩ | ⟨tenant, -, hmember, hbody, hrun⟩ | ⟨tenant, bodyTenantId, -, hlook, hrun⟩
  · rw [hrun] at h
    cases h
  · have hconsulted : (resolveTenant other tenantStates request dateNow).consulted = [tenant] := by
      rw [hrun]
    rw [hrun] at h
    obtain ⟨state, hstate, h⟩ := Except.bind_eq_ok_iff.mp h
    cases state with
    | none => cases h
    | some state =>
      obtain ⟨htenant, -, -, hactive, hexpiry⟩ := resolveTenantContext_evidence h
      cases hactive
      rw [htenant]
      exact ⟨hmember, hconsulted, hstate, hbody, hexpiry⟩
  · -- the placeholder is never used: the resolver refuses the body or the membership first
    rw [hrun] at h
    obtain ⟨-, hnone, hmember, -, -⟩ := resolveTenantContext_evidence h
    rcases hlook with hforeign | hnamed
    · exact absurd hmember hforeign
    · exact absurd hnone hnamed

theorem resolveTenant_congr
    (h : request.namesTenant ∨
      ∀ selected ∈ request.selected, selected ∉ request.principal.tenantMemberships) :
    resolveTenant other tenantStates request dateNow =
      resolveTenant other tenantStates' request dateNow := by
  rcases resolveTenant_cases other tenantStates request dateNow with
    ⟨e, hrun⟩ | ⟨tenant, hselected, hmember, hbody, -⟩ | ⟨_, _, -, -, hrun⟩
  · rw [hrun, hrun]
  · rcases h with hnamed | hforeign
    · exact absurd hnamed hbody
    · exact absurd hmember (hforeign tenant hselected)
  · rw [hrun, hrun]

/-- Every context of the ingress rests on evidence; where the tenant is foreign or the body names
one, no reader of states makes a difference. -/
theorem tenant_context_on_evidence (other : String → Option ℤ) (request : TenantRequest)
    (dateNow : ℤ) :
    (∀ tenantStates ctx, (resolveTenant other tenantStates request dateNow).result = .ok ctx →
      Evidence other tenantStates request dateNow ctx.tenantId) ∧
    ((request.namesTenant ∨
        ∀ selected ∈ request.selected, selected ∉ request.principal.tenantMemberships) →
      ∀ tenantStates tenantStates', resolveTenant other tenantStates request dateNow =
        resolveTenant other tenantStates' request dateNow) :=
  ⟨fun _ _ => evidence_of_resolveTenant, fun h _ _ => resolveTenant_congr h⟩

/-- A member of two tenants selects a tenant. -/
def memberRequest (selector : String) : TenantRequest where
  principal :=
    { actorId := "user"
      kind := .interactive
      tenantMemberships := ["tenant_a", "tenant_b"]
      assurance := .mfa
      credentialId := "credential-1"
      issuer := "https://idp.example.test"
      audiences := ["sintius-api"]
      scopes := []
      expiresAt := "2026-09-24T11:04:05.000Z"
      issued := true }
  activeTenant := .single selector
  body := some (.object [("label", .string "gate")])
  correlationId := "corr-1"
  causationId := none

def tenantA : TenantStates := fun tenant _ =>
  .ok (if tenant = "tenant_a" then some .ACTIVE else none)

/-- A context for the member's own tenant; nothing about another one. -/
theorem tenant_context_on_evidence_member :
    (∃ ctx, (resolveTenant (fun _ => none) tenantA (memberRequest "tenant_a")
      1790244244000).result = .ok ctx ∧ ctx.tenantId = "tenant_a" ∧
        Evidence (fun _ => none) tenantA (memberRequest "tenant_a") 1790244244000 ctx.tenantId) ∧
    ∀ tenantStates, resolveTenant (fun _ => none) tenantStates (memberRequest "tenant_c")
      1790244244000 = resolveTenant (fun _ => none) tenantA (memberRequest "tenant_c")
        1790244244000 := by
  have hown := (tenant_context_on_evidence (fun _ => none) (memberRequest "tenant_a")
    1790244244000).1 tenantA
  have hforeign : ∀ selected ∈ (memberRequest "tenant_c").selected,
      selected ∉ (memberRequest "tenant_c").principal.tenantMemberships := by
    decide
  obtain ⟨ctx, hctx, htenant⟩ : ∃ ctx, (resolveTenant (fun _ => none) tenantA
      (memberRequest "tenant_a") 1790244244000).result = .ok ctx ∧ ctx.tenantId = "tenant_a" :=
    ⟨_, rfl, rfl⟩
  exact ⟨⟨ctx, hctx, htenant, hown ctx hctx⟩, fun tenantStates =>
    (tenant_context_on_evidence (fun _ => none) (memberRequest "tenant_c") 1790244244000).2
      (.inr hforeign) tenantStates tenantA⟩

end Sintius.Api
