import Mathlib
import Sintius.Lib.Date
import Sintius.Lib.JsonValue
import Sintius.Lib.Text
import Sintius.Spec.Problem
import Sintius.Spec.TenantContext

/-! `apps/api/src/http/server.ts`: the tenant context of a request. -/

namespace Sintius.Api

open Js Sintius.Tenancy

inductive HeaderValue where
  | absent
  | single (value : String)
  | repeated (values : List String)

/-- `singleHeader` -/
def HeaderValue.singleHeader : HeaderValue → Option String
  | .single value => some value
  | _ => none

/-- What a request has when its tenant is resolved; `body` is absent where nothing was sent. -/
structure TenantRequest where
  principal : AuthenticatedPrincipal
  activeTenant : HeaderValue
  body : Option JsonValue
  correlationId : String
  causationId : Option String

/-- `dependencies.tenantStates.stateOf`, which may fail. -/
abbrev TenantStates := TenantId → String → Except Failure (Option TenantOperationalState)

/-- The outcome of a request, with the tenants whose state was asked for. -/
structure Resolution where
  result : Except Failure TenantContext
  consulted : List TenantId

/-- The selector, or the one membership. -/
def TenantRequest.selected (request : TenantRequest) : Option String :=
  match request.activeTenant.singleHeader with
  | some selector => some selector
  | none =>
    match request.principal.tenantMemberships with
    | [membership] => some membership
    | _ => none

/-- The selected tenant, where there is one. -/
def selectTenant (request : TenantRequest) : Except Failure TenantId :=
  match request.selected with
  | none => refuse .tenant_access_denied
      "Select one of your tenants with the x-active-tenant header." request.correlationId
  | some selected =>
    if nonBlank selected = false then
      refuse .tenant_access_denied "Select one of your tenants with the x-active-tenant header."
        request.correlationId
    else .ok selected

/-- `String(body.tenant_id)`, where the body has the property. -/
def bodyTenant (body : Option JsonValue) : Except Failure (Option String) :=
  match body.bind (JsonValue.property "tenant_id") with
  | none => .ok none
  | some value =>
    match value.toText with
    | none => .error (.error "TypeError: Cannot convert object to primitive value")
    | some text => .ok (some text)

section Language

variable (other : String → Option ℤ) (tenantStates : TenantStates)

/-- The context from what was looked up, or from the placeholder state. -/
def resolveSelected (request : TenantRequest) (selectedTenant : TenantId)
    (bodyTenantId : Option String) (tenantState : Option TenantOperationalState) (dateNow : ℤ) :
    Except Failure TenantContext :=
  match tenantState with
  | none => refuse .tenant_access_denied
      "The authenticated principal is not authorized for the selected tenant."
      request.correlationId
  | some tenantState =>
    resolveTenantContext other
      { principal := request.principal
        selectedTenantId := selectedTenant
        tenantState := tenantState
        correlationId := request.correlationId
        causationId := request.causationId
        bodyTenantId := bodyTenantId } dateNow

/-- `resolveTenant`; `Date.now()` is an argument. -/
def resolveTenant (request : TenantRequest) (dateNow : ℤ) : Resolution :=
  let prepared := do
    let selected ← selectTenant request
    let bodyTenantId ← bodyTenant request.body
    let selectedTenant ← tenantId selected
    .ok (selectedTenant, bodyTenantId)
  match prepared with
  | .error e => ⟨.error e, []⟩
  | .ok (selectedTenant, bodyTenantId) =>
    if selectedTenant ∈ request.principal.tenantMemberships ∧ bodyTenantId = none then
      match tenantStates selectedTenant request.correlationId with
      | .error e => ⟨.error e, [selectedTenant]⟩
      | .ok tenantState =>
        ⟨resolveSelected other request selectedTenant bodyTenantId tenantState dateNow,
          [selectedTenant]⟩
    else
      -- the placeholder state
      ⟨resolveSelected other request selectedTenant bodyTenantId (some .ACTIVE) dateNow, []⟩

end Language

end Sintius.Api
