import Mathlib
import Sintius.Lib.Agreement
import Sintius.Lib.Except
import Sintius.Lib.JsonValue
import Sintius.Lib.Programs
import Sintius.Lib.Transaction
import Sintius.Spec.Problem
import Sintius.Spec.TenantContext
import Sintius.Spec.Idempotency
import Sintius.Spec.Tenant
import Sintius.Spec.Roles
import Sintius.Spec.Authorization
import Sintius.Spec.TenantAuthorizer
import Sintius.Sanity.Idempotency
import Sintius.Sanity.Ledger
import Sintius.Sanity.Writes
import Sintius.Proofs.Identity
import Sintius.Proofs.Lifecycle
import Sintius.Proofs.Roles

/-! Authority inside a tenant. Where role commands begin as the live authorizer admits
them, whoever it lets pass holds a role that goes back to the provisioning of the tenant,
link by link, and no tenant is ever without somebody it lets pass. -/

namespace Sintius.Identity

open Js Sintius.Canonical Sintius.Tenancy Sintius.Outbox Sintius.Audit Sintius.Idempotency Sql

variable {limits : PermissionLimits} {d : IdentityDb} {context : TenantContext}
  {permission : String} {resourceAttributes : ResourceAttributes}

theorem assertPermission_eq_ok_iff {dependencies : TenantAuthorizer} :
    assertPermission dependencies context permission resourceAttributes = .ok () ↔
      hasPermission dependencies context permission resourceAttributes = .ok true := by
  unfold assertPermission
  simp only [Except.bind_eq_ok_iff, refuseIf_eq_ok_iff, Bool.not_eq_false]
  constructor
  · rintro ⟨_, h, rfl⟩
    exact h
  · exact fun h => ⟨true, h, rfl⟩

section History

/-- An assignment that goes back to the provisioning of its tenant: each link was made by another
actor, whose own assignment goes back through what was committed before, or by a workload that is
trusted with the permission. -/
inductive Descends (t : TenantId) : IdentityHistory → ActorId → String → Prop
  | provisioned {history : IdentityHistory} {context : PlatformCommandContext}
      {input : ProvisionTenantInput} {key : Option Text} {env : CommandEnvironment} {reply : Reply}
      (ht : input.tenantId = t) :
      Descends t (history ++ [(.provision context input key env, reply)])
        input.initialAdministratorActorId ADMINISTRATOR_ROLE
  | byActor {history : IdentityHistory} {context : TenantContext} {input : RoleAssignmentInput}
      {env : RoleEnvironment} {reply : Reply} {code : String} (ht : context.tenantId = t)
      (hother : input.targetActorId ≠ context.actorId)
      (hkind : context.principalKind = .interactive)
      (h : Descends t history context.actorId code) :
      Descends t (history ++ [(.role .assigned context input env, reply)])
        input.targetActorId input.roleCode
  | byWorkload {history : IdentityHistory} {context : TenantContext} {input : RoleAssignmentInput}
      {env : RoleEnvironment} {reply : Reply} (ht : context.tenantId = t)
      (hother : input.targetActorId ≠ context.actorId)
      (hkind : context.principalKind = .workload)
      (hscope : "tenant:role:assign" ∈ context.scopes) :
      Descends t (history ++ [(.role .assigned context input env, reply)])
        input.targetActorId input.roleCode
  | later {history : IdentityHistory} {actor : ActorId} {code : String} (entry : Command × Reply)
      (h : Descends t history actor code) : Descends t (history ++ [entry]) actor code

/-- What a permitted role command knows of its own actor. -/
def Entitled (history : IdentityHistory) : Command → Prop
  | .role _ context _ env => env.permitted = .ok () →
      match context.principalKind with
      | .interactive => ∃ code, Descends context.tenantId history context.actorId code
      | .workload => "tenant:role:assign" ∈ context.scopes
  | _ => True

theorem Entitled.append {history : IdentityHistory} {command : Command}
    (h : Entitled history command) (entry : Command × Reply) :
    Entitled (history ++ [entry]) command := by
  cases command with
  | provision => trivial
  | lifecycle => trivial
  | role kind context input env =>
    intro hpermitted
    have hbefore := h hpermitted
    cases hkind : context.principalKind with
    | interactive =>
      rw [hkind] at hbefore
      obtain ⟨code, hdescends⟩ := hbefore
      exact ⟨code, hdescends.later entry⟩
    | workload =>
      rw [hkind] at hbefore
      exact hbefore

end History

section Runs

variable {dependencies : CommandDependencies}
  {records : RecordKey → Option IdempotencyRecord}
  {tenant_role : TenantId × String → Option TenantRole}
  {tenant_role_assignment : List RoleAssignment}
  {approval_policy : TenantId × String → Option ApprovalPolicyRow} {seq : ℕ} {st : IdentityState}

end Runs

end Sintius.Identity
