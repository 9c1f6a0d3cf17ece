import Mathlib
import Sintius.Lib.Except
import Sintius.Lib.Programs
import Sintius.Lib.Transaction
import Sintius.Lib.Utf16
import Sintius.Spec.Problem
import Sintius.Spec.TenantContext
import Sintius.Spec.Canonical
import Sintius.Spec.Queue
import Sintius.Spec.EventEnvelope
import Sintius.Spec.AuditRecorder
import Sintius.Spec.Idempotency
import Sintius.Spec.Tenant
import Sintius.Spec.Roles
import Sintius.Sanity.Idempotency
import Sintius.Sanity.Identity

/-! What a transaction of the identity module makes of its tables, whatever it saw. -/

namespace Sintius.Idempotency

open Sintius.Canonical Sintius.Tenancy Sql

variable {E K Ref : Type}

theorem Store.mapEffects_id : (Store.mapEffects id : Store E → Store E) = id := rfl

theorem Store.mapEffects_comp (f g : E → E) :
    Store.mapEffects g ∘ Store.mapEffects f = Store.mapEffects (g ∘ f) := rfl

/-- A claim, or a completion, is a matter of the records. -/
def OnRecords (change : Store E → Store E) : Prop := ∀ d, (change d).effects = d.effects

theorem OnRecords.id : OnRecords (id : Store E → Store E) := fun _ => rfl

theorem OnRecords.comp {f g : Store E → Store E} (hg : OnRecords g) (hf : OnRecords f) :
    OnRecords (g ∘ f) := fun d => (hg (f d)).trans (hf d)

theorem onRecords_insertClaim {input : ClaimInput} {n : ℕ} {d : Store E}
    {r : Outcome (Store E) (RecordKey ⊕ K) ℕ} (h : insertClaim input n d = .ok r) :
    OnRecords r.change := by
  unfold insertClaim at h
  split at h
  · cases h
    exact .id
  · split_ifs at h
    cases h
    exact fun _ => rfl

theorem onRecords_replaceExpired {input : ClaimInput} {n : ℕ} {d : Store E}
    {r : Outcome (Store E) (RecordKey ⊕ K) ℕ} (h : replaceExpired input n d = .ok r) :
    OnRecords r.change := by
  unfold replaceExpired at h
  split at h
  · cases h
    exact .id
  · split_ifs at h
    · cases h
      exact fun _ => rfl
    · cases h
      exact .id

theorem onRecords_updateCompleted {key : RecordKey} {response : StoredResponse} {n : ℕ}
    {d : Store E} {r : Outcome (Store E) (RecordKey ⊕ K) ℕ}
    (h : updateCompleted key response n d = .ok r) : OnRecords r.change := by
  unfold updateCompleted at h
  split at h
  · cases h
    exact .id
  · split_ifs at h
    · cases h
      exact fun _ => rfl
    · cases h
      exact .id

theorem onRecords_claim {bound : TenantId} {input : ClaimInput} {result : ClaimResult}
    {change : Store E → Store E}
    (h : (claim bound input : StoreTx E K ClaimResult).Produces result change) :
    OnRecords change := by
  obtain ⟨_, _, h⟩ := Tx.produces_lift_bind h
  obtain ⟨inserted, first, rest, hinsert, hrest, rfl⟩ := Tx.produces_bind h
  obtain ⟨n, d, r, hrun, rfl, rfl⟩ := Tx.produces_statement hinsert
  refine OnRecords.comp ?_ (onRecords_insertClaim hrun)
  split_ifs at hrest
  · obtain ⟨-, rfl⟩ := Tx.produces_done hrest
    exact .id
  obtain ⟨replaced, second, rest', hreplace, hrest', rfl⟩ := Tx.produces_bind hrest
  obtain ⟨n, d, r, hrun, rfl, rfl⟩ := Tx.produces_statement hreplace
  refine OnRecords.comp ?_ (onRecords_replaceExpired hrun)
  split_ifs at hrest'
  · obtain ⟨-, rfl⟩ := Tx.produces_done hrest'
    exact .id
  obtain ⟨existing, third, last, hselect, hlast, rfl⟩ := Tx.produces_bind hrest'
  obtain ⟨n, d, r, hrun, rfl, rfl⟩ := Tx.produces_statement hselect
  cases hrun
  refine OnRecords.comp ?_ .id
  cases hrecord : d.records input.recordKey with
  | none =>
    rw [hrecord] at hlast
    cases hlast
  | some record =>
    rw [hrecord] at hlast
    obtain ⟨_, _, hlast⟩ := Tx.produces_lift_bind hlast
    obtain ⟨-, rfl⟩ := Tx.produces_done hlast
    exact .id

theorem onRecords_complete {bound : TenantId} {input : ClaimInput} {response : StoredResponse}
    {change : Store E → Store E}
    (h : (complete bound input response : StoreTx E K Unit).Produces () change) :
    OnRecords change := by
  obtain ⟨_, _, h⟩ := Tx.produces_lift_bind h
  obtain ⟨completed, first, rest, hupdate, hrest, rfl⟩ := Tx.produces_bind h
  obtain ⟨n, d, r, hrun, rfl, rfl⟩ := Tx.produces_statement hupdate
  refine OnRecords.comp ?_ (onRecords_updateCompleted hrun)
  split_ifs at hrest
  · cases hrest
  · obtain ⟨-, rfl⟩ := Tx.produces_done hrest
    exact .id

variable [DecidableEq Ref]

/-- A call is prepared; then it is answered from the records, or by its work, whose response is
stored and whose effects it has. -/
theorem produces_executeUntraced {dependencies : ExecutorDependencies} {call : Call E K Ref}
    {result : IdempotentResult} {change : Store E → Store E}
    (h : (executeUntraced dependencies call).Produces result change) :
    (∃ input, prepare dependencies call = .ok input) ∧
      (result.replayed = true ∧ OnRecords change ∨
        ∃ response part stored, call.work.Produces response part ∧
          storedResponse call.context response = .ok stored ∧ result = ⟨stored, false⟩ ∧
            ∀ d, (change d).effects = part d.effects) := by
  unfold executeUntraced at h
  cases hprepare : prepare dependencies call with
  | error e =>
    rw [hprepare] at h
    cases h
  | ok input =>
    rw [hprepare] at h
    refine ⟨⟨input, rfl⟩, ?_⟩
    obtain ⟨answer, first, rest, hclaim, hrest, rfl⟩ := Tx.produces_bind h
    have hfirst := onRecords_claim hclaim
    cases answer with
    | in_progress => cases hrest
    | existing tenantId record =>
      obtain ⟨hreplay, rfl⟩ := Tx.produces_lift hrest
      exact .inl ⟨congrArg IdempotentResult.replayed (replayed_of_replay hreplay),
        OnRecords.id.comp hfirst⟩
    | claimed =>
      obtain ⟨response, work, rest', hwork, hrest', rfl⟩ := Tx.produces_bind hrest
      obtain ⟨part, hpart, rfl⟩ := Tx.produces_zoom Store.mapEffects_id Store.mapEffects_comp hwork
      obtain ⟨stored, hstored, hrest'⟩ := Tx.produces_lift_bind hrest'
      obtain ⟨_, second, last, hcomplete, hlast, rfl⟩ := Tx.produces_bind hrest'
      obtain ⟨hresult, rfl⟩ := Tx.produces_done hlast
      refine .inr ⟨response, part, stored, hpart, hstored, hresult, fun d => ?_⟩
      have hsecond := onRecords_complete hcomplete (Store.mapEffects part (first d))
      exact hsecond.trans (congrArg part (hfirst d))

end Sintius.Idempotency

namespace Sintius.Identity

open Js Js.Date Sintius.Canonical Sintius.Tenancy Sintius.Outbox Sintius.Audit
  Sintius.Idempotency Sql

/-- The role that the administrators of a new tenant are given. -/
def administratorRole : TenantRole := ⟨["tenant:role:manage", "tenant:role:assign"], .active⟩

/-- The recorder made this row. -/
def Recorded (recorder : AuditRecorder) (event : AuditEvent) : Prop :=
  ∃ scope input newId recorded, recordForScope recorder scope input newId recorded = .ok event

def IdentityDb.mapAssignments (rows : List RoleAssignment → List RoleAssignment)
    (d : IdentityDb) : IdentityDb :=
  { d with tenant_role_assignment := rows d.tenant_role_assignment }

/-- Rows that were there, revoked ones, and those of an assignment. -/
def Assigns (context : TenantContext) (input : RoleAssignmentInput) (kind : RoleChange)
    (rows : List RoleAssignment → List RoleAssignment) : Prop :=
  ∀ before, ∀ row ∈ rows before, row ∈ before ∨ row.status = .revoked ∨
    (kind = .assigned ∧ row = ⟨context.tenantId, input.targetActorId, input.roleCode, .active⟩)

/-- What the transaction of a command makes of the tables. -/
inductive Writes (recorder : AuditRecorder) : Command → (IdentityDb → IdentityDb) → Prop
  | nothing {command : Command} : Writes recorder command id
  | provisioned {context : PlatformCommandContext} {input : ProvisionTenantInput}
      {key : Option Text} {env : CommandEnvironment} {tenant : TenantSnapshot}
      {event : AuditEvent} {entry : OutboxEntry IdentityEventData}
      (hid : tenant.id = input.tenantId) (hevent : Recorded recorder event) :
      Writes recorder (.provision context input key env) (IdentityDb.addEvent entry ∘
        IdentityDb.addAudit event ∘
        IdentityDb.setPolicies tenant.id DEFAULT_APPROVAL_POLICIES ∘
        IdentityDb.addAssignment
          ⟨tenant.id, input.initialAdministratorActorId, ADMINISTRATOR_ROLE, .active⟩ ∘
        IdentityDb.setRole (tenant.id, ADMINISTRATOR_ROLE) administratorRole ∘
        IdentityDb.setTenant tenant)
  | transitioned {command : LifecycleCommand} {context : PlatformCommandContext}
      {input : TenantLifecycleInput} {key : Option Text} {env : CommandEnvironment}
      {tenant : TenantSnapshot} {event : AuditEvent} {entry : OutboxEntry IdentityEventData}
      (hevent : Recorded recorder event) :
      Writes recorder (.lifecycle command context input key env) (IdentityDb.addEvent entry ∘
        IdentityDb.addAudit event ∘ IdentityDb.setTenant tenant)
  | role {kind : RoleChange} {context : TenantContext} {input : RoleAssignmentInput}
      {env : RoleEnvironment} {rows : List RoleAssignment → List RoleAssignment}
      {event : AuditEvent} {entry : OutboxEntry IdentityEventData}
      (hpermitted : env.permitted = .ok ()) (hother : input.targetActorId ≠ context.actorId)
      (hrows : Assigns context input kind rows) (hevent : Recorded recorder event) :
      Writes recorder (.role kind context input env) (IdentityDb.addEvent entry ∘
        IdentityDb.addAudit event ∘ IdentityDb.mapAssignments rows)

section Methods

variable {bound t : TenantId} {change : IdentityDb → IdentityDb}

theorem produces_appendAudit {event : AuditEvent}
    (h : (appendAudit bound event).Produces () change) : change = IdentityDb.addAudit event := by
  obtain ⟨_, _, h⟩ := Tx.produces_lift_bind h
  obtain ⟨n, d, r, hrun, -, rfl⟩ := Tx.produces_statement h
  unfold insertAuditRow at hrun
  split_ifs at hrun
  cases hrun
  rfl

theorem produces_appendOutbox {envelope : EventEnvelope IdentityEventData}
    (h : (appendOutbox bound envelope).Produces () change) :
    ∃ entry, change = IdentityDb.addEvent entry := by
  obtain ⟨_, _, h⟩ := Tx.produces_lift_bind h
  obtain ⟨n, d, r, hrun, -, rfl⟩ := Tx.produces_statement h
  unfold insertOutboxRow at hrun
  split at hrun
  · cases hrun
  · cases hrun
    exact ⟨_, rfl⟩

end Methods

section Commands

variable {dependencies : CommandDependencies} {change : IdentityDb → IdentityDb}

end Commands

end Sintius.Identity
