import Mathlib
import Sintius.Lib.Date
import Sintius.Lib.Double
import Sintius.Lib.Text
import Sintius.Lib.Transaction
import Sintius.Spec.Problem
import Sintius.Spec.TenantContext
import Sintius.Spec.Canonical
import Sintius.Spec.Queue
import Sintius.Spec.EventEnvelope
import Sintius.Spec.AuditRecorder
import Sintius.Spec.Idempotency
import Sintius.Spec.Tenant
import Sintius.Spec.Approval
import Sintius.Spec.ApprovalStore

/-! The two persisted aggregates between memory and their tables: what a caller
holds after any number of writes and loads, and what a load gives it. -/

namespace Sintius.Identity

open Js Js.Date Sintius.Tenancy Sintius.Outbox Sql

/-- A row of `tenant` as the driver hands it over. -/
structure TenantColumns where
  tenant_id : String
  display_name : String
  state : String
  row_version : String
  created_at : Instant
  updated_at : Instant

def tenantColumns (row : TenantSnapshot) : TenantColumns where
  tenant_id := row.id
  display_name := row.displayName
  state := stateText row.state
  row_version := Approval.bigintText row.version
  created_at := row.createdAt
  updated_at := row.updatedAt

/-- `String(row.state) as TenantState`; a CHECK constraint admits nothing else. -/
def stateOf (text : String) : Except Failure TenantState :=
  match text with
  | "PROVISIONING" => .ok .PROVISIONING
  | "ACTIVE" => .ok .ACTIVE
  | "SUSPENDED" => .ok .SUSPENDED
  | "CLOSED" => .ok .CLOSED
  | _ => .error checkViolation

/-- `snapshot`, column by column. -/
def snapshotFrom (columns : TenantColumns) : Except Failure TenantSnapshot := do
  let id ← tenantId columns.tenant_id
  let state ← stateOf columns.state
  let version ← Approval.numberOf columns.row_version
  let createdAt ← isoDate columns.created_at
  let updatedAt ← isoDate columns.updated_at
  .ok ⟨id, columns.display_name, state, version, createdAt, updatedAt⟩

/-- What `findById` gives of a committed row. -/
def IdentityDb.load (d : IdentityDb) (id : TenantId) : Except Failure (Option TenantSnapshot) :=
  match d.tenant id with
  | none => .ok none
  | some row => do
    let current ← snapshotFrom (tenantColumns row)
    .ok (some current)

/-- What a caller holds of a tenant whose row it was the last to write or to load. -/
inductive Holds : IdentityDb → TenantSnapshot → Prop where
  | provisioned {d : IdentityDb} {id : TenantId} {displayName : String} {now : Option Instant}
      {change : TenantChange} {n : ℕ} {r : Outcome IdentityDb RowLock Unit}
      (hid : nonBlank id = true) (hprovision : provisionTenant id displayName now = .ok change)
      (hinsert : insertTenantRow change.tenant n d = .ok r) : Holds (r.change d) change.tenant
  | loaded {d : IdentityDb} {tenant current : TenantSnapshot} (h : Holds d tenant)
      (hload : d.load tenant.id = .ok (some current)) : Holds d current
  | transitioned {d : IdentityDb} {tenant : TenantSnapshot} {target : LifecycleTarget}
      {expectedVersion : Number} {now : Option Instant} {change : TenantChange} {n : ℕ}
      {r : Outcome IdentityDb RowLock ℕ} (h : Holds d tenant)
      (htransition : transitionTenant tenant target expectedVersion now = .ok change)
      (hupdate : updateTenantRow change.tenant tenant.version n d = .ok r) (hone : r.result = 1) :
      Holds (r.change d) change.tenant
  /-- Other rows change meanwhile. -/
  | elsewhere {d d' : IdentityDb} {tenant : TenantSnapshot} (h : Holds d tenant)
      (hsame : d'.tenant tenant.id = d.tenant tenant.id) : Holds d' tenant

end Sintius.Identity

namespace Sintius.Approval

open Js Js.Date Sintius.Outbox Sql

section Language

variable (other : String → Option ℤ) (secondsAfter : Instant → Js.Number → Option Instant)
  (timestamptz : String → Option Instant)

/-- What `findById` gives of a committed row. -/
def ApprovalDb.load (d : ApprovalDb) (tenantId : TenantId) (id : String) :
    Except Failure (Option ApprovalRequest) :=
  match d.approval_request (tenantId, id) with
  | none => .ok none
  | some row => do
    let request ← requestFrom row
    .ok (some request)

/-- What a caller holds of a request whose row it was the last to write or to load. -/
inductive Holds : ApprovalDb → ApprovalRequest → Prop where
  | proposed {d : ApprovalDb} {input : ProposeApprovalInput} {now : Option Instant}
      {request : ApprovalRequest} {n : ℕ} {r : Outcome ApprovalDb RequestLock Unit}
      (htenant : nonBlank input.policy.tenantId = true) (hmaker : nonBlank input.makerId = true)
      (hpropose : proposeApproval secondsAfter input now = .ok request)
      (hinsert : insertApprovalRow timestamptz request n d = .ok r) : Holds (r.change d) request
  | loaded {d : ApprovalDb} {request current : ApprovalRequest} (h : Holds d request)
      (hload : d.load request.tenantId request.id = .ok (some current)) : Holds d current
  | decided {d : ApprovalDb} {request next : ApprovalRequest} {input : DecideApprovalInput}
      {now : Option Instant} {n : ℕ} {r : Outcome ApprovalDb RequestLock (Except String ℕ)} (h : Holds d request)
      (happrover : nonBlank input.approverId = true)
      (hdecide : decideApproval other request input now = .ok next)
      (hupdate : updateApprovalRow next request.version n d = .ok r) (hone : r.result = .ok 1) :
      Holds (r.change d) next
  | cancelled {d : ApprovalDb} {request next : ApprovalRequest} {actorId : ActorId}
      {expectedVersion : Js.Number} {n : ℕ} {r : Outcome ApprovalDb RequestLock (Except String ℕ)}
      (h : Holds d request) (hcancel : cancelApproval request actorId expectedVersion = .ok next)
      (hupdate : updateApprovalRow next request.version n d = .ok r) (hone : r.result = .ok 1) :
      Holds (r.change d) next
  /-- Other rows change meanwhile. -/
  | elsewhere {d d' : ApprovalDb} {request : ApprovalRequest} (h : Holds d request)
      (hsame : d'.approval_request (request.tenantId, request.id) =
        d.approval_request (request.tenantId, request.id)) : Holds d' request

end Language

end Sintius.Approval
