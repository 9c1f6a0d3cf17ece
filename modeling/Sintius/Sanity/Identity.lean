import Mathlib
import Sintius.Lib.Except
import Sintius.Lib.Table
import Sintius.Lib.Transaction
import Sintius.Lib.Utf16
import Sintius.Spec.Problem
import Sintius.Spec.TenantContext
import Sintius.Spec.Canonical
import Sintius.Spec.Queue
import Sintius.Spec.EventEnvelope
import Sintius.Spec.AuditRecorder
import Sintius.Spec.Idempotency
import Sintius.Spec.Tenant
import Sintius.Spec.Roles
import Sintius.Proofs.Evidence

/-! What each statement of the identity module can do, what it leaves alone, and what
its audit rows and outbox entries are counted as. -/

namespace Sintius.Identity

open Js Js.Date Sintius.Canonical Sintius.Tenancy Sintius.Outbox Sintius.Audit
  Sintius.Idempotency Sql

/-- A Tenant event of this tenant. -/
def isTenantEvent (t : TenantId) (entry : OutboxEntry IdentityEventData) : Bool :=
  entry.envelope.tenant_id == t && entry.envelope.aggregate_type == "Tenant"

/-- A `tenant.*` audit row of this tenant. -/
def isTenantAudit (t : TenantId) (row : AuditEvent) : Bool :=
  row.tenantId == units t && (ascii "tenant.").isPrefixOf row.action

def isRoleEvent (kind : RoleChange) (entry : OutboxEntry IdentityEventData) : Bool :=
  entry.envelope.type == "com.subrevos.role." ++ kind.text ++ ".v1"

def isRoleAudit (kind : RoleChange) (row : AuditEvent) : Bool :=
  row.action == ascii ("role." ++ kind.text)

def RoleAssignment.isOf (t : TenantId) (code : String) (row : RoleAssignment) : Bool :=
  row.tenant_id == t && row.role_code == code

namespace IdentityDb

def tenantEvents (d : IdentityDb) (t : TenantId) : Table IdentityEventData :=
  d.outbox_event.filter (isTenantEvent t)

def tenantAudits (d : IdentityDb) (t : TenantId) : List AuditEvent :=
  d.audit_event.filter (isTenantAudit t)

def roleEvents (d : IdentityDb) (kind : RoleChange) : Table IdentityEventData :=
  d.outbox_event.filter (isRoleEvent kind)

def roleAudits (d : IdentityDb) (kind : RoleChange) : List AuditEvent :=
  d.audit_event.filter (isRoleAudit kind)

def assignmentsOf (d : IdentityDb) (t : TenantId) (code : String) : List RoleAssignment :=
  d.tenant_role_assignment.filter (RoleAssignment.isOf t code)

def setPolicies (t : TenantId) (policies : List DefaultApprovalPolicy) (d : IdentityDb) :
    IdentityDb :=
  policies.foldl (fun d policy => d.setPolicy (t, policy.actionType) policy.toApprovalPolicyRow) d

end IdentityDb

/-- What a lock guards: a tenant's row, events and audit rows; a role's row and assignments. -/
def SameUnder : RowLock → IdentityDb → IdentityDb → Prop
  | .tenant t, d, d' => d.tenant t = d'.tenant t ∧ d.tenantEvents t = d'.tenantEvents t ∧
      d.tenantAudits t = d'.tenantAudits t
  | .role t code, d, d' => d.tenant_role (t, code) = d'.tenant_role (t, code) ∧
      d.assignmentsOf t code = d'.assignmentsOf t code

theorem sameUnder_equivalence (k : RowLock) : Equivalence (SameUnder k) := by
  cases k with
  | tenant t =>
    refine ⟨fun _ => ⟨rfl, rfl, rfl⟩, ?_, ?_⟩
    · rintro d d' ⟨h₁, h₂, h₃⟩
      exact ⟨h₁.symm, h₂.symm, h₃.symm⟩
    · rintro d d' d'' ⟨h₁, h₂, h₃⟩ ⟨h₁', h₂', h₃'⟩
      exact ⟨h₁.trans h₁', h₂.trans h₂', h₃.trans h₃'⟩
  | role t code =>
    refine ⟨fun _ => ⟨rfl, rfl⟩, ?_, ?_⟩
    · rintro d d' ⟨h₁, h₂⟩
      exact ⟨h₁.symm, h₂.symm⟩
    · rintro d d' d'' ⟨h₁, h₂⟩ ⟨h₁', h₂'⟩
      exact ⟨h₁.trans h₁', h₂.trans h₂'⟩

section Frame

variable {k : RowLock} {d : IdentityDb}

theorem sameUnder_setTenant {row : TenantSnapshot} (hk : k ≠ .tenant row.id) :
    SameUnder k d (d.setTenant row) := by
  cases k with
  | tenant t =>
    have hne : t ≠ row.id := by
      rintro rfl
      exact hk rfl
    exact ⟨(Function.update_of_ne hne _ _).symm, rfl, rfl⟩
  | role t code => exact ⟨rfl, rfl⟩

theorem sameUnder_setRole {t : TenantId} {code : String} {row : TenantRole}
    (hk : k ≠ .role t code) : SameUnder k d (d.setRole (t, code) row) := by
  cases k with
  | tenant t' => exact ⟨rfl, rfl, rfl⟩
  | role t' code' =>
    have hne : (t', code') ≠ (t, code) := by
      intro h
      cases h
      exact hk rfl
    exact ⟨(Function.update_of_ne hne _ _).symm, rfl⟩

theorem sameUnder_setPolicy {key : TenantId × String} {row : ApprovalPolicyRow} :
    SameUnder k d (d.setPolicy key row) := by
  cases k with
  | tenant t => exact ⟨rfl, rfl, rfl⟩
  | role t code => exact ⟨rfl, rfl⟩

theorem not_isOf {row : RoleAssignment} {t : TenantId} {code : String}
    (h : RowLock.role t code ≠ .role row.tenant_id row.role_code) : row.isOf t code = false := by
  unfold RoleAssignment.isOf
  by_contra hof
  simp only [Bool.not_eq_false, Bool.and_eq_true, beq_iff_eq] at hof
  exact h (by rw [hof.1, hof.2])

theorem sameUnder_addAssignment {row : RoleAssignment}
    (hk : k ≠ .role row.tenant_id row.role_code) : SameUnder k d (d.addAssignment row) := by
  cases k with
  | tenant t => exact ⟨rfl, rfl, rfl⟩
  | role t code =>
    refine ⟨rfl, ?_⟩
    simp [IdentityDb.assignmentsOf, IdentityDb.addAssignment, not_isOf hk]

/-- Changing the status of rows of one role. -/
theorem sameUnder_updateAssignments {t : TenantId} {code : String}
    {selects : RoleAssignment → Bool} {status : AssignmentStatus}
    (hselects : ∀ row, selects row = true → row.isOf t code = true)
    (hk : k ≠ .role t code) : SameUnder k d (d.updateAssignments selects (setStatus status)) := by
  cases k with
  | tenant t' => exact ⟨rfl, rfl, rfl⟩
  | role t' code' =>
    refine ⟨rfl, (filter_update ?_).symm⟩
    intro row hs
    have hother : row.isOf t' code' = false := by
      have hof := hselects row hs
      simp only [RoleAssignment.isOf, Bool.and_eq_true, beq_iff_eq] at hof
      apply not_isOf
      rw [hof.1, hof.2]
      exact hk
    exact ⟨hother, hother⟩

theorem sameUnder_addAudit {event : AuditEvent}
    (hk : ∀ t, isTenantAudit t event = true → k ≠ .tenant t) :
    SameUnder k d (d.addAudit event) := by
  cases k with
  | role t code => exact ⟨rfl, rfl⟩
  | tenant t =>
    refine ⟨rfl, rfl, ?_⟩
    have hother : isTenantAudit t event = false := by
      by_contra h
      exact hk t (by simpa using h) rfl
    simp [IdentityDb.tenantAudits, IdentityDb.addAudit, hother]

theorem sameUnder_addEvent {entry : OutboxEntry IdentityEventData}
    (hk : ∀ t, isTenantEvent t entry = true → k ≠ .tenant t) :
    SameUnder k d (d.addEvent entry) := by
  cases k with
  | role t code => exact ⟨rfl, rfl⟩
  | tenant t =>
    refine ⟨rfl, ?_, rfl⟩
    have hother : isTenantEvent t entry = false := by
      by_contra h
      exact hk t (by simpa using h) rfl
    simp [IdentityDb.tenantEvents, IdentityDb.addEvent, hother]

end Frame

section Rows

/-- The evidence of a change of a tenant. -/
structure TenantAudit (t : TenantId) (event : AuditEvent) : Prop where
  tenantId : event.tenantId = units t
  action : ∃ type : TenantEventType, event.action = withoutVersion (ascii type.text)

/-- The outbox entry of a change of a tenant. -/
structure TenantEntry (t : TenantId) (version : ℕ) (data : IdentityEventData)
    (entry : OutboxEntry IdentityEventData) : Prop where
  tenant_id : entry.envelope.tenant_id = t
  type : ∃ type : TenantEventType, entry.envelope.type = "com.subrevos." ++ type.text
  aggregate_type : entry.envelope.aggregate_type = "Tenant"
  aggregate_version : entry.envelope.aggregate_version = version
  data : entry.envelope.data = data

/-- The evidence of a change of an assignment. -/
def RoleAudit (kind : RoleChange) (event : AuditEvent) : Prop :=
  event.action = ascii ("role." ++ kind.text)

structure RoleEntry (kind : RoleChange) (entry : OutboxEntry IdentityEventData) : Prop where
  type : entry.envelope.type = "com.subrevos." ++ ("role." ++ kind.text ++ ".v1")
  aggregate_type : entry.envelope.aggregate_type = "RoleAssignment"

variable {t t' : TenantId} {version : ℕ} {data : IdentityEventData} {kind kind' : RoleChange}
  {event : AuditEvent} {entry : OutboxEntry IdentityEventData}

theorem TenantAudit.isTenantAudit (h : TenantAudit t event) :
    isTenantAudit t' event = decide (t' = t) := by
  obtain ⟨type, haction⟩ := h.action
  have hfront : (ascii "tenant.").isPrefixOf event.action = true := by
    rw [haction]
    cases type <;> decide
  rw [Identity.isTenantAudit, hfront, h.tenantId, Bool.and_true, Bool.eq_iff_iff]
  simp only [beq_iff_eq, decide_eq_true_eq]
  exact ⟨fun h => units_injective h.symm, fun h => by rw [h]⟩

theorem TenantAudit.not_isRoleAudit (h : TenantAudit t event) : isRoleAudit kind event = false := by
  obtain ⟨type, haction⟩ := h.action
  rw [isRoleAudit, haction]
  cases type <;> cases kind <;> decide

theorem RoleAudit.isRoleAudit (h : RoleAudit kind event) :
    isRoleAudit kind' event = decide (kind' = kind) := by
  rw [Identity.isRoleAudit, h]
  cases kind <;> cases kind' <;> decide

theorem RoleAudit.not_isTenantAudit (h : RoleAudit kind event) :
    isTenantAudit t event = false := by
  have hfront : (ascii "tenant.").isPrefixOf event.action = false := by
    rw [h]
    cases kind <;> decide
  rw [isTenantAudit, hfront, Bool.and_false]

theorem TenantEntry.isTenantEvent (h : TenantEntry t version data entry) :
    isTenantEvent t' entry = decide (t' = t) := by
  rw [Identity.isTenantEvent, h.tenant_id, h.aggregate_type, Bool.eq_iff_iff]
  simp only [beq_self_eq_true, Bool.and_true, beq_iff_eq, decide_eq_true_eq]
  exact eq_comm

theorem TenantEntry.not_isRoleEvent (h : TenantEntry t version data entry) :
    isRoleEvent kind entry = false := by
  obtain ⟨type, htype⟩ := h.type
  rw [isRoleEvent, htype]
  cases type <;> cases kind <;> decide

theorem RoleEntry.isRoleEvent (h : RoleEntry kind entry) :
    isRoleEvent kind' entry = decide (kind' = kind) := by
  rw [Identity.isRoleEvent, h.type]
  cases kind <;> cases kind' <;> decide

theorem RoleEntry.not_isTenantEvent (h : RoleEntry kind entry) :
    isTenantEvent t entry = false := by
  rw [isTenantEvent, h.aggregate_type]
  simp

end Rows

section Statements

variable {n : ℕ} {d : IdentityDb}

theorem insertTenantRow_cases {tenant : TenantSnapshot} {r : Outcome IdentityDb RowLock Unit}
    (h : insertTenantRow tenant n d = .ok r) :
    d.tenant tenant.id = none ∧
      r = ⟨(), IdentityDb.setTenant tenant, some (.tenant tenant.id)⟩ := by
  unfold insertTenantRow at h
  by_cases hdated : isTimestamp tenant.createdAt = false ∨ isTimestamp tenant.updatedAt = false
  · rw [if_pos hdated] at h
    cases h
  rw [if_neg hdated] at h
  cases hrow : d.tenant tenant.id with
  | some row =>
    rw [hrow] at h
    cases h
  | none =>
    rw [hrow] at h
    dsimp only at h
    split_ifs at h
    cases h
    exact ⟨rfl, rfl⟩

/-- The update changes the row it finds at the version it expects, or none. -/
theorem updateTenantRow_cases {tenant : TenantSnapshot} {expectedVersion : ℕ}
    {r : Outcome IdentityDb RowLock ℕ} (h : updateTenantRow tenant expectedVersion n d = .ok r) :
    r = ⟨0, id, none⟩ ∨
    ∃ row, d.tenant tenant.id = some row ∧ row.version = expectedVersion ∧
      r = ⟨1, IdentityDb.setTenant { tenant with createdAt := row.createdAt },
        some (.tenant tenant.id)⟩ := by
  unfold updateTenantRow at h
  by_cases hdated : isTimestamp tenant.updatedAt = false
  · rw [if_pos hdated] at h
    cases h
  rw [if_neg hdated] at h
  cases hrow : d.tenant tenant.id with
  | none =>
    rw [hrow] at h
    cases h
    exact .inl rfl
  | some row =>
    rw [hrow] at h
    dsimp only at h
    split_ifs at h with hversion hchecks
    · cases h
      exact .inr ⟨row, rfl, hversion, rfl⟩
    · cases h
      exact .inl rfl

theorem insertRoleRow_cases {t : TenantId} {code : String} {role : TenantRole}
    {r : Outcome IdentityDb RowLock Unit} (h : insertRoleRow t code role n d = .ok r) :
    r = ⟨(), IdentityDb.setRole (t, code) role, some (.role t code)⟩ := by
  unfold insertRoleRow at h
  cases hrow : d.tenant_role (t, code) with
  | some row =>
    rw [hrow] at h
    cases h
  | none =>
    rw [hrow] at h
    cases h
    rfl

theorem insertAssignmentRow_cases {t : TenantId} {actor : ActorId} {code : String}
    {r : Outcome IdentityDb RowLock Unit} (h : insertAssignmentRow t actor code n d = .ok r) :
    r = ⟨(), IdentityDb.addAssignment ⟨t, actor, code, .active⟩, none⟩ := by
  unfold insertAssignmentRow at h
  split_ifs at h
  cases h
  rfl

theorem insertPolicyRow_cases {t : TenantId} {policy : DefaultApprovalPolicy}
    {r : Outcome IdentityDb RowLock Unit} (h : insertPolicyRow t policy n d = .ok r) :
    r = ⟨(), IdentityDb.setPolicy (t, policy.actionType) policy.toApprovalPolicyRow, none⟩ := by
  unfold insertPolicyRow at h
  cases hrow : d.approval_policy (t, policy.actionType) with
  | some row =>
    rw [hrow] at h
    cases h
  | none =>
    rw [hrow] at h
    cases h
    rfl

theorem insertAuditRow_cases {event : AuditEvent} {r : Outcome IdentityDb RowLock Unit}
    (h : insertAuditRow event n d = .ok r) : r = ⟨(), IdentityDb.addAudit event, none⟩ := by
  unfold insertAuditRow at h
  split_ifs at h
  cases h
  rfl

theorem insertOutboxRow_cases {envelope : EventEnvelope IdentityEventData}
    {r : Outcome IdentityDb RowLock Unit} (h : insertOutboxRow envelope n d = .ok r) :
    r = ⟨(), IdentityDb.addEvent (newEntry n none envelope envelope.recorded_at), none⟩ := by
  unfold insertOutboxRow at h
  split at h
  · cases h
  · cases h
    rfl

theorem selectRoleForUpdate_cases {t : TenantId} {code : String}
    {r : Outcome IdentityDb RowLock (Option TenantRole)}
    (h : selectRoleForUpdate t code n d = .ok r) :
    r = ⟨none, id, none⟩ ∨ ∃ role, r = ⟨some role, id, some (.role t code)⟩ := by
  unfold selectRoleForUpdate at h
  split at h
  · cases h
    exact .inl rfl
  · cases h
    exact .inr ⟨_, rfl⟩

/-- The upsert inserts a row, or makes revoked rows active. -/
theorem upsertAssignment_cases {t : TenantId} {actor : ActorId} {code : String}
    {r : Outcome IdentityDb RowLock ℕ} (h : upsertAssignment t actor code n d = .ok r) :
    r = ⟨rowCount (RoleAssignment.is t actor code .revoked) d.tenant_role_assignment,
      IdentityDb.updateAssignments (RoleAssignment.is t actor code .revoked) (setStatus .active),
      none⟩ ∨
    (∀ row ∈ d.tenant_role_assignment, row.hasKey t actor code = false) ∧
      r = ⟨1, IdentityDb.addAssignment ⟨t, actor, code, .active⟩, none⟩ := by
  unfold upsertAssignment at h
  split_ifs at h with hblank hany
  · cases h
    exact .inl rfl
  · cases h
    refine .inr ⟨?_, rfl⟩
    simpa using hany

end Statements

section Builders

variable {scope : EventScope}

/-- An envelope is stamped with its scope and its input. -/
theorem buildEventEnvelopeFor_eq_ok {Data : Type} {input : BuildEventInput Data}
    {newEventId : String} {recorded : Option Instant} {envelope : EventEnvelope Data}
    (h : buildEventEnvelopeFor scope input newEventId recorded = .ok envelope) :
    envelope.tenant_id = scope.tenantId ∧ envelope.type = "com.subrevos." ++ input.eventType ∧
      envelope.aggregate_type = input.aggregateType ∧ envelope.aggregate_id = input.aggregateId ∧
      envelope.aggregate_version = input.aggregateVersion ∧ envelope.data = input.data := by
  unfold buildEventEnvelopeFor at h
  simp only [Except.bind_eq_ok_iff] at h
  obtain ⟨_, _, _, _, aggregateType, htype, aggregateId, hid, _, _, _, _, h⟩ := h
  cases h
  exact ⟨rfl, rfl, requireNonBlank_eq_ok htype, requireNonBlank_eq_ok hid, rfl, rfl⟩

theorem recordForScope_eq_ok {recorder : AuditRecorder} {input : AuditRecordInput}
    {newId : String} {recorded : Option Instant} {event : AuditEvent}
    (h : recordForScope recorder scope input newId recorded = .ok event) :
    event.tenantId = units scope.tenantId ∧ event.action = input.action ∧
      event.actorId = units scope.actorId ∧ event.targetType = units input.targetType ∧
      event.targetId = units input.targetId := by
  unfold recordForScope at h
  simp only [Except.bind_eq_ok_iff] at h
  obtain ⟨_, _, _, _, _, _, _, _, _, _, _, _, h⟩ := h
  cases h
  exact ⟨rfl, rfl, rfl, rfl, rfl⟩

/-- A recorder with a policy for the target, and digests of 64 digits, records what passes its
checks, and the event passes those of its table. -/
theorem exists_checkedEvent (recorder : AuditRecorder) (scope : EventScope)
    (input : AuditRecordInput) (newId : String) (recorded : Option Instant) {at_ at' : Instant}
    (hpolicy : (recorder.allowedFields input.targetType).isSome)
    (hdigest : ∀ text, (recorder.sha256 text).length = 64)
    (haction : ACTION_PATTERN input.action = true ∧ input.action.any (· != 0x20) = true)
    (htarget : nonBlank input.targetType = true ∧ nonBlank input.targetId = true)
    (hinstants : checkTimestamps input.occurredAt recorded
      "Audit timestamps must be valid instants."
      "An audit event cannot occur after it is recorded." = .ok (at_, at'))
    (hid : (units newId).any (· != 0x20) = true)
    (hcorrelation : (units scope.correlationId).any (· != 0x20) = true) :
    ∃ event, recordForScope recorder scope input newId recorded = .ok event ∧
      event.tenantId = units scope.tenantId ∧ event.auditEventId = units newId ∧
      auditChecks event = true := by
  obtain ⟨allowed, hallowed⟩ := Option.isSome_iff_exists.mp hpolicy
  have hsnapshot : ∀ fields, ∃ snapshot, toSafeSnapshot recorder input.targetType fields =
      .ok snapshot := by
    intro fields
    cases fields with
    | none => exact ⟨_, rfl⟩
    | some fields => exact ⟨_, by rw [toSafeSnapshot, hallowed]⟩
  obtain ⟨before, hbefore⟩ := hsnapshot input.before
  obtain ⟨after, hafter⟩ := hsnapshot input.after
  obtain ⟨event, text, hevent, hauditId, hsame, hscope, hhash⟩ :=
    exists_recordForScope recorder scope input newId recorded haction.1 htarget.1 htarget.2
      hinstants hbefore hafter
  refine ⟨event, hevent, (recordForScope_eq_ok hevent).1, hauditId, ?_⟩
  unfold auditChecks
  rw [hauditId, hsame, hscope, hhash, hid, haction.2, hcorrelation, hdigest]
  rfl

theorem eventScopeForPlatformCommand_eq_ok {context : PlatformCommandContext} {t : TenantId}
    (h : eventScopeForPlatformCommand context t = .ok scope) :
    scope.tenantId = t ∧ scope.actorId = context.actorId := by
  unfold eventScopeForPlatformCommand at h
  obtain ⟨_, _, h⟩ := Except.bind_eq_ok_iff.mp h
  cases h
  exact ⟨rfl, rfl⟩

/-- What a transition makes of the row it was given. -/
theorem transitionTenant_eq_ok {current : TenantSnapshot} {target : LifecycleTarget}
    {expectedVersion : Number} {now : Option Instant} {change : TenantChange}
    (h : transitionTenant current target expectedVersion now = .ok change) :
    expectedVersion.integer? = some (current.version : ℤ) ∧
      target.state ∈ transitions current.state ∧ change.tenant.id = current.id ∧
      change.tenant.state = target.state ∧ change.tenant.version = current.version + 1 ∧
      change.event.aggregateVersion = current.version + 1 ∧
      change.tenant.createdAt = current.createdAt := by
  unfold transitionTenant at h
  simp only [Except.bind_eq_ok_iff, throwIf_eq_ok_iff, not_not] at h
  obtain ⟨_, hversion, _, hstate, occurredAt, _, h⟩ := h
  cases h
  exact ⟨hversion, hstate, rfl, rfl, rfl, rfl, rfl⟩

theorem provisionTenant_eq_ok {t : TenantId} {displayName : String} {now : Option Instant}
    {change : TenantChange} (h : provisionTenant t displayName now = .ok change) :
    change.tenant.id = t ∧ change.tenant.state = .PROVISIONING ∧ change.tenant.version = 1 ∧
      change.event.aggregateVersion = 1 := by
  unfold provisionTenant at h
  simp only [Except.bind_eq_ok_iff] at h
  obtain ⟨_, _, occurredAt, _, h⟩ := h
  cases h
  exact ⟨rfl, rfl, rfl, rfl⟩

theorem snapshot_eq_ok {row current : TenantSnapshot} (h : snapshot row = .ok current) :
    current.id = row.id ∧ current.state = row.state ∧ current.version = row.version := by
  unfold snapshot at h
  simp only [Except.bind_eq_ok_iff] at h
  obtain ⟨_, _, _, _, h⟩ := h
  cases h
  exact ⟨rfl, rfl, rfl⟩

end Builders

end Sintius.Identity
