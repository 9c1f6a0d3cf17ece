import Mathlib
import Sintius.Lib.Date
import Sintius.Lib.Double
import Sintius.Lib.Except
import Sintius.Lib.Transaction
import Sintius.Lib.Agreement
import Sintius.Lib.Utf16
import Sintius.Spec.Problem
import Sintius.Spec.TenantContext
import Sintius.Spec.Canonical
import Sintius.Spec.Queue
import Sintius.Spec.EventEnvelope
import Sintius.Spec.AuditRecorder
import Sintius.Spec.Idempotency
import Sintius.Spec.Tenant
import Sintius.Spec.Roles
import Sintius.Sanity.Idempotency
import Sintius.Sanity.Identity
import Sintius.Sanity.Ledger
import Sintius.Proofs.Canonical
import Sintius.Proofs.Evidence
import Sintius.Proofs.Idempotency
import Sintius.Proofs.Isolation
import Sintius.Proofs.Identity

/-! However the commands on tenants interleave, the row of a tenant, its events and its
audit rows stay one story: a path of the transition table, numbered without gaps, that
nothing follows once the tenant is closed. -/

namespace Sintius.Identity

open Js Js.Date Sintius.Canonical Sintius.Tenancy Sintius.Outbox Sintius.Audit
  Sintius.Idempotency Sql

/-- The state that an event says its tenant came to. -/
def newState : IdentityEventData → Option TenantState
  | .provisioned _ new_state => some new_state
  | .transitioned _ new_state => some new_state
  | .role _ _ => none

/-- An event goes on from the one before it, along the transition table. -/
def Follows (earlier later : OutboxEntry IdentityEventData) : Prop :=
  ∃ s s', newState earlier.envelope.data = some s ∧ later.envelope.data = .transitioned s s' ∧
    s' ∈ transitions s

/-- The row of a tenant, its events and its audit rows agree. -/
structure TenantStory (row : Option TenantSnapshot) (events : Table IdentityEventData)
    (audits : List AuditEvent) : Prop where
  version : (row.map TenantSnapshot.version).getD 0 = events.length
  audited : audits.length = events.length
  numbered : events.map (fun e => e.envelope.aggregate_version) = List.range' 1 events.length
  ordered : events.Pairwise fun a b => a.entryId < b.entryId
  first : ∀ e ∈ events.head?, ∃ name, e.envelope.data = .provisioned name .PROVISIONING
  path : events.IsChain Follows
  last : (events.getLast?.bind fun e => newState e.envelope.data) =
    row.map TenantSnapshot.state

section Story

variable {t : TenantId} {states : List TenantState} {row : Option TenantSnapshot}
  {events : Table IdentityEventData} {audits : List AuditEvent}

/-- One more event at the end of a story. -/
theorem TenantStory.append {old new : TenantSnapshot} {entry : OutboxEntry IdentityEventData}
    {event : AuditEvent} (h : TenantStory (some old) events audits)
    (hstate : new.state ∈ transitions old.state) (hversion : new.version = old.version + 1)
    (hentry : TenantEntry t new.version (.transitioned old.state new.state) entry)
    (horder : ∀ e ∈ events, e.entryId < entry.entryId) :
    TenantStory (some new) (events ++ [entry]) (audits ++ [event]) := by
  have hlength : old.version = events.length := h.version
  obtain ⟨last, hlast, hlastState⟩ := Option.bind_eq_some_iff.mp h.last
  refine ⟨?_, ?_, ?_, ?_, ?_, ?_, ?_⟩
  · simp [hversion, hlength]
  · simp [h.audited]
  · rw [List.map_append, h.numbered, List.length_append, List.length_singleton,
      List.range'_1_concat, ← hlength, Nat.add_comm 1, ← hversion, ← hentry.aggregate_version]
    rfl
  · refine List.pairwise_append.mpr ⟨h.ordered, List.pairwise_singleton _ _, ?_⟩
    intro e he e' he'
    cases List.mem_singleton.mp he'
    exact horder e he
  · have hhead : (events ++ [entry]).head? = events.head? := by
      cases events with
      | nil => cases hlast
      | cons => rfl
    rw [hhead]
    exact h.first
  · refine List.isChain_append.mpr ⟨h.path, List.isChain_singleton _, ?_⟩
    intro e he e' he'
    cases hlast.symm.trans he
    cases he'
    exact ⟨old.state, new.state, hlastState, hentry.data, hstate⟩
  · simp [hentry.data, newState]

/-- The story that the commands keep is told by what they stored. -/
theorem TenantLog.story (h : TenantLog t states row events audits) :
    TenantStory row events audits := by
  induction h with
  | absent => exact ⟨rfl, rfl, rfl, .nil, by simp, .nil, rfl⟩
  | @provisioned row entry event name hstate hversion hentry _ =>
    refine ⟨hversion, rfl, ?_, List.pairwise_singleton _ _, ?_, List.isChain_singleton _, ?_⟩
    · simp [hentry.aggregate_version, hversion]
    · simp [hentry.data, hstate]
    · simp [hentry.data, newState]
  | transitioned _ hstate hversion hentry _ horder ih =>
    exact ih.append hstate hversion hentry horder

end Story

section Closed

variable {t : TenantId} {d d' d'' : IdentityDb} {command : Command} {reply : Reply}

/-- Nothing that the module keeps of a tenant differs. -/
structure Untouched (t : TenantId) (d d' : IdentityDb) : Prop where
  tenant : SameUnder (.tenant t) d d'
  roles : ∀ code, SameUnder (.role t code) d d'
  policies : ∀ action, d.approval_policy (t, action) = d'.approval_policy (t, action)

theorem Untouched.refl (t : TenantId) (d : IdentityDb) : Untouched t d d :=
  ⟨(sameUnder_equivalence _).refl d, fun _ => (sameUnder_equivalence _).refl d, fun _ => rfl⟩

theorem Untouched.trans (h : Untouched t d d') (h' : Untouched t d' d'') : Untouched t d d'' :=
  ⟨(sameUnder_equivalence _).trans h.tenant h'.tenant,
    fun code => (sameUnder_equivalence _).trans (h.roles code) (h'.roles code),
    fun action => (h.policies action).trans (h'.policies action)⟩

theorem Untouched.both {p : Prop} (h : Untouched t d d') :
    SameUnder (.tenant t) d d' ∧ (p → Untouched t d d') :=
  ⟨h.tenant, fun _ => h⟩

theorem untouched_setTenant {row : TenantSnapshot} (hne : t ≠ row.id) :
    Untouched t d (d.setTenant row) :=
  ⟨sameUnder_setTenant (by simpa using hne), fun _ => sameUnder_setTenant (by simp), fun _ => rfl⟩

theorem untouched_setRole {t' : TenantId} {code : String} {role : TenantRole} (hne : t ≠ t') :
    Untouched t d (d.setRole (t', code) role) :=
  ⟨sameUnder_setRole (by simp), fun _ => sameUnder_setRole (by simp [hne]), fun _ => rfl⟩

theorem untouched_addAssignment {t' : TenantId} {actor : ActorId} {code : String}
    {status : AssignmentStatus} (hne : t ≠ t') :
    Untouched t d (d.addAssignment ⟨t', actor, code, status⟩) :=
  ⟨sameUnder_addAssignment (by simp), fun _ => sameUnder_addAssignment (by simp [hne]),
    fun _ => rfl⟩

theorem untouched_setPolicies {t' : TenantId} {policies : List DefaultApprovalPolicy}
    (hne : t ≠ t') : Untouched t d (d.setPolicies t' policies) := by
  unfold IdentityDb.setPolicies
  induction policies generalizing d with
  | nil => exact .refl t d
  | cons policy policies ih =>
    have hfirst : Untouched t d (d.setPolicy (t', policy.actionType) policy.toApprovalPolicyRow) :=
      ⟨sameUnder_setPolicy, fun _ => sameUnder_setPolicy, fun _ =>
        (Function.update_of_ne (fun h => hne (congrArg Prod.fst h)) _ _).symm⟩
    exact hfirst.trans ih

theorem untouched_addAudit {t' : TenantId} {event : AuditEvent} (h : TenantAudit t' event)
    (hne : t ≠ t') : Untouched t d (d.addAudit event) := by
  refine ⟨sameUnder_addAudit ?_, fun _ => sameUnder_addAudit (by simp), fun _ => rfl⟩
  intro t'' ht
  rw [h.isTenantAudit, decide_eq_true_eq] at ht
  simpa [ht] using hne

theorem untouched_addEvent {t' : TenantId} {version : ℕ} {data : IdentityEventData}
    {entry : OutboxEntry IdentityEventData} (h : TenantEntry t' version data entry)
    (hne : t ≠ t') : Untouched t d (d.addEvent entry) := by
  refine ⟨sameUnder_addEvent ?_, fun _ => sameUnder_addEvent (by simp), fun _ => rfl⟩
  intro t'' ht
  rw [h.isTenantEvent, decide_eq_true_eq] at ht
  simpa [ht] using hne

/-- No tenant command touches a closed tenant, and a role command only its assignments. -/
theorem Effect.closed {row : TenantSnapshot} (h : Effect command reply d d')
    (hrow : d.tenant t = some row) (hclosed : row.state = .CLOSED) :
    SameUnder (.tenant t) d d' ∧ (command.isRole = false → Untouched t d d') := by
  cases h with
  | replayed => exact (Untouched.refl t d).both
  | @provisioned context input key env response _ row' role administrator policies event entry
      name hnone hid hstate hversion hentry haudit =>
    have hne : t ≠ input.tenantId := by
      rintro rfl
      rw [hnone] at hrow
      cases hrow
    have hid' : t ≠ row'.id := hid.symm ▸ hne
    refine Untouched.both ?_
    refine .trans ?_ (untouched_addEvent hentry hne)
    refine .trans ?_ (untouched_addAudit haudit hne)
    refine .trans ?_ (untouched_setPolicies hne)
    refine .trans ?_ (untouched_addAssignment hne)
    exact .trans (untouched_setTenant hid') (untouched_setRole hne)
  | @transitioned command context input key env response _ old new event entry hold hid hstate
      htransition hversion hexpected hentry haudit horder =>
    have hne : t ≠ input.tenantId := by
      rintro rfl
      cases hold.symm.trans hrow
      simp [hclosed, transitions] at htransition
    have hid' : t ≠ new.id := hid.symm ▸ hne
    refine Untouched.both ?_
    refine .trans ?_ (untouched_addEvent hentry hne)
    exact .trans (untouched_setTenant hid') (untouched_addAudit haudit hne)
  | role _ _ _ hentry _ haudit =>
    refine ⟨⟨rfl, ?_, ?_⟩, nofun⟩
    · exact (tenantEvents_addEvent_role hentry).symm
    · exact (tenantAudits_addAudit_role haudit).symm

end Closed

section Runs

variable {dependencies : CommandDependencies}

/-- Two commands that expect one version of a tenant do not both change it. -/
theorem Consistent.distinct {w : IdentityWorld} (h : Consistent w) :
    w.history.Pairwise fun a b => ∀ t v, versionExpected t a = some v →
      versionExpected t b ≠ some v := by
  refine List.pairwise_iff_forall_sublist.mpr fun {a b} hsub t v ha hb => ?_
  have hnodup : (expectations t w.history).Nodup := by
    rw [h.expected t]
    refine List.Nodup.map ?_ (List.nodup_range' _)
    intro x y hxy
    simpa using hxy
  have hpair := (hsub.filterMap (versionExpected t)).map Number.integer?
  rw [List.filterMap_cons_some ha, List.filterMap_cons_some hb] at hpair
  simpa using hnodup.sublist hpair

/-- What holds of the tenants, however their commands have interleaved. -/
structure LifecycleConsistent (dependencies : CommandDependencies) (st : IdentityState) :
    Prop where
  /-- The row of every tenant, its events and its audit rows agree. -/
  stories : ∀ t, TenantStory (st.world.db.effects.tenant t) (st.world.db.effects.tenantEvents t)
    (st.world.db.effects.tenantAudits t)
  /-- Nothing follows a closed tenant: no step changes its row, events or audit rows, and none that
  commits no role command changes anything of it. -/
  closed : ∀ st', Sql.Step (program dependencies) st st' → ∀ t row,
    st.world.db.effects.tenant t = some row → row.state = .CLOSED →
    SameUnder (.tenant t) st.world.db.effects st'.world.db.effects ∧
      ((∀ command reply, st'.world.history = st.world.history ++ [(command, reply)] →
        command.isRole = false) → Untouched t st.world.db.effects st'.world.db.effects)
  /-- Of the commands that expect one version of a tenant, at most one has changed it. -/
  distinct : st.world.history.Pairwise fun a b => ∀ t v, versionExpected t a = some v →
    versionExpected t b ≠ some v
  /-- A step changes a row of the module only where it commits a command that is executed: not one
  that is rejected, and not one that is replayed. -/
  unchanged : ∀ st', Sql.Step (program dependencies) st st' →
    (∀ command reply, st'.world.history = st.world.history ++ [(command, reply)] →
      reply.executed = false) → st'.world.db.effects = st.world.db.effects

/-- The lifecycle of every tenant is consistent in every reachable state. -/
theorem tenant_lifecycle_consistent {records : RecordKey → Option IdempotencyRecord}
    {tenant_role : TenantId × String → Option TenantRole}
    {tenant_role_assignment : List RoleAssignment}
    {approval_policy : TenantId × String → Option ApprovalPolicyRow} {seq : ℕ}
    {st : IdentityState} (h : Reachable (program dependencies)
      (withoutTenants records tenant_role tenant_role_assignment approval_policy seq) st) :
    LifecycleConsistent dependencies st := by
  have hsound := sound h
  have hconsistent : Consistent (effectsOf st.world) := hsound.inv
  refine ⟨fun t => (hconsistent.logs t).story, ?_, hconsistent.distinct, ?_⟩
  · intro st' hstep t row hrow hclosed
    rcases hsound.cases hstep with ⟨-, hdb⟩ | ⟨command, reply, hhistory, heffect⟩
    · rw [hdb]
      exact (Untouched.refl t _).both
    · obtain ⟨hsame, huntouched⟩ := Effect.closed heffect hrow hclosed
      exact ⟨hsame, fun hrole => huntouched (hrole command reply hhistory)⟩
  · intro st' hstep hexecuted
    rcases hsound.cases hstep with ⟨-, hdb⟩ | ⟨command, reply, hhistory, heffect⟩
    · rw [hdb]
    · have hreply := hexecuted command reply hhistory
      change Effect command reply st.world.db.effects st'.world.db.effects at heffect
      generalize st.world.db.effects = d at heffect ⊢
      generalize st'.world.db.effects = d' at heffect ⊢
      cases heffect with
      | replayed => rfl
      | provisioned => cases hreply
      | transitioned => cases hreply
      | role => cases hreply

end Runs

section Methods

variable {committed d : IdentityDb} {n : ℕ} {t : TenantId}

theorem assertTenantMatch_self (t : TenantId) : assertTenantMatch t t = .ok () := by
  simp [assertTenantMatch, throwIf]

theorem run_insertTenant {row : TenantSnapshot} (hnone : d.tenant row.id = none)
    (hdated : isTimestamp row.createdAt = true ∧ isTimestamp row.updatedAt = true)
    (hchecks : tenantChecks row = true) :
    (insertTenant row.id row).run committed n d = ⟨.ok (), n + 1, d.setTenant row⟩ := by
  have hinsert : insertTenantRow row n d =
      .ok ⟨(), IdentityDb.setTenant row, some (.tenant row.id)⟩ := by
    simp [insertTenantRow, hdated, hnone, hchecks]
  exact Tx.run_checked (assertTenantMatch_self _) hinsert

/-- A row whose timestamps are read back as they are is found as it is stored. -/
theorem run_findById {row : TenantSnapshot} (hrow : d.tenant t = some row)
    (hcreated : ofString row.createdAt = some row.createdAt)
    (hupdated : ofString row.updatedAt = some row.updatedAt) :
    (findById t t).run committed n d = ⟨.ok (some row), n + 1, d⟩ := by
  have hselect : selectTenant t n d = .ok ⟨some row, id, none⟩ := by
    rw [selectTenant, hrow]
  have hread : snapshot row = .ok row := by
    simp [snapshot, isoDate, hcreated, hupdated]
  refine (Tx.run_bind (Tx.run_lift (assertTenantMatch_self t))).trans ?_
  refine (Tx.run_bind (Tx.run_query hselect)).trans ?_
  exact (Tx.run_bind (Tx.run_lift hread)).trans rfl

theorem run_updateTenant {row tenant : TenantSnapshot} {expectedVersion : ℕ}
    (hrow : d.tenant tenant.id = some row) (hversion : row.version = expectedVersion)
    (hcreated : row.createdAt = tenant.createdAt) (hdated : isTimestamp tenant.updatedAt = true)
    (hchecks : tenantChecks tenant = true) :
    (updateTenant tenant.id tenant expectedVersion).run committed n d =
      ⟨.ok (), n + 1, d.setTenant tenant⟩ := by
  have hupdate : updateTenantRow tenant expectedVersion n d =
      .ok ⟨1, IdentityDb.setTenant tenant, some (.tenant tenant.id)⟩ := by
    simp [updateTenantRow, hrow, hversion, hdated, hcreated, hchecks]
  refine (Tx.run_bind (Tx.run_lift (assertTenantMatch_self _))).trans ?_
  exact (Tx.run_bind (Tx.run_query hupdate)).trans rfl

theorem run_insertDefaultAdministratorRole {code : String}
    (hnone : d.tenant_role (t, code) = none) :
    (insertDefaultAdministratorRole t t code).run committed n d =
      ⟨.ok (), n + 1, d.setRole (t, code)
        ⟨["tenant:role:manage", "tenant:role:assign"], .active⟩⟩ := by
  have hinsert : insertRoleRow t code ⟨["tenant:role:manage", "tenant:role:assign"], .active⟩ n d =
      .ok ⟨(), IdentityDb.setRole (t, code)
        ⟨["tenant:role:manage", "tenant:role:assign"], .active⟩, some (.role t code)⟩ := by
    simp [insertRoleRow, hnone]
  exact Tx.run_checked (assertTenantMatch_self _) hinsert

theorem run_insertInitialAdministrator {actor : ActorId} {code : String}
    (htrim : btrimNonEmpty actor = true)
    (hnew : d.tenant_role_assignment.any (RoleAssignment.hasKey t actor code) = false) :
    (insertInitialAdministrator t t actor code).run committed n d =
      ⟨.ok (), n + 1, d.addAssignment ⟨t, actor, code, .active⟩⟩ := by
  have hinsert : insertAssignmentRow t actor code n d =
      .ok ⟨(), IdentityDb.addAssignment ⟨t, actor, code, .active⟩, none⟩ := by
    simp [insertAssignmentRow, htrim, hnew]
  exact Tx.run_checked (assertTenantMatch_self _) hinsert

/-- Policies of different actions are new ones, each after those before it. -/
theorem run_insertApprovalPolicies {policies : List DefaultApprovalPolicy}
    (hnodup : (policies.map DefaultApprovalPolicy.actionType).Nodup)
    (hnone : ∀ policy ∈ policies, d.approval_policy (t, policy.actionType) = none) :
    (insertApprovalPolicies t t policies).run committed n d =
      ⟨.ok (), n + policies.length, d.setPolicies t policies⟩ := by
  induction policies generalizing n d with
  | nil => rfl
  | cons policy policies ih =>
    rw [List.map_cons, List.nodup_cons] at hnodup
    have hinsert : insertPolicyRow t policy n d = .ok ⟨(),
        IdentityDb.setPolicy (t, policy.actionType) policy.toApprovalPolicyRow, none⟩ := by
      simp [insertPolicyRow, hnone policy (by simp)]
    have hrest : ∀ policy' ∈ policies,
        (d.setPolicy (t, policy.actionType) policy.toApprovalPolicyRow).approval_policy
          (t, policy'.actionType) = none := by
      intro policy' hmem
      have hne : (t, policy'.actionType) ≠ (t, policy.actionType) := by
        intro h
        exact hnodup.1 (List.mem_map.mpr ⟨policy', hmem, congrArg Prod.snd h⟩)
      exact (Function.update_of_ne hne _ _).trans (hnone policy' (by simp [hmem]))
    refine (Tx.run_bind (Tx.run_lift (assertTenantMatch_self t))).trans ?_
    refine (Tx.run_bind (Tx.run_query hinsert)).trans ?_
    rw [List.length_cons, Nat.add_comm policies.length, ← Nat.add_assoc]
    exact ih hnodup.2 hrest

theorem run_appendAudit {event : AuditEvent} (htenant : event.tenantId = units t)
    (hchecks : auditChecks event = true)
    (hnew : d.audit_event.any (fun row => row.tenantId == event.tenantId &&
      row.auditEventId == event.auditEventId) = false) :
    (appendAudit t event).run committed n d = ⟨.ok (), n + 1, d.addAudit event⟩ := by
  have hinsert : insertAuditRow event n d = .ok ⟨(), IdentityDb.addAudit event, none⟩ := by
    unfold insertAuditRow
    rw [if_neg (by simp [hchecks]), if_neg (by simp [hnew])]
  have hbound : throwIf (event.tenantId ≠ units t) .tenant_context_mismatch
      "The database transaction is not bound to the required tenant." = .ok () := by
    simp [throwIf, htenant]
  exact Tx.run_checked hbound hinsert

theorem run_appendOutbox {envelope : EventEnvelope IdentityEventData}
    (htenant : envelope.tenant_id = t) (hvalid : envelopeColumnsValid envelope = true)
    (hnew : d.outbox_event.any (sameEvent none envelope) = false) :
    (appendOutbox t envelope).run committed n d =
      ⟨.ok (), n + 1, d.addEvent (newEntry n none envelope envelope.recorded_at)⟩ := by
  have hinsert : insertOutboxRow envelope n d =
      .ok ⟨(), IdentityDb.addEvent (newEntry n none envelope envelope.recorded_at), none⟩ := by
    simp [insertOutboxRow, appendOutboxEvent, hvalid, hnew]
  subst htenant
  exact Tx.run_checked (assertTenantMatch_self _) hinsert

end Methods

section Provisioning

def operatorContext : PlatformCommandContext where
  actorId := "operator"
  principalKind := .interactive
  assurance := .mfa
  correlationId := "corr-1"
  causationId := none
  credentialId := "credential-p"
  audiences := []
  scopes := []
  issued := true

def tenantRecorder : AuditRecorder where
  allowedFields := fun _ => some
    ⟨[ascii "state", ascii "version", ascii "display_name", ascii "role_code"], by decide⟩
  redactSensitiveText := id
  sha256 := fun _ => List.replicate 64 0x30

def tenantDependencies : CommandDependencies where
  executor := sampleDependencies
  recorder := tenantRecorder

def tenantEnvironment (eventId auditId : String) : CommandEnvironment where
  authorized := .ok ()
  now := timeClip 1790244245000
  executorNow := timeClip 0
  recordedAt := timeClip 1790244245000
  newEventId := eventId
  newAuditId := auditId

def sampleKey : Option Text := some (ascii "8f14e45f-ceea-467f-a0e6-1c2d3e4f5a6b")

def sampleRow (state : TenantState) (version : ℕ) : TenantSnapshot where
  id := "tenant_a"
  displayName := "Acme"
  state := state
  version := version
  createdAt := ⟨1790244245000, by decide⟩
  updatedAt := ⟨1790244245000, by decide⟩

def tenantEnvelope (type eventId : String) (version : ℕ) (data : IdentityEventData) :
    EventEnvelope IdentityEventData where
  id := eventId
  type := type
  tenant_id := "tenant_a"
  aggregate_type := "Tenant"
  aggregate_id := "tenant_a"
  aggregate_version := version
  correlation_id := "corr-1"
  causation_id := none
  recorded_at := 1790244245000000
  data := data

/-- A new tenant, as it is prepared. -/
def preparedSample : PreparedProvision where
  administrator := "admin"
  change :=
    { tenant := sampleRow .PROVISIONING 1
      event := ⟨.provisioned, "tenant_a", 1, ⟨1790244245000, by decide⟩⟩ }
  envelope := tenantEnvelope "com.subrevos.tenant.provisioned.v1" "evt_1" 1
    (.provisioned "Acme" .PROVISIONING)

theorem prepareProvision_sample :
    prepareProvision operatorContext ⟨"tenant_a", "Acme", "admin"⟩
      (tenantEnvironment "evt_1" "aud_1") = .ok preparedSample := by
  have hid : tenantId "tenant_a" = .ok "tenant_a" := by decide
  have hactor : actorId "admin" = .ok "admin" := by decide
  have hchange : provisionTenant "tenant_a" "Acme" (timeClip 1790244245000) =
      .ok preparedSample.change := by decide
  have henvelope : buildEventEnvelopeFor
      ⟨"tenant_a", "operator", .interactive, "corr-1", none⟩
      (eventInputFor preparedSample.change (.provisioned "Acme" .PROVISIONING)) "evt_1"
      (timeClip 1790244245000) = .ok preparedSample.envelope := by decide
  unfold prepareProvision
  simp only [Except.bind_eq_ok_iff]
  exact ⟨_, hid, _, hactor, _, hchange, _, rfl, _, henvelope, rfl⟩

def operatorScope : EventScope where
  tenantId := "tenant_a"
  actorId := "operator"
  principalKind := .interactive
  correlationId := "corr-1"
  causationId := none

theorem run_recordForPlatformCommand {committed d : IdentityDb} {n : ℕ} {input : AuditRecordInput}
    {eventId auditId : String}
    (haction : ACTION_PATTERN input.action = true ∧ input.action.any (· != 0x20) = true)
    (htype : nonBlank input.targetType = true) (htarget : nonBlank input.targetId = true)
    (hinstant : input.occurredAt = timeClip 1790244245000)
    (hid : (units auditId).any (· != 0x20) = true)
    (hnew : ∀ row ∈ d.audit_event, row.auditEventId ≠ units auditId) :
    ∃ event, event.auditEventId = units auditId ∧
      (recordForPlatformCommand tenantDependencies operatorContext "tenant_a"
        (tenantEnvironment eventId auditId) input).run committed n d =
          ⟨.ok (), n + 1, d.addAudit event⟩ := by
  have hcorrelation : (units operatorScope.correlationId).any (· != 0x20) = true := by decide
  have hinstants : checkTimestamps input.occurredAt (timeClip 1790244245000)
      "Audit timestamps must be valid instants."
      "An audit event cannot occur after it is recorded." =
        .ok (⟨1790244245000, by decide⟩, ⟨1790244245000, by decide⟩) := by
    rw [hinstant]
    rfl
  obtain ⟨event, hrecord, htenant, hauditId, hchecks⟩ :=
    exists_checkedEvent tenantRecorder operatorScope input auditId (timeClip 1790244245000) rfl
      (fun _ => rfl) haction ⟨htype, htarget⟩ hinstants hid hcorrelation
  refine ⟨event, hauditId, ?_⟩
  refine (Tx.run_bind (Tx.run_lift (a := operatorScope) rfl)).trans ?_
  refine (Tx.run_bind (Tx.run_lift hrecord)).trans ?_
  refine run_appendAudit htenant hchecks ?_
  simpa [hauditId] using fun row hrow _ => hnew row hrow

def noTables : IdentityDb where
  tenant := fun _ => none
  tenant_role := fun _ => none
  tenant_role_assignment := []
  approval_policy := fun _ => none
  audit_event := []
  outbox_event := []

/-- The tables of a new tenant. -/
def newTables : IdentityDb :=
  (((noTables.setTenant (sampleRow .PROVISIONING 1)).setRole ("tenant_a", ADMINISTRATOR_ROLE)
    ⟨["tenant:role:manage", "tenant:role:assign"], .active⟩).addAssignment
      ⟨"tenant_a", "admin", ADMINISTRATOR_ROLE, .active⟩).setPolicies "tenant_a"
        DEFAULT_APPROVAL_POLICIES

def provisionRecord : AuditRecordInput where
  action := ascii "tenant.provisioned"
  targetType := "Tenant"
  targetId := "tenant_a"
  reason := none
  approvalId := none
  before := none
  after := some [(ascii "state", .string (ascii "PROVISIONING")),
    (ascii "version", .number (versionNumber 1)), (ascii "display_name", .string (units "Acme"))]
  occurredAt := timeClip 1790244245000

theorem tenantRecord_checks : (nonBlank "Tenant" = true ∧ nonBlank "tenant_a" = true) ∧
    ∀ action ∈ ["tenant.provisioned", "tenant.activated"],
      ACTION_PATTERN (ascii action) = true ∧ (ascii action).any (· != 0x20) = true := by
  decide

/-- A new tenant with its evidence. -/
def provisioned (event : AuditEvent) : IdentityDb :=
  (newTables.addAudit event).addEvent (newEntry 6 none preparedSample.envelope 1790244245000000)

theorem run_provisionRecord (committed : IdentityDb) : ∃ event,
    event.auditEventId = units "aud_1" ∧
      (recordForPlatformCommand tenantDependencies operatorContext "tenant_a"
        (tenantEnvironment "evt_1" "aud_1") provisionRecord).run committed 5 newTables =
          ⟨.ok (), 6, newTables.addAudit event⟩ := by
  obtain ⟨⟨htype, htarget⟩, hpattern⟩ := tenantRecord_checks
  have hid : (units "aud_1").any (· != 0x20) = true := by decide
  exact run_recordForPlatformCommand (hpattern "tenant.provisioned" (by simp)) htype htarget rfl
    hid (fun _ h => absurd h List.not_mem_nil)

theorem run_provisionWork (committed : IdentityDb) : ∃ event,
    event.auditEventId = units "aud_1" ∧
      (provisionWork tenantDependencies operatorContext (tenantEnvironment "evt_1" "aud_1")
        preparedSample.administrator preparedSample.change preparedSample.envelope).run committed 1
        noTables =
      ⟨.ok (storedTenant (sampleRow .PROVISIONING 1) (.ofNat 201 (by norm_num))), 7,
        provisioned event⟩ := by
  have hvalid : envelopeColumnsValid preparedSample.envelope = true := by decide
  have haction : auditActionFor preparedSample.change = ascii "tenant.provisioned" := by
    decide
  obtain ⟨event, hauditId, hrecord⟩ := run_provisionRecord committed
  have hpolicies : (insertApprovalPolicies "tenant_a" "tenant_a" DEFAULT_APPROVAL_POLICIES).run
      committed 4 (((noTables.setTenant (sampleRow .PROVISIONING 1)).setRole
        ("tenant_a", ADMINISTRATOR_ROLE) ⟨["tenant:role:manage", "tenant:role:assign"],
          .active⟩).addAssignment ⟨"tenant_a", "admin", ADMINISTRATOR_ROLE, .active⟩) =
        ⟨.ok (), 5, newTables⟩ :=
    run_insertApprovalPolicies (by decide) fun _ _ => rfl
  have houtbox : (appendOutbox "tenant_a" preparedSample.envelope).run committed 6
      (newTables.addAudit event) = ⟨.ok (), 7, provisioned event⟩ := run_appendOutbox rfl hvalid rfl
  refine ⟨event, hauditId, ?_⟩
  unfold provisionWork
  rw [haction]
  refine (Tx.run_bind (run_insertTenant rfl (by decide) (by decide))).trans ?_
  refine (Tx.run_bind (run_insertDefaultAdministratorRole rfl)).trans ?_
  refine (Tx.run_bind (run_insertInitialAdministrator (by decide) rfl)).trans ?_
  refine (Tx.run_bind hpolicies).trans ?_
  refine (Tx.run_bind hrecord).trans ?_
  exact (Tx.run_bind houtbox).trans rfl

def provisionInput : ClaimInput := { sampleInput with tenantId := "tenant_a" }

/-- What is claimed for a command with the sample key. -/
theorem prepare_platformCall {scope eventId auditId : String} {payload : Value Empty} {j : Json}
    {work : IdentityTx (WorkResponse Empty)} (hscope : SCOPE_PATTERN (ascii scope) = true)
    (hidentity : assertNoTenantIdentity (Empty.elim : Heap Empty) payload "corr-1" = .ok ())
    (hpayload : DenotesAt (Empty.elim : Heap Empty) 2 payload j) :
    prepare sampleDependencies (platformCall operatorContext "tenant_a"
      (tenantEnvironment eventId auditId) scope sampleKey payload work) =
      .ok { provisionInput with scope := ascii scope } := by
  have hkey : requireKey sampleKey "corr-1" = .ok provisionInput.key ∧
      KEY_PATTERN provisionInput.key = true ∧
      toLowerCase provisionInput.key = provisionInput.key := by decide
  obtain ⟨text, htext⟩ := exists_canonicalJson_of_denotesAt
    (denotesAt_requestDocument hpayload) (by decide)
  unfold prepare
  simp only [Except.bind_eq_ok_iff]
  refine ⟨(), ?_, _, hkey.1, (), ?_, (), hidentity, List.replicate 64 0x30,
    Except.bind_eq_ok_iff.mpr ⟨text, htext, rfl⟩, (), rfl, ?_⟩
  · simp [platformCall, hscope, refuseIf]
  · simp [hkey.2.1, refuseIf]
  · rw [hkey.2.2]
    rfl

theorem prepare_provision {work : IdentityTx (WorkResponse Empty)} :
    prepare sampleDependencies (platformCall operatorContext "tenant_a"
      (tenantEnvironment "evt_1" "aud_1") "tenant.provision" sampleKey
      (literal [(ascii "display_name", .string (units "Acme")),
        (ascii "initial_administrator_actor_id", .string (units "admin"))]) work) =
      .ok provisionInput := by
  have hidentity : assertNoTenantIdentity (Empty.elim : Heap Empty)
      (literal [(ascii "display_name", .string (units "Acme")),
        (ascii "initial_administrator_actor_id", .string (units "admin"))]) "corr-1" = .ok () := by
    decide
  have hpayload : DenotesAt (Empty.elim : Heap Empty) 2
      (literal [(ascii "display_name", .string (units "Acme")),
        (ascii "initial_administrator_actor_id", .string (units "admin"))])
      (document [(ascii "display_name", some (.string (units "Acme"))),
        (ascii "initial_administrator_actor_id", some (.string (units "admin")))]) :=
    denotesAt_literal (.cons ⟨rfl, denotesProperty_string _⟩
      (.cons ⟨rfl, denotesProperty_string _⟩ .nil))
  exact prepare_platformCall rfl hidentity hpayload

theorem exists_storedResponse (tenant : TenantSnapshot) (hversion : tenant.version < 2 ^ 53)
    {status : Number} {code : ℤ} {correlationId : String}
    (hstatus : checkStatus status correlationId = .ok code) :
    ∃ stored, storedResponse ⟨tenant.id, correlationId⟩ (storedTenant tenant status) =
      .ok stored := by
  have hbody : DenotesAt (Empty.elim : Heap Empty) 2 (storedTenant tenant status).body
      (document [
        (ascii "id", some (.string (units tenant.id))),
        (ascii "display_name", some (.string (units tenant.displayName))),
        (ascii "state", some (.string (ascii (stateText tenant.state)))),
        (ascii "version", some (.number
          (Double.value ⟨false, _, Double.ofNatCode_lt hversion⟩))),
        (ascii "created_at", some (.string (units (toISOString tenant.createdAt)))),
        (ascii "updated_at", some (.string (units (toISOString tenant.updatedAt))))]) := by
    unfold storedTenant versionNumber
    rw [dif_pos hversion]
    exact denotesAt_literal <|
      .cons ⟨rfl, denotesProperty_string _⟩ <|
      .cons ⟨rfl, denotesProperty_string _⟩ <|
      .cons ⟨rfl, denotesProperty_string _⟩ <|
      .cons ⟨rfl, denotesProperty_of_denotesAt rfl⟩ <|
      .cons ⟨rfl, denotesProperty_string _⟩ <|
      .cons ⟨rfl, denotesProperty_string _⟩ .nil
  obtain ⟨text, htext⟩ := exists_canonicalJson_of_denotesAt hbody (by decide)
  exact ⟨_, Except.bind_eq_ok_iff.mpr
    ⟨code, hstatus, Except.bind_eq_ok_iff.mpr ⟨text, htext, rfl⟩⟩⟩

def provisionCommand : Command :=
  .provision operatorContext ⟨"tenant_a", "Acme", "admin"⟩ sampleKey
    (tenantEnvironment "evt_1" "aud_1")

/-- Nothing is stored yet. -/
def nothing : World (Store IdentityDb) Command Reply :=
  withoutTenants (fun _ => none) (fun _ => none) [] (fun _ => none) 0

theorem run_provision : ∃ (event : AuditEvent) (reply : Reply)
    (records : RecordKey → Option IdempotencyRecord), event.auditEventId = units "aud_1" ∧
      (∀ key, key ≠ provisionInput.recordKey → records key = none) ∧
      (program tenantDependencies provisionCommand).transaction nothing.seq nothing.db =
        ⟨.ok reply, 8, ⟨records, provisioned event⟩⟩ := by
  obtain ⟨event, hauditId, hwork⟩ := run_provisionWork noTables
  have hstatus : checkStatus (.ofNat 201 created_safe) "corr-1" = .ok 201 := by simp [checkStatus]
  obtain ⟨stored, hstored⟩ :=
    exists_storedResponse (sampleRow .PROVISIONING 1) (by norm_num [sampleRow]) hstatus
  have hchecks : recordChecks provisionInput.recordKey provisionInput.processing = true := by
    decide
  have hnone : nothing.db.records provisionInput.recordKey = none := rfl
  have htenant : provisionInput.tenantId = "tenant_a" := rfl
  obtain ⟨records, hrecords, hexecute⟩ : ∃ records : RecordKey → Option IdempotencyRecord,
      (∀ key, key ≠ provisionInput.recordKey → records key = none) ∧
      (executeClaimed ⟨"tenant_a", "corr-1"⟩ provisionInput
        (provisionWork tenantDependencies operatorContext (tenantEnvironment "evt_1" "aud_1")
          preparedSample.administrator preparedSample.change preparedSample.envelope)).run
            nothing.db 0 nothing.db = ⟨.ok ⟨stored, false⟩, 8, ⟨records, provisioned event⟩⟩ :=
    ⟨_, fun key hne => (Function.update_of_ne hne _ _).trans (Function.update_of_ne hne _ _),
      run_executeClaimed htenant hnone hchecks hwork hstored⟩
  refine ⟨event, .tenant ⟨stored, false⟩, records, hauditId, hrecords, ?_⟩
  refine (Tx.run_bind (a := ⟨stored, false⟩) ?_).trans rfl
  refine (Tx.run_bind (Tx.run_lift prepareProvision_sample)).trans ?_
  refine (Tx.run_bind (Tx.run_lift (a := ()) rfl)).trans ?_
  exact (congrArg (Tx.run · nothing.db 0 nothing.db) (executeUntraced_eq prepare_provision)).trans
    hexecute

/-- A tenant is provisioned where there is nothing. -/
theorem exists_provisioned : ∃ (w : World (Store IdentityDb) Command Reply) (event : AuditEvent),
    Reachable (program tenantDependencies) nothing ⟨w, []⟩ ∧ w.seq = 8 ∧ w.history.length = 1 ∧
      event.auditEventId = units "aud_1" ∧ w.db.effects = provisioned event := by
  obtain ⟨event, reply, records, hauditId, -, hrun⟩ := run_provision
  exact ⟨_, event, Reachable.init.transaction hrun, rfl, rfl, hauditId, rfl⟩

end Provisioning

section Activation

/-- The new tenant, as it is activated. -/
def activation : TenantChange where
  tenant := sampleRow .ACTIVE 2
  event := ⟨.activated, "tenant_a", 2, ⟨1790244245000, by decide⟩⟩

def activationEnvelope : EventEnvelope IdentityEventData :=
  tenantEnvelope "com.subrevos.tenant.activated.v1" "evt_2" 2 (.transitioned .PROVISIONING .ACTIVE)

/-- A tenant that has been activated, with its evidence. -/
def activated (event event' : AuditEvent) : IdentityDb :=
  (((provisioned event).setTenant (sampleRow .ACTIVE 2)).addAudit event').addEvent
    (newEntry 12 none activationEnvelope 1790244245000000)

def activationRecord : AuditRecordInput where
  action := ascii "tenant.activated"
  targetType := "Tenant"
  targetId := "tenant_a"
  reason := none
  approvalId := none
  before := some [(ascii "state", .string (ascii "PROVISIONING")),
    (ascii "version", .number (versionNumber 1))]
  after := some [(ascii "state", .string (ascii "ACTIVE")),
    (ascii "version", .number (versionNumber 2))]
  occurredAt := timeClip 1790244245000

theorem run_activationRecord (committed : IdentityDb) {event : AuditEvent}
    (hauditId : event.auditEventId = units "aud_1") : ∃ event',
    event'.auditEventId = units "aud_2" ∧
      (recordForPlatformCommand tenantDependencies operatorContext "tenant_a"
        (tenantEnvironment "evt_2" "aud_2") activationRecord).run committed 11
        ((provisioned event).setTenant (sampleRow .ACTIVE 2)) =
          ⟨.ok (), 12, ((provisioned event).setTenant (sampleRow .ACTIVE 2)).addAudit event'⟩ := by
  obtain ⟨⟨htype, htarget⟩, hpattern⟩ := tenantRecord_checks
  have hid : (units "aud_2").any (· != 0x20) = true := by decide
  have hevents : ((provisioned event).setTenant (sampleRow .ACTIVE 2)).audit_event = [event] := rfl
  have hnew : ∀ row ∈ ((provisioned event).setTenant (sampleRow .ACTIVE 2)).audit_event,
      row.auditEventId ≠ units "aud_2" := by
    intro row hrow
    rw [hevents] at hrow
    rw [List.mem_singleton.mp hrow, hauditId]
    decide
  exact run_recordForPlatformCommand (hpattern "tenant.activated" (by simp)) htype htarget rfl hid
    hnew

theorem run_activationWork (committed : IdentityDb) {event : AuditEvent}
    (hauditId : event.auditEventId = units "aud_1") : ∃ event',
      (transitionWork tenantDependencies operatorContext (tenantEnvironment "evt_2" "aud_2")
        "tenant_a" .ACTIVE (.ofNat 1 one_safe) none).run committed 9 (provisioned event) =
      ⟨.ok (storedTenant (sampleRow .ACTIVE 2) (.ofNat 200 (by norm_num))), 13,
        activated event event'⟩ := by
  have hread : ofString ⟨1790244245000, by decide⟩ = some ⟨1790244245000, by decide⟩ :=
    ofString_eq_self_iff.mpr (by decide)
  have hchange : transitionTenant (sampleRow .PROVISIONING 1) .ACTIVE (.ofNat 1 one_safe)
      (timeClip 1790244245000) = .ok activation := by
    unfold transitionTenant
    rw [Number.integer?_ofNat]
    rfl
  have haction : auditActionFor activation = ascii "tenant.activated" := by
    decide
  have henvelope : buildEventEnvelopeFor operatorScope
      (eventInputFor activation (.transitioned .PROVISIONING .ACTIVE)) "evt_2"
      (timeClip 1790244245000) = .ok activationEnvelope := by
    decide
  have hvalid : envelopeColumnsValid activationEnvelope = true := by decide
  have hrow : (provisioned event).tenant "tenant_a" = some (sampleRow .PROVISIONING 1) := rfl
  have hupdate : (updateTenant "tenant_a" (sampleRow .ACTIVE 2) 1).run committed 10
      (provisioned event) = ⟨.ok (), 11, (provisioned event).setTenant (sampleRow .ACTIVE 2)⟩ :=
    run_updateTenant hrow rfl rfl (by decide) (by decide)
  obtain ⟨event', -, hrecord⟩ := run_activationRecord committed hauditId
  have houtbox : (appendOutbox "tenant_a" activationEnvelope).run committed 12
      (((provisioned event).setTenant (sampleRow .ACTIVE 2)).addAudit event') =
        ⟨.ok (), 13, activated event event'⟩ := run_appendOutbox rfl hvalid rfl
  refine ⟨event', ?_⟩
  unfold transitionWork
  refine (Tx.run_bind (run_findById hrow hread hread)).trans ?_
  refine (Tx.run_bind (Tx.run_lift hchange)).trans ?_
  rw [haction]
  refine (Tx.run_bind hupdate).trans ?_
  refine (Tx.run_bind hrecord).trans ?_
  refine (Tx.run_bind (Tx.run_lift henvelope)).trans ?_
  exact (Tx.run_bind houtbox).trans rfl

def activationInput : ClaimInput := { provisionInput with scope := ascii "tenant.activate" }

theorem prepare_activation {work : IdentityTx (WorkResponse Empty)} :
    prepare sampleDependencies (platformCall operatorContext "tenant_a"
      (tenantEnvironment "evt_2" "aud_2") "tenant.activate" sampleKey
      (literal [(ascii "expected_version", .number (.ofNat 1 one_safe)),
        (ascii "reason", optionalText none)]) work) = .ok activationInput := by
  have hidentity : assertNoTenantIdentity (Empty.elim : Heap Empty)
      (literal [(ascii "expected_version", .number (.ofNat 1 one_safe)),
        (ascii "reason", optionalText none)]) "corr-1" = .ok () := by
    decide
  have hpayload : DenotesAt (Empty.elim : Heap Empty) 2
      (literal [(ascii "expected_version", .number (.ofNat 1 one_safe)),
        (ascii "reason", optionalText none)])
      (document [(ascii "expected_version",
        some (.number (Double.value ⟨false, _, Double.ofNatCode_lt one_safe⟩))),
        (ascii "reason", none)]) :=
    denotesAt_literal (.cons ⟨rfl, denotesProperty_of_denotesAt rfl⟩
      (.cons ⟨rfl, denotesProperty_optionalText none⟩ .nil))
  exact prepare_platformCall rfl hidentity hpayload

def activateCommand : Command :=
  .lifecycle .activateTenant operatorContext ⟨"tenant_a", .ofNat 1 one_safe, none⟩ sampleKey
    (tenantEnvironment "evt_2" "aud_2")

/-- The tenant is activated after it was provisioned. -/
theorem run_activate {event : AuditEvent} {records : RecordKey → Option IdempotencyRecord}
    (hauditId : event.auditEventId = units "aud_1")
    (hrecords : ∀ key, key ≠ provisionInput.recordKey → records key = none) :
    ∃ (event' : AuditEvent) (reply : Reply) (records' : RecordKey → Option IdempotencyRecord),
      (program tenantDependencies activateCommand).transaction 8 ⟨records, provisioned event⟩ =
        ⟨.ok reply, 14, ⟨records', activated event event'⟩⟩ := by
  obtain ⟨event', hwork⟩ := run_activationWork (provisioned event) hauditId
  have hstatus : checkStatus (.ofNat 200 (by norm_num)) "corr-1" = .ok 200 := by simp [checkStatus]
  obtain ⟨stored, hstored⟩ :=
    exists_storedResponse (sampleRow .ACTIVE 2) (by norm_num [sampleRow]) hstatus
  have hchecks : recordChecks activationInput.recordKey activationInput.processing = true := by
    decide
  have hnone : records activationInput.recordKey = none := hrecords _ (by decide)
  have htenant : activationInput.tenantId = "tenant_a" := rfl
  have hid : tenantId "tenant_a" = .ok "tenant_a" := by decide
  obtain ⟨records', hexecute⟩ : ∃ records', (executeClaimed ⟨"tenant_a", "corr-1"⟩ activationInput
      (transitionWork tenantDependencies operatorContext (tenantEnvironment "evt_2" "aud_2")
        "tenant_a" .ACTIVE (.ofNat 1 one_safe) none)).run ⟨records, provisioned event⟩ 8
          ⟨records, provisioned event⟩ =
            ⟨.ok ⟨stored, false⟩, 14, ⟨records', activated event event'⟩⟩ :=
    ⟨_, run_executeClaimed htenant hnone hchecks hwork hstored⟩
  refine ⟨event', .tenant ⟨stored, false⟩, records', ?_⟩
  refine (Tx.run_bind (a := ⟨stored, false⟩) ?_).trans rfl
  refine (Tx.run_bind (Tx.run_lift (a := ()) rfl)).trans ?_
  refine (Tx.run_bind (Tx.run_lift hid)).trans ?_
  refine (Tx.run_bind (Tx.run_lift (a := ()) rfl)).trans ?_
  exact (congrArg (Tx.run · _ 8 _) (executeUntraced_eq prepare_activation)).trans hexecute

/-- A tenant is provisioned, and then activated. -/
theorem tenant_lifecycle_consistent_activated : ∃ st : IdentityState,
    Reachable (program tenantDependencies) nothing st ∧
      st.world.history.map Prod.fst = [provisionCommand, activateCommand] ∧
      st.world.db.effects.tenant "tenant_a" = some (sampleRow .ACTIVE 2) ∧
      LifecycleConsistent tenantDependencies st := by
  obtain ⟨event, reply, records, hauditId, hrecords, hrun⟩ := run_provision
  obtain ⟨event', reply', records', hrun'⟩ := run_activate hauditId hrecords
  have hprovisioned := Reachable.init.transaction hrun
  have hreached := hprovisioned.transaction hrun'
  exact ⟨_, hreached, rfl, rfl, tenant_lifecycle_consistent hreached⟩

end Activation

end Sintius.Identity
