import Mathlib
import Sintius.Lib.Date
import Sintius.Lib.Except
import Sintius.Lib.Transaction
import Sintius.Lib.Agreement
import Sintius.Lib.Utf16
import Sintius.Spec.Problem
import Sintius.Spec.TenantContext
import Sintius.Spec.Canonical
import Sintius.Spec.Queue
import Sintius.Spec.EventEnvelope
import Sintius.Spec.AuditRecorder
import Sintius.Spec.Idempotency
import Sintius.Spec.Tenant
import Sintius.Spec.Roles
import Sintius.Sanity.Idempotency
import Sintius.Sanity.Identity
import Sintius.Sanity.Ledger
import Sintius.Proofs.Evidence
import Sintius.Proofs.Isolation
import Sintius.Proofs.Identity
import Sintius.Proofs.Lifecycle

/-! However role commands and provisioning interleave, every tenant keeps an
administrator and every change leaves its evidence. The events of assignments, though,
share one version, and their identifier joins two names: a stream is in order only while
it has one event. -/

namespace Sintius.Identity

open Js Js.Date Sintius.Canonical Sintius.Tenancy Sintius.Outbox Sintius.Audit
  Sintius.Idempotency Sql

section Administrators

variable {dependencies : CommandDependencies}

/-- What holds of the assignments, however the commands have interleaved. -/
structure AdministratorsSurvive (dependencies : CommandDependencies) (st : IdentityState) :
    Prop where
  /-- Every provisioned tenant has an active administrator. -/
  administered : ∀ t, st.world.db.effects.tenant t ≠ none →
    ∃ row ∈ st.world.db.effects.tenant_role_assignment, row.holds t ADMINISTRATOR_ROLE = true
  /-- Nobody has changed their own assignments. -/
  separated : ∀ kind context input env reply,
    (Command.role kind context input env, reply) ∈ st.world.history →
      input.targetActorId ≠ context.actorId
  /-- A role command that commits changes one assignment. -/
  changes : ∀ st', Sql.Step (program dependencies) st st' → ∀ kind context input env reply,
    st'.world.history = st.world.history ++ [(.role kind context input env, reply)] →
      AssignmentChange context.tenantId input.targetActorId input.roleCode kind
        st.world.db.effects.tenant_role_assignment st'.world.db.effects.tenant_role_assignment
  /-- Each has left one audit row and one event. -/
  audited : ∀ kind, (st.world.db.effects.roleAudits kind).length =
    st.world.history.countP (isRoleCommand kind)
  published : ∀ kind, (st.world.db.effects.roleEvents kind).length =
    st.world.history.countP (isRoleCommand kind)

theorem Effect.assignmentChange {kind : RoleChange} {context : TenantContext}
    {input : RoleAssignmentInput} {env : RoleEnvironment} {reply : Reply} {d d' : IdentityDb}
    (h : Effect (.role kind context input env) reply d d') :
    AssignmentChange context.tenantId input.targetActorId input.roleCode kind
      d.tenant_role_assignment d'.tenant_role_assignment := by
  cases h with
  | replayed htenant => cases htenant
  | role _ hchange => exact hchange

/-- Every tenant keeps an administrator in every reachable state. -/
theorem administrators_survive {records : RecordKey → Option IdempotencyRecord}
    {tenant_role : TenantId × String → Option TenantRole}
    {tenant_role_assignment : List RoleAssignment}
    {approval_policy : TenantId × String → Option ApprovalPolicyRow} {seq : ℕ}
    {st : IdentityState} (h : Reachable (program dependencies)
      (withoutTenants records tenant_role tenant_role_assignment approval_policy seq) st) :
    AdministratorsSurvive dependencies st := by
  have hsound := sound h
  have hconsistent : Consistent (effectsOf st.world) := hsound.inv
  refine ⟨hconsistent.administered, ?_, ?_, hconsistent.audits, hconsistent.events⟩
  · intro kind context input env reply hmem
    exact hconsistent.separated _ hmem
  · intro st' hstep kind context input env reply hhistory
    have heffect : Effect (.role kind context input env) reply st.world.db.effects
        st'.world.db.effects := hsound.effect hstep hhistory
    exact heffect.assignmentChange

end Administrators

section Streams

variable {d : IdentityDb}

/-- The stream of an assignment in the outbox. -/
def streamOf (t : TenantId) (aggregate_id : String) (d : IdentityDb) : Table IdentityEventData :=
  d.outbox_event.filter fun entry => entry.envelope.tenant_id == t &&
    entry.envelope.aggregate_type == "RoleAssignment" &&
    entry.envelope.aggregate_id == aggregate_id

/-- The events are about one pair of an actor and a role, and in the order of their entries their
versions strictly increase. -/
structure Identifies (events : Table IdentityEventData) : Prop where
  pair : ∃ actor code, ∀ e ∈ events, e.envelope.data = .role actor code
  increasing : events.Pairwise fun a b =>
    (a.entryId < b.entryId ∧ a.envelope.aggregate_version < b.envelope.aggregate_version) ∨
      (b.entryId < a.entryId ∧ b.envelope.aggregate_version < a.envelope.aggregate_version)

/-- The tenant of a role command, and the identifier that it joins. -/
def Command.assignmentId : Command → Option (TenantId × String)
  | .role _ context input _ => some (context.tenantId, input.targetActorId ++ ":" ++ input.roleCode)
  | _ => none

/-- The facts of a stream are those that its identifier selects. -/
theorem map_roleFact_streamOf (t : TenantId) (aggregate_id : String) :
    (streamOf t aggregate_id d).map roleFact =
      d.roleFacts.filter fun f => f.tenant_id == t && f.aggregate_id == aggregate_id := by
  unfold streamOf IdentityDb.roleFacts
  rw [List.filter_map, List.filter_filter]
  refine congrArg _ (List.filter_congr fun entry _ => ?_)
  simp only [Function.comp_apply, roleFact, isAssignmentEvent]
  rw [Bool.and_right_comm]

variable {w : IdentityWorld}

/-- The identifiers of the facts are those that the committed commands joined. -/
theorem Consistent.map_roleFacts (h : Consistent w) :
    w.db.roleFacts.map (fun f => (f.tenant_id, f.aggregate_id)) =
      w.history.filterMap fun c => c.1.assignmentId := by
  rw [h.facts, List.map_filterMap]
  refine List.filterMap_congr fun c _ => ?_
  cases c.1 <;> rfl

/-- A fact is about one assignment, and has the version that all have. -/
theorem Consistent.roleFact_eq (h : Consistent w) {f : RoleFact} (hf : f ∈ w.db.roleFacts) :
    f.aggregate_version = 1 ∧ ∃ actor code, f.data = .role actor code := by
  rw [h.facts, List.mem_filterMap] at hf
  obtain ⟨⟨command, reply⟩, -, hfact⟩ := hf
  cases command with
  | provision => cases hfact
  | lifecycle => cases hfact
  | role =>
    cases hfact
    exact ⟨rfl, _, _, rfl⟩

theorem Consistent.length_streamOf (h : Consistent w) (t : TenantId) (aggregate_id : String) :
    (streamOf t aggregate_id w.db).length =
      (w.history.filterMap fun c => c.1.assignmentId).count (t, aggregate_id) := by
  rw [← List.length_map roleFact, map_roleFact_streamOf, ← h.map_roleFacts, List.count,
    List.countP_map, List.countP_eq_length_filter]
  refine congrArg _ (List.filter_congr fun f _ => ?_)
  rfl

theorem Consistent.streamOf_entry (h : Consistent w) {t : TenantId} {aggregate_id : String}
    {e : OutboxEntry IdentityEventData} (he : e ∈ streamOf t aggregate_id w.db) :
    e.envelope.aggregate_version = 1 ∧ ∃ actor code, e.envelope.data = .role actor code := by
  have hmem := List.mem_map_of_mem (f := roleFact) he
  rw [map_roleFact_streamOf] at hmem
  exact h.roleFact_eq (List.mem_of_mem_filter hmem)

/-- A stream is in order if and only if it has one event at most. -/
theorem Consistent.identifies_iff (h : Consistent w) (t : TenantId) (aggregate_id : String) :
    Identifies (streamOf t aggregate_id w.db) ↔ (streamOf t aggregate_id w.db).length ≤ 1 := by
  have hentry : ∀ e ∈ streamOf t aggregate_id w.db, e.envelope.aggregate_version = 1 ∧
      ∃ actor code, e.envelope.data = .role actor code := fun e he => h.streamOf_entry he
  generalize streamOf t aggregate_id w.db = events at hentry
  match events with
  | [] => exact ⟨fun _ => Nat.zero_le 1, fun _ => ⟨⟨"", "", by simp⟩, .nil⟩⟩
  | [e] =>
    obtain ⟨-, actor, code, hdata⟩ := hentry e (by simp)
    exact ⟨fun _ => le_rfl, fun _ => ⟨⟨actor, code, by simpa using hdata⟩,
      List.pairwise_singleton _ _⟩⟩
  | a :: b :: rest =>
    refine ⟨fun hids => ?_, fun hlength => by simp at hlength⟩
    have hpair := (List.pairwise_cons.mp hids.increasing).1 b (by simp)
    rw [(hentry a (by simp)).1, (hentry b (by simp)).1] at hpair
    omega

/-- In a reachable state the events of assignments identify their aggregate and its version if and
only if no two committed role commands of a tenant have joined the same identifier. -/
theorem role_events_identify_iff {dependencies : CommandDependencies}
    {records : RecordKey → Option IdempotencyRecord}
    {tenant_role : TenantId × String → Option TenantRole}
    {tenant_role_assignment : List RoleAssignment}
    {approval_policy : TenantId × String → Option ApprovalPolicyRow} {seq : ℕ}
    {st : IdentityState} (h : Reachable (program dependencies)
      (withoutTenants records tenant_role tenant_role_assignment approval_policy seq) st) :
    (∀ t aggregate_id, Identifies (streamOf t aggregate_id st.world.db.effects)) ↔
      (st.world.history.filterMap fun c => c.1.assignmentId).Nodup := by
  have hconsistent : Consistent (effectsOf st.world) := (sound h).inv
  rw [List.nodup_iff_count_le_one]
  refine ⟨?_, ?_⟩
  · rintro hids ⟨t, aggregate_id⟩
    rw [show st.world.history = (effectsOf st.world).history from rfl,
      ← hconsistent.length_streamOf]
    exact (hconsistent.identifies_iff t aggregate_id).mp (hids t aggregate_id)
  · intro hcount t aggregate_id
    refine (hconsistent.identifies_iff t aggregate_id).mpr ?_
    rw [hconsistent.length_streamOf]
    exact hcount (t, aggregate_id)

end Streams

section Assignment

def roleContext : TenantContext where
  tenantId := "tenant_a"
  actorId := "admin"
  principalKind := .interactive
  assurance := .mfa
  correlationId := "corr-1"
  causationId := none
  credentialId := "credential-a"
  audiences := []
  scopes := []
  issued := true

def roleEnvironment (eventId auditId : String) : RoleEnvironment where
  permitted := .ok ()
  now := timeClip 1790244245000
  recordedAt := timeClip 1790244245000
  newEventId := eventId
  newAuditId := auditId

def assignCommand (target code eventId auditId : String) : Command :=
  .role .assigned roleContext ⟨target, code⟩ (roleEnvironment eventId auditId)

/-- The envelope of an assignment. -/
def roleEnvelope (target code eventId : String) : EventEnvelope IdentityEventData where
  id := eventId
  type := "com.subrevos.role.assigned.v1"
  tenant_id := "tenant_a"
  aggregate_type := "RoleAssignment"
  aggregate_id := target ++ ":" ++ code
  aggregate_version := 1
  correlation_id := "corr-1"
  causation_id := none
  recorded_at := 1790244245000000
  data := .role target code

def roleRecord (target code : String) : AuditRecordInput where
  action := ascii "role.assigned"
  targetType := "RoleAssignment"
  targetId := target
  reason := none
  approvalId := none
  before := none
  after := some [(ascii "role_code", .string (units code))]
  occurredAt := timeClip 1790244245000

def roleEvent (target code : String) : BuildEventInput IdentityEventData where
  eventType := "role.assigned.v1"
  aggregateType := "RoleAssignment"
  aggregateId := target ++ ":" ++ code
  aggregateVersion := 1
  occurredAt := timeClip 1790244245000
  data := .role target code

/-- What an assignment writes. -/
def assigned (target code eventId : String) (n : ℕ) (event : AuditEvent) (d : IdentityDb) :
    IdentityDb :=
  ((d.addAssignment ⟨"tenant_a", target, code, .active⟩).addAudit event).addEvent
    (newEntry n none (roleEnvelope target code eventId) 1790244245000000)

/-- Dependencies whose recorder has a policy for assignments, and digests of 64 digits. -/
structure RecordsRoles (dependencies : CommandDependencies) : Prop where
  policy : (dependencies.recorder.allowedFields "RoleAssignment").isSome
  digest : ∀ text, (dependencies.recorder.sha256 text).length = 64

theorem recordsRoles_tenantDependencies : RecordsRoles tenantDependencies := ⟨rfl, fun _ => rfl⟩

/-- The evidence of an assignment. -/
theorem RecordsRoles.exists_event {dependencies : CommandDependencies}
    (h : RecordsRoles dependencies) {target code auditId : String} (htarget : nonBlank target = true)
    (hid : (units auditId).any (· != 0x20) = true) :
    ∃ event, recordForScope dependencies.recorder (eventScopeFromContext roleContext)
      (roleRecord target code) auditId (timeClip 1790244245000) = .ok event ∧
      event.tenantId = units "tenant_a" ∧ event.auditEventId = units auditId ∧
      auditChecks event = true := by
  have haction : ACTION_PATTERN (ascii "role.assigned") = true ∧
      (ascii "role.assigned").any (· != 0x20) = true := by decide +kernel
  have htype : nonBlank "RoleAssignment" = true := by decide +kernel
  have hcorrelation : (units "corr-1").any (· != 0x20) = true := by decide
  exact exists_checkedEvent dependencies.recorder (eventScopeFromContext roleContext)
    (roleRecord target code) auditId (timeClip 1790244245000) h.policy h.digest haction
    ⟨htype, htarget⟩ rfl hid hcorrelation

/-- Names that pass every check of an assignment. -/
structure Assignable (target code eventId auditId : String) : Prop where
  nonBlank : nonBlank target = true
  btrim : btrimNonEmpty target = true
  other : target ≠ "admin"
  auditId : (units auditId).any (· != 0x20) = true
  envelope : buildEventEnvelopeFor (eventScopeFromContext roleContext) (roleEvent target code)
    eventId (timeClip 1790244245000) = .ok (roleEnvelope target code eventId)
  columns : envelopeColumnsValid (roleEnvelope target code eventId) = true

/-- Another actor is assigned a role that they have never held. -/
theorem run_assign {dependencies : CommandDependencies} {target code eventId auditId : String}
    {permissions : List String} {d : Store IdentityDb} {n : ℕ}
    (hrecords : RecordsRoles dependencies) (h : Assignable target code eventId auditId)
    (hrole : d.effects.tenant_role ("tenant_a", code) = some ⟨permissions, .active⟩)
    (hnew : ∀ row ∈ d.effects.tenant_role_assignment, row.hasKey "tenant_a" target code = false)
    (haudit : ∀ row ∈ d.effects.audit_event, row.auditEventId ≠ units auditId)
    (hevent : ∀ e ∈ d.effects.outbox_event, e.envelope.id ≠ eventId) :
    ∃ event, event.auditEventId = units auditId ∧
      (program dependencies (assignCommand target code eventId auditId)).transaction n d =
      ⟨.ok .role, n + 4,
        { d with effects := assigned target code eventId (n + 3) event d.effects }⟩ := by
  obtain ⟨htarget, htrim, hother, hid, henvelope, hvalid⟩ := h
  obtain ⟨event, hrecord, htenant, hauditId, hchecks⟩ := hrecords.exists_event htarget hid
  have hprepare : prepareRoleChange roleContext ⟨target, code⟩ (roleEnvironment eventId auditId) =
      .ok target := by
    simp [prepareRoleChange, roleEnvironment, actorId, requireNonBlank, throwIf, htarget, refuseIf,
      roleContext, hother]
  have hselect : selectRoleForUpdate "tenant_a" code n d.effects =
      .ok ⟨some ⟨permissions, .active⟩, id, some (.role "tenant_a" code)⟩ := by
    simp [selectRoleForUpdate, hrole]
  have hupsert : upsertAssignment "tenant_a" target code (n + 1) d.effects =
      .ok ⟨1, IdentityDb.addAssignment ⟨"tenant_a", target, code, .active⟩, none⟩ := by
    have hany : d.effects.tenant_role_assignment.any
        (RoleAssignment.hasKey "tenant_a" target code) = false := by
      simpa using hnew
    simp [upsertAssignment, htrim, hany]
  refine ⟨event, hauditId, ?_⟩
  refine (Tx.run_bind (Tx.run_lift hprepare)).trans ?_
  refine (Tx.run_bind (run_zoom_effects (show Tx.run _ _ _ _ =
    ⟨.ok (), n + 4, assigned target code eventId (n + 3) event d.effects⟩ from ?_))).trans rfl
  refine (Tx.run_bind (Tx.run_checked rfl hselect)).trans ?_
  refine (Tx.run_bind (Tx.run_lift (a := ()) rfl)).trans ?_
  refine (Tx.run_bind (show Tx.run _ _ _ _ = ⟨.ok (), n + 2,
    d.effects.addAssignment ⟨"tenant_a", target, code, .active⟩⟩ from ?_)).trans ?_
  · refine (Tx.run_bind (Tx.run_lift (a := ()) rfl)).trans ?_
    exact (Tx.run_bind (Tx.run_query hupsert)).trans rfl
  refine (Tx.run_bind (Tx.run_lift hrecord)).trans ?_
  refine (Tx.run_bind (run_appendAudit htenant hchecks ?_)).trans ?_
  · simpa [IdentityDb.addAssignment, hauditId] using fun row hrow _ => haudit row hrow
  refine (Tx.run_bind (Tx.run_lift henvelope)).trans ?_
  refine run_appendOutbox rfl hvalid ?_
  simpa [IdentityDb.addAssignment, IdentityDb.addAudit, sameEvent, roleEnvelope] using
    fun e he _ _ => hevent e he

/-- The roles of the tenant: one code ends with the other. -/
def sampleRoles (key : TenantId × String) : Option TenantRole :=
  if key ∈ [("tenant_a", "auditor"), ("tenant_a", "ops:auditor")] then some ⟨[], .active⟩ else none

theorem assignable_ops : Assignable "user:ops" "auditor" "evt_1" "aud_1" := by
  refine ⟨?_, ?_, ?_, ?_, ?_, ?_⟩ <;> decide +kernel

theorem assignable_user : ∀ code ∈ ["auditor", "ops:auditor"],
    Assignable "user" code "evt_2" "aud_2" := by
  simp only [List.forall_mem_cons]
  refine ⟨⟨?_, ?_, ?_, ?_, ?_, ?_⟩, ⟨?_, ?_, ?_, ?_, ?_, ?_⟩, by simp⟩ <;> decide +kernel

/-- No tenants yet, and two roles. -/
def twoRoles : World (Store IdentityDb) Command Reply :=
  withoutTenants (fun _ => none) sampleRoles [] (fun _ => none) 0

/-- Two assignments, to `user:ops` and to `user`. -/
theorem exists_assignments {code : String} (hcode : code ∈ ["auditor", "ops:auditor"]) :
    ∃ st : IdentityState, Reachable (program tenantDependencies) twoRoles st ∧
      st.world.history = [(assignCommand "user:ops" "auditor" "evt_1" "aud_1", .role),
        (assignCommand "user" code "evt_2" "aud_2", .role)] := by
  have hrole : sampleRoles ("tenant_a", code) = some ⟨[], .active⟩ := by
    revert code
    decide
  obtain ⟨event, hauditId, hfirst⟩ :=
    run_assign (d := twoRoles.db) (n := 0) recordsRoles_tenantDependencies assignable_ops rfl
      (fun _ h => absurd h List.not_mem_nil) (fun _ h => absurd h List.not_mem_nil)
      (fun _ h => absurd h List.not_mem_nil)
  have hreached := Reachable.init.transaction hfirst
  have hne : units "aud_1" ≠ units "aud_2" := by decide +kernel
  obtain ⟨event', -, hsecond⟩ := run_assign (n := 4)
    (d := { twoRoles.db with
      effects := assigned "user:ops" "auditor" "evt_1" 3 event twoRoles.db.effects })
    recordsRoles_tenantDependencies (assignable_user code hcode) hrole
    (fun row hrow => by
      cases List.mem_singleton.mp hrow
      rfl)
    (fun row hrow => by
      cases List.mem_singleton.mp hrow
      rw [hauditId]
      exact hne)
    (fun e he => by
      cases List.mem_singleton.mp he
      decide)
  exact ⟨_, hreached.transaction hsecond, rfl⟩

/-- Events of two assignments share a stream and a version: `user:ops` as `auditor`, and `user` as
`ops:auditor`. -/
theorem role_events_collide : ∃ st : IdentityState,
    Reachable (program tenantDependencies) twoRoles st ∧
      ¬ ∀ t aggregate_id, Identifies (streamOf t aggregate_id st.world.db.effects) := by
  have hcode : "ops:auditor" ∈ ["auditor", "ops:auditor"] := by simp
  obtain ⟨st, hreached, hhistory⟩ := exists_assignments hcode
  have hconsistent : Consistent (effectsOf st.world) := (sound hreached).inv
  refine ⟨st, hreached, fun hids => ?_⟩
  have hlength := (hconsistent.identifies_iff "tenant_a" "user:ops:auditor").mp
    (hids "tenant_a" "user:ops:auditor")
  rw [hconsistent.length_streamOf, show (effectsOf st.world).history = st.world.history from rfl,
    hhistory] at hlength
  revert hlength
  decide

/-- Two actors of one role have streams of their own. -/
theorem role_events_identify_two : ∃ st : IdentityState,
    Reachable (program tenantDependencies) twoRoles st ∧ st.world.history.length = 2 ∧
      ∀ t aggregate_id, Identifies (streamOf t aggregate_id st.world.db.effects) := by
  have hcode : "auditor" ∈ ["auditor", "ops:auditor"] := by simp
  obtain ⟨st, hreached, hhistory⟩ := exists_assignments hcode
  refine ⟨st, hreached, by rw [hhistory]; rfl, (role_events_identify_iff hreached).mpr ?_⟩
  rw [hhistory]
  decide

theorem assignable_second : Assignable "second" ADMINISTRATOR_ROLE "evt_2" "aud_2" := by
  refine ⟨?_, ?_, ?_, ?_, ?_, ?_⟩ <;> decide +kernel

/-- The administrators of a tenant that has been provisioned, and whose first administrator has
assigned a second one. -/
theorem administrators_survive_assigned : ∃ st : IdentityState,
    Reachable (program tenantDependencies) nothing st ∧ st.world.history.length = 2 ∧
      AdministratorsSurvive tenantDependencies st := by
  obtain ⟨w, event, hreached, -, hlength, hauditId, heffects⟩ := exists_provisioned
  have hne : units "aud_1" ≠ units "aud_2" := by decide +kernel
  obtain ⟨event', -, hassign⟩ := run_assign (d := w.db) (n := w.seq)
    recordsRoles_tenantDependencies assignable_second
    (by rw [heffects]; rfl)
    (fun row hrow => by
      rw [heffects] at hrow
      cases List.mem_singleton.mp hrow
      decide +kernel)
    (fun row hrow => by
      rw [heffects] at hrow
      cases List.mem_singleton.mp hrow
      rw [hauditId]
      exact hne)
    (fun e he => by
      rw [heffects] at he
      cases List.mem_singleton.mp he
      decide)
  have hassigned := hreached.transaction hassign
  refine ⟨_, hassigned, ?_, administrators_survive hassigned⟩
  simp [hlength]

end Assignment

end Sintius.Identity
