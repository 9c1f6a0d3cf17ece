import Mathlib
import Sintius.Lib.Date
import Sintius.Lib.Except
import Sintius.Lib.Table
import Sintius.Lib.Transaction
import Sintius.Lib.Utf16
import Sintius.Spec.Problem
import Sintius.Spec.TenantContext
import Sintius.Spec.Canonical
import Sintius.Spec.Queue
import Sintius.Spec.EventEnvelope
import Sintius.Spec.AuditRecorder
import Sintius.Spec.Idempotency
import Sintius.Spec.Tenant
import Sintius.Spec.Roles
import Sintius.Sanity.Idempotency
import Sintius.Sanity.Identity
import Sintius.Sanity.Ledger
import Sintius.Proofs.Idempotency

/-! Every command of the identity module, whatever commits between its statements,
keeps the world consistent and commits the effect that its kind has. A tenant command
holds the row of its tenant from its first write on, a role command the row of its role
from its first read on. -/

namespace Sintius.Identity

open Js Js.Date Sintius.Canonical Sintius.Tenancy Sintius.Outbox Sintius.Audit
  Sintius.Idempotency Sql

def identityDiscipline : Discipline IdentityDb RowLock Command Reply where
  same := SameUnder
  equivalence := sameUnder_equivalence
  inv := Consistent
  inv_tick := fun h =>
    { h with numbered := fun entry he => Nat.lt_succ_of_lt (h.numbered entry he) }
  effect := Effect

/-- A transaction that fails changes nothing, so nothing is asked of it. -/
def AnyFailure : Post IdentityDb RowLock Command Reply Failure := fun _ _ _ _ => True

section Commits

variable {locks : List RowLock} {change : IdentityDb → IdentityDb} {w : IdentityWorld}
  {command : Command} {reply : Reply}

/-- A transaction with one event commits its effect. -/
theorem committable_of_effect (entry : OutboxEntry IdentityEventData)
    (houtbox : ∀ d, (change d).outbox_event = d.outbox_event ++ [entry])
    (hnumber : entry.entryId < w.seq)
    (heffect : ∀ w', Rely identityDiscipline locks w w' → Consistent w' →
      Effect command reply w'.db (change w'.db)) :
    Committable identityDiscipline command reply locks change w := by
  intro w' hrely hinv
  have heffect' := heffect w' hrely hinv
  refine ⟨hinv.commit heffect' ?_, heffect'⟩
  rw [houtbox]
  intro e he
  rcases List.mem_append.mp he with he | he
  · exact hinv.numbered e he
  · cases List.mem_singleton.mp he
    exact hnumber.trans_le hrely.seq

theorem committable_replay {response : StoredResponse} (htenant : command.isRole = false) :
    Committable identityDiscipline command (.tenant ⟨response, true⟩) [] id w :=
  fun _ _ hinv => ⟨hinv.replayed htenant, .replayed htenant⟩

end Commits

section Methods

variable {A : Type} {locks : List RowLock} {change : IdentityDb → IdentityDb} {w : IdentityWorld}
  {bound t : TenantId} {code : String}

theorem wp_checked {B : Type} {Φ : Post IdentityDb RowLock Command Reply B} {x : Except Failure A}
    {f : A → IdentityTx B}
    (h : ∀ a, x = .ok a → wp identityDiscipline Φ AnyFailure (f a) locks change w) :
    wp identityDiscipline Φ AnyFailure (Tx.lift x >>= f) locks change w :=
  wp_lift h fun _ _ => trivial

/-- A check at the end. -/
theorem wp_lastCheck {Φ : Post IdentityDb RowLock Command Reply A} {x : Except Failure A}
    (h : ∀ a, x = .ok a → Φ a locks change w) :
    wp identityDiscipline Φ AnyFailure (Tx.lift x) locks change w := by
  cases x with
  | ok a => exact h a rfl
  | error e => trivial

theorem wp_insertTenant {Φ : Post IdentityDb RowLock Command Reply Unit} {tenant : TenantSnapshot}
    (h : ∀ w' : IdentityWorld, w'.db.tenant tenant.id = none →
      Φ () [.tenant tenant.id] (IdentityDb.setTenant tenant) w'.tick) :
    wp identityDiscipline Φ AnyFailure (insertTenant bound tenant) [] id w := by
  refine wp_checked fun _ _ => wp_query fun w' r _ _ hrun => ?_
  obtain ⟨hnone, rfl⟩ := insertTenantRow_cases hrun
  exact ⟨fun k hk d => sameUnder_setTenant (fun heq => hk (by simp [heq])), h w' hnone⟩

theorem wp_findById {Φ : Post IdentityDb RowLock Command Reply (Option TenantSnapshot)}
    (hnone : ∀ w', Φ none [] id w')
    (hsome : ∀ w' row current, Consistent w' → w'.db.tenant t = some row →
      snapshot row = .ok current → Φ (some current) [] id w'.tick) :
    wp identityDiscipline Φ AnyFailure (findById bound t) [] id w := by
  refine wp_checked fun _ _ => wp_statement fun w' r _ hinv hrun => ?_
  cases hrun
  refine ⟨Guards.id _ _, ?_⟩
  dsimp only [id]
  cases hrow : w'.db.tenant t with
  | none => exact hnone w'.tick
  | some row => exact wp_checked fun current hcurrent => hsome w' row current hinv hrow hcurrent

/-- The update finds the row at the version it expects, and locks it. -/
theorem wp_updateTenant {Φ : Post IdentityDb RowLock Command Reply Unit} {tenant : TenantSnapshot}
    {expectedVersion : ℕ}
    (h : ∀ w' row, tenant.id = bound → Rely identityDiscipline [] w w' → Consistent w' →
      w'.db.tenant tenant.id = some row → row.version = expectedVersion →
      Φ () [.tenant tenant.id] (IdentityDb.setTenant { tenant with createdAt := row.createdAt })
        w'.tick) :
    wp identityDiscipline Φ AnyFailure (updateTenant bound tenant expectedVersion) [] id w := by
  refine wp_checked fun _ hbound => wp_statement fun w' r hrely hinv hrun => ?_
  have htenant : tenant.id = bound := by
    simpa [assertTenantMatch, throwIf_eq_ok_iff] using hbound
  obtain rfl | ⟨row, hrow, hversion, rfl⟩ := updateTenantRow_cases hrun
  · exact ⟨Guards.id _ _, trivial⟩
  · refine ⟨fun k hk d => sameUnder_setTenant (fun heq => hk (by simp [heq])), ?_⟩
    exact h w' row htenant hrely hinv hrow hversion

theorem wp_insertDefaultAdministratorRole {Φ : Post IdentityDb RowLock Command Reply Unit}
    (h : ∀ w' role, Φ () (.role t code :: locks) (IdentityDb.setRole (t, code) role ∘ change) w') :
    wp identityDiscipline Φ AnyFailure (insertDefaultAdministratorRole bound t code) locks change
      w := by
  refine wp_checked fun _ _ => wp_query fun w' r _ _ hrun => ?_
  cases insertRoleRow_cases hrun
  exact ⟨fun k hk d => sameUnder_setRole (fun heq => hk (by simp [heq])), h w'.tick _⟩

theorem wp_insertInitialAdministrator {Φ : Post IdentityDb RowLock Command Reply Unit}
    {actor : ActorId} (hlock : .role t code ∈ locks)
    (h : ∀ w', Φ () locks (IdentityDb.addAssignment ⟨t, actor, code, .active⟩ ∘ change) w') :
    wp identityDiscipline Φ AnyFailure (insertInitialAdministrator bound t actor code) locks change
      w := by
  refine wp_checked fun _ _ => wp_query fun w' r _ _ hrun => ?_
  cases insertAssignmentRow_cases hrun
  refine ⟨fun k hk d => sameUnder_addAssignment ?_, h w'.tick⟩
  rintro rfl
  exact hk (List.mem_append_right _ hlock)

theorem wp_insertApprovalPolicies {Φ : Post IdentityDb RowLock Command Reply Unit}
    {policies : List DefaultApprovalPolicy}
    (h : ∀ w', Φ () locks (IdentityDb.setPolicies t policies ∘ change) w') :
    wp identityDiscipline Φ AnyFailure (insertApprovalPolicies bound t policies) locks change
      w := by
  induction policies generalizing change w with
  | nil => exact h w
  | cons policy policies ih =>
    refine wp_checked fun _ _ => wp_statement fun w' r _ _ hrun => ?_
    cases insertPolicyRow_cases hrun
    exact ⟨fun k _ d => sameUnder_setPolicy, ih h⟩

theorem wp_appendAudit {Φ : Post IdentityDb RowLock Command Reply Unit} {event : AuditEvent}
    (hlock : ∀ t, isTenantAudit t event = true → .tenant t ∈ locks)
    (h : ∀ w', Φ () locks (IdentityDb.addAudit event ∘ change) w') :
    wp identityDiscipline Φ AnyFailure (appendAudit bound event) locks change w := by
  refine wp_checked fun _ _ => wp_query fun w' r _ _ hrun => ?_
  cases insertAuditRow_cases hrun
  refine ⟨fun k hk d => sameUnder_addAudit ?_, h w'.tick⟩
  rintro t ht rfl
  exact hk (hlock t ht)

theorem wp_appendOutbox {Φ : Post IdentityDb RowLock Command Reply Unit}
    {envelope : EventEnvelope IdentityEventData}
    (hlock : ∀ t n, isTenantEvent t (newEntry n none envelope envelope.recorded_at) = true →
      .tenant t ∈ locks)
    (h : ∀ w', Rely identityDiscipline locks w w' → Consistent w' →
      Φ () locks (IdentityDb.addEvent (newEntry w'.seq none envelope envelope.recorded_at) ∘ change)
        w'.tick) :
    wp identityDiscipline Φ AnyFailure (appendOutbox bound envelope) locks change w := by
  refine wp_checked fun _ _ => wp_query fun w' r hrely hinv hrun => ?_
  cases insertOutboxRow_cases hrun
  refine ⟨fun k hk d => sameUnder_addEvent ?_, h w' hrely hinv⟩
  rintro t ht rfl
  exact hk (hlock t _ ht)

end Methods

section Tenants

variable {locks : List RowLock} {change : IdentityDb → IdentityDb} {w : IdentityWorld}
  {t : TenantId} {dependencies : CommandDependencies} {context : PlatformCommandContext}
  {env : CommandEnvironment}

/-- The audit row of a change of a tenant, under its lock. -/
theorem wp_recordForPlatformCommand {Φ : Post IdentityDb RowLock Command Reply Unit}
    {input : AuditRecordInput}
    (haction : ∃ type : TenantEventType, input.action = withoutVersion (ascii type.text))
    (hlock : .tenant t ∈ locks)
    (h : ∀ w' event, TenantAudit t event → Φ () locks (IdentityDb.addAudit event ∘ change) w') :
    wp identityDiscipline Φ AnyFailure (recordForPlatformCommand dependencies context t env input)
      locks change w := by
  refine wp_checked fun scope hscope => wp_checked fun event hevent => ?_
  obtain ⟨htenant, -⟩ := eventScopeForPlatformCommand_eq_ok hscope
  obtain ⟨hid, hsame, -⟩ := recordForScope_eq_ok hevent
  have haudit : TenantAudit t event := by
    refine ⟨by rw [hid, htenant], ?_⟩
    rw [hsame]
    exact haction
  refine wp_appendAudit ?_ fun w' => h w' event haudit
  intro t' ht'
  rw [haudit.isTenantAudit, decide_eq_true_eq] at ht'
  rwa [ht']

/-- The event of a change of a tenant, under its lock. -/
theorem wp_appendTenantEvent {Φ : Post IdentityDb RowLock Command Reply Unit} {bound : TenantId}
    {envelope : EventEnvelope IdentityEventData} {version : ℕ} {data : IdentityEventData}
    (hentry : ∀ n, TenantEntry t version data (newEntry n none envelope envelope.recorded_at))
    (hlock : .tenant t ∈ locks)
    (h : ∀ w' entry, Rely identityDiscipline locks w w' → Consistent w' →
      TenantEntry t version data entry → entry.entryId = w'.seq →
      Φ () locks (IdentityDb.addEvent entry ∘ change) w'.tick) :
    wp identityDiscipline Φ AnyFailure (appendOutbox bound envelope) locks change w := by
  refine wp_appendOutbox ?_ fun w' hrely hinv => h w' _ hrely hinv (hentry _) rfl
  intro t' n ht'
  rw [(hentry n).isTenantEvent, decide_eq_true_eq] at ht'
  rwa [ht']

/-- An envelope built for a change of a tenant is its entry. -/
theorem tenantEntry_of_buildEventEnvelopeFor {scope : EventScope} {tenantChange : TenantChange}
    {data : IdentityEventData} {newEventId : String} {recorded : Option Instant}
    {envelope : EventEnvelope IdentityEventData} {version : ℕ} (hscope : scope.tenantId = t)
    (hversion : tenantChange.event.aggregateVersion = version)
    (h : buildEventEnvelopeFor scope (eventInputFor tenantChange data) newEventId recorded =
      .ok envelope) (n : ℕ) :
    TenantEntry t version data (newEntry n none envelope envelope.recorded_at) := by
  obtain ⟨htenant, htype, haggregate, -, hnumber, hdata⟩ := buildEventEnvelopeFor_eq_ok h
  exact ⟨htenant.trans hscope, ⟨_, htype⟩, haggregate, hnumber.trans hversion, hdata⟩

/-- What is prepared is a new tenant of the given id, and its event. -/
theorem prepareProvision_eq_ok {input : ProvisionTenantInput} {prepared : PreparedProvision}
    (h : prepareProvision context input env = .ok prepared) :
    prepared.change.tenant.id = input.tenantId ∧
      prepared.change.tenant.state = .PROVISIONING ∧ prepared.change.tenant.version = 1 ∧
      ∀ n, TenantEntry input.tenantId prepared.change.tenant.version
        (.provisioned prepared.change.tenant.displayName prepared.change.tenant.state)
        (newEntry n none prepared.envelope prepared.envelope.recorded_at) := by
  unfold prepareProvision at h
  simp only [Except.bind_eq_ok_iff] at h
  obtain ⟨id, hid, administrator, -, tenantChange, hchange, scope, hscope, envelope, henvelope,
    h⟩ := h
  cases h
  cases requireNonBlank_eq_ok hid
  obtain ⟨htenant, hstate, hversion, haggregate⟩ := provisionTenant_eq_ok hchange
  obtain ⟨hbound, -⟩ := eventScopeForPlatformCommand_eq_ok hscope
  refine ⟨htenant, hstate, hversion, ?_⟩
  rw [hversion]
  exact tenantEntry_of_buildEventEnvelopeFor hbound haggregate henvelope

theorem wp_provisionWork {input : ProvisionTenantInput} {key : Option Text}
    {prepared : PreparedProvision} (hprepare : prepareProvision context input env = .ok prepared) :
    wp identityDiscipline
      (fun _ locks change w => ∀ response, Committable identityDiscipline
        (.provision context input key env) (.tenant ⟨response, false⟩) locks change w)
      AnyFailure (provisionWork dependencies context env prepared.administrator prepared.change
        prepared.envelope) [] id w := by
  obtain ⟨hid, hstate, hversion, hentry⟩ := prepareProvision_eq_ok hprepare
  unfold provisionWork
  dsimp only
  rw [hid]
  refine wp_bind (wp_insertTenant fun w₁ hnone => ?_)
  rw [hid] at hnone ⊢
  refine wp_rely ?_
  refine wp_bind (wp_insertDefaultAdministratorRole fun w₂ role => ?_)
  refine wp_bind (wp_insertInitialAdministrator (by simp) fun w₃ => ?_)
  refine wp_bind (wp_insertApprovalPolicies fun w₄ => ?_)
  refine wp_bind (wp_recordForPlatformCommand ⟨_, rfl⟩ (by simp) fun w₅ event haudit => ?_)
  refine wp_bind (wp_appendTenantEvent hentry (by simp) fun w₆ entry _ _ hentry hnumber => ?_)
  intro hrely hsub response
  refine committable_of_effect entry ?_ (hnumber.trans_lt (Nat.lt_succ_self _)) ?_
  · intro d
    change (IdentityDb.setPolicies _ _ _).outbox_event ++ [entry] = _
    rw [outbox_event_setPolicies]
    rfl
  · intro w' hrely' _
    obtain ⟨hrow, -, -⟩ := (hrely.trans (hrely'.mono hsub)).same (.tenant input.tenantId) (by simp)
    exact .provisioned (hrow.symm.trans hnone) hid hstate hversion hentry haudit

/-- The state that a row had when it was read is the one it has when its version is found again. -/
theorem state_eq_of_version {w₁ w₂ : IdentityWorld} {old new : TenantSnapshot}
    (hinv₁ : Consistent w₁) (hinv₂ : Consistent w₂) (hhistory : w₁.history <+: w₂.history)
    (hold : w₁.db.tenant t = some old) (hnew : w₂.db.tenant t = some new)
    (hversion : new.version = old.version) : new.state = old.state := by
  have hlog₁ := hinv₁.logs t
  have hlog₂ := hinv₂.logs t
  rw [hold] at hlog₁
  rw [hnew] at hlog₂
  exact hlog₁.state_eq hlog₂ (hhistory.filterMap _) hversion

theorem wp_transitionWork {command : LifecycleCommand} {input : TenantLifecycleInput}
    {key : Option Text} {reason : Option String} :
    wp identityDiscipline
      (fun _ locks change w => ∀ response, Committable identityDiscipline
        (.lifecycle command context input key env) (.tenant ⟨response, false⟩) locks change w)
      AnyFailure (transitionWork dependencies context env input.tenantId command.target
        input.expectedVersion reason) [] id w := by
  refine wp_bind (wp_findById (fun _ => trivial) fun w₁ old current hinv₁ hold hcurrent => ?_)
  refine wp_checked fun tenantChange hchange => ?_
  obtain ⟨-, hread, hreadVersion⟩ := snapshot_eq_ok hcurrent
  obtain ⟨hexpected, hstate, -, hnext, hversion, haggregate, -⟩ := transitionTenant_eq_ok hchange
  refine wp_bind (wp_updateTenant fun w₂ row hid hrely₂ hinv₂ hrow hrowVersion => ?_)
  rw [hid] at hrow ⊢
  have hsame : row.state = current.state :=
    (state_eq_of_version hinv₁ hinv₂ hrely₂.history hold hrow
      (hrowVersion.trans hreadVersion)).trans hread.symm
  refine wp_rely ?_
  refine wp_bind (wp_recordForPlatformCommand ⟨_, rfl⟩ (by simp) fun w₃ event haudit => ?_)
  refine wp_checked fun envelope henvelope => ?_
  obtain ⟨scope, hscope, henvelope⟩ := Except.bind_eq_ok_iff.mp henvelope
  have hentry := tenantEntry_of_buildEventEnvelopeFor (t := input.tenantId)
    (eventScopeForPlatformCommand_eq_ok hscope).1 haggregate henvelope
  refine wp_bind (wp_appendTenantEvent hentry (by simp) fun w₄ entry _ hinv₄ hentry hnumber => ?_)
  intro hrely hsub response
  refine committable_of_effect entry (fun _ => rfl)
    (hnumber.trans_lt (Nat.lt_succ_self _)) ?_
  intro w' hrely' _
  obtain ⟨hrow', -, -⟩ := (hrely.trans (hrely'.mono hsub)).same (.tenant input.tenantId) (by simp)
  obtain ⟨-, hevents, -⟩ := hrely'.same (.tenant input.tenantId) (hsub (by simp))
  refine .transitioned (hrow'.symm.trans hrow) rfl hnext ?_ ?_ ?_ ?_ haudit ?_
  · rw [hsame]
    exact hnext ▸ hstate
  · rw [hrowVersion]
    exact hversion
  · rw [hrowVersion]
    exact hexpected
  · rw [hsame]
    exact hversion ▸ hentry
  · rw [← hevents, hnumber]
    exact fun e he => hinv₄.numbered e (List.mem_of_mem_filter he)

end Tenants

section Assignments

variable {t : TenantId} {actor : ActorId} {code : String} {d d' : IdentityDb}

/-- Rows of one role are counted alike while its assignments stay. -/
theorem countP_eq_of_sameUnder {p : RoleAssignment → Bool} (h : SameUnder (.role t code) d d')
    (hp : ∀ row, p row = true → row.isOf t code = true) :
    d.tenant_role_assignment.countP p = d'.tenant_role_assignment.countP p := by
  have hfilter : ∀ d : IdentityDb, d.tenant_role_assignment.countP p =
      (d.assignmentsOf t code).countP p := by
    intro d
    rw [IdentityDb.assignmentsOf, List.countP_filter]
    refine List.countP_congr fun row _ => ?_
    simp only [Bool.and_eq_true]
    exact ⟨fun h => ⟨h, hp row h⟩, fun h => h.1⟩
  rw [hfilter d, hfilter d', h.2]

theorem isOf_of_hasKey {row : RoleAssignment} (h : row.hasKey t actor code = true) :
    row.isOf t code = true := by
  simp only [RoleAssignment.hasKey, Bool.and_eq_true, beq_iff_eq] at h
  simp [RoleAssignment.isOf, h.1.1, h.2]

theorem isOf_of_is {row : RoleAssignment} {status : AssignmentStatus}
    (h : row.is t actor code status = true) : row.isOf t code = true := by
  simp only [RoleAssignment.is, Bool.and_eq_true] at h
  exact isOf_of_hasKey h.1

theorem isOf_of_holds {row : RoleAssignment} (h : row.holds t code = true) :
    row.isOf t code = true := by
  simp only [RoleAssignment.holds, Bool.and_eq_true] at h
  simpa [RoleAssignment.isOf] using h.1

theorem eq_of_is {row : RoleAssignment} {status : AssignmentStatus}
    (h : row.is t actor code status = true) : row = ⟨t, actor, code, status⟩ := by
  simp only [RoleAssignment.is, RoleAssignment.hasKey, Bool.and_eq_true, beq_iff_eq] at h
  obtain ⟨⟨⟨htenant, hactor⟩, hcode⟩, hstatus⟩ := h
  cases row
  simp only at htenant hactor hcode hstatus
  rw [htenant, hactor, hcode, hstatus]

/-- A row that was found absent is inserted. -/
theorem assignmentChange_insert {rows : List RoleAssignment}
    (h : rows.countP (RoleAssignment.hasKey t actor code) = 0) :
    AssignmentChange t actor code .assigned rows (rows ++ [⟨t, actor, code, .active⟩]) := by
  refine .inserted fun row hrow => ?_
  simpa using List.countP_eq_zero.mp h row hrow

theorem assignmentChange_reactivate {rows : List RoleAssignment}
    (h : rowCount (RoleAssignment.is t actor code .revoked) rows = 1) :
    AssignmentChange t actor code .assigned rows
      (Sql.update (RoleAssignment.is t actor code .revoked) (setStatus .active) rows) := by
  obtain ⟨before, row, after, rfl, his, hupdate, -⟩ := update_of_rowCount_eq_one (setStatus .active) h
  cases eq_of_is his
  rw [hupdate]
  exact .reactivated

theorem assignmentChange_revoke {rows : List RoleAssignment}
    (h : rowCount (RoleAssignment.is t actor code .active) rows = 1) :
    AssignmentChange t actor code .revoked rows
      (Sql.update (RoleAssignment.is t actor code .active) (setStatus .revoked) rows) := by
  obtain ⟨before, row, after, rfl, his, hupdate, -⟩ := update_of_rowCount_eq_one (setStatus .revoked) h
  cases eq_of_is his
  rw [hupdate]
  exact .revoked

/-- One of two holders remains. -/
theorem AssignmentChange.remains {rows rows' : List RoleAssignment} {kind : RoleChange}
    (h : AssignmentChange t actor code kind rows rows')
    (hholders : 2 ≤ rows.countP (RoleAssignment.holds t code)) :
    ∃ row ∈ rows', row.holds t code = true := by
  rw [← List.countP_pos_iff]
  cases h with
  | inserted =>
    rw [List.countP_append]
    omega
  | reactivated =>
    have hactive : RoleAssignment.holds t code ⟨t, actor, code, .active⟩ = true := by
      simp [RoleAssignment.holds]
    rw [List.countP_append, List.countP_cons_of_pos hactive]
    omega
  | revoked =>
    simp only [List.countP_append, List.countP_cons] at hholders ⊢
    split_ifs at hholders <;> omega

/-- The rows that a role command leaves, once it has locked its role. -/
structure Changes (t : TenantId) (actor : ActorId) (code : String) (kind : RoleChange)
    (rows rows' : List RoleAssignment) : Prop where
  change : AssignmentChange t actor code kind rows rows'
  remains : kind = .revoked → code = ADMINISTRATOR_ROLE →
    ∃ row ∈ rows', row.holds t ADMINISTRATOR_ROLE = true

end Assignments

section Roles

variable {locks : List RowLock} {w : IdentityWorld} {bound t : TenantId} {actor : ActorId}
  {code : String}

/-- The role is locked if it is found. -/
theorem wp_findByCode {Φ : Post IdentityDb RowLock Command Reply (Option TenantRole)}
    (hnone : ∀ w', Φ none [] id w') (hsome : ∀ w' role, Φ (some role) [.role t code] id w') :
    wp identityDiscipline Φ AnyFailure (findByCode bound t code) [] id w := by
  refine wp_checked fun _ _ => wp_query fun w' r _ _ hrun => ?_
  obtain rfl | ⟨role, rfl⟩ := selectRoleForUpdate_cases hrun
  · exact ⟨Guards.id _ _, hnone w'.tick⟩
  · exact ⟨Guards.id _ _, hsome w'.tick role⟩

/-- The tables with these assignments. -/
def IdentityDb.setAssignments (assign : List RoleAssignment → List RoleAssignment)
    (d : IdentityDb) : IdentityDb :=
  { d with tenant_role_assignment := assign d.tenant_role_assignment }

theorem wp_insertAssignment {Φ : Post IdentityDb RowLock Command Reply Unit}
    (hlock : .role t code ∈ locks)
    (h : ∀ w' assign, (∀ d, SameUnder (.role t code) w'.db d →
      Changes t actor code .assigned d.tenant_role_assignment (assign d.tenant_role_assignment)) →
      Φ () locks (IdentityDb.setAssignments assign) w') :
    wp identityDiscipline Φ AnyFailure (insertAssignment bound t actor code) locks id w := by
  refine wp_checked fun _ _ => wp_statement fun w' r _ _ hrun => ?_
  have hother : ∀ k, k ∉ locks → k ≠ .role t code := fun k hk heq => hk (heq ▸ hlock)
  obtain rfl | ⟨hnew, rfl⟩ := upsertAssignment_cases hrun
  · refine ⟨?_, ?_⟩
    · intro k hk d
      exact sameUnder_updateAssignments (fun row => isOf_of_is) (hother k (by simpa using hk))
    · refine wp_lastCheck fun _ hcount => ?_
      rw [throwIf_eq_ok_iff, not_not] at hcount
      refine h w'.tick _ fun d hsame => ⟨assignmentChange_reactivate ?_, nofun⟩
      exact (countP_eq_of_sameUnder hsame fun row => isOf_of_is).symm.trans hcount
  · refine ⟨?_, ?_⟩
    · intro k hk d
      exact sameUnder_addAssignment (hother k (by simpa using hk))
    · refine h w'.tick (· ++ [⟨t, actor, code, .active⟩]) fun d hsame =>
        ⟨assignmentChange_insert ?_, nofun⟩
      rw [← countP_eq_of_sameUnder hsame fun row => isOf_of_hasKey, List.countP_eq_zero]
      intro row hrow
      simp [hnew row hrow]

theorem wp_removeAssignment {Φ : Post IdentityDb RowLock Command Reply Unit}
    (hlock : .role t code ∈ locks)
    (h : ∀ w' assign, Rely identityDiscipline locks w w' →
      (∀ d, SameUnder (.role t code) w'.db d → AssignmentChange t actor code .revoked
        d.tenant_role_assignment (assign d.tenant_role_assignment)) →
      Φ () locks (IdentityDb.setAssignments assign) w'.tick) :
    wp identityDiscipline Φ AnyFailure (removeAssignment bound t actor code) locks id w := by
  refine wp_checked fun _ _ => wp_statement fun w' r hrely _ hrun => ?_
  cases hrun
  refine ⟨?_, wp_lastCheck fun _ hcount => ?_⟩
  · intro k hk d
    refine sameUnder_updateAssignments (fun row => isOf_of_is) ?_
    rintro rfl
    exact hk hlock
  · rw [throwIf_eq_ok_iff, not_not] at hcount
    refine h w' _ hrely fun d hsame => assignmentChange_revoke ?_
    exact (countP_eq_of_sameUnder hsame fun row => isOf_of_is).symm.trans hcount

/-- The change of a role command, under the lock of its role: what was counted still holds when the
assignment is revoked, and until the transaction ends. -/
theorem wp_changeAssignment {Φ : Post IdentityDb RowLock Command Reply Unit}
    {context : TenantContext} {kind : RoleChange}
    (h : ∀ w' assign, (∀ d, SameUnder (.role context.tenantId code) w'.db d →
      Changes context.tenantId actor code kind d.tenant_role_assignment
        (assign d.tenant_role_assignment)) →
      Φ () [.role context.tenantId code] (IdentityDb.setAssignments assign) w') :
    wp identityDiscipline Φ AnyFailure (changeAssignment context actor code kind)
      [.role context.tenantId code] id w := by
  cases kind with
  | assigned => exact wp_insertAssignment (by simp) h
  | revoked =>
    unfold changeAssignment
    split_ifs with hadmin
    · refine wp_bind (wp_checked fun _ _ => wp_query fun w₁ r _ _ hrun => ?_)
      cases hrun
      refine ⟨Guards.id _ _, wp_checked fun _ hholders => ?_⟩
      rw [refuseIf_eq_ok_iff, not_le] at hholders
      refine wp_removeAssignment (by simp) fun w₂ assign hrely hchange => ?_
      have hsame₂ : SameUnder (.role context.tenantId code) w₁.db w₂.db :=
        hrely.same (.role context.tenantId code) (by simp)
      refine h w₂.tick assign fun d hsame => ⟨hchange d hsame, fun _ _ => ?_⟩
      rw [← hadmin]
      refine (hchange d hsame).remains ?_
      rw [← countP_eq_of_sameUnder ((sameUnder_equivalence _).trans hsame₂ hsame)
        fun row => isOf_of_holds]
      exact hholders
    · refine wp_removeAssignment (by simp) fun w₂ assign _ hchange => ?_
      exact h w₂.tick assign fun d hsame => ⟨hchange d hsame, fun _ hcode => absurd hcode hadmin⟩

/-- The evidence of a role command needs no lock. -/
theorem wp_appendRoleAudit {Φ : Post IdentityDb RowLock Command Reply Unit}
    {change : IdentityDb → IdentityDb} {event : AuditEvent} {kind : RoleChange}
    (haudit : RoleAudit kind event) (h : ∀ w', Φ () locks (IdentityDb.addAudit event ∘ change) w') :
    wp identityDiscipline Φ AnyFailure (appendAudit bound event) locks change w := by
  refine wp_appendAudit ?_ h
  intro t ht
  simp [haudit.not_isTenantAudit] at ht

theorem wp_appendRoleEvent {Φ : Post IdentityDb RowLock Command Reply Unit}
    {change : IdentityDb → IdentityDb} {envelope : EventEnvelope IdentityEventData}
    {kind : RoleChange}
    (hentry : ∀ n, RoleEntry kind (newEntry n none envelope envelope.recorded_at))
    (h : ∀ w' n, n < w'.seq → Φ () locks
      (IdentityDb.addEvent (newEntry n none envelope envelope.recorded_at) ∘ change) w') :
    wp identityDiscipline Φ AnyFailure (appendOutbox bound envelope) locks change w := by
  refine wp_appendOutbox ?_ fun w' _ _ => h w'.tick w'.seq (Nat.lt_succ_self _)
  intro t n ht
  simp [(hentry n).not_isTenantEvent] at ht

theorem wp_changeRole {recorder : AuditRecorder} {context : TenantContext}
    {input : RoleAssignmentInput} {kind : RoleChange} {env : RoleEnvironment}
    (hseparated : input.targetActorId ≠ context.actorId) :
    wp identityDiscipline
      (fun _ locks change w => Committable identityDiscipline (.role kind context input env) .role
        locks change w)
      AnyFailure (changeRole recorder context input.targetActorId input.roleCode kind env) [] id
      w := by
  refine wp_bind (wp_findByCode (fun w₁ => ?_) fun w₁ role => ?_)
  · refine wp_checked fun _ hactive => ?_
    simp [refuseIf_eq_ok_iff] at hactive
  refine wp_checked fun _ _ => wp_bind (wp_changeAssignment fun w₂ assign hassign => ?_)
  refine wp_rely ?_
  refine wp_checked fun event hevent => ?_
  have haudit : RoleAudit kind event := (recordForScope_eq_ok hevent).2.1
  refine wp_bind (wp_appendRoleAudit haudit fun w₃ => ?_)
  refine wp_checked fun envelope henvelope => ?_
  obtain ⟨htenant, htype, haggregate, hid, hversion, hdata⟩ :=
    buildEventEnvelopeFor_eq_ok henvelope
  have hentry : ∀ n, RoleEntry kind (newEntry n none envelope envelope.recorded_at) :=
    fun n => ⟨htype, haggregate⟩
  refine wp_appendRoleEvent hentry fun w₄ n hnumber hrely hsub => ?_
  refine committable_of_effect _ (fun _ => rfl) hnumber fun w' hrely' _ => ?_
  have hsame : SameUnder (.role context.tenantId input.roleCode) w₂.db w'.db :=
    (hrely.trans (hrely'.mono hsub)).same (.role context.tenantId input.roleCode) (by simp)
  obtain ⟨hchange, hremains⟩ := hassign w'.db hsame
  refine .role hseparated hchange hremains (hentry n) ?_ haudit
  simp [roleFact, Command.roleFact, newEntry, htenant, hid, hversion, hdata, eventScopeFromContext]

end Roles

section Programs

variable {dependencies : CommandDependencies} {w : World (Store IdentityDb) Command Reply}

/-- The executor's call of a tenant command, from its work. -/
theorem wp_executeIdempotently {context : PlatformCommandContext} {command : Command}
    {call : Call IdentityDb RowLock Empty} (htenant : command.isRole = false)
    (hwork : ∀ w, wp identityDiscipline (fun _ locks change w => ∀ response,
      Committable identityDiscipline command (.tenant ⟨response, false⟩) locks change w)
      AnyFailure call.work [] id w) :
    wp (stored identityDiscipline)
      (fun a locks change w =>
        Committable (stored identityDiscipline) command (.tenant a) locks change w)
      (fun _ _ _ _ => True) (executeIdempotently dependencies context call) [] id w := by
  refine wp_lift (fun _ _ => ?_) fun _ _ => trivial
  unfold executeUntraced
  cases hprepare : prepare dependencies.executor call with
  | error e => trivial
  | ok input =>
    exact wp_executeClaimed (tenantId_of_prepare hprepare)
      (fun response w _ => committable_replay htenant) fun w _ => hwork w

theorem wp_provision {context : PlatformCommandContext} {input : ProvisionTenantInput}
    {key : Option Text} {env : CommandEnvironment} :
    wp (stored identityDiscipline)
      (fun a locks change w => Committable (stored identityDiscipline)
        (.provision context input key env) (.tenant a) locks change w)
      (fun _ _ _ _ => True) (provision dependencies context input key env) [] id w :=
  wp_lift (fun _ hprepare => wp_executeIdempotently rfl fun _ => wp_provisionWork hprepare)
    fun _ _ => trivial

theorem wp_transition {command : LifecycleCommand} {context : PlatformCommandContext}
    {input : TenantLifecycleInput} {key : Option Text} {env : CommandEnvironment} :
    wp (stored identityDiscipline)
      (fun a locks change w => Committable (stored identityDiscipline)
        (.lifecycle command context input key env) (.tenant a) locks change w)
      (fun _ _ _ _ => True) (transition dependencies command context input key env) [] id w := by
  refine wp_lift (fun _ _ => wp_lift (fun id hid => ?_) fun _ _ => trivial) fun _ _ => trivial
  cases requireNonBlank_eq_ok hid
  exact wp_executeIdempotently rfl fun _ => wp_transitionWork

theorem prepareRoleChange_eq_ok {context : TenantContext} {input : RoleAssignmentInput}
    {env : RoleEnvironment} {target : ActorId} (h : prepareRoleChange context input env = .ok target) :
    target = input.targetActorId ∧ input.targetActorId ≠ context.actorId := by
  unfold prepareRoleChange at h
  simp only [Except.bind_eq_ok_iff, refuseIf_eq_ok_iff] at h
  obtain ⟨_, -, target', htarget, _, hother, h⟩ := h
  cases h
  cases requireNonBlank_eq_ok htarget
  exact ⟨rfl, hother⟩

theorem wp_role {kind : RoleChange} {context : TenantContext} {input : RoleAssignmentInput}
    {env : RoleEnvironment} :
    wp (stored identityDiscipline)
      (fun a locks change w => Committable (stored identityDiscipline)
        (.role kind context input env) a locks change w)
      (fun _ _ _ _ => True) (program dependencies (.role kind context input env)) [] id w := by
  refine wp_lift (fun target htarget => ?_) fun _ _ => trivial
  obtain ⟨rfl, hseparated⟩ := prepareRoleChange_eq_ok htarget
  have hbeside : Beside (E := IdentityDb) (K := RowLock) [] id [] id := ⟨by simp, fun _ => rfl⟩
  refine wp_bind (wp_mono ?_ (wp_zoom_effects hbeside (wp_changeRole hseparated)))
  rintro _ locks' change' w' ⟨locks, change, hbeside', hcommit⟩
  exact hbeside'.committable hcommit

/-- Every command of the module is verified against all others. -/
theorem verified (dependencies : CommandDependencies) :
    Verified (stored identityDiscipline) (fun _ _ _ => True) (fun _ _ _ => True)
      (program dependencies) := by
  intro command w _
  have hpost : ∀ (a : Reply) locks change (w : World (Store IdentityDb) Command Reply),
      Committable (stored identityDiscipline) command a locks change w →
      Committable (stored identityDiscipline) command a locks change w ∧ True :=
    fun _ _ _ _ h => ⟨h, trivial⟩
  refine wp_mono hpost ?_
  cases command with
  | provision context input key env => exact wp_bind wp_provision
  | lifecycle command context input key env => exact wp_bind wp_transition
  | role kind context input env => exact wp_role

/-- A database without tenants, audit rows or events, with any roles, assignments, policies and
stored responses. -/
def withoutTenants (records : RecordKey → Option IdempotencyRecord)
    (tenant_role : TenantId × String → Option TenantRole)
    (tenant_role_assignment : List RoleAssignment)
    (approval_policy : TenantId × String → Option ApprovalPolicyRow) (seq : ℕ) :
    World (Store IdentityDb) Command Reply where
  db :=
    { records := records
      effects :=
        { tenant := fun _ => none
          tenant_role := tenant_role
          tenant_role_assignment := tenant_role_assignment
          approval_policy := approval_policy
          audit_event := []
          outbox_event := [] } }
  seq := seq
  history := []

variable {records : RecordKey → Option IdempotencyRecord}
  {tenant_role : TenantId × String → Option TenantRole}
  {tenant_role_assignment : List RoleAssignment}
  {approval_policy : TenantId × String → Option ApprovalPolicyRow} {seq : ℕ}

theorem consistent_withoutTenants : Consistent
    (effectsOf (withoutTenants records tenant_role tenant_role_assignment approval_policy seq)) := by
  refine ⟨?_, fun _ => .absent, fun _ => rfl, ?_, rfl, fun _ => rfl, fun _ => rfl, ?_⟩
  · exact fun _ h => absurd h List.not_mem_nil
  · exact fun _ h => absurd rfl h
  · exact fun _ h => absurd h List.not_mem_nil

abbrev IdentityState := State Failure (Store IdentityDb) (RecordKey ⊕ RowLock) Command Reply

/-- Every reachable world is consistent, and a commit has its effect. -/
theorem sound {st : IdentityState} (h : Reachable (program dependencies)
    (withoutTenants records tenant_role tenant_role_assignment approval_policy seq) st) :
    Sound (stored identityDiscipline) (fun _ _ _ => True) (fun _ _ _ => True) st :=
  (verified dependencies).sound consistent_withoutTenants h

end Programs

end Sintius.Identity
