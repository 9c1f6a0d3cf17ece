import Mathlib
import Sintius.Lib.Except
import Sintius.Lib.Table
import Sintius.Lib.Transaction
import Sintius.Spec.Problem
import Sintius.Spec.TenantContext
import Sintius.Spec.Canonical
import Sintius.Spec.Queue
import Sintius.Spec.AuditRecorder
import Sintius.Spec.Idempotency
import Sintius.Spec.Tenant
import Sintius.Spec.Roles
import Sintius.Sanity.Identity

/-! What a command of the identity module commits, and what that keeps: the row of a
tenant, its events and its audit rows tell one story, every provisioned tenant has an
administrator, and every change of an assignment leaves its evidence. -/

namespace Sintius.Identity

open Js Js.Date Sintius.Canonical Sintius.Tenancy Sintius.Outbox Sintius.Audit
  Sintius.Idempotency Sql

abbrev IdentityHistory := List (Command × Reply)

abbrev IdentityWorld := World IdentityDb Command Reply

section Rows

variable (d : IdentityDb)

/-- The policies are the only table that `setPolicies` writes. -/
theorem exists_setPolicies (t : TenantId) (policies : List DefaultApprovalPolicy) :
    ∃ approval_policy, d.setPolicies t policies = { d with approval_policy := approval_policy } := by
  unfold IdentityDb.setPolicies
  induction policies generalizing d with
  | nil => exact ⟨_, rfl⟩
  | cons policy policies ih =>
    obtain ⟨approval_policy, h⟩ := ih (d.setPolicy (t, policy.actionType) policy.toApprovalPolicyRow)
    exact ⟨approval_policy, h⟩

theorem outbox_event_setPolicies (t : TenantId) (policies : List DefaultApprovalPolicy) :
    (d.setPolicies t policies).outbox_event = d.outbox_event := by
  obtain ⟨approval_policy, h⟩ := exists_setPolicies d t policies
  rw [h]

variable {d} {t t' : TenantId} {version : ℕ} {data : IdentityEventData} {kind kind' : RoleChange}
  {event : AuditEvent} {entry : OutboxEntry IdentityEventData}

theorem tenantEvents_addEvent (h : TenantEntry t version data entry) :
    (d.addEvent entry).tenantEvents t' =
      d.tenantEvents t' ++ if t' = t then [entry] else [] := by
  unfold IdentityDb.tenantEvents IdentityDb.addEvent
  rw [List.filter_append]
  split_ifs with ht <;> simp [h.isTenantEvent, ht]

theorem tenantEvents_addEvent_role (h : RoleEntry kind entry) :
    (d.addEvent entry).tenantEvents t' = d.tenantEvents t' := by
  simp [IdentityDb.tenantEvents, IdentityDb.addEvent, h.not_isTenantEvent]

theorem tenantAudits_addAudit (h : TenantAudit t event) :
    (d.addAudit event).tenantAudits t' =
      d.tenantAudits t' ++ if t' = t then [event] else [] := by
  unfold IdentityDb.tenantAudits IdentityDb.addAudit
  rw [List.filter_append]
  split_ifs with ht <;> simp [h.isTenantAudit, ht]

theorem tenantAudits_addAudit_role (h : RoleAudit kind event) :
    (d.addAudit event).tenantAudits t' = d.tenantAudits t' := by
  simp [IdentityDb.tenantAudits, IdentityDb.addAudit, h.not_isTenantAudit]

theorem length_roleEvents_addEvent (h : RoleEntry kind entry) :
    ((d.addEvent entry).roleEvents kind').length =
      (d.roleEvents kind').length + if kind' = kind then 1 else 0 := by
  unfold IdentityDb.roleEvents IdentityDb.addEvent
  rw [List.filter_append, List.length_append]
  split_ifs with hkind <;> simp [h.isRoleEvent, hkind]

theorem length_roleAudits_addAudit (h : RoleAudit kind event) :
    ((d.addAudit event).roleAudits kind').length =
      (d.roleAudits kind').length + if kind' = kind then 1 else 0 := by
  unfold IdentityDb.roleAudits IdentityDb.addAudit
  rw [List.filter_append, List.length_append]
  split_ifs with hkind <;> simp [h.isRoleAudit, hkind]

end Rows

section History

def Reply.executed : Reply → Bool
  | .tenant result => !result.replayed
  | .role => true

/-- The state of this tenant that a committed command wrote; a replay wrote none. -/
def stateWritten (t : TenantId) (c : Command × Reply) : Option TenantState :=
  match c.1 with
  | .provision _ input _ _ =>
    if input.tenantId = t ∧ c.2.executed = true then some .PROVISIONING else none
  | .lifecycle command _ input _ _ =>
    if input.tenantId = t ∧ c.2.executed = true then some command.target.state else none
  | .role _ _ _ _ => none

/-- The states that were written to this tenant, oldest first. -/
def written (t : TenantId) (history : IdentityHistory) : List TenantState :=
  history.filterMap (stateWritten t)

/-- The version of this tenant that a committed change of it expected. -/
def versionExpected (t : TenantId) (c : Command × Reply) : Option Number :=
  match c.1 with
  | .lifecycle _ _ input _ _ =>
    if input.tenantId = t ∧ c.2.executed = true then some input.expectedVersion else none
  | _ => none

def expectations (t : TenantId) (history : IdentityHistory) : List (Option ℤ) :=
  (history.filterMap (versionExpected t)).map Number.integer?

def isRoleCommand (kind : RoleChange) (c : Command × Reply) : Bool :=
  match c.1 with
  | .role kind' _ _ _ => kind' == kind
  | _ => false

def Command.isRole : Command → Bool
  | .role _ _ _ _ => true
  | _ => false

/-- Nobody changes their own assignments. -/
def Command.Separated : Command → Prop
  | .role _ context input _ => input.targetActorId ≠ context.actorId
  | _ => True

/-- What an event of an assignment says. -/
structure RoleFact where
  tenant_id : TenantId
  aggregate_id : String
  aggregate_version : ℕ
  data : IdentityEventData
deriving DecidableEq, Repr

def isAssignmentEvent (entry : OutboxEntry IdentityEventData) : Bool :=
  entry.envelope.aggregate_type == "RoleAssignment"

def roleFact (entry : OutboxEntry IdentityEventData) : RoleFact where
  tenant_id := entry.envelope.tenant_id
  aggregate_id := entry.envelope.aggregate_id
  aggregate_version := entry.envelope.aggregate_version
  data := entry.envelope.data

def IdentityDb.roleFacts (d : IdentityDb) : List RoleFact :=
  (d.outbox_event.filter isAssignmentEvent).map roleFact

/-- What the event of a role command says: one identifier for both names, and one version. -/
def Command.roleFact : Command → Option RoleFact
  | .role _ context input _ => some
      { tenant_id := context.tenantId
        aggregate_id := input.targetActorId ++ ":" ++ input.roleCode
        aggregate_version := 1
        data := .role input.targetActorId input.roleCode }
  | _ => none

end History

/-- The story of a tenant: the states written to it, its row, its events and its audit rows. -/
inductive TenantLog (t : TenantId) : List TenantState → Option TenantSnapshot →
    Table IdentityEventData → List AuditEvent → Prop
  | absent : TenantLog t [] none [] []
  | provisioned {row : TenantSnapshot} {entry : OutboxEntry IdentityEventData}
      {event : AuditEvent} {name : String} (hstate : row.state = .PROVISIONING)
      (hversion : row.version = 1)
      (hentry : TenantEntry t row.version (.provisioned name row.state) entry)
      (haudit : TenantAudit t event) : TenantLog t [row.state] (some row) [entry] [event]
  | transitioned {states : List TenantState} {row row' : TenantSnapshot}
      {events : Table IdentityEventData} {audits : List AuditEvent}
      {entry : OutboxEntry IdentityEventData} {event : AuditEvent}
      (h : TenantLog t states (some row) events audits)
      (hstate : row'.state ∈ transitions row.state) (hversion : row'.version = row.version + 1)
      (hentry : TenantEntry t row'.version (.transitioned row.state row'.state) entry)
      (haudit : TenantAudit t event) (horder : ∀ e ∈ events, e.entryId < entry.entryId) :
      TenantLog t (states ++ [row'.state]) (some row') (events ++ [entry]) (audits ++ [event])

/-- One change of one assignment. -/
inductive AssignmentChange (t : TenantId) (actor : ActorId) (code : String) :
    RoleChange → List RoleAssignment → List RoleAssignment → Prop
  | inserted {rows : List RoleAssignment} (hnew : ∀ row ∈ rows, row.hasKey t actor code = false) :
      AssignmentChange t actor code .assigned rows (rows ++ [⟨t, actor, code, .active⟩])
  | reactivated {before after : List RoleAssignment} :
      AssignmentChange t actor code .assigned (before ++ ⟨t, actor, code, .revoked⟩ :: after)
        (before ++ ⟨t, actor, code, .active⟩ :: after)
  | revoked {before after : List RoleAssignment} :
      AssignmentChange t actor code .revoked (before ++ ⟨t, actor, code, .active⟩ :: after)
        (before ++ ⟨t, actor, code, .revoked⟩ :: after)

/-- What a command that commits makes of the tables. -/
inductive Effect : Command → Reply → IdentityDb → IdentityDb → Prop
  | replayed {command : Command} {response : StoredResponse} {d : IdentityDb}
      (htenant : command.isRole = false) :
      Effect command (.tenant ⟨response, true⟩) d d
  | provisioned {context : PlatformCommandContext} {input : ProvisionTenantInput}
      {key : Option Text} {env : CommandEnvironment} {response : StoredResponse} {d : IdentityDb}
      {row : TenantSnapshot} {role : TenantRole} {administrator : ActorId}
      {policies : List DefaultApprovalPolicy} {event : AuditEvent}
      {entry : OutboxEntry IdentityEventData} {name : String}
      (hnone : d.tenant input.tenantId = none) (hid : row.id = input.tenantId)
      (hstate : row.state = .PROVISIONING) (hversion : row.version = 1)
      (hentry : TenantEntry input.tenantId row.version (.provisioned name row.state) entry)
      (haudit : TenantAudit input.tenantId event) :
      Effect (.provision context input key env) (.tenant ⟨response, false⟩) d
        ((((((d.setTenant row).setRole (input.tenantId, ADMINISTRATOR_ROLE) role).addAssignment
          ⟨input.tenantId, administrator, ADMINISTRATOR_ROLE, .active⟩).setPolicies input.tenantId
            policies).addAudit event).addEvent entry)
  | transitioned {command : LifecycleCommand} {context : PlatformCommandContext}
      {input : TenantLifecycleInput} {key : Option Text} {env : CommandEnvironment}
      {response : StoredResponse} {d : IdentityDb} {row row' : TenantSnapshot}
      {event : AuditEvent} {entry : OutboxEntry IdentityEventData}
      (hrow : d.tenant input.tenantId = some row) (hid : row'.id = input.tenantId)
      (hstate : row'.state = command.target.state)
      (htransition : row'.state ∈ transitions row.state) (hversion : row'.version = row.version + 1)
      (hexpected : input.expectedVersion.integer? = some (row.version : ℤ))
      (hentry : TenantEntry input.tenantId row'.version (.transitioned row.state row'.state) entry)
      (haudit : TenantAudit input.tenantId event)
      (horder : ∀ e ∈ d.tenantEvents input.tenantId, e.entryId < entry.entryId) :
      Effect (.lifecycle command context input key env) (.tenant ⟨response, false⟩) d
        (((d.setTenant row').addAudit event).addEvent entry)
  | role {kind : RoleChange} {context : TenantContext} {input : RoleAssignmentInput}
      {env : RoleEnvironment} {d : IdentityDb} {rows : List RoleAssignment} {event : AuditEvent}
      {entry : OutboxEntry IdentityEventData}
      (hseparated : input.targetActorId ≠ context.actorId)
      (hchange : AssignmentChange context.tenantId input.targetActorId input.roleCode kind
        d.tenant_role_assignment rows)
      (hremains : kind = .revoked → input.roleCode = ADMINISTRATOR_ROLE →
        ∃ row ∈ rows, row.holds context.tenantId ADMINISTRATOR_ROLE = true)
      (hentry : RoleEntry kind entry)
      (hfact : some (roleFact entry) = (Command.role kind context input env).roleFact)
      (haudit : RoleAudit kind event) :
      Effect (.role kind context input env) .role d
        ((({ d with tenant_role_assignment := rows }).addAudit event).addEvent entry)

section Log

variable {t : TenantId} {states : List TenantState} {row : Option TenantSnapshot}
  {events : Table IdentityEventData} {audits : List AuditEvent}

theorem TenantLog.length_eq (h : TenantLog t states row events audits) :
    (row.map TenantSnapshot.version).getD 0 = states.length ∧ events.length = states.length ∧
      audits.length = states.length := by
  induction h with
  | absent => exact ⟨rfl, rfl, rfl⟩
  | provisioned _ hversion => exact ⟨by simpa using hversion, rfl, rfl⟩
  | transitioned _ _ hversion _ _ _ ih =>
    obtain ⟨hrow, hevents, haudits⟩ := ih
    simp only [Option.map_some, Option.getD_some] at hrow ⊢
    simp only [List.length_append, List.length_singleton, hversion, hrow, hevents, haudits,
      and_self]

theorem TenantLog.getLast?_eq (h : TenantLog t states row events audits) :
    states.getLast? = row.map TenantSnapshot.state := by
  cases h with
  | absent => rfl
  | provisioned => rfl
  | transitioned => simp

/-- A row that has a version it had before is in the state it was in. -/
theorem TenantLog.state_eq {states' : List TenantState} {old new : TenantSnapshot}
    {events' : Table IdentityEventData} {audits' : List AuditEvent}
    (h : TenantLog t states (some old) events audits)
    (h' : TenantLog t states' (some new) events' audits') (hpre : states <+: states')
    (hversion : new.version = old.version) : new.state = old.state := by
  have hlength : states.length = states'.length := by
    rw [← h.length_eq.1, ← h'.length_eq.1]
    exact hversion.symm
  have hlast := h.getLast?_eq
  rw [hpre.eq_of_length hlength, h'.getLast?_eq] at hlast
  exact Option.some.inj hlast

/-- A tenant without a row has no story. -/
theorem TenantLog.eq_nil (h : TenantLog t states none events audits) :
    states = [] ∧ events = [] ∧ audits = [] := by
  cases h
  exact ⟨rfl, rfl, rfl⟩

end Log

structure Consistent (w : IdentityWorld) : Prop where
  numbered : ∀ entry ∈ w.db.outbox_event, entry.entryId < w.seq
  logs : ∀ t, TenantLog t (written t w.history) (w.db.tenant t) (w.db.tenantEvents t)
    (w.db.tenantAudits t)
  expected : ∀ t, expectations t w.history =
    (List.range' 1 ((written t w.history).length - 1)).map fun v : ℕ => some (v : ℤ)
  administered : ∀ t, w.db.tenant t ≠ none →
    ∃ row ∈ w.db.tenant_role_assignment, row.holds t ADMINISTRATOR_ROLE = true
  facts : w.db.roleFacts = w.history.filterMap fun c => c.1.roleFact
  events : ∀ kind, (w.db.roleEvents kind).length = w.history.countP (isRoleCommand kind)
  audits : ∀ kind, (w.db.roleAudits kind).length = w.history.countP (isRoleCommand kind)
  separated : ∀ c ∈ w.history, c.1.Separated

section Commit

variable {w : IdentityWorld} {command : Command} {reply : Reply} {d' : IdentityDb}

theorem written_append (t : TenantId) (history : IdentityHistory) (c : Command × Reply) :
    written t (history ++ [c]) = written t history ++ (stateWritten t c).toList := by
  unfold written
  rw [List.filterMap_append]
  cases h : stateWritten t c <;> simp [h]

theorem expectations_append (t : TenantId) (history : IdentityHistory) (c : Command × Reply) :
    expectations t (history ++ [c]) =
      expectations t history ++ ((versionExpected t c).map Number.integer?).toList := by
  unfold expectations
  rw [List.filterMap_append, List.map_append]
  cases h : versionExpected t c <;> simp [h]

/-- A replay writes nothing. -/
theorem stateWritten_replayed (t : TenantId) (command : Command) (response : StoredResponse) :
    stateWritten t (command, .tenant ⟨response, true⟩) = none := by
  cases command <;> simp [stateWritten, Reply.executed]

theorem versionExpected_replayed (t : TenantId) (command : Command) (response : StoredResponse) :
    versionExpected t (command, .tenant ⟨response, true⟩) = none := by
  cases command <;> simp [versionExpected, Reply.executed]

/-- The change of an assignment leaves a holder where there is one, unless it revokes it. -/
theorem AssignmentChange.exists_holds {t t' : TenantId} {actor : ActorId} {code code' : String}
    {kind : RoleChange} {rows rows' : List RoleAssignment}
    (h : AssignmentChange t actor code kind rows rows')
    (hrow : ∃ row ∈ rows, row.holds t' code' = true)
    (hremains : kind = .revoked → t' = t → code' = code →
      ∃ row ∈ rows', row.holds t' code' = true) :
    ∃ row ∈ rows', row.holds t' code' = true := by
  obtain ⟨row, hmem, hholds⟩ := hrow
  cases h with
  | inserted hnew => exact ⟨row, List.mem_append_left _ hmem, hholds⟩
  | reactivated =>
    rcases List.mem_append.mp hmem with hmem | hmem
    · exact ⟨row, List.mem_append_left _ hmem, hholds⟩
    · rcases List.mem_cons.mp hmem with rfl | hmem
      · simp [RoleAssignment.holds] at hholds
      · exact ⟨row, List.mem_append_right _ (List.mem_cons_of_mem _ hmem), hholds⟩
  | revoked =>
    rcases List.mem_append.mp hmem with hmem | hmem
    · exact ⟨row, List.mem_append_left _ hmem, hholds⟩
    · rcases List.mem_cons.mp hmem with rfl | hmem
      · simp only [RoleAssignment.holds, Bool.and_eq_true, beq_iff_eq] at hholds
        exact hremains rfl hholds.1.1.symm hholds.1.2.symm
      · exact ⟨row, List.mem_append_right _ (List.mem_cons_of_mem _ hmem), hholds⟩

theorem tenantCommand_cases (h : command.isRole = false) :
    command.roleFact = none ∧ command.Separated ∧
      ∀ kind reply, isRoleCommand kind (command, reply) = false := by
  cases command with
  | provision => exact ⟨rfl, trivial, fun _ _ => rfl⟩
  | lifecycle => exact ⟨rfl, trivial, fun _ _ => rfl⟩
  | role => cases h

/-- A tenant command keeps what is known of the assignments. -/
theorem Consistent.of_tenant (h : Consistent w) (htenant : command.isRole = false)
    (hnumbered : ∀ entry ∈ d'.outbox_event, entry.entryId < w.seq)
    (hlogs : ∀ t, TenantLog t (written t (w.history ++ [(command, reply)])) (d'.tenant t)
      (d'.tenantEvents t) (d'.tenantAudits t))
    (hexpected : ∀ t, expectations t (w.history ++ [(command, reply)]) =
      (List.range' 1 ((written t (w.history ++ [(command, reply)])).length - 1)).map
        fun v : ℕ => some (v : ℤ))
    (hadministered : ∀ t, d'.tenant t ≠ none →
      ∃ row ∈ d'.tenant_role_assignment, row.holds t ADMINISTRATOR_ROLE = true)
    (hfacts : d'.roleFacts = w.db.roleFacts)
    (hevents : ∀ kind, d'.roleEvents kind = w.db.roleEvents kind)
    (haudits : ∀ kind, d'.roleAudits kind = w.db.roleAudits kind) :
    Consistent ⟨d', w.seq, w.history ++ [(command, reply)]⟩ := by
  obtain ⟨hfact, hseparated, hkind⟩ := tenantCommand_cases htenant
  refine ⟨hnumbered, hlogs, hexpected, hadministered, ?_, ?_, ?_, ?_⟩
  · simp [hfacts, h.facts, hfact]
  · intro kind
    simp [hevents, h.events, hkind]
  · intro kind
    simp [haudits, h.audits, hkind]
  · intro c hc
    rcases List.mem_append.mp hc with hc | hc
    · exact h.separated c hc
    · cases List.mem_singleton.mp hc
      exact hseparated

theorem Consistent.replayed {response : StoredResponse} (h : Consistent w)
    (htenant : command.isRole = false) :
    Consistent ⟨w.db, w.seq, w.history ++ [(command, .tenant ⟨response, true⟩)]⟩ := by
  have hwritten : ∀ t, written t (w.history ++ [(command, .tenant ⟨response, true⟩)]) =
      written t w.history := by
    intro t
    simp [written_append, stateWritten_replayed]
  refine h.of_tenant htenant h.numbered ?_ ?_ h.administered rfl (fun _ => rfl) (fun _ => rfl)
  · intro t
    rw [hwritten]
    exact h.logs t
  · intro t
    rw [hwritten, ← h.expected t, expectations_append, versionExpected_replayed]
    exact List.append_nil _

/-- A change of a tenant: its row, one event and one audit row. -/
structure TenantWrite (t : TenantId) (row : TenantSnapshot) (entry : OutboxEntry IdentityEventData)
    (event : AuditEvent) (d d' : IdentityDb) : Prop where
  row : d'.tenant = Function.update d.tenant t (some row)
  entry : d'.outbox_event = d.outbox_event ++ [entry]
  event : d'.audit_event = d.audit_event ++ [event]
  assignments : ∀ a ∈ d.tenant_role_assignment, a ∈ d'.tenant_role_assignment

section Write

variable {t t' : TenantId} {row : TenantSnapshot} {entry : OutboxEntry IdentityEventData}
  {event : AuditEvent} {d : IdentityDb} {version : ℕ} {data : IdentityEventData}

theorem TenantWrite.tenantEvents (h : TenantWrite t row entry event d d')
    (hentry : TenantEntry t version data entry) :
    d'.tenantEvents t' = d.tenantEvents t' ++ if t' = t then [entry] else [] := by
  rw [← tenantEvents_addEvent hentry]
  simp [IdentityDb.tenantEvents, IdentityDb.addEvent, h.entry]

theorem TenantWrite.tenantAudits (h : TenantWrite t row entry event d d')
    (haudit : TenantAudit t event) :
    d'.tenantAudits t' = d.tenantAudits t' ++ if t' = t then [event] else [] := by
  rw [← tenantAudits_addAudit haudit]
  simp [IdentityDb.tenantAudits, IdentityDb.addAudit, h.event]

theorem TenantWrite.roleFacts (h : TenantWrite t row entry event d d')
    (hentry : TenantEntry t version data entry) : d'.roleFacts = d.roleFacts := by
  simp [IdentityDb.roleFacts, h.entry, isAssignmentEvent, hentry.aggregate_type]

theorem TenantWrite.roleEvents {kind : RoleChange} (h : TenantWrite t row entry event d d')
    (hentry : TenantEntry t version data entry) : d'.roleEvents kind = d.roleEvents kind := by
  simp [IdentityDb.roleEvents, h.entry, hentry.not_isRoleEvent]

theorem TenantWrite.roleAudits {kind : RoleChange} (h : TenantWrite t row entry event d d')
    (haudit : TenantAudit t event) : d'.roleAudits kind = d.roleAudits kind := by
  simp [IdentityDb.roleAudits, h.event, haudit.not_isRoleAudit]

/-- A change of a tenant that continues its story, at the version that was expected. -/
theorem Consistent.write (h : Consistent w) (htenant : command.isRole = false)
    (hwrite : TenantWrite t row entry event w.db d') (hentry : TenantEntry t version data entry)
    (haudit : TenantAudit t event) (hnumber : entry.entryId < w.seq)
    (hwritten : ∀ t', stateWritten t' (command, reply) = if t' = t then some row.state else none)
    (hlog : TenantLog t (written t w.history ++ [row.state]) (some row)
      (w.db.tenantEvents t ++ [entry]) (w.db.tenantAudits t ++ [event]))
    (hexpected : expectations t w.history ++
      ((versionExpected t (command, reply)).map Number.integer?).toList =
        (List.range' 1 (written t w.history).length).map fun v : ℕ => some (v : ℤ))
    (hother : ∀ t', t' ≠ t → versionExpected t' (command, reply) = none)
    (hadministered : ∃ a ∈ d'.tenant_role_assignment, a.holds t ADMINISTRATOR_ROLE = true) :
    Consistent ⟨d', w.seq, w.history ++ [(command, reply)]⟩ := by
  refine h.of_tenant htenant ?_ ?_ ?_ ?_ (hwrite.roleFacts hentry)
    (fun _ => hwrite.roleEvents hentry) (fun _ => hwrite.roleAudits haudit)
  · rw [hwrite.entry]
    intro e he
    rcases List.mem_append.mp he with he | he
    · exact h.numbered e he
    · cases List.mem_singleton.mp he
      exact hnumber
  · intro t'
    rw [hwrite.row, hwrite.tenantEvents hentry, hwrite.tenantAudits haudit, written_append,
      hwritten]
    by_cases ht : t' = t
    · subst ht
      simpa using hlog
    · simpa [ht] using h.logs t'
  · intro t'
    rw [expectations_append, written_append, hwritten]
    by_cases ht : t' = t
    · subst ht
      simpa using hexpected
    · simpa [ht, hother t' ht] using h.expected t'
  · intro t' hrow
    by_cases ht : t' = t
    · subst ht
      exact hadministered
    · rw [hwrite.row, Function.update_of_ne ht] at hrow
      obtain ⟨a, ha, hholds⟩ := h.administered t' hrow
      exact ⟨a, hwrite.assignments a ha, hholds⟩

end Write

section Effects

variable {t : TenantId} {row row' : TenantSnapshot} {entry : OutboxEntry IdentityEventData}
  {event : AuditEvent} {response : StoredResponse} {key : Option Text} {env : CommandEnvironment}
  {context : PlatformCommandContext}

theorem Consistent.provisioned {input : ProvisionTenantInput} {name : String} (h : Consistent w)
    (hnone : w.db.tenant input.tenantId = none) (hstate : row.state = .PROVISIONING)
    (hversion : row.version = 1)
    (hentry : TenantEntry input.tenantId row.version (.provisioned name row.state) entry)
    (haudit : TenantAudit input.tenantId event) (hnumber : entry.entryId < w.seq)
    (hwrite : TenantWrite input.tenantId row entry event w.db d')
    (hadministered : ∃ a ∈ d'.tenant_role_assignment,
      a.holds input.tenantId ADMINISTRATOR_ROLE = true) :
    Consistent ⟨d', w.seq, w.history ++
      [(.provision context input key env, .tenant ⟨response, false⟩)]⟩ := by
  have hlog := h.logs input.tenantId
  rw [hnone] at hlog
  obtain ⟨hstates, hevents, haudits⟩ := hlog.eq_nil
  have hexpected := h.expected input.tenantId
  rw [hstates] at hexpected
  refine h.write rfl hwrite hentry haudit hnumber ?_ ?_ ?_ (fun _ _ => rfl) hadministered
  · intro t'
    simp [stateWritten, Reply.executed, hstate, eq_comm]
  · rw [hstates, hevents, haudits]
    exact .provisioned hstate hversion hentry haudit
  · rw [hexpected, hstates]
    rfl

theorem Consistent.transitioned {command : LifecycleCommand} {input : TenantLifecycleInput}
    (h : Consistent w) (hrow : w.db.tenant input.tenantId = some row)
    (hstate : row'.state = command.target.state)
    (htransition : row'.state ∈ transitions row.state) (hversion : row'.version = row.version + 1)
    (hexpected : input.expectedVersion.integer? = some (row.version : ℤ))
    (hentry : TenantEntry input.tenantId row'.version (.transitioned row.state row'.state) entry)
    (haudit : TenantAudit input.tenantId event)
    (horder : ∀ e ∈ w.db.tenantEvents input.tenantId, e.entryId < entry.entryId)
    (hnumber : entry.entryId < w.seq)
    (hwrite : TenantWrite input.tenantId row' entry event w.db d') :
    Consistent ⟨d', w.seq, w.history ++
      [(.lifecycle command context input key env, .tenant ⟨response, false⟩)]⟩ := by
  have hlog := h.logs input.tenantId
  rw [hrow] at hlog
  -- the row's version counts the states written before
  obtain ⟨hlength, -, -⟩ := hlog.length_eq
  simp only [Option.map_some, Option.getD_some] at hlength
  have hpositive : (written input.tenantId w.history).length - 1 + 1 = row.version := by
    have hlast := hlog.getLast?_eq
    have hne : written input.tenantId w.history ≠ [] := by
      intro hnil
      simp [hnil] at hlast
    have := List.length_pos_iff.mpr hne
    omega
  have hadministered := h.administered input.tenantId (by simp [hrow])
  refine h.write rfl hwrite hentry haudit hnumber ?_ ?_ ?_ ?_ ?_
  · intro t'
    simp [stateWritten, Reply.executed, hstate, eq_comm]
  · exact .transitioned hlog htransition hversion hentry haudit horder
  · rw [h.expected, ← hlength, ← hpositive, List.range'_1_concat, List.map_append]
    simp only [versionExpected, Reply.executed, Bool.not_false, and_self, if_true, hexpected,
      Option.map_some, Option.toList_some, List.map_cons, List.map_nil, Nat.add_sub_cancel]
    rw [← hpositive, Nat.add_comm 1]
  · intro t' ht
    simp [versionExpected, Ne.symm ht]
  · obtain ⟨a, ha, hholds⟩ := hadministered
    exact ⟨a, hwrite.assignments a ha, hholds⟩

theorem Consistent.role {kind : RoleChange} {context : TenantContext} {input : RoleAssignmentInput}
    {env : RoleEnvironment} {rows : List RoleAssignment} (h : Consistent w)
    (hseparated : input.targetActorId ≠ context.actorId)
    (hchange : AssignmentChange context.tenantId input.targetActorId input.roleCode kind
      w.db.tenant_role_assignment rows)
    (hremains : kind = .revoked → input.roleCode = ADMINISTRATOR_ROLE →
      ∃ row ∈ rows, row.holds context.tenantId ADMINISTRATOR_ROLE = true)
    (hentry : RoleEntry kind entry)
    (hfact : some (roleFact entry) = (Command.role kind context input env).roleFact)
    (haudit : RoleAudit kind event) (hnumber : entry.entryId < w.seq) :
    Consistent ⟨(({ w.db with tenant_role_assignment := rows }).addAudit event).addEvent entry,
      w.seq, w.history ++ [(.role kind context input env, .role)]⟩ := by
  have hwritten : ∀ t, written t (w.history ++ [(.role kind context input env, .role)]) =
      written t w.history := by
    intro t
    simp [written_append, stateWritten]
  refine ⟨?_, ?_, ?_, ?_, ?_, ?_, ?_, ?_⟩
  · intro e he
    rcases List.mem_append.mp he with he | he
    · exact h.numbered e he
    · cases List.mem_singleton.mp he
      exact hnumber
  · intro t
    rw [hwritten, tenantEvents_addEvent_role hentry]
    have haudits : (((({ w.db with tenant_role_assignment := rows } : IdentityDb).addAudit
        event).addEvent entry).tenantAudits t) = w.db.tenantAudits t :=
      tenantAudits_addAudit_role haudit
    rw [haudits]
    exact h.logs t
  · intro t
    rw [hwritten, ← h.expected t, expectations_append]
    exact List.append_nil _
  · intro t hrow
    refine hchange.exists_holds (h.administered t hrow) ?_
    rintro hkind rfl hcode
    exact hremains hkind hcode.symm
  · have happend : ((({ w.db with tenant_role_assignment := rows } : IdentityDb).addAudit
        event).addEvent entry).roleFacts = w.db.roleFacts ++ [roleFact entry] := by
      simp [IdentityDb.roleFacts, IdentityDb.addEvent, IdentityDb.addAudit, isAssignmentEvent,
        hentry.aggregate_type]
    simp [happend, h.facts, ← hfact]
  · intro kind'
    rw [length_roleEvents_addEvent hentry, List.countP_append, ← h.events kind']
    by_cases hkind : kind' = kind
    · simp [isRoleCommand, hkind, IdentityDb.roleEvents, IdentityDb.addAudit]
    · simp [isRoleCommand, hkind, Ne.symm hkind, IdentityDb.roleEvents, IdentityDb.addAudit]
  · intro kind'
    have haudits : (((({ w.db with tenant_role_assignment := rows } : IdentityDb).addAudit
        event).addEvent entry).roleAudits kind').length = _ := length_roleAudits_addAudit haudit
    rw [haudits, List.countP_append, ← h.audits kind']
    by_cases hkind : kind' = kind
    · simp [isRoleCommand, hkind, IdentityDb.roleAudits]
    · simp [isRoleCommand, hkind, Ne.symm hkind, IdentityDb.roleAudits]
  · intro c hc
    rcases List.mem_append.mp hc with hc | hc
    · exact h.separated c hc
    · cases List.mem_singleton.mp hc
      exact hseparated

/-- What a command commits keeps the world consistent. -/
theorem Consistent.commit (h : Consistent w) (heffect : Effect command reply w.db d')
    (hnumbered : ∀ entry ∈ d'.outbox_event, entry.entryId < w.seq) :
    Consistent ⟨d', w.seq, w.history ++ [(command, reply)]⟩ := by
  cases heffect with
  | replayed htenant => exact h.replayed htenant
  | @provisioned context input key env response _ row role administrator policies event entry name
      hnone hid hstate hversion hentry haudit =>
    have hnumber := hnumbered entry (by simp [IdentityDb.addEvent])
    obtain ⟨approval_policy, hpolicies⟩ := exists_setPolicies
      (((w.db.setTenant row).setRole (input.tenantId, ADMINISTRATOR_ROLE) role).addAssignment
        ⟨input.tenantId, administrator, ADMINISTRATOR_ROLE, .active⟩) input.tenantId policies
    rw [hpolicies] at *
    refine h.provisioned hnone hstate hversion hentry haudit hnumber ⟨?_, rfl, rfl, ?_⟩ ?_
    · rw [← hid]
      rfl
    · exact fun a ha => List.mem_append_left _ ha
    · refine ⟨⟨input.tenantId, administrator, ADMINISTRATOR_ROLE, .active⟩, ?_, ?_⟩
      · exact List.mem_append_right _ (List.mem_singleton_self _)
      · simp [RoleAssignment.holds]
  | @transitioned command context input key env response _ row row' event entry hrow hid hstate
      htransition hversion hexpected hentry haudit horder =>
    have hnumber := hnumbered entry (by simp [IdentityDb.addEvent])
    refine h.transitioned hrow hstate htransition hversion hexpected hentry haudit horder hnumber
      ⟨?_, rfl, rfl, fun a ha => ha⟩
    rw [← hid]
    rfl
  | @role kind context input env _ rows event entry hseparated hchange hremains hentry hfact
      haudit =>
    have hnumber := hnumbered entry (by simp [IdentityDb.addEvent])
    exact h.role hseparated hchange hremains hentry hfact haudit hnumber

end Effects

end Commit

end Sintius.Identity
