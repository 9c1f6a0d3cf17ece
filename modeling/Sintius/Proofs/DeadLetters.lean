import Mathlib
import Sintius.Lib.Except
import Sintius.Lib.Table
import Sintius.Lib.Text
import Sintius.Lib.Utf16
import Sintius.Spec.Problem
import Sintius.Spec.Queue
import Sintius.Spec.TenantContext
import Sintius.Spec.EventEnvelope
import Sintius.Spec.Canonical
import Sintius.Spec.AuditRecorder
import Sintius.Spec.DeadLetters
import Sintius.Sanity.Queue
import Sintius.Sanity.Identity
import Sintius.Proofs.Evidence

/-! A dead letter is resolved with its audit event or not at all. Whatever a piece of
work does with its unit of work, it resolves one entry at most, and it can write
evidence only for the tenant of that entry. -/

namespace Sintius.Outbox

open Js Js.Date Sintius.Canonical Sintius.Tenancy Sintius.Audit

variable {Data A : Type} {queue : QueueSelector} {database : ℕ → Except Failure Unit}
  {tx tx' : DeadLetterTx Data} {rows rows' : Table Data} {audit : List AuditEvent}
  {letter : OutboxEntry Data} {entryId : String} {resolution : DeadLetterResolution}
  {info : Option DeadLetterInfo}

/-- One entry of the table, dead and in the queue, is resolved; the others stay as they are. -/
structure ResolvesLetter (queue : QueueSelector) (rows rows' : Table Data)
    (letter : OutboxEntry Data) (entryId : String) (resolution : DeadLetterResolution) : Prop where
  dead : letter.status = .dead
  scope : consumerScope queue letter
  entry : entryIdOf entryId = some letter.entryId
  replaced : ∃ before after, rows = before ++ letter :: after ∧
    rows' = before ++ resolveEntry resolution letter :: after

section Statements

theorem deadLetterInfo_resolveEntry (resolution : DeadLetterResolution) (e : OutboxEntry Data) :
    deadLetterInfo (resolveEntry resolution e) = deadLetterInfo e := by
  unfold resolveEntry
  split <;> rfl

theorem resolveEntry_status (resolution : DeadLetterResolution) (e : OutboxEntry Data) :
    (resolveEntry resolution e).status = .pending ∨
      (resolveEntry resolution e).status = .skipped := by
  unfold resolveEntry
  split
  · exact .inr rfl
  · exact .inl rfl

/-- Where entry ids are unique, a resolution finds one dead letter or changes nothing. -/
theorem resolveDeadLetter_cases (queue : QueueSelector)
    (hids : rows.Pairwise fun a b => a.entryId ≠ b.entryId) (entryId : String) (resolution : DeadLetterResolution) :
    resolveDeadLetter queue entryId resolution rows = (rows, none) ∨
    ∃ letter rows', ResolvesLetter queue rows rows' letter entryId resolution ∧
      resolveDeadLetter queue entryId resolution rows = (rows', some (deadLetterInfo letter)) := by
  unfold resolveDeadLetter
  dsimp only
  by_cases hone : Sql.rowCount (deadLetter queue (entryIdOf entryId)) rows = 1
  · right
    obtain ⟨before, letter, after, hrows, hdead, hupdate, hreturning⟩ :=
      Sql.update_of_rowCount_eq_one (resolveEntry resolution) hone
    obtain ⟨hid, hstatus, hscope⟩ := deadLetter_spec hdead
    refine ⟨letter, _, ⟨hstatus, hscope, hid.symm, before, after, hrows, rfl⟩, ?_⟩
    rw [if_pos hone, hupdate, hreturning, List.head?_cons, Option.map_some,
      deadLetterInfo_resolveEntry]
  · left
    have hkey : ∀ row : OutboxEntry Data, deadLetter queue (entryIdOf entryId) row →
        some row.entryId = entryIdOf entryId := fun row hrow => (deadLetter_spec hrow).1
    have hids' : rows.Pairwise fun a b => some a.entryId ≠ some b.entryId :=
      hids.imp fun hab heq => hab (Option.some.inj heq)
    have hle := Sql.rowCount_le_one hids' hkey
    rw [if_neg hone, Sql.update_of_rowCount_eq_zero (by omega)]

theorem query_eq_ok (h : tx.query database = .ok tx') :
    tx' = { tx with statements := tx.statements + 1 } := by
  unfold DeadLetterTx.query at h
  obtain ⟨_, _, h⟩ := Except.bind_eq_ok_iff.mp h
  cases h
  rfl

/-- Binding changes nothing of the tables; it follows the entry that was found. -/
theorem bindResolved_eq_ok (h : tx.bindResolved database info = .ok tx') :
    tx'.rows = tx.rows ∧ tx'.audit = tx.audit ∧ tx'.resolved = tx.resolved ∧
      tx'.bound = (info.map DeadLetterInfo.tenantId).or tx.bound := by
  unfold DeadLetterTx.bindResolved at h
  cases info with
  | none =>
    cases h
    exact ⟨rfl, rfl, rfl, rfl⟩
  | some info =>
    obtain ⟨t, ht, h⟩ := Except.bind_eq_ok_iff.mp h
    cases requireNonBlank_eq_ok ht
    unfold DeadLetterTx.bindTenant at h
    obtain ⟨_, hfirst, h⟩ := Except.bind_eq_ok_iff.mp h
    obtain ⟨_, hsecond, h⟩ := Except.bind_eq_ok_iff.mp h
    cases query_eq_ok hfirst
    cases query_eq_ok hsecond
    cases h
    exact ⟨rfl, rfl, rfl, rfl⟩

/-- A resolution inside a transaction: nothing is found, or one letter is resolved and the
transaction bound to its tenant. It is the first of the transaction. -/
theorem resolveDeadLetter_eq_ok (hids : tx.rows.Pairwise fun a b => a.entryId ≠ b.entryId)
    (h : tx.resolveDeadLetter queue database entryId resolution = .ok (info, tx')) :
    tx.resolved = false ∧ tx'.audit = tx.audit ∧ tx'.resolved = true ∧
    ((info = none ∧ tx'.rows = tx.rows ∧ tx'.bound = tx.bound) ∨
      ∃ letter, info = some (deadLetterInfo letter) ∧
        ResolvesLetter queue tx.rows tx'.rows letter entryId resolution ∧
        tx'.bound = some letter.envelope.tenant_id) := by
  unfold DeadLetterTx.resolveDeadLetter at h
  obtain ⟨_, hunresolved, h⟩ := Except.bind_eq_ok_iff.mp h
  obtain ⟨⟨found, tx₁⟩, hwith, h⟩ := Except.bind_eq_ok_iff.mp h
  obtain ⟨tx₂, hbind, h⟩ := Except.bind_eq_ok_iff.mp h
  cases h
  have hfirst : tx.resolved = false := by
    unfold DeadLetterTx.requireUnresolved at hunresolved
    split_ifs at hunresolved with hr
    exact Bool.eq_false_iff.mpr hr
  obtain ⟨hrows, haudit, hresolved, hbound⟩ := bindResolved_eq_ok hbind
  unfold DeadLetterTx.resolveDeadLetterWith at hwith
  split at hwith
  · cases hwith
    exact ⟨hfirst, haudit, hresolved, .inl ⟨rfl, hrows, hbound⟩⟩
  · obtain ⟨tx₃, hquery, hwith⟩ := Except.bind_eq_ok_iff.mp hwith
    cases query_eq_ok hquery
    rcases resolveDeadLetter_cases queue hids entryId resolution with
      hnone | ⟨letter, rows', hletter, hsome⟩
    · rw [hnone] at hwith
      cases hwith
      exact ⟨hfirst, haudit, hresolved, .inl ⟨rfl, hrows, hbound⟩⟩
    · rw [hsome] at hwith
      cases hwith
      refine ⟨hfirst, haudit, hresolved, .inr ⟨letter, rfl, ?_, hbound⟩⟩
      rwa [hrows]

/-- An event is appended for the bound tenant or not at all. -/
theorem appendAudit_eq_ok {event : AuditEvent} (h : tx.appendAudit database event = .ok tx') :
    tx.bound.map units = some event.tenantId ∧
      tx' = { tx with audit := tx.audit ++ [event], statements := tx.statements + 1 } := by
  unfold DeadLetterTx.appendAudit at h
  simp only [Except.bind_eq_ok_iff, throwIf_eq_ok_iff, not_not] at h
  obtain ⟨_, hbound, tx₁, hquery, audit, hinsert, h⟩ := h
  cases query_eq_ok hquery
  unfold insertAuditEvent at hinsert
  split_ifs at hinsert
  cases hinsert
  cases h
  exact ⟨hbound, rfl⟩

end Statements

section Work

/-- What a transaction that began with these tables can have done to them: nothing, or it has
resolved one letter and written events of its tenant. -/
inductive Confined (queue : QueueSelector) (rows : Table Data) (audit : List AuditEvent) :
    DeadLetterTx Data → Prop where
  | unbound (resolved : Bool) (statements : ℕ) :
      Confined queue rows audit ⟨rows, audit, none, resolved, statements⟩
  | bound {letter : OutboxEntry Data} {rows' : Table Data} {entryId : String}
      {resolution : DeadLetterResolution} {events : List AuditEvent} (statements : ℕ)
      (hletter : ResolvesLetter queue rows rows' letter entryId resolution)
      (htenant : ∀ event ∈ events, event.tenantId = units letter.envelope.tenant_id) :
      Confined queue rows audit
        ⟨rows', audit ++ events, some letter.envelope.tenant_id, true, statements⟩

theorem Confined.query (h : Confined queue rows audit tx) (hquery : tx.query database = .ok tx') :
    Confined queue rows audit tx' := by
  cases query_eq_ok hquery
  cases h with
  | unbound resolved statements => exact .unbound _ _
  | bound statements hletter htenant => exact .bound _ hletter htenant

theorem Confined.resolveDeadLetter (hids : rows.Pairwise fun a b => a.entryId ≠ b.entryId)
    (h : Confined queue rows audit tx)
    (hresolve : tx.resolveDeadLetter queue database entryId resolution = .ok (info, tx')) :
    Confined queue rows audit tx' := by
  cases h with
  | unbound resolved statements =>
    obtain ⟨-, haudit, hresolved, hcases⟩ := resolveDeadLetter_eq_ok hids hresolve
    obtain ⟨rows', audit', bound', resolved', statements'⟩ := tx'
    dsimp only at haudit hresolved hcases
    subst haudit hresolved
    rcases hcases with ⟨-, rfl, rfl⟩ | ⟨letter, -, hletter, rfl⟩
    · exact .unbound _ _
    · have hbound : Confined queue rows audit' ⟨rows', audit' ++ [], _, true, statements'⟩ :=
        .bound statements' hletter (by simp)
      rwa [List.append_nil] at hbound
  | bound statements hletter htenant =>
    -- One resolution for each transaction.
    unfold DeadLetterTx.resolveDeadLetter at hresolve
    cases hresolve

theorem Confined.appendAudit {event : AuditEvent} (h : Confined queue rows audit tx)
    (happend : tx.appendAudit database event = .ok tx') : Confined queue rows audit tx' := by
  obtain ⟨hbound, rfl⟩ := appendAudit_eq_ok happend
  cases h with
  | unbound resolved statements => cases hbound
  | bound statements hletter htenant =>
    dsimp only
    rw [List.append_assoc]
    refine .bound _ hletter ?_
    intro other hother
    rcases List.mem_append.mp hother with hmem | hmem
    · exact htenant other hmem
    · cases List.mem_singleton.mp hmem
      exact (Option.some.inj hbound).symm

/-- Any piece of work stays confined. -/
theorem Confined.run (hids : rows.Pairwise fun a b => a.entryId ≠ b.entryId) {work : UnitOfWork A}
    {a : A} (h : Confined queue rows audit tx)
    (hrun : work.run queue database tx = .ok (a, tx')) : Confined queue rows audit tx' := by
  induction work generalizing tx with
  | done b =>
    cases hrun
    exact h
  | throw e => cases hrun
  | resolveDeadLetter entryId resolution next ih =>
    obtain ⟨⟨info, tx₁⟩, hresolve, hrun⟩ := Except.bind_eq_ok_iff.mp hrun
    exact ih info (h.resolveDeadLetter hids hresolve) hrun
  | appendAudit event next ih =>
    obtain ⟨tx₁, happend, hrun⟩ := Except.bind_eq_ok_iff.mp hrun
    exact ih (h.appendAudit happend) hrun

theorem commit_eq_ok {work : UnitOfWork A} {a : A}
    (h : work.commit queue database tx = .ok (a, tx')) :
    ∃ tx₁ tx₂, tx.query database = .ok tx₁ ∧ work.run queue database tx₁ = .ok (a, tx₂) ∧
      tx₂.query database = .ok tx' := by
  unfold UnitOfWork.commit at h
  obtain ⟨tx₁, hbegin, h⟩ := Except.bind_eq_ok_iff.mp h
  obtain ⟨⟨b, tx₂⟩, hrun, h⟩ := Except.bind_eq_ok_iff.mp h
  obtain ⟨tx₃, hcommit, h⟩ := Except.bind_eq_ok_iff.mp h
  cases h
  exact ⟨tx₁, tx₂, hbegin, hrun, hcommit⟩

theorem Confined.commit (hids : rows.Pairwise fun a b => a.entryId ≠ b.entryId)
    {work : UnitOfWork A} {a : A} (h : Confined queue rows audit tx)
    (hcommit : work.commit queue database tx = .ok (a, tx')) : Confined queue rows audit tx' := by
  obtain ⟨tx₁, tx₂, hbegin, hrun, hend⟩ := commit_eq_ok hcommit
  exact ((h.query hbegin).run hids hrun).query hend

end Work

section Commands

variable {db db' : DeadLetterDb Data} {command : DeadLetterCommand} {action : DeadLetterAction}
  {reason : String}

@[simp] theorem rows_setRows (db : DeadLetterDb Data) (table : QueueTable) (rows : Table Data) :
    (db.setRows table rows).rows table = rows := by
  cases table <;> rfl

theorem rows_setRows_of_ne {table other : QueueTable} (h : other ≠ table) (rows : Table Data) :
    (db.setRows table rows).rows other = db.rows other := by
  cases table <;> cases other <;> first | rfl | exact absurd rfl h

@[simp] theorem setRows_rows (db : DeadLetterDb Data) (table : QueueTable) :
    db.setRows table (db.rows table) = db := by
  cases table <;> rfl

/-- The database when a transaction over the queue has committed. -/
def DeadLetterDb.committed (db : DeadLetterDb Data) (queue : QueueSelector)
    (tx : DeadLetterTx Data) : DeadLetterDb Data :=
  { db.setRows queue.table tx.rows with audit_event := tx.audit }

theorem runInTransaction_of_commit {work : UnitOfWork A} {a : A}
    (h : work.commit queue database ⟨db.rows queue.table, db.audit_event, none, false, 0⟩ =
      .ok (a, tx)) :
    runInTransaction queue database work db = (.ok a, db.committed queue tx) := by
  unfold runInTransaction
  rw [h]
  rfl

/-- A transaction commits what it did, or leaves everything as it was. -/
theorem runInTransaction_cases (queue : QueueSelector) (database : ℕ → Except Failure Unit)
    (work : UnitOfWork A) (db : DeadLetterDb Data) :
    (∃ e, runInTransaction queue database work db = (.error e, db)) ∨
    ∃ a tx, work.commit queue database ⟨db.rows queue.table, db.audit_event, none, false, 0⟩ =
        .ok (a, tx) ∧
      runInTransaction queue database work db = (.ok a, db.committed queue tx) := by
  cases hrun : work.commit queue database ⟨db.rows queue.table, db.audit_event, none, false, 0⟩ with
  | error e =>
    refine .inl ⟨e, ?_⟩
    unfold runInTransaction
    rw [hrun]
  | ok r => exact .inr ⟨r.1, r.2, rfl, runInTransaction_of_commit hrun⟩

theorem deadLetterEvent_eq_ok {info : DeadLetterInfo} {event : AuditEvent}
    (h : deadLetterEvent command action reason info = .ok event) :
    event.tenantId = units info.tenantId ∧ event.action = auditAction action ∧
      event.actorId = units command.context.actorId ∧ event.targetType = units "OutboxEntry" ∧
      event.targetId = units command.entryId := by
  unfold deadLetterEvent at h
  obtain ⟨scope, hscope, h⟩ := Except.bind_eq_ok_iff.mp h
  obtain ⟨htenant, hactor⟩ := Identity.eventScopeForPlatformCommand_eq_ok hscope
  rw [← htenant, ← hactor]
  exact Identity.recordForScope_eq_ok h

/-- The work of a command resolves one letter and appends the one event about it. -/
theorem deadLetterWork_eq_ok (hids : tx.rows.Pairwise fun a b => a.entryId ≠ b.entryId)
    {info : DeadLetterInfo}
    (h : (deadLetterWork command action reason).run queue database tx = .ok (info, tx')) :
    ∃ letter resolution event, info = deadLetterInfo letter ∧ resolution.action = action ∧
      resolution.operatorId = command.context.actorId ∧
      ResolvesLetter queue tx.rows tx'.rows letter command.entryId resolution ∧
      tx'.audit = tx.audit ++ [event] ∧
      deadLetterEvent command action reason (deadLetterInfo letter) = .ok event := by
  unfold deadLetterWork at h
  cases hnow : command.now with
  | none =>
    rw [hnow] at h
    cases h
  | some now =>
    rw [hnow] at h
    obtain ⟨⟨found, tx₁⟩, hresolve, h⟩ := Except.bind_eq_ok_iff.mp h
    obtain ⟨-, haudit, -, hcases⟩ := resolveDeadLetter_eq_ok hids hresolve
    rcases hcases with ⟨rfl, -, -⟩ | ⟨letter, rfl, hletter, -⟩
    · cases h
    · dsimp only [auditResolved] at h
      cases hevent : deadLetterEvent command action reason (deadLetterInfo letter) with
      | error e =>
        rw [hevent] at h
        cases h
      | ok event =>
        rw [hevent] at h
        obtain ⟨tx₂, happend, h⟩ := Except.bind_eq_ok_iff.mp h
        obtain ⟨-, rfl⟩ := appendAudit_eq_ok happend
        cases h
        refine ⟨letter, _, event, rfl, rfl, rfl, hletter, ?_, hevent⟩
        dsimp only
        rw [haudit]

theorem checkDeadLetterCommand_eq_ok (h : checkDeadLetterCommand command = .ok (action, reason)) :
    deadLetterAction command.action = some action := by
  unfold checkDeadLetterCommand at h
  obtain ⟨_, -, h⟩ := Except.bind_eq_ok_iff.mp h
  obtain ⟨_, -, h⟩ := Except.bind_eq_ok_iff.mp h
  obtain ⟨found, hfound, h⟩ := Except.bind_eq_ok_iff.mp h
  cases h
  unfold requireAction at hfound
  split at hfound
  · cases hfound
  · cases hfound
    assumption

/-- A command's dead letter, resolved, and the one audit event that is written with it. -/
structure AuditedResolution (command : DeadLetterCommand) (db db' : DeadLetterDb Data)
    (letter : OutboxEntry Data) (resolution : DeadLetterResolution) (event : AuditEvent) :
    Prop where
  action : deadLetterAction command.action = some resolution.action
  operator : resolution.operatorId = command.context.actorId
  resolves : ResolvesLetter command.queue (db.rows command.queue.table)
    (db'.rows command.queue.table) letter command.entryId resolution
  others : ∀ table ≠ command.queue.table, db'.rows table = db.rows table
  audited : db'.audit_event = db.audit_event ++ [event]
  event_action : event.action = auditAction resolution.action
  tenant : event.tenantId = units letter.envelope.tenant_id
  actor : event.actorId = units command.context.actorId
  target : event.targetType = units "OutboxEntry" ∧ event.targetId = units command.entryId

theorem ok_or_unchanged (command : DeadLetterCommand) (db : DeadLetterDb Data) :
    (∃ e, command.resolve db = (.error e, db)) ∨ ∃ info db', command.resolve db = (.ok info, db') := by
  unfold DeadLetterCommand.resolve
  cases checkDeadLetterCommand command with
  | error e => exact .inl ⟨e, rfl⟩
  | ok checked =>
    rcases runInTransaction_cases command.queue command.database
      (deadLetterWork command checked.1 checked.2) db with ⟨e, he⟩ | ⟨info, tx, -, hok⟩
    · exact .inl ⟨e, he⟩
    · exact .inr ⟨info, _, hok⟩

/-- A command that commits has resolved a letter and written its event. -/
theorem audited_of_resolve (hkeyed : db.Keyed) {info : DeadLetterInfo}
    (h : command.resolve db = (.ok info, db')) :
    ∃ letter resolution event, info = deadLetterInfo letter ∧
      AuditedResolution command db db' letter resolution event := by
  unfold DeadLetterCommand.resolve at h
  cases hcheck : checkDeadLetterCommand command with
  | error e =>
    rw [hcheck] at h
    cases h
  | ok checked =>
    obtain ⟨action, reason⟩ := checked
    rw [hcheck] at h
    dsimp only at h
    rcases runInTransaction_cases command.queue command.database
      (deadLetterWork command action reason) db with ⟨e, he⟩ | ⟨found, tx, hcommit, hok⟩
    · rw [he] at h
      cases h
    · rw [hok] at h
      cases h
      obtain ⟨tx₁, tx₂, hbegin, hrun, hend⟩ := commit_eq_ok hcommit
      cases query_eq_ok hbegin
      cases query_eq_ok hend
      obtain ⟨letter, resolution, event, hinfo, haction, hoperator, hletter, haudit, hevent⟩ :=
        deadLetterWork_eq_ok (hkeyed command.queue.table) hrun
      obtain ⟨htenant, hact, hactor, htype, htarget⟩ := deadLetterEvent_eq_ok hevent
      refine ⟨letter, resolution, event, hinfo, ?_⟩
      subst haction
      exact {
        action := checkDeadLetterCommand_eq_ok hcheck
        operator := hoperator
        resolves := by
          change ResolvesLetter _ _ ((db.setRows command.queue.table tx₂.rows).rows _) _ _ _
          rw [rows_setRows]
          exact hletter
        others := fun table hne => rows_setRows_of_ne hne _
        audited := haudit
        event_action := hact
        tenant := htenant
        actor := hactor
        target := ⟨htype, htarget⟩ }

theorem ResolvesLetter.entryIds (h : ResolvesLetter queue rows rows' letter entryId resolution) :
    rows'.map OutboxEntry.entryId = rows.map OutboxEntry.entryId := by
  obtain ⟨before, after, rfl, rfl⟩ := h.replaced
  rw [List.map_append, List.map_append, List.map_cons, List.map_cons,
    entryId_of_identity (resolveEntry_identity resolution letter)]

theorem ResolvesLetter.keyed (h : ResolvesLetter queue rows rows' letter entryId resolution)
    (hids : rows.Pairwise fun a b => a.entryId ≠ b.entryId) :
    rows'.Pairwise fun a b => a.entryId ≠ b.entryId := by
  have hmap : (rows.map OutboxEntry.entryId).Pairwise (· ≠ ·) := List.pairwise_map.mpr hids
  rw [← h.entryIds] at hmap
  exact List.pairwise_map.mp hmap

theorem AuditedResolution.keyed {event : AuditEvent}
    (h : AuditedResolution command db db' letter resolution event) (hkeyed : db.Keyed) :
    db'.Keyed := by
  intro table
  by_cases htable : table = command.queue.table
  · subst htable
    exact h.resolves.keyed (hkeyed _)
  · rw [h.others table htable]
    exact hkeyed table

theorem DeadLetterDb.Keyed.resolve (hkeyed : db.Keyed) (command : DeadLetterCommand) :
    (command.resolve db).2.Keyed := by
  rcases ok_or_unchanged command db with ⟨e, he⟩ | ⟨info, db', hok⟩
  · rw [he]
    exact hkeyed
  · obtain ⟨letter, resolution, event, -, haudited⟩ := audited_of_resolve hkeyed hok
    rw [hok]
    exact haudited.keyed hkeyed

theorem DeadLetterDb.Keyed.after (hkeyed : db.Keyed) (commands : List DeadLetterCommand) :
    (db.after commands).Keyed := by
  unfold DeadLetterDb.after
  induction commands generalizing db with
  | nil => exact hkeyed
  | cons command commands ih => exact ih (hkeyed.resolve command)

/-- An entry that a command changes is the letter it resolves. -/
theorem AuditedResolution.eq_letter {event : AuditEvent} {table : QueueTable}
    {e e' : OutboxEntry Data} (h : AuditedResolution command db db' letter resolution event)
    (hkeyed : db.Keyed) (he : e ∈ db.rows table) (he' : e' ∈ db'.rows table)
    (hid : e'.entryId = e.entryId) (hne : e' ≠ e) :
    table = command.queue.table ∧ letter = e ∧ e' = resolveEntry resolution e := by
  by_cases htable : table = command.queue.table
  · subst htable
    obtain ⟨before, after, hrows, hrows'⟩ := h.resolves.replaced
    have hletter : letter ∈ db.rows command.queue.table := by
      rw [hrows]
      simp
    have hstays : ∀ row, row ∈ before ∨ row ∈ after → row ∈ db.rows command.queue.table := by
      intro row hrow
      rw [hrows, List.mem_append, List.mem_cons]
      tauto
    rw [hrows', List.mem_append, List.mem_cons] at he'
    have heq : ∀ row ∈ db.rows command.queue.table, row.entryId = e.entryId → row = e :=
      fun row hrow hrid => Sql.eq_of_key_eq (hkeyed command.queue.table) hrow he hrid
    rcases he' with hmem | rfl | hmem
    · exact absurd (heq e' (hstays e' (.inl hmem)) hid) hne
    · rw [entryId_of_identity (resolveEntry_identity resolution letter)] at hid
      cases heq letter hletter hid
      exact ⟨rfl, rfl, rfl⟩
    · exact absurd (heq e' (hstays e' (.inr hmem)) hid) hne
  · rw [h.others table htable] at he'
    exact absurd (Sql.eq_of_key_eq (hkeyed table) he' he hid) hne

/-- What a piece of work may commit: nothing, or one letter and events of its tenant. -/
def CommitsAtMostOne (queue : QueueSelector) (db db' : DeadLetterDb Data) : Prop :=
  db' = db ∨ ∃ letter rows' entryId resolution, ∃ events : List AuditEvent,
    ResolvesLetter queue (db.rows queue.table) rows' letter entryId resolution ∧
    (∀ event ∈ events, event.tenantId = units letter.envelope.tenant_id) ∧
    db' = { db.setRows queue.table rows' with audit_event := db.audit_event ++ events }

theorem commitsAtMostOne_of_work (hkeyed : db.Keyed) (queue : QueueSelector)
    (database : ℕ → Except Failure Unit) (work : UnitOfWork A) :
    CommitsAtMostOne queue db (runInTransaction queue database work db).2 := by
  rcases runInTransaction_cases queue database work db with
    ⟨e, he⟩ | ⟨a, tx, hcommit, hok⟩
  · rw [he]
    exact .inl rfl
  · rw [hok]
    have hbegin : Confined queue (db.rows queue.table) db.audit_event
      ⟨db.rows queue.table, db.audit_event, none, false, 0⟩ := .unbound _ _
    cases hbegin.commit (hkeyed queue.table) hcommit with
    | unbound resolved statements =>
      refine .inl ?_
      unfold DeadLetterDb.committed
      rw [setRows_rows]
    | bound statements hletter htenant =>
      exact .inr ⟨_, _, _, _, _, hletter, htenant, rfl⟩

/-- In every sequence of operator commands: a command that rejects leaves both tables as they were;
one that commits resolves one dead letter with one audit event of the letter's tenant, by the
operator, about the entry; no entry changes in another way; and no work at all can resolve two
letters in a transaction, or write evidence for another tenant. -/
theorem dead_letters_audited (db : DeadLetterDb Data) (hkeyed : db.Keyed)
    (front : List DeadLetterCommand) (command : DeadLetterCommand) :
    (∀ e, (command.resolve (db.after front)).1 = .error e →
      (command.resolve (db.after front)).2 = db.after front) ∧
    (∀ info, (command.resolve (db.after front)).1 = .ok info →
      ∃ letter resolution event, info = deadLetterInfo letter ∧
        AuditedResolution command (db.after front) (command.resolve (db.after front)).2 letter
          resolution event) ∧
    (∀ table, ∀ e ∈ (db.after front).rows table,
      ∀ e' ∈ (command.resolve (db.after front)).2.rows table, e'.entryId = e.entryId → e' ≠ e →
      e.status = .dead ∧ (e'.status = .pending ∨ e'.status = .skipped) ∧
      ∃ resolution event, e' = resolveEntry resolution e ∧
        AuditedResolution command (db.after front) (command.resolve (db.after front)).2 e
          resolution event) ∧
    ∀ (A : Type) (queue : QueueSelector) (database : ℕ → Except Failure Unit)
      (work : UnitOfWork A),
      CommitsAtMostOne queue (db.after front)
        (runInTransaction queue database work (db.after front)).2 := by
  have hafter := hkeyed.after front
  generalize db.after front = s at hafter ⊢
  refine ⟨?_, ?_, ?_, fun A => commitsAtMostOne_of_work hafter⟩
  · intro e herror
    rcases ok_or_unchanged command s with ⟨e', he⟩ | ⟨info, s', hok⟩
    · rw [he]
    · rw [hok] at herror
      cases herror
  · intro info hinfo
    exact audited_of_resolve hafter (Prod.ext hinfo rfl)
  · intro table e he e' he' hid hne
    rcases ok_or_unchanged command s with ⟨failure, hfail⟩ | ⟨info, s', hok⟩
    · rw [hfail] at he'
      exact absurd (Sql.eq_of_key_eq (hafter table) he' he hid) hne
    · obtain ⟨letter, resolution, event, -, haudited⟩ := audited_of_resolve hafter hok
      rw [hok] at he' ⊢
      obtain ⟨-, rfl, rfl⟩ := haudited.eq_letter hafter he he' hid hne
      refine ⟨haudited.resolves.dead, ?_, resolution, event, rfl, haudited⟩
      exact resolveEntry_status resolution letter

end Commands

section Requeue

def deadSample : OutboxEntry Unit where
  entryId := 1
  consumer := none
  envelope :=
    { id := "evt_1"
      type := "com.subrevos.tenant.provisioned.v1"
      tenant_id := "tenant-a"
      aggregate_type := "Tenant"
      aggregate_id := "tenant-a"
      aggregate_version := 1
      correlation_id := "corr-1"
      causation_id := none
      recorded_at := 0
      data := () }
  status := .dead
  attempts := 5
  nextAttemptAt := 0
  queuedAt := 0
  leasedBy := none
  leaseExpiresAt := none
  lastError := some "handler failed"
  doneAt := none
  resolution := none

theorem abs_epoch_le : |(0 : ℤ)| ≤ Date.maxTime := by decide

/-- A requeue of entry 1, with everything it calls answering. -/
def requeueSample : DeadLetterCommand where
  queue := .outbox
  audit :=
    { allowedFields := fun _ => some ⟨[ascii "event_id", ascii "event_type",
        ascii "aggregate_type", ascii "aggregate_id", ascii "resolution",
        ascii "previous_status"], by decide⟩
      redactSensitiveText := id
      sha256 := fun _ => List.replicate 64 0x30 }
  context :=
    { actorId := "operator-a"
      principalKind := .interactive
      assurance := .mfa
      correlationId := "corr-2"
      causationId := none
      credentialId := "credential-a"
      audiences := []
      scopes := []
      issued := true }
  entryId := "1"
  action := "requeue"
  reason := some " fixed "
  authorized := .ok ()
  now := some ⟨0, abs_epoch_le⟩
  recordedAt := some ⟨0, abs_epoch_le⟩
  newAuditId := "aud_1"
  database := fun _ => .ok ()

theorem checkDeadLetterCommand_sample :
    checkDeadLetterCommand requeueSample = .ok (.requeue, "fixed") := by decide +kernel

theorem deadLetterEvent_sample : ∃ event,
    deadLetterEvent requeueSample .requeue "fixed" (deadLetterInfo deadSample) = .ok event ∧
      Identity.auditChecks event = true := by
  have hid : (units "aud_1").any (· != 0x20) = true := by decide
  have hcorrelation : (units "corr-2").any (· != 0x20) = true := by decide
  obtain ⟨event, hevent, -, -, hchecks⟩ :=
    Identity.exists_checkedEvent requeueSample.audit
      ⟨"tenant-a", "operator-a", .interactive, "corr-2", none⟩
      (deadLetterRecord requeueSample .requeue "fixed" (deadLetterInfo deadSample)) "aud_1"
      (some ⟨0, by decide⟩) rfl (fun _ => rfl) (by decide +kernel) (by decide +kernel) rfl hid
      hcorrelation
  exact ⟨event, hevent, hchecks⟩

theorem resolveDeadLetter_sample (resolution : DeadLetterResolution) :
    resolveDeadLetter .outbox "1" resolution [deadSample] =
      ([resolveEntry resolution deadSample], some (deadLetterInfo deadSample)) := by
  have hdead : deadLetter .outbox (entryIdOf "1") deadSample = true := by
    rw [entryIdOf_one]
    decide
  unfold resolveDeadLetter Sql.update Sql.rowCount Sql.returning
  simp [hdead, deadLetterInfo_resolveEntry]

theorem resolveDeadLetter_tx_sample (resolution : DeadLetterResolution) :
    DeadLetterTx.resolveDeadLetter .outbox (fun _ => .ok ()) ⟨[deadSample], [], none, false, 1⟩ "1"
      resolution = .ok (some (deadLetterInfo deadSample),
        ⟨[resolveEntry resolution deadSample], [], some "tenant-a", true, 4⟩) := by
  have hwith : DeadLetterTx.resolveDeadLetterWith .outbox (fun _ => .ok ())
      ⟨[deadSample], [], none, true, 1⟩ "1" resolution = .ok (some (deadLetterInfo deadSample),
        ⟨[resolveEntry resolution deadSample], [], none, true, 2⟩) := by
    unfold DeadLetterTx.resolveDeadLetterWith
    rw [entryIdOf_one]
    simp only [DeadLetterTx.query, Except.ok_bind, resolveDeadLetter_sample]
  have htenant : tenantId (deadLetterInfo deadSample).tenantId = .ok "tenant-a" := by
    decide +kernel
  unfold DeadLetterTx.resolveDeadLetter
  rw [show DeadLetterTx.requireUnresolved (⟨[deadSample], [], none, false, 1⟩ : DeadLetterTx Unit) =
    .ok () from rfl, Except.ok_bind, hwith, Except.ok_bind]
  dsimp only [DeadLetterTx.bindResolved]
  rw [htenant]
  rfl

theorem resolve_sample :
    (requeueSample.resolve ⟨[deadSample], [], []⟩).1 = .ok (deadLetterInfo deadSample) := by
  obtain ⟨event, hevent, hchecks⟩ := deadLetterEvent_sample
  have htenant : event.tenantId = units "tenant-a" := (deadLetterEvent_eq_ok hevent).1
  have happend : ∀ rows : Table Unit, DeadLetterTx.appendAudit (fun _ => .ok ())
      ⟨rows, [], some "tenant-a", true, 4⟩ event =
        .ok ⟨rows, [event], some "tenant-a", true, 5⟩ := by
    intro rows
    unfold DeadLetterTx.appendAudit insertAuditEvent
    simp [htenant, throwIf, hchecks, DeadLetterTx.query]
  have hcommit : ∃ tx, (deadLetterWork requeueSample .requeue "fixed").commit .outbox
      (fun _ => .ok ()) ⟨[deadSample], [], none, false, 0⟩ =
        .ok (deadLetterInfo deadSample, tx) := by
    unfold UnitOfWork.commit deadLetterWork
    rw [show requeueSample.now = some ⟨0, by decide⟩ from rfl]
    simp only [DeadLetterTx.query, Except.ok_bind, UnitOfWork.run]
    rw [show requeueSample.entryId = "1" from rfl, resolveDeadLetter_tx_sample]
    simp only [Except.ok_bind, auditResolved, hevent, UnitOfWork.run, happend]
    exact ⟨_, rfl⟩
  obtain ⟨tx, hcommit⟩ := hcommit
  unfold DeadLetterCommand.resolve
  rw [checkDeadLetterCommand_sample]
  exact congrArg Prod.fst (runInTransaction_of_commit hcommit)

/-- An operator requeues the dead letter of a tenant. -/
theorem dead_letters_audited_requeue : ∃ db : DeadLetterDb Unit, db.Keyed ∧
    (requeueSample.resolve (db.after [])).1 = .ok (deadLetterInfo deadSample) ∧
    ∃ letter resolution event, deadLetterInfo deadSample = deadLetterInfo letter ∧
      AuditedResolution requeueSample (db.after []) (requeueSample.resolve (db.after [])).2 letter
        resolution event := by
  have hkeyed : (⟨[deadSample], [], []⟩ : DeadLetterDb Unit).Keyed := by
    intro table
    cases table <;> simp [DeadLetterDb.rows]
  exact ⟨_, hkeyed, resolve_sample,
    (dead_letters_audited _ hkeyed [] requeueSample).2.1 _ resolve_sample⟩

end Requeue

end Sintius.Outbox
