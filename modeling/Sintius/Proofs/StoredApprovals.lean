import Mathlib
import Sintius.Lib.Date
import Sintius.Lib.DateString
import Sintius.Lib.Double
import Sintius.Lib.Except
import Sintius.Lib.Programs
import Sintius.Lib.Table
import Sintius.Lib.Text
import Sintius.Lib.Transaction
import Sintius.Lib.Utf16
import Sintius.Spec.Problem
import Sintius.Spec.TenantContext
import Sintius.Spec.Canonical
import Sintius.Spec.Queue
import Sintius.Spec.EventEnvelope
import Sintius.Spec.AuditRecorder
import Sintius.Spec.Tenant
import Sintius.Spec.Approval
import Sintius.Spec.ApprovalStore
import Sintius.Spec.ApprovalCommands
import Sintius.Sanity.Approval
import Sintius.Sanity.ApprovalStore
import Sintius.Sanity.Identity
import Sintius.Proofs.Approval
import Sintius.Proofs.Evidence
import Sintius.Proofs.Stored

/-! Approval commands that race on PostgreSQL leave, of every request, a run of the
aggregate. The invariant ties the row of a request, its events and the replies that
were committed for it to one list of requests. -/

namespace Sintius.Approval

open Js Js.Date Sintius.Canonical Sintius.Outbox Sintius.Audit Sql

abbrev ApprovalHistory := List (ApprovalCommand × ApprovalRequest)

abbrev ApprovalWorld := World ApprovalDb ApprovalCommand ApprovalRequest

abbrev RequestKey := TenantId × String

def ApprovalRequest.key (r : ApprovalRequest) : RequestKey := (r.tenantId, r.id)

section History

variable {k : RequestKey} {history history' : ApprovalHistory} {reply first : ApprovalRequest}
  (command : ApprovalCommand)

def repliesOf (k : RequestKey) (history : ApprovalHistory) : List ApprovalRequest :=
  (history.map Prod.snd).filter fun r => r.key == k

/-- The values of a request that commands have committed, oldest first, with the timestamps it was
proposed with. -/
def committed (k : RequestKey) (history : ApprovalHistory) : List ApprovalRequest :=
  match repliesOf k history with
  | [] => []
  | first :: rest => first :: rest.map (stamped first)

theorem repliesOf_append_self (h : reply.key = k) :
    repliesOf k (history ++ [(command, reply)]) = repliesOf k history ++ [reply] := by
  simp [repliesOf, h]

theorem repliesOf_append_other (h : reply.key ≠ k) :
    repliesOf k (history ++ [(command, reply)]) = repliesOf k history := by
  simp [repliesOf, h]

theorem committed_append_other (h : reply.key ≠ k) :
    committed k (history ++ [(command, reply)]) = committed k history := by
  unfold committed
  rw [repliesOf_append_other command h]

theorem committed_append_first (h : reply.key = k) (hnone : committed k history = []) :
    committed k (history ++ [(command, reply)]) = [reply] := by
  unfold committed at hnone ⊢
  rw [repliesOf_append_self command h]
  split at hnone
  · next heq => rw [heq]; rfl
  · cases hnone

theorem committed_append_next (h : reply.key = k) (hhead : (committed k history).head? = some first) :
    committed k (history ++ [(command, reply)]) = committed k history ++ [stamped first reply] := by
  unfold committed at hhead ⊢
  rw [repliesOf_append_self command h]
  split at hhead
  · cases hhead
  · next first' rest heq =>
    cases hhead
    rw [heq]
    simp

theorem map_version_committed :
    (committed k history).map ApprovalRequest.version =
      (repliesOf k history).map ApprovalRequest.version := by
  unfold committed
  split
  · next heq => rw [heq]
  · next first rest heq =>
    rw [heq]
    simp [stamped]

theorem committed_extends (h : history <+: history') :
    committed k history <+: committed k history' := by
  obtain ⟨later, rfl⟩ := h
  have hreplies : repliesOf k (history ++ later) = repliesOf k history ++ repliesOf k later := by
    simp [repliesOf]
  unfold committed
  rw [hreplies]
  cases repliesOf k history with
  | nil => exact List.nil_prefix
  | cons first rest => exact ⟨(repliesOf k later).map (stamped first), by simp⟩

end History

/-- The events of a request. -/
def eventsOf (k : RequestKey) (events : Table ApprovalEventData) : Table ApprovalEventData :=
  events.filter fun entry => entry.envelope.tenant_id == k.1 &&
    entry.envelope.aggregate_type == "ApprovalRequest" && entry.envelope.aggregate_id == k.2

section Log

variable (other : String → Option ℤ) (secondsAfter : Instant → Js.Number → Option Instant)

/-- The row keeps a request with its timestamps. -/
def Stores (r : ApprovalRequest) (row : ApprovalRow) : Prop :=
  ∃ created_at expires_at, r.createdAt = Js.Date.toISOString created_at ∧
    r.expiresAt = Js.Date.toISOString expires_at ∧ row = rowFor r created_at expires_at

/-- The committed values of a request are a run of the aggregate from a proposal; the row keeps the
last of them, and their events are numbered in order. -/
structure RequestLog (k : RequestKey) (requests : List ApprovalRequest) (row : Option ApprovalRow)
    (events : Table ApprovalEventData) : Prop where
  named : ∀ r ∈ requests, r.key = k
  proposed : ∀ r ∈ requests.head?, ∃ input now, proposeApproval secondsAfter input now = .ok r
  run : requests.IsChain (Transition other)
  stamps : ∀ r ∈ requests, ∀ first ∈ requests.head?, stamped first r = r
  stored : Option.Rel Stores requests.getLast? row
  versions : requests.map ApprovalRequest.version = List.range' 1 requests.length
  event_versions : events.map (fun entry => entry.envelope.aggregate_version) =
    List.range' 1 requests.length
  event_order : events.Pairwise fun a b => a.entryId < b.entryId

end Log

variable {other : String → Option ℤ} {secondsAfter : Instant → Js.Number → Option Instant}
  {timestamptz : String → Option Instant} {recorder : AuditRecorder} {k : RequestKey}
  {requests : List ApprovalRequest} {row : Option ApprovalRow} {events : Table ApprovalEventData}

theorem RequestLog.empty (k : RequestKey) : RequestLog other secondsAfter k [] none [] := by
  refine ⟨?_, ?_, .nil, ?_, .none, rfl, rfl, .nil⟩ <;> simp

/-- The version of the row counts the committed values. -/
theorem RequestLog.length_eq (h : RequestLog other secondsAfter k requests row events) :
    requests.length = (row.map ApprovalRow.row_version).getD 0 := by
  have hstored := h.stored
  have hversions := h.versions
  cases hlast : requests.getLast? with
  | none =>
    rw [hlast] at hstored
    cases hstored
    rw [List.getLast?_eq_none_iff.mp hlast]
    rfl
  | some r =>
    rw [hlast] at hstored
    cases hstored with
    | some hrow =>
      obtain ⟨front, rfl⟩ := List.getLast?_eq_some_iff.mp hlast
      obtain ⟨created_at, expires_at, -, -, rfl⟩ := hrow
      rw [List.length_append, List.length_singleton, List.range'_1_concat, List.map_append] at hversions
      have hversion := (List.append_inj' hversions rfl).2
      simp only [List.map_cons, List.map_nil, List.cons.injEq, and_true] at hversion
      simp only [List.length_append, List.length_singleton, Option.map_some, Option.getD_some, rowFor]
      omega

section Stores

variable {r r' : ApprovalRequest} {new new' : ApprovalRow}

theorem Stores.row_version (h : Stores r new) : new.row_version = r.version := by
  obtain ⟨_, _, -, -, rfl⟩ := h
  rfl

theorem Stores.request_unique (h : Stores r new) (h' : Stores r' new) : r = r' := by
  obtain ⟨c, e, hc, he, rfl⟩ := h
  obtain ⟨c', e', hc', he', heq⟩ := h'
  have hcreated : c = c' := congrArg ApprovalRow.created_at heq
  have hexpires : e = e' := congrArg ApprovalRow.expires_at heq
  exact eq_of_rowFor_eq heq (by rw [hc, hc', hcreated]) (by rw [he, he', hexpires])

theorem Stores.unique (h : Stores r new) (h' : Stores r new') : new = new' := by
  obtain ⟨c, e, hc, he, rfl⟩ := h
  obtain ⟨c', e', hc', he', rfl⟩ := h'
  rw [toISOString_injective (hc.symm.trans hc'), toISOString_injective (he.symm.trans he')]

end Stores

/-- What a transition keeps, and what it moves on. -/
theorem Transition.spec {r r' : ApprovalRequest} (h : Transition other r r') :
    r.status = .PENDING ∧ r'.key = r.key ∧ r'.version = r.version + 1 ∧
      r'.createdAt = r.createdAt ∧ r'.expiresAt = r.expiresAt ∧
      (r'.decisions = r.decisions ∨ ∃ entry, r'.decisions = r.decisions ++ [entry]) := by
  rcases h with ⟨input, now, h⟩ | ⟨actor, v, h⟩
  · obtain ⟨t, credited, -, hdecided⟩ := decideApproval_ok h
    rw [hdecided.result]
    exact ⟨hdecided.pending, rfl, rfl, rfl, rfl, .inr ⟨_, rfl⟩⟩
  · obtain ⟨-, hpending, -, rfl⟩ := cancelApproval_ok h
    exact ⟨hpending, rfl, rfl, rfl, rfl, .inl rfl⟩

/-- A transition only changes what an update sets. -/
theorem Transition.eq_with {r r' : ApprovalRequest} (h : Transition other r r') :
    r' = { r with status := r'.status, decisions := r'.decisions, version := r'.version } := by
  rcases h with ⟨input, now, h⟩ | ⟨actor, v, h⟩
  · obtain ⟨t, credited, -, hdecided⟩ := decideApproval_ok h
    rw [hdecided.result]
  · obtain ⟨-, -, -, rfl⟩ := cancelApproval_ok h
    rfl

/-- The row of a request after an update is that of the request after the transition. -/
theorem Stores.settle {r r' : ApprovalRequest} {row : ApprovalRow} (hstores : Stores r row)
    (h : Transition other r r') : Stores r' (settle r' row) := by
  obtain ⟨-, -, -, hcreated, hexpires, -⟩ := h.spec
  obtain ⟨created_at, expires_at, hc, he, rfl⟩ := hstores
  refine ⟨created_at, expires_at, hcreated.trans hc, hexpires.trans he, ?_⟩
  rw [h.eq_with]
  rfl

/-- The trigger lets every transition pass: the decisions that were loaded, encoded again, are the
ones that are stored. -/
theorem Stores.appendOnly {r r' : ApprovalRequest} {row : ApprovalRow} (hstores : Stores r row)
    (h : Transition other r r') :
    approvalRequestAppendOnly row (Approval.settle r' row) = .ok () := by
  obtain ⟨hpending, -, hversion, -, -, hdecisions⟩ := h.spec
  obtain ⟨created_at, expires_at, -, -, rfl⟩ := hstores
  refine approvalRequestAppendOnly_of hpending hversion ?_
  rcases hdecisions with hsame | ⟨entry, hentry⟩
  · exact ⟨[], by simp [rowFor, Approval.settle, hsame]⟩
  · exact ⟨[encodeDecision entry], by simp [rowFor, Approval.settle, hentry]⟩

section Extend

variable {r r' : ApprovalRequest} {row' : ApprovalRow} {entry : OutboxEntry ApprovalEventData}

theorem RequestLog.propose (h : RequestLog other secondsAfter k requests none events)
    (hpropose : ∃ input now, proposeApproval secondsAfter input now = .ok r) (hkey : r.key = k)
    (hstores : Stores r row') (hversion : entry.envelope.aggregate_version = r.version) :
    requests = [] ∧ RequestLog other secondsAfter k [r] (some row') (events ++ [entry]) := by
  have hrequests : requests = [] := List.eq_nil_of_length_eq_zero h.length_eq
  subst hrequests
  have hevents : events = [] := by
    have hmap := h.event_versions
    rwa [List.length_nil, List.range'_zero, List.map_eq_nil_iff] at hmap
  subst hevents
  obtain ⟨input, now, hproposed⟩ := hpropose
  have hone : r.version = 1 := (proposeApproval_ok hproposed).version
  refine ⟨rfl, ?_, ?_, List.isChain_singleton _, ?_, ?_, ?_, ?_, List.pairwise_singleton _ _⟩
  · simpa using hkey
  · simpa using ⟨input, now, hproposed⟩
  · intro x hx first hfirst
    cases List.mem_singleton.mp hx
    cases hfirst
    rfl
  · exact .some hstores
  · simp [hone]
  · simp [hversion, hone]

theorem RequestLog.settle (h : RequestLog other secondsAfter k requests (some row') events)
    {row'' : ApprovalRow} (hstored : Stores r row') (hlast : requests.getLast? = some r)
    (htransition : Transition other r r') (hstores : Stores r' row'')
    (hversion : entry.envelope.aggregate_version = r'.version)
    (horder : ∀ e ∈ events, e.entryId < entry.entryId) :
    RequestLog other secondsAfter k (requests ++ [r']) (some row'') (events ++ [entry]) := by
  obtain ⟨front, rfl⟩ := List.getLast?_eq_some_iff.mp hlast
  obtain ⟨-, hkey, hnext, hcreated, hexpires, -⟩ := htransition.spec
  have hlength := h.length_eq
  have hrow : row'.row_version = r.version := by
    obtain ⟨_, _, -, -, rfl⟩ := hstored
    rfl
  rw [Option.map_some, Option.getD_some, hrow] at hlength
  have hhead : ((front ++ [r]) ++ [r']).head? = (front ++ [r]).head? := by
    cases front <;> rfl
  have hnumbers : List.range' 1 ((front ++ [r]) ++ [r']).length =
      List.range' 1 (front ++ [r]).length ++ [r'.version] := by
    have hsucc : ((front ++ [r]) ++ [r']).length = (front ++ [r]).length + 1 := by simp
    rw [hsucc, List.range'_1_concat, hlength, hnext, Nat.add_comm 1]
  refine ⟨?_, ?_, ?_, ?_, ?_, ?_, ?_, ?_⟩
  · intro x hx
    rcases List.mem_append.mp hx with hx | hx
    · exact h.named x hx
    · cases List.mem_singleton.mp hx
      rw [hkey]
      exact h.named r (by simp)
  · rw [hhead]
    exact h.proposed
  · rw [List.isChain_append]
    refine ⟨h.run, List.isChain_singleton _, ?_⟩
    simp only [List.getLast?_append, List.getLast?_singleton, Option.some_or, List.head?_cons,
      Option.mem_def, Option.some.injEq]
    rintro x rfl y rfl
    exact htransition
  · rw [hhead]
    intro x hx first hfirst
    rcases List.mem_append.mp hx with hx | hx
    · exact h.stamps x hx first hfirst
    · cases List.mem_singleton.mp hx
      have hr := h.stamps r (by simp) first hfirst
      unfold stamped at hr ⊢
      rw [← hr] at hcreated hexpires
      rw [← show r'.createdAt = first.createdAt from hcreated,
        ← show r'.expiresAt = first.expiresAt from hexpires]
  · rw [List.getLast?_concat]
    exact .some hstores
  · rw [List.map_append, h.versions, hnumbers]
    rfl
  · rw [List.map_append, h.event_versions, hnumbers, ← hversion]
    rfl
  · refine List.pairwise_append.mpr ⟨h.event_order, List.pairwise_singleton _ _, ?_⟩
    intro e he x hx
    cases List.mem_singleton.mp hx
    exact horder e he

end Extend

section Discipline

def expectedVersionOf : ApprovalCommand → Option Js.Number
  | .propose _ _ _ => none
  | .decide _ input _ => some input.expectedVersion
  | .cancel _ input _ => some input.expectedVersion

variable (other : String → Option ℤ) (secondsAfter : Instant → Js.Number → Option Instant)

/-- The clock that a proposal reads shows the year 100 or a later one: a year that a date text is
read back with. -/
def ReadsYear100 : ApprovalCommand → Prop
  | .propose _ _ env => ∀ t ∈ env.now, 100 ≤ yearOf t
  | .decide _ _ _ => True
  | .cancel _ _ _ => True

/-- What a command makes of the row it found, with its reply: the aggregate's function, applied to
the request that the row keeps. -/
inductive Prepared : Option ApprovalRow → ApprovalCommand → ApprovalRequest → ApprovalRow → Prop
  | proposed {context : Tenancy.TenantContext} {input : ApprovalTarget}
      {env : ApprovalEnvironment} {policy : ApprovalPolicy} {request : ApprovalRequest}
      {row : ApprovalRow}
      (hpropose : proposeApproval secondsAfter { input with
        id := env.newApprovalId, policy := policy, makerId := context.actorId } env.now =
          .ok request) (hstores : Stores request row) (hdated : 100 ≤ yearOf row.expires_at) :
      Prepared none (.propose context input env) request row
  | decided {context : Tenancy.TenantContext} {input : DecideApprovalCommand}
      {env : ApprovalEnvironment} {permissions : List String} {r next : ApprovalRequest}
      {row row' : ApprovalRow} (hstores : Stores r row)
      (hdecide : decideApproval other r (decideInput context input permissions) env.now =
        .ok (stamped r next)) (hstores' : Stores (stamped r next) row') :
      Prepared (some row) (.decide context input env) next row'
  | cancelled {context : Tenancy.TenantContext} {input : CancelApprovalCommand}
      {env : ApprovalEnvironment} {r next : ApprovalRequest} {row row' : ApprovalRow}
      (hstores : Stores r row)
      (hcancel : cancelApproval r context.actorId input.expectedVersion = .ok (stamped r next))
      (hstores' : Stores (stamped r next) row') :
      Prepared (some row) (.cancel context input env) next row'

/-- The row, the audit event and the event that a command commits. -/
def Changes (command : ApprovalCommand) (reply : ApprovalRequest) (d d' : ApprovalDb) : Prop :=
  ∃ row event entry, d' = ApprovalDb.addEvent entry (ApprovalDb.addAudit event
      (ApprovalDb.setRequest row d)) ∧ row.key = reply.key ∧
    Prepared other secondsAfter (d.approval_request reply.key) command reply row

structure Consistent (w : ApprovalWorld) : Prop where
  numbered : ∀ entry ∈ w.db.outbox_event, entry.entryId < w.seq
  logs : ∀ k, RequestLog other secondsAfter k (committed k w.history) (w.db.approval_request k)
    (eventsOf k w.db.outbox_event)
  dated : ∀ k row, w.db.approval_request k = some row → 100 ≤ yearOf row.expires_at
  expected : ∀ c ∈ w.history, ∀ v, expectedVersionOf c.1 = some v →
    v.integer? = some ((c.2.version : ℤ) - 1)

/-- The lock of a request guards its row and its events. -/
def approvalDiscipline : Discipline ApprovalDb RequestLock ApprovalCommand ApprovalRequest where
  same := fun k d d' => d.approval_request k = d'.approval_request k ∧
    eventsOf k d.outbox_event = eventsOf k d'.outbox_event
  equivalence := fun _ => ⟨fun _ => ⟨rfl, rfl⟩, fun h => ⟨h.1.symm, h.2.symm⟩,
    fun h h' => ⟨h.1.trans h'.1, h.2.trans h'.2⟩⟩
  inv := Consistent other secondsAfter
  inv_tick := fun h => ⟨fun entry he => Nat.lt_succ_of_lt (h.numbered entry he), h.logs, h.dated,
    h.expected⟩
  effect := Changes other secondsAfter

end Discipline

section Guards

variable {locks : List RequestLock}

theorem guards_setRequest {row : ApprovalRow} (h : row.key ∈ locks) :
    Guards (approvalDiscipline other secondsAfter) locks (ApprovalDb.setRequest row) := by
  intro k hk d
  have hne : k ≠ row.key := by
    rintro rfl
    exact hk h
  exact ⟨(approval_request_setRequest_of_ne hne d).symm, rfl⟩

theorem guards_addAudit (event : AuditEvent) :
    Guards (approvalDiscipline other secondsAfter) locks (ApprovalDb.addAudit event) :=
  fun _ _ _ => ⟨rfl, rfl⟩

/-- An event of the request. -/
structure IsEventOf (k : RequestKey) (entry : OutboxEntry ApprovalEventData) : Prop where
  tenant : entry.envelope.tenant_id = k.1
  type : entry.envelope.aggregate_type = "ApprovalRequest"
  aggregate : entry.envelope.aggregate_id = k.2

theorem eventsOf_append_self {entry : OutboxEntry ApprovalEventData} (h : IsEventOf k entry) :
    eventsOf k (events ++ [entry]) = eventsOf k events ++ [entry] := by
  simp [eventsOf, h.tenant, h.type, h.aggregate]

theorem eventsOf_append_other {k' : RequestKey} {entry : OutboxEntry ApprovalEventData}
    (h : IsEventOf k entry) (hne : k' ≠ k) : eventsOf k' (events ++ [entry]) = eventsOf k' events := by
  unfold eventsOf
  rw [List.filter_append, List.filter_cons_of_neg, List.filter_nil, List.append_nil]
  rw [h.tenant, h.aggregate]
  simp only [Bool.and_eq_true, beq_iff_eq]
  rintro ⟨⟨htenant, -⟩, haggregate⟩
  exact hne (Prod.ext htenant.symm haggregate.symm)

theorem guards_addEvent {entry : OutboxEntry ApprovalEventData} (h : IsEventOf k entry)
    (hlock : k ∈ locks) :
    Guards (approvalDiscipline other secondsAfter) locks (ApprovalDb.addEvent entry) := by
  intro k' hk' d
  have hne : k' ≠ k := by
    rintro rfl
    exact hk' hlock
  exact ⟨rfl, (eventsOf_append_other h hne).symm⟩

end Guards

section Commit

variable {w w' : ApprovalWorld} {command : ApprovalCommand} {reply next r : ApprovalRequest}
  {new : ApprovalRow} {entry : OutboxEntry ApprovalEventData} {event : AuditEvent}

/-- The command's version is that of the request before. -/
theorem Prepared.expected {old : Option ApprovalRow}
    (h : Prepared other secondsAfter old command reply new) :
    ∀ v, expectedVersionOf command = some v → v.integer? = some ((reply.version : ℤ) - 1) := by
  cases h with
  | proposed => exact fun v hv => nomatch hv
  | @decided context input env permissions r next row row' _ hdecide _ =>
    rintro v ⟨rfl⟩
    obtain ⟨t, credited, -, hdecided⟩ := decideApproval_ok hdecide
    have hexpected : input.expectedVersion.integer? = some (r.version : ℤ) := by
      simpa [sameNumber, decideInput] using hdecided.expected
    have hversion : reply.version = r.version + 1 :=
      congrArg ApprovalRequest.version hdecided.result
    rw [hexpected, hversion]
    simp
  | @cancelled context input env r next row row' _ hcancel _ =>
    rintro v ⟨rfl⟩
    obtain ⟨hsame, -, -, hresult⟩ := cancelApproval_ok hcancel
    have hexpected : input.expectedVersion.integer? = some (r.version : ℤ) := by
      simpa [sameNumber] using hsame
    have hversion : reply.version = r.version + 1 := congrArg ApprovalRequest.version hresult
    rw [hexpected, hversion]
    simp

/-- Rows that store one request expire at one instant. -/
theorem Stores.expires_at {r' : ApprovalRequest} {old : ApprovalRow} (h : Stores r old)
    (h' : Stores r' new) (hsame : r'.expiresAt = r.expiresAt) :
    new.expires_at = old.expires_at := by
  obtain ⟨_, e, -, he, rfl⟩ := h
  obtain ⟨_, e', -, he', rfl⟩ := h'
  exact toISOString_injective ((he'.symm.trans hsame).trans he)

theorem Prepared.dated {old : Option ApprovalRow}
    (h : Prepared other secondsAfter old command reply new)
    (hold : ∀ row, old = some row → 100 ≤ yearOf row.expires_at) : 100 ≤ yearOf new.expires_at := by
  cases h with
  | proposed _ _ hdated => exact hdated
  | decided hstores _ hstores' =>
    rw [hstores.expires_at hstores' rfl]
    exact hold _ rfl
  | cancelled hstores _ hstores' =>
    rw [hstores.expires_at hstores' rfl]
    exact hold _ rfl

/-- The log of a request with one more value, after a transition. -/
theorem RequestLog.commit_next {old : ApprovalRow} {history : ApprovalHistory}
    (h : RequestLog other secondsAfter k (committed k history) (some old) events)
    (hkey : reply.key = k) (hstores : Stores r old)
    (htransition : Transition other r (stamped r reply)) (hstores' : Stores (stamped r reply) new)
    (hversion : entry.envelope.aggregate_version = reply.version)
    (horder : ∀ e ∈ events, e.entryId < entry.entryId) :
    RequestLog other secondsAfter k (committed k (history ++ [(command, reply)])) (some new)
      (events ++ [entry]) := by
  obtain ⟨last, hlast, hstored⟩ : ∃ last, (committed k history).getLast? = some last ∧
      Stores last old := by
    have hrel := h.stored
    cases hcommitted : (committed k history).getLast? with
    | none =>
      rw [hcommitted] at hrel
      cases hrel
    | some last =>
      rw [hcommitted] at hrel
      cases hrel with
      | some hstored => exact ⟨last, rfl, hstored⟩
  cases hstores.request_unique hstored
  obtain ⟨first, hfirst⟩ : ∃ first, (committed k history).head? = some first := by
    cases hcommitted : committed k history with
    | nil =>
      rw [hcommitted] at hlast
      cases hlast
    | cons first rest => exact ⟨first, rfl⟩
  have hstamps : stamped first reply = stamped r reply := by
    have hr := h.stamps r (List.mem_of_getLast? hlast) first hfirst
    rw [← hr]
    rfl
  rw [committed_append_next command hkey hfirst, hstamps]
  exact h.settle hstores hlast htransition hstores' hversion horder

theorem RequestLog.commit {history : ApprovalHistory}
    (h : RequestLog other secondsAfter k (committed k history) row events) (hkey : reply.key = k)
    (hprepared : Prepared other secondsAfter row command reply new)
    (hversion : entry.envelope.aggregate_version = reply.version)
    (horder : ∀ e ∈ events, e.entryId < entry.entryId) :
    RequestLog other secondsAfter k (committed k (history ++ [(command, reply)])) (some new)
      (events ++ [entry]) := by
  cases hprepared with
  | @proposed context input env policy request row hpropose hstores _ =>
    obtain ⟨hnone, hlog⟩ := h.propose ⟨_, _, hpropose⟩ hkey hstores hversion
    rwa [committed_append_first _ hkey hnone]
  | @decided context input env permissions r next row row' hstores hdecide hstores' =>
    exact h.commit_next hkey hstores (.inl ⟨_, _, hdecide⟩) hstores' hversion horder
  | @cancelled context input env r next row row' hstores hcancel hstores' =>
    exact h.commit_next hkey hstores (.inr ⟨_, _, hcancel⟩) hstores' hversion horder

/-- A prepared change may be committed under the lock of its request. -/
theorem committable_of_prepared {locks : List RequestLock} (hlock : k ∈ locks)
    (hkey : reply.key = k) (hnew : new.key = k) (hentry : IsEventOf k entry)
    (hversion : entry.envelope.aggregate_version = reply.version)
    (hprepared : Prepared other secondsAfter (w.db.approval_request k) command reply new)
    (horder : ∀ e ∈ eventsOf k w.db.outbox_event, e.entryId < entry.entryId)
    (hnumber : entry.entryId < w.seq) :
    Committable (approvalDiscipline other secondsAfter) command reply locks
      (ApprovalDb.addEvent entry ∘ ApprovalDb.addAudit event ∘ ApprovalDb.setRequest new) w := by
  intro w' hrely hinv
  obtain ⟨hrow, hevents⟩ := hrely.same k hlock
  rw [hrow] at hprepared
  rw [hevents] at horder
  refine ⟨⟨?_, ?_, ?_, ?_⟩, new, event, entry, rfl, hnew.trans hkey.symm, ?_⟩
  · intro e he
    rcases List.mem_append.mp he with he | he
    · exact hinv.numbered e he
    · cases List.mem_singleton.mp he
      exact hnumber.trans_le hrely.seq
  · intro k'
    have hlog := hinv.logs k'
    by_cases hk : k' = k
    · subst hk
      have hrow' : (ApprovalDb.setRequest new w'.db).approval_request k' = some new := by
        rw [← hnew]
        exact approval_request_setRequest new w'.db
      have hnext := hlog.commit hkey hprepared hversion horder
      rw [← hrow', ← eventsOf_append_self hentry] at hnext
      exact hnext
    · have hrow' : (ApprovalDb.setRequest new w'.db).approval_request k' =
          w'.db.approval_request k' :=
        approval_request_setRequest_of_ne (by rw [hnew]; exact hk) w'.db
      rw [← hrow', ← eventsOf_append_other hentry hk,
        ← committed_append_other command (fun h => hk (h.symm.trans hkey))] at hlog
      exact hlog
  · intro k' row hrow'
    by_cases hk : k' = new.key
    · have hrow'' : (ApprovalDb.setRequest new w'.db).approval_request k' = some row := hrow'
      rw [hk, approval_request_setRequest, Option.some.injEq] at hrow''
      subst hrow''
      exact hprepared.dated (hinv.dated k)
    · have hrow'' : (ApprovalDb.setRequest new w'.db).approval_request k' = some row := hrow'
      rw [approval_request_setRequest_of_ne hk] at hrow''
      exact hinv.dated k' row hrow''
  · intro c hc
    rcases List.mem_append.mp hc with hc | hc
    · exact hinv.expected c hc
    · cases List.mem_singleton.mp hc
      exact hprepared.expected
  · rw [hkey]
    exact hprepared

end Commit

section Programs

variable {A B : Type} {locks : List RequestLock} {change : ApprovalDb → ApprovalDb}
  {w : ApprovalWorld} {context : Tenancy.TenantContext} {env : ApprovalEnvironment}

/-- What ends a transaction is not an exception of the trigger. -/
def NotRaised : Post ApprovalDb RequestLock ApprovalCommand ApprovalRequest ApprovalError :=
  fun e _ _ _ => ∀ message, e ≠ .raised message

theorem wp_attempt {Φ : Post ApprovalDb RequestLock ApprovalCommand ApprovalRequest B}
    {x : Except Failure A} {f : A → ApprovalTx B}
    (h : ∀ a, x = .ok a → wp (approvalDiscipline other secondsAfter) Φ NotRaised (f a) locks change w) :
    wp (approvalDiscipline other secondsAfter) Φ NotRaised (attempt x >>= f) locks change w := by
  cases x with
  | ok a => exact h a rfl
  | error e => exact fun message hraised => nomatch hraised

theorem wp_appendAudit {Φ : Post ApprovalDb RequestLock ApprovalCommand ApprovalRequest Unit}
    {t : TenantId} {event : AuditEvent}
    (h : ∀ w', Rely (approvalDiscipline other secondsAfter) locks w w' →
      Φ () locks (ApprovalDb.addAudit event ∘ change) w'.tick) :
    wp (approvalDiscipline other secondsAfter) Φ NotRaised (appendAudit t event) locks change w := by
  refine wp_attempt fun _ _ => wp_query fun w' r hrely _ hrun => ?_
  unfold insertAuditRow at hrun
  split_ifs at hrun
  cases hrun
  exact ⟨guards_addAudit event, h w' hrely⟩

theorem wp_appendOutbox {Φ : Post ApprovalDb RequestLock ApprovalCommand ApprovalRequest Unit}
    {t : TenantId} {envelope : EventEnvelope ApprovalEventData} (hlock : k ∈ locks)
    (hentry : ∀ n, IsEventOf k (newEntry n none envelope envelope.recorded_at))
    (h : ∀ w', Rely (approvalDiscipline other secondsAfter) locks w w' →
      Consistent other secondsAfter w' →
      Φ () locks (ApprovalDb.addEvent (newEntry w'.seq none envelope envelope.recorded_at) ∘ change)
        w'.tick) :
    wp (approvalDiscipline other secondsAfter) Φ NotRaised (appendOutbox t envelope) locks change w := by
  refine wp_attempt fun _ _ => wp_query fun w' r hrely hinv hrun => ?_
  unfold insertOutboxRow at hrun
  split at hrun
  · cases hrun
  · cases hrun
    exact ⟨guards_addEvent (hentry _) hlock, h w' hrely hinv⟩

/-- The audit event and the event of a change, under the lock of its request. -/
theorem wp_record {Φ : Post ApprovalDb RequestLock ApprovalCommand ApprovalRequest Unit}
    {request : ApprovalRequest} {action : Text} {eventType : String} {details : Audit.Fields}
    {reason : Option String} (hlock : (context.tenantId, request.id) ∈ locks)
    (h : ∀ w' event entry, Rely (approvalDiscipline other secondsAfter) locks w w' →
      Consistent other secondsAfter w' → IsEventOf (context.tenantId, request.id) entry →
      entry.envelope.aggregate_version = request.version → entry.entryId = w'.seq →
      Φ () locks (ApprovalDb.addEvent entry ∘ ApprovalDb.addAudit event ∘ change) w'.tick) :
    wp (approvalDiscipline other secondsAfter) Φ NotRaised
      (record recorder context request action eventType env details reason) locks change w := by
  refine wp_attempt fun event _ => wp_bind (wp_appendAudit fun w₁ hrely₁ => ?_)
  refine wp_attempt fun envelope henvelope => ?_
  obtain ⟨htenant, -, htype, haggregate, hversion, -⟩ :=
    Identity.buildEventEnvelopeFor_eq_ok henvelope
  have hentry : ∀ n, IsEventOf (context.tenantId, request.id)
      (newEntry n none envelope envelope.recorded_at) := fun n => ⟨htenant, htype, haggregate⟩
  refine wp_appendOutbox hlock hentry fun w₂ hrely₂ hinv₂ => ?_
  exact h w₂ event _ (hrely₁.trans ((Rely.tick _ _ _).trans hrely₂)) hinv₂ (hentry _) hversion rfl

/-- A request that is loaded is the one that its row keeps, but for the timestamps. -/
theorem wp_load {Φ : Post ApprovalDb RequestLock ApprovalCommand ApprovalRequest ApprovalRequest}
    {approvalId : String}
    (h : ∀ w' row current, Rely (approvalDiscipline other secondsAfter) [] w w' →
      Consistent other secondsAfter w' →
      w'.db.approval_request (context.tenantId, approvalId) = some row →
      requestFrom row = .ok current → current.tenantId = context.tenantId →
      Φ current [] id w'.tick) :
    wp (approvalDiscipline other secondsAfter) Φ NotRaised (load context approvalId) [] id w := by
  refine wp_bind ?_
  refine wp_attempt fun _ _ => wp_statement fun w' r hrely hinv hrun => ?_
  cases hrun
  refine ⟨Guards.id _ _, ?_⟩
  dsimp only [id]
  cases hrow : w'.db.approval_request (context.tenantId, approvalId) with
  | none => exact fun message hraised => nomatch hraised
  | some row =>
    refine wp_attempt fun current hcurrent => ?_
    change wp _ _ _ (attempt (requireFound context (some current))) _ _ _
    unfold requireFound
    dsimp only
    split_ifs with htenant
    · exact fun message hraised => nomatch hraised
    · exact h w' row current hrely hinv hrow hcurrent (not_not.mp htenant)

/-- A row that has a version it had before is the same row. -/
theorem row_eq_of_version {w₁ w₂ : ApprovalWorld} {row₁ row₂ : ApprovalRow}
    (hinv₁ : Consistent other secondsAfter w₁) (hinv₂ : Consistent other secondsAfter w₂)
    (hhistory : w₁.history <+: w₂.history) (hrow₁ : w₁.db.approval_request k = some row₁)
    (hrow₂ : w₂.db.approval_request k = some row₂) (hversion : row₂.row_version = row₁.row_version) :
    row₂ = row₁ := by
  have hlog₁ := hinv₁.logs k
  have hlog₂ := hinv₂.logs k
  rw [hrow₁] at hlog₁
  rw [hrow₂] at hlog₂
  have hlength : (committed k w₁.history).length = (committed k w₂.history).length := by
    rw [hlog₁.length_eq, hlog₂.length_eq]
    exact hversion.symm
  have hsame := (committed_extends (k := k) hhistory).eq_of_length hlength
  have hstored₁ := hlog₁.stored
  have hstored₂ := hlog₂.stored
  rw [hsame] at hstored₁
  cases hlast : (committed k w₂.history).getLast? with
  | none =>
    rw [hlast] at hstored₁
    cases hstored₁
  | some last =>
    rw [hlast] at hstored₁ hstored₂
    cases hstored₁ with
    | some h₁ =>
      cases hstored₂ with
      | some h₂ => exact h₂.unique h₁

/-- The update of a prepared transition: it finds no row of that version, or the row that was loaded,
and then its trigger passes. -/
theorem wp_updateApproval {Φ : Post ApprovalDb RequestLock ApprovalCommand ApprovalRequest Unit}
    {t : TenantId} {r next : ApprovalRequest} {row : ApprovalRow} {w₁ : ApprovalWorld}
    (hinv₁ : Consistent other secondsAfter w₁) (hhistory : w₁.history <+: w.history)
    (hrow : w₁.db.approval_request next.key = some row) (hstores : Stores r row)
    (htransition : Transition other r (stamped r next))
    (h : ∀ w', Rely (approvalDiscipline other secondsAfter) [] w w' →
      Consistent other secondsAfter w' → w'.db.approval_request next.key = some row →
      Φ () [next.key] (ApprovalDb.setRequest (settle next row)) w'.tick) :
    wp (approvalDiscipline other secondsAfter) Φ NotRaised (updateApproval t next r.version) [] id
      w := by
  refine wp_attempt fun _ _ => wp_statement fun w₂ outcome hrely hinv₂ hrun => ?_
  have hfound : ∀ row₂, w₂.db.approval_request next.key = some row₂ →
      row₂.row_version = r.version → row₂ = row := fun row₂ hrow₂ hversion =>
    row_eq_of_version hinv₁ hinv₂ (hhistory.trans hrely.history) hrow hrow₂
      (hversion.trans hstores.row_version.symm)
  have hpasses : approvalRequestAppendOnly row (settle (stamped r next) row) = .ok () :=
    hstores.appendOnly htransition
  rcases updateApprovalRow_cases hrun with
    rfl | ⟨row₂, message, hrow₂, hversion, hraised, -⟩ | ⟨row₂, hrow₂, hversion, -, rfl⟩
  · refine ⟨Guards.id _ _, ?_⟩
    exact fun message hraised => nomatch hraised
  · cases hfound row₂ hrow₂ hversion
    cases hpasses.symm.trans hraised
  · cases hfound row₂ hrow₂ hversion
    have hkey : row.key = next.key := by
      have hnamed : next.key = r.key := htransition.spec.2.1
      obtain ⟨_, _, -, -, rfl⟩ := hstores
      exact hnamed.symm
    refine ⟨guards_setRequest ?_, ?_⟩
    · simp [ApprovalRow.key, Approval.settle]
    · dsimp only
      rw [hkey]
      exact h w₂ hrely hinv₂ hrow₂

/-- What is left of a command once its row is written: the audit event and the event. -/
theorem wp_record_committable {command : ApprovalCommand} {reply : ApprovalRequest}
    {new : ApprovalRow} {action : Text} {eventType : String} {details : Audit.Fields}
    {reason : Option String} {w₁ : ApprovalWorld} (htenant : reply.tenantId = context.tenantId)
    (hnew : new.key = reply.key)
    (hprepared : Prepared other secondsAfter (w₁.db.approval_request reply.key) command reply new)
    (hrely : Rely (approvalDiscipline other secondsAfter) [reply.key] w₁ w) :
    wp (approvalDiscipline other secondsAfter)
      (fun a locks change w =>
        Committable (approvalDiscipline other secondsAfter) command a locks change w ∧ True)
      NotRaised (record recorder context reply action eventType env details reason >>=
        fun _ => pure reply) [reply.key] (ApprovalDb.setRequest new) w := by
  have hkey : (context.tenantId, reply.id) = reply.key := by
    rw [← htenant]
    rfl
  have hlock : (context.tenantId, reply.id) ∈ [reply.key] := by simp [hkey]
  refine wp_bind (wp_record hlock ?_)
  intro w₂ event entry hrely₂ hinv₂ hentry hversion hnumber
  rw [hkey] at hentry
  refine ⟨?_, trivial⟩
  obtain ⟨hrow, -⟩ := (hrely.trans hrely₂).same reply.key (by simp)
  rw [hrow] at hprepared
  refine committable_of_prepared (w := w₂.tick) (by simp) rfl hnew hentry hversion hprepared ?_ ?_
  · intro e he
    rw [hnumber]
    exact hinv₂.numbered e (List.mem_of_mem_filter he)
  · rw [hnumber]
    exact Nat.lt_succ_self _

theorem wp_propose {input : ApprovalTarget} (hreads : ReadsInstants timestamptz)
    (hclock : ∀ t ∈ env.now, 100 ≤ yearOf t) :
    wp (approvalDiscipline other secondsAfter)
      (fun a locks change w => Committable (approvalDiscipline other secondsAfter)
        (.propose context input env) a locks change w ∧ True)
      NotRaised (propose secondsAfter timestamptz recorder context input env) [] id w := by
  refine wp_attempt fun _ _ => wp_attempt fun found _ => wp_attempt fun policy _ => ?_
  refine wp_attempt fun request hpropose => wp_bind (wp_attempt fun _ htenant => ?_)
  have hbound : request.tenantId = context.tenantId := by
    unfold assertTenant at htenant
    simpa using throwIf_eq_ok_iff.mp htenant
  refine wp_query fun w₁ outcome _ _ hrun => ?_
  obtain ⟨created_at, expires_at, hcreated, hexpires, horder, hnone, rfl⟩ :=
    insertApprovalRow_cases hrun
  obtain ⟨-, -, -, -, ⟨t, hnow, ht⟩, e, he⟩ := proposeApproval_stamps hpropose
  rw [ht] at hcreated
  rw [he] at hexpires
  obtain rfl := hreads _ _ hcreated
  obtain rfl := hreads _ _ hexpires
  have hdated : 100 ≤ yearOf expires_at := (hclock _ hnow).trans (yearOf_mono horder.le)
  refine ⟨guards_setRequest (by simp [key_rowFor]), ?_⟩
  have hnew : (rowFor request created_at expires_at).key = request.key := rfl
  have hprepared : Prepared other secondsAfter (w₁.db.approval_request request.key)
      (.propose context input env) request (rowFor request created_at expires_at) := by
    rw [show w₁.db.approval_request request.key = none from hnone]
    exact .proposed hpropose ⟨_, _, ht, he, rfl⟩ hdated
  exact wp_record_committable hbound hnew hprepared (Rely.tick _ _ w₁)

theorem exists_stores {row : ApprovalRow} {w₁ : ApprovalWorld} {key : RequestKey}
    (hinv : Consistent other secondsAfter w₁) (hrow : w₁.db.approval_request key = some row) :
    ∃ r, Stores r row ∧ r.key = key := by
  have hlog := hinv.logs key
  have hrel := hlog.stored
  rw [hrow] at hrel
  cases hlast : (committed key w₁.history).getLast? with
  | none =>
    rw [hlast] at hrel
    cases hrel
  | some last =>
    rw [hlast] at hrel
    cases hrel with
    | some hstores => exact ⟨last, hstores, hlog.named last (List.mem_of_getLast? hlast)⟩

/-- What is left of a command on a loaded request: the update, and the record of it. -/
theorem wp_settle {command : ApprovalCommand} {r next : ApprovalRequest} {row : ApprovalRow}
    {action : Text} {eventType : String} {details : Audit.Fields} {reason : Option String}
    {w₁ : ApprovalWorld} {expectedVersion : ℕ} (hinv₁ : Consistent other secondsAfter w₁)
    (hhistory : w₁.history <+: w.history)
    (hrow : w₁.db.approval_request next.key = some row) (hstores : Stores r row)
    (hexpected : expectedVersion = r.version) (htenant : next.tenantId = context.tenantId)
    (htransition : Transition other r (stamped r next))
    (hprepared : Prepared other secondsAfter (some row) command next (settle next row)) :
    wp (approvalDiscipline other secondsAfter)
      (fun a locks change w =>
        Committable (approvalDiscipline other secondsAfter) command a locks change w ∧ True)
      NotRaised (updateApproval context.tenantId next expectedVersion >>= fun _ =>
        record recorder context next action eventType env details reason >>= fun _ => pure next)
      [] id w := by
  subst hexpected
  refine wp_bind (wp_updateApproval hinv₁ hhistory hrow hstores htransition ?_)
  intro w₂ _ _ hrow₂
  have hnew : (settle next row).key = next.key := by
    have hnamed : next.key = r.key := htransition.spec.2.1
    obtain ⟨_, _, -, -, rfl⟩ := hstores
    exact hnamed.symm
  rw [← hrow₂] at hprepared
  exact wp_record_committable htenant hnew hprepared (Rely.tick _ _ w₂)

theorem wp_decide {input : DecideApprovalCommand} :
    wp (approvalDiscipline other secondsAfter)
      (fun a locks change w => Committable (approvalDiscipline other secondsAfter)
        (.decide context input env) a locks change w ∧ True)
      NotRaised (decide other recorder context input env) [] id w := by
  refine wp_attempt fun _ _ => wp_bind (wp_load ?_)
  intro w₁ row current _ hinv₁ hrow hcurrent htenant
  refine wp_attempt fun permissions _ => wp_attempt fun next hdecide => ?_
  obtain ⟨r, hstores, hkey⟩ := exists_stores hinv₁ hrow
  have hdated := hinv₁.dated _ row hrow
  have hcopy := hstores
  obtain ⟨created_at, expires_at, hc, he, hcolumns⟩ := hcopy
  have hexpires : row.expires_at = expires_at := congrArg ApprovalRow.expires_at hcolumns
  rw [hexpires] at hdated
  subst hcolumns
  obtain ⟨createdAt, expiresAt, -, hexpiresAt, rfl⟩ := exists_readBack_of_requestFrom hcurrent
  have hstamped := decideApproval_stamped he (le_of_ofString hdated hexpiresAt) hdecide
  have htransition : Transition other r (stamped r next) := .inl ⟨_, _, hstamped⟩
  have hnext : next.key = (context.tenantId, input.approvalId) := htransition.spec.2.1.trans hkey
  rw [← hnext] at hrow
  have hprepared : Prepared other secondsAfter (some (rowFor r created_at expires_at))
      (.decide context input env) next (settle next (rowFor r created_at expires_at)) :=
    .decided hstores hstamped (hstores.settle htransition)
  exact wp_settle hinv₁ List.prefix_rfl hrow hstores rfl (congrArg Prod.fst hnext) htransition
    hprepared

theorem wp_cancel {input : CancelApprovalCommand} :
    wp (approvalDiscipline other secondsAfter)
      (fun a locks change w => Committable (approvalDiscipline other secondsAfter)
        (.cancel context input env) a locks change w ∧ True)
      NotRaised (cancel recorder context input env) [] id w := by
  refine wp_attempt fun _ _ => wp_bind (wp_load ?_)
  intro w₁ row current _ hinv₁ hrow hcurrent htenant
  refine wp_attempt fun next hcancel => ?_
  obtain ⟨r, hstores, hkey⟩ := exists_stores hinv₁ hrow
  have hcopy := hstores
  obtain ⟨created_at, expires_at, hc, he, rfl⟩ := hcopy
  obtain ⟨createdAt, expiresAt, -, -, rfl⟩ := exists_readBack_of_requestFrom hcurrent
  have hstamped := cancelApproval_stamped hcancel
  have htransition : Transition other r (stamped r next) := .inr ⟨_, _, hstamped⟩
  have hnext : next.key = (context.tenantId, input.approvalId) := htransition.spec.2.1.trans hkey
  rw [← hnext] at hrow
  have hprepared : Prepared other secondsAfter (some (rowFor r created_at expires_at))
      (.cancel context input env) next (settle next (rowFor r created_at expires_at)) :=
    .cancelled hstores hstamped (hstores.settle htransition)
  exact wp_settle hinv₁ List.prefix_rfl hrow hstores rfl (congrArg Prod.fst hnext) htransition
    hprepared

end Programs

theorem verified (hreads : ReadsInstants timestamptz) :
    VerifiedWhere (fun _ command => ReadsYear100 command) (approvalDiscipline other secondsAfter)
      (fun _ _ _ => True) (fun _ e _ => ∀ message, e ≠ .raised message)
      (program other secondsAfter timestamptz recorder) := by
  intro command w _ hclock
  cases command with
  | propose context input env => exact wp_propose hreads hclock
  | decide context input env => exact wp_decide
  | cancel context input env => exact wp_cancel

section Runs

/-- No request has been proposed yet. -/
def noApprovals (seq : ℕ) : ApprovalWorld := ⟨⟨fun _ => none, [], []⟩, seq, []⟩

theorem consistent_noApprovals (seq : ℕ) : Consistent other secondsAfter (noApprovals seq) := by
  refine ⟨?_, fun k => RequestLog.empty k, ?_, ?_⟩
  · exact fun entry h => absurd h List.not_mem_nil
  · exact fun k row h => nomatch h
  · exact fun c h => absurd h List.not_mem_nil

/-- A list whose parts of one key are ordered is ordered within each key. -/
theorem pairwise_of_filter {α κ : Type} [BEq κ] [LawfulBEq κ] {l : List α} {key : α → κ}
    {R : α → α → Prop} (h : ∀ k, (l.filter fun a => key a == k).Pairwise R) :
    l.Pairwise fun a b => key a = key b → R a b := by
  rw [List.pairwise_iff_forall_sublist]
  intro a b hsub hkey
  have hfilter := hsub.filter fun x => key x == key a
  rw [List.filter_cons_of_pos (by simp), List.filter_cons_of_pos (by simp [hkey])] at hfilter
  exact List.pairwise_iff_forall_sublist.mp (h (key a)) hfilter

/-- Committed replies of one request have growing versions. -/
theorem Consistent.versions_lt {w : ApprovalWorld} (h : Consistent other secondsAfter w) :
    w.history.Pairwise fun a b => a.2.key = b.2.key → a.2.version < b.2.version := by
  rw [← List.pairwise_map (f := Prod.snd) (R := fun a b : ApprovalRequest =>
    a.key = b.key → a.version < b.version)]
  refine pairwise_of_filter fun k => ?_
  rw [← List.pairwise_map (f := ApprovalRequest.version) (R := (· < ·))]
  have hversions := (h.logs k).versions
  rw [map_version_committed] at hversions
  exact hversions ▸ List.pairwise_lt_range'

/-- Two commands that were prepared against one version do not both commit. -/
theorem Consistent.expected_ne {w : ApprovalWorld} (h : Consistent other secondsAfter w) :
    w.history.Pairwise fun a b => a.2.key = b.2.key → ∀ v v', expectedVersionOf a.1 = some v →
      expectedVersionOf b.1 = some v' → v.integer? ≠ v'.integer? := by
  refine h.versions_lt.imp_of_mem ?_
  intro a b ha hb hlt hkey v v' hv hv' heq
  have hless := hlt hkey
  rw [h.expected a ha v hv, h.expected b hb v' hv', Option.some.injEq] at heq
  omega

/-- What a step makes of the row of a request. -/
inductive RowChange (other : String → Option ℤ) : Option ApprovalRow → Option ApprovalRow → Prop
  | same (row : Option ApprovalRow) : RowChange other row row
  | proposed (row : ApprovalRow) : RowChange other none (some row)
  | transitioned {r r' : ApprovalRequest} {row row' : ApprovalRow} (hstores : Stores r row)
      (htransition : Transition other r r') (hstores' : Stores r' row')
      (hdecisions : row'.decisions = row.decisions ∨
        ∃ entry, row'.decisions = row.decisions ++ [encodeDecision entry]) :
      RowChange other (some row) (some row')

theorem RowChange.of_transition {r r' : ApprovalRequest} {row row' : ApprovalRow}
    (hstores : Stores r row) (htransition : Transition other r r') (hstores' : Stores r' row') :
    RowChange other (some row) (some row') := by
  refine .transitioned hstores htransition hstores' ?_
  obtain ⟨-, -, -, -, -, hdecisions⟩ := htransition.spec
  obtain ⟨_, _, -, -, rfl⟩ := hstores
  obtain ⟨_, _, -, -, rfl⟩ := hstores'
  rcases hdecisions with hsame | ⟨entry, hentry⟩
  · exact .inl (by simp [rowFor, hsame])
  · exact .inr ⟨entry, by simp [rowFor, hentry]⟩

theorem Prepared.rowChange {old : Option ApprovalRow} {command : ApprovalCommand}
    {reply : ApprovalRequest} {new : ApprovalRow}
    (h : Prepared other secondsAfter old command reply new) : RowChange other old (some new) := by
  cases h with
  | proposed => exact .proposed new
  | decided hstores hdecide hstores' => exact .of_transition hstores (.inl ⟨_, _, hdecide⟩) hstores'
  | cancelled hstores hcancel hstores' => exact .of_transition hstores (.inr ⟨_, _, hcancel⟩) hstores'

theorem Changes.rowChange {command : ApprovalCommand} {reply : ApprovalRequest}
    {d d' : ApprovalDb} (h : Changes other secondsAfter command reply d d') (k : RequestKey) :
    RowChange other (d.approval_request k) (d'.approval_request k) := by
  obtain ⟨row, event, entry, rfl, hkey, hprepared⟩ := h
  by_cases hk : k = reply.key
  · subst hk
    have hrow : (ApprovalDb.setRequest row d).approval_request reply.key = some row := by
      rw [← hkey]
      exact approval_request_setRequest row d
    change RowChange other _ ((ApprovalDb.setRequest row d).approval_request reply.key)
    rw [hrow]
    exact hprepared.rowChange
  · have hrow : (ApprovalDb.setRequest row d).approval_request k = d.approval_request k :=
      approval_request_setRequest_of_ne (by rw [hkey]; exact hk) d
    change RowChange other _ ((ApprovalDb.setRequest row d).approval_request k)
    rw [hrow]
    exact .same _

/-- What holds of the stored approvals in every state of every run. -/
structure RefinesAggregate (other : String → Option ℤ)
    (secondsAfter : Instant → Js.Number → Option Instant)
    (timestamptz : String → Option Instant) (recorder : AuditRecorder)
    (st : State ApprovalError ApprovalDb RequestLock ApprovalCommand ApprovalRequest) : Prop where
  /-- The rows of a request have been a run of the aggregate, with its events numbered in order. -/
  logs : ∀ k, RequestLog other secondsAfter k (committed k st.world.history)
    (st.world.db.approval_request k) (eventsOf k st.world.db.outbox_event)
  /-- A step appends at most one entry to the decisions of a request. -/
  steps : ∀ st', Sql.Step (program other secondsAfter timestamptz recorder) st st' → ∀ k,
    RowChange other (st.world.db.approval_request k) (st'.world.db.approval_request k)
  /-- Of the commands on one version of a request, at most one has committed. -/
  distinct : st.world.history.Pairwise fun a b => a.2.key = b.2.key → ∀ v v',
    expectedVersionOf a.1 = some v → expectedVersionOf b.1 = some v' → v.integer? ≠ v'.integer?
  /-- The trigger has raised no exception. -/
  not_raised : ∀ s ∈ st.sessions, ∀ message, s.rest ≠ .throw (.raised message)

/-- Stored approvals refine the aggregate, however their commands interleave, where the clock of
the proposals reads the year 100 or later. -/
theorem stored_approvals_refine (hreads : ReadsInstants timestamptz) (seq : ℕ)
    {st : State ApprovalError ApprovalDb RequestLock ApprovalCommand ApprovalRequest}
    (h : Served (program other secondsAfter timestamptz recorder)
      (fun _ command => ReadsYear100 command) (noApprovals seq) st) :
    RefinesAggregate other secondsAfter timestamptz recorder st := by
  have hverified : VerifiedWhere (fun _ command => ReadsYear100 command)
      (approvalDiscipline other secondsAfter) (fun _ _ _ => True)
      (fun _ e _ => ∀ message, e ≠ .raised message)
      (program other secondsAfter timestamptz recorder) := verified hreads
  have hinit : Consistent other secondsAfter (noApprovals seq) := consistent_noApprovals seq
  have hsound := hverified.sound hinit h
  refine ⟨hsound.inv.logs, ?_, hsound.inv.expected_ne, ?_⟩
  · intro st' hstep k
    rcases hsound.cases hstep with ⟨-, hdb⟩ | ⟨command, reply, -, hchanges⟩
    · rw [hdb]
      exact .same _
    · exact hchanges.rowChange k
  · intro s hs message hrest
    obtain ⟨_, hthrown⟩ := hverified.throws hinit h s hs _ hrest
    exact hthrown message rfl

end Runs

section Samples

def sampleRecorder : AuditRecorder where
  allowedFields := fun _ => some ⟨[ascii "action_type", ascii "target_id", ascii "status",
    ascii "version", ascii "decision", ascii "resulting_status", ascii "previous_version"],
    by decide⟩
  redactSensitiveText := id
  sha256 := fun _ => List.replicate 64 0x30

def actorContext (actor : String) : Tenancy.TenantContext where
  tenantId := "tenant_a"
  actorId := actor
  principalKind := .interactive
  assurance := .mfa
  correlationId := "corr-1"
  causationId := none
  credentialId := "credential-a"
  audiences := []
  scopes := []
  issued := true

/-- What a command is given so many milliseconds after the proposal; the actor has one permission. -/
def environmentAt (milliseconds : ℤ) (permission eventId auditId : String) :
    ApprovalEnvironment where
  assertPermission := .ok ()
  hasPermission := fun asked => .ok (asked == permission)
  policy := .ok (some sampleInput.policy)
  now := sampleTime milliseconds
  recordedAt := sampleTime milliseconds
  newApprovalId := "apr_1"
  newEventId := eventId
  newAuditId := auditId

def envelopeAt (type eventId : String) (version : ℕ) (recorded_at : ℤ) :
    EventEnvelope ApprovalEventData where
  id := eventId
  type := type
  tenant_id := "tenant_a"
  aggregate_type := "ApprovalRequest"
  aggregate_id := "apr_1"
  aggregate_version := version
  correlation_id := "corr-1"
  causation_id := none
  recorded_at := recorded_at
  data := .status "pricing:rate_card:activate" .PENDING "maker"

section Alone

theorem attempt_ok {A : Type} {x : Except Failure A} {a : A} (h : x = .ok a) :
    attempt x = Tx.done a := by
  rw [h]
  rfl

theorem alone_attempt {A : Type} {x : Except Failure A} {a : A} (h : x = .ok a) (d : ApprovalDb)
    (n : ℕ) (change : ApprovalDb → ApprovalDb) :
    (attempt x).alone d n change = some (a, change, n) := by
  rw [attempt_ok h]
  rfl

/-- A unit-of-work method, alone: its check, and its statement. -/
theorem alone_checked {x : Except Failure Unit} {s : ApprovalStatement Unit} {d : ApprovalDb}
    {n : ℕ} {change : ApprovalDb → ApprovalDb} {r : Outcome ApprovalDb RequestLock Unit}
    (hx : x = .ok ()) (hs : s n (change d) = .ok r) :
    (attempt x >>= fun _ => Tx.query s Tx.done).alone d n change =
      some (r.result, r.change ∘ change, n + 1) :=
  (Tx.alone_bind (alone_attempt hx d n change)).trans (Tx.alone_query hs)

variable {actor eventId auditId permission : String} {milliseconds : ℤ} {d : ApprovalDb} {n : ℕ}
  {change : ApprovalDb → ApprovalDb}

/-- The record of a change of the sample request, alone: its two rows. -/
theorem alone_record {request : ApprovalRequest} {action : Text} {eventType : String}
    {details : Audit.Fields} {reason : Option String} {envelope : EventEnvelope ApprovalEventData}
    (haction : ACTION_PATTERN action = true ∧ action.any (· != 0x20) = true)
    (hrequest : request.id = "apr_1") (htime : ∃ t, sampleTime milliseconds = some t)
    (hid : (units auditId).any (· != 0x20) = true)
    (hnew : ∀ row ∈ (change d).audit_event, row.auditEventId ≠ units auditId)
    (henvelope : buildEventEnvelopeFor (eventScopeFromContext (actorContext actor))
      (changeEvent request eventType (sampleTime milliseconds)) eventId (sampleTime milliseconds) =
        .ok envelope)
    (hbound : envelope.tenant_id = "tenant_a") (hvalid : envelopeColumnsValid envelope = true)
    (hfresh : (change d).outbox_event.any (sameEvent none envelope) = false) :
    ∃ event, event.auditEventId = units auditId ∧
      (record sampleRecorder (actorContext actor) request action eventType
        (environmentAt milliseconds permission eventId auditId) details reason).alone d n change =
      some ((), ApprovalDb.addEvent (newEntry (n + 1) none envelope envelope.recorded_at) ∘
        ApprovalDb.addAudit event ∘ change, n + 2) := by
  obtain ⟨t, ht⟩ := htime
  have htarget : nonBlank "ApprovalRequest" = true ∧ nonBlank request.id = true := by
    rw [hrequest]
    decide +kernel
  have hcorrelation : (units "corr-1").any (· != 0x20) = true := by decide +kernel
  have hinstants : checkTimestamps (sampleTime milliseconds) (sampleTime milliseconds)
      "Audit timestamps must be valid instants."
      "An audit event cannot occur after it is recorded." = .ok (t, t) := by
    rw [ht]
    simp [checkTimestamps]
  obtain ⟨event, hevent, htenant, hauditId, hchecks⟩ :=
    Identity.exists_checkedEvent sampleRecorder (eventScopeFromContext (actorContext actor))
      (changeRecord request action (sampleTime milliseconds) details reason) auditId
      (sampleTime milliseconds) rfl (fun _ => rfl) haction htarget hinstants hid hcorrelation
  have hinsert : insertAuditRow event n (change d) = .ok ⟨(), ApprovalDb.addAudit event, none⟩ := by
    unfold insertAuditRow
    rw [if_neg (by simp [hchecks]), if_neg]
    rw [hauditId]
    simpa using fun row hrow _ => hnew row hrow
  have hsame : throwIf (event.tenantId ≠ units "tenant_a") .tenant_context_mismatch
      "The approval request is not for the bound tenant." = .ok () := by
    rw [htenant]
    simp [throwIf, eventScopeFromContext, actorContext]
  have hown : assertTenant envelope.tenant_id "tenant_a" = .ok () := by
    simp [assertTenant, throwIf, hbound]
  have happend : insertOutboxRow envelope (n + 1) ((ApprovalDb.addAudit event ∘ change) d) =
      .ok ⟨(), ApprovalDb.addEvent (newEntry (n + 1) none envelope envelope.recorded_at), none⟩ := by
    have hfresh' : ((ApprovalDb.addAudit event ∘ change) d).outbox_event.any
        (sameEvent none envelope) = false := hfresh
    unfold insertOutboxRow appendOutboxEvent
    rw [hvalid, hfresh']
    rfl
  refine ⟨event, hauditId, ?_⟩
  unfold record
  refine (Tx.alone_bind (alone_attempt hevent _ _ _)).trans ?_
  refine (Tx.alone_bind (alone_checked hsame hinsert)).trans ?_
  refine (Tx.alone_bind (alone_attempt henvelope _ _ _)).trans ?_
  exact alone_checked hown happend

end Alone

def proposal : ApprovalCommand :=
  .propose (actorContext "maker") sampleInput.toApprovalTarget
    (environmentAt 0 "approval:request:propose" "evt_1" "aud_1")

/-- The sample request, proposed by its maker, with its event. -/
def proposed (event : AuditEvent) : ApprovalDb → ApprovalDb :=
  ApprovalDb.addEvent (newEntry 2 none (envelopeAt "com.subrevos.approval.requested.v1" "evt_1" 1
    1790244245000000) 1790244245000000) ∘ ApprovalDb.addAudit event ∘
      ApprovalDb.setRequest sampleRow

theorem exists_sampleTime (milliseconds : ℕ) (h : milliseconds ≤ 10 ^ 6) :
    ∃ t, sampleTime milliseconds = some t := by
  have hle : |1790244245000 + (milliseconds : ℤ)| ≤ maxTime := by
    unfold maxTime
    rw [abs_le]
    omega
  exact ⟨⟨_, hle⟩, dif_pos hle⟩

def recordProposal : ApprovalTx Unit :=
  record sampleRecorder (actorContext "maker") sampleRequest (ascii "approval.requested")
    "approval.requested.v1" (environmentAt 0 "approval:request:propose" "evt_1" "aud_1")
    [(ascii "action_type", .string (units sampleRequest.actionType)),
      (ascii "target_id", .string (units sampleRequest.targetId))] none

theorem alone_recordProposal : ∃ event, event.auditEventId = units "aud_1" ∧
    recordProposal.alone noRequests 1 (ApprovalDb.setRequest sampleRow) =
      some ((), proposed event, 3) := by
  have haction : ACTION_PATTERN (ascii "approval.requested") = true ∧
      (ascii "approval.requested").any (· != 0x20) = true := by
    decide +kernel
  have henvelope : buildEventEnvelopeFor (eventScopeFromContext (actorContext "maker"))
      (changeEvent sampleRequest "approval.requested.v1" (sampleTime 0)) "evt_1" (sampleTime 0) =
        .ok (envelopeAt "com.subrevos.approval.requested.v1" "evt_1" 1 1790244245000000) := by
    decide +kernel
  exact alone_record haction rfl (exists_sampleTime 0 (by norm_num)) (by decide +kernel)
    (fun row hrow => absurd hrow List.not_mem_nil) henvelope rfl (by decide +kernel) rfl

theorem alone_proposal : ∃ event, event.auditEventId = units "aud_1" ∧
    (program (fun _ => none) sampleHour sampleTimestamptz sampleRecorder proposal).alone noRequests
      0 id = some (sampleRequest, proposed event, 3) := by
  have hpolicy : requirePolicy (actorContext "maker") (some sampleInput.policy) =
      .ok sampleInput.policy := rfl
  have hpropose : proposeApproval sampleHour { sampleInput.toApprovalTarget with
      id := "apr_1", policy := sampleInput.policy, makerId := "maker" } (sampleTime 0) =
        .ok sampleRequest := by decide +kernel
  have hbound : assertTenant sampleRequest.tenantId "tenant_a" = .ok () := rfl
  obtain ⟨event, hauditId, hrecord⟩ := alone_recordProposal
  refine ⟨event, hauditId, ?_⟩
  change (propose _ _ _ _ _ _).alone _ _ _ = _
  unfold propose insertApproval
  refine (Tx.alone_bind (alone_attempt (a := ()) rfl _ _ _)).trans ?_
  refine (Tx.alone_bind (alone_attempt (a := some sampleInput.policy) rfl _ _ _)).trans ?_
  refine (Tx.alone_bind (alone_attempt hpolicy _ _ _)).trans ?_
  refine (Tx.alone_bind (alone_attempt hpropose _ _ _)).trans ?_
  refine (Tx.alone_bind (alone_checked hbound (insertApprovalRow_sample 0))).trans ?_
  refine (Tx.alone_bind hrecord).trans ?_
  rfl

def decision : DecideApprovalCommand where
  approvalId := "apr_1"
  decision := .approve
  expectedVersion := .ofNat 1 one_safe
  target := sampleInput.toApprovalTarget
  reason := some " looks right "

/-- Two approvers decide on the first version of the request. -/
def productDecision : ApprovalCommand :=
  .decide (actorContext "product") decision
    (environmentAt 1000 "pricing:rate_card:activate" "evt_2" "aud_2")

def financeDecision : ApprovalCommand :=
  .decide (actorContext "finance") decision
    (environmentAt 2000 "billing:invoice:finalize" "evt_3" "aud_3")

/-- The request after the decision of finance alone. -/
def financeHalf : ApprovalRequest :=
  { sampleRequest with
    decisions := [sampleEntry "finance" "2026-09-24T10:04:07.000Z" "billing:invoice:finalize"]
    version := 2 }

def recordDecision (actor : String) (env : ApprovalEnvironment) (next : ApprovalRequest) :
    ApprovalTx Unit :=
  record sampleRecorder (actorContext actor) next (ascii "approval.approved") "approval.decided.v1"
    env
    [(ascii "decision", .string (ascii "approve")),
      (ascii "resulting_status", .string (ascii next.status.text)),
      (ascii "previous_version", .number (Identity.versionNumber 1))] decision.reason

theorem load_sample (actor : String) : ∃ loaded,
    load (actorContext actor) "apr_1" = .query (selectApproval "tenant_a" "apr_1") loaded ∧
      loaded (some sampleRow) = .done sampleRequest := by
  have hidentified : Identified sampleRequest :=
    ⟨by decide +kernel, by decide +kernel, fun _ h => absurd h List.not_mem_nil⟩
  have hread : requestFrom sampleRow = .ok sampleRequest :=
    (requestFrom_rowFor hidentified).mpr ⟨_, _, ofString_eq_self_iff.mpr (by decide),
      ofString_eq_self_iff.mpr (by decide), rfl⟩
  have hfound : requireFound (actorContext actor) (some sampleRequest) = .ok sampleRequest := rfl
  refine ⟨_, rfl, ?_⟩
  change (attempt (requestFrom sampleRow) >>= fun request => pure (some request)) >>= _ = _
  rw [attempt_ok hread]
  exact attempt_ok hfound

/-- A decision loads the request, and then updates it. -/
theorem decide_sample {actor permission eventId auditId : String} {milliseconds : ℤ}
    {next : ApprovalRequest}
    (hdecide : decideApproval (fun _ => none) sampleRequest
      (sampleDecision actor permission (.ofNat 1 one_safe)) (sampleTime milliseconds) = .ok next)
    (hpermissions : approverPermissions (environmentAt milliseconds permission eventId auditId)
      sampleRequest.approverRequirements = .ok [permission]) :
    ∃ loaded, decide (fun _ => none) sampleRecorder (actorContext actor) decision
        (environmentAt milliseconds permission eventId auditId) =
          .query (selectApproval "tenant_a" "apr_1") loaded ∧
      loaded (some sampleRow) = (updateApproval "tenant_a" next 1 >>= fun _ =>
        recordDecision actor (environmentAt milliseconds permission eventId auditId) next >>=
          fun _ => pure next) := by
  have hchecks : checkDecider (actorContext actor)
      (environmentAt milliseconds permission eventId auditId) = .ok () := rfl
  have hdecided : decideApproval (fun _ => none) sampleRequest
      (decideInput (actorContext actor) decision [permission])
      (environmentAt milliseconds permission eventId auditId).now = .ok next := hdecide
  obtain ⟨loaded, hload, hloaded⟩ := load_sample actor
  unfold decide
  rw [attempt_ok hchecks, Tx.done_bind, show decision.approvalId = "apr_1" from rfl, hload,
    Tx.query_bind]
  refine ⟨_, rfl, ?_⟩
  rw [hloaded, Tx.done_bind, attempt_ok hpermissions, Tx.done_bind, attempt_ok hdecided,
    Tx.done_bind]
  rfl

def versionConflict : ApprovalError :=
  .failure (.problem
    { code := .approval_version_conflict
      detail := "The approval request changed concurrently." })

/-- An update that finds no row of its version ends its transaction; one that finds it goes on. -/
theorem updateApproval_sample (next : ApprovalRequest) (after : Unit → ApprovalTx ApprovalRequest)
    (htenant : next.tenantId = "tenant_a") : ∃ updated,
    (updateApproval "tenant_a" next 1 >>= after) = .query (updateApprovalRow next 1) updated ∧
      updated (.ok 0) = .throw versionConflict ∧ updated (.ok 1) = after () := by
  have hbound : assertTenant next.tenantId "tenant_a" = .ok () := by
    simp [assertTenant, throwIf, htenant]
  unfold updateApproval
  rw [attempt_ok hbound]
  exact ⟨_, rfl, rfl, rfl⟩

/-- The decision of product, on the proposed request. -/
def decided (event : AuditEvent) : ApprovalDb → ApprovalDb :=
  ApprovalDb.addEvent (newEntry 7 none (envelopeAt "com.subrevos.approval.decided.v1" "evt_2" 2
    1790244246000000) 1790244246000000) ∘ ApprovalDb.addAudit event ∘
      ApprovalDb.setRequest (settle sampleHalf sampleRow)

theorem updateApprovalRow_half {d : ApprovalDb} (n : ℕ)
    (hrow : d.approval_request ("tenant_a", "apr_1") = some sampleRow) :
    updateApprovalRow sampleHalf 1 n d =
      .ok ⟨.ok 1, ApprovalDb.setRequest (settle sampleHalf sampleRow), some sampleRow.key⟩ := by
  have htrigger : approvalRequestAppendOnly sampleRow (settle sampleHalf sampleRow) = .ok () :=
    approvalRequestAppendOnly_of rfl rfl List.nil_prefix
  have hchecks : approvalChecks (settle sampleHalf sampleRow) = true := by decide +kernel
  unfold updateApprovalRow
  rw [show d.approval_request (sampleHalf.tenantId, sampleHalf.id) = some sampleRow from hrow]
  dsimp only
  rw [if_neg (show ¬ sampleRow.row_version ≠ 1 from not_not.mpr rfl), htrigger]
  dsimp only
  rw [if_neg (by simp [hchecks])]

theorem alone_recordDecision {event : AuditEvent}
    (hauditId : event.auditEventId = units "aud_1") : ∃ event', event'.auditEventId = units "aud_2" ∧
      (recordDecision "product"
        (environmentAt 1000 "pricing:rate_card:activate" "evt_2" "aud_2") sampleHalf).alone
          (proposed event noRequests) 6 (ApprovalDb.setRequest (settle sampleHalf sampleRow)) =
            some ((), decided event', 8) := by
  have hevents : (ApprovalDb.setRequest (settle sampleHalf sampleRow)
      (proposed event noRequests)).audit_event = [event] := rfl
  have hnew : ∀ row ∈ (ApprovalDb.setRequest (settle sampleHalf sampleRow)
      (proposed event noRequests)).audit_event, row.auditEventId ≠ units "aud_2" := by
    intro row hrow
    rw [hevents] at hrow
    rw [List.mem_singleton.mp hrow, hauditId]
    decide +kernel
  have henvelope : buildEventEnvelopeFor (eventScopeFromContext (actorContext "product"))
      (changeEvent sampleHalf "approval.decided.v1" (sampleTime 1000)) "evt_2" (sampleTime 1000) =
        .ok (envelopeAt "com.subrevos.approval.decided.v1" "evt_2" 2 1790244246000000) := by
    decide +kernel
  have haction : ACTION_PATTERN (ascii "approval.approved") = true ∧
      (ascii "approval.approved").any (· != 0x20) = true := by
    decide +kernel
  exact alone_record haction rfl (exists_sampleTime 1000 (by norm_num)) (by decide +kernel) hnew
    henvelope rfl (by decide +kernel) rfl

theorem alone_productDecision {event : AuditEvent} (hauditId : event.auditEventId = units "aud_1") :
    ∃ event', (program (fun _ => none) sampleHour sampleTimestamptz sampleRecorder
      productDecision).alone (proposed event noRequests) 4 id =
        some (sampleHalf, decided event', 8) := by
  have hdecide : decideApproval (fun _ => none) sampleRequest
      (sampleDecision "product" "pricing:rate_card:activate" (.ofNat 1 one_safe))
        (sampleTime 1000) = .ok sampleHalf := by
    decide +kernel
  obtain ⟨loaded, hload, hloaded⟩ := decide_sample hdecide
    (show approverPermissions (environmentAt 1000 "pricing:rate_card:activate" "evt_2" "aud_2")
      sampleRequest.approverRequirements = .ok ["pricing:rate_card:activate"] from rfl)
  have hrow : (proposed event noRequests).approval_request ("tenant_a", "apr_1") =
      some sampleRow := rfl
  have hselect : selectApproval "tenant_a" "apr_1" 4 (id (proposed event noRequests)) =
      .ok ⟨some sampleRow, fun d => d, none⟩ := by
    rw [selectApproval, id, hrow]
  obtain ⟨event', -, hrecord⟩ := alone_recordDecision hauditId
  obtain ⟨updated, hupdate, -, hdone⟩ := updateApproval_sample sampleHalf
    (fun _ => recordDecision "product"
      (environmentAt 1000 "pricing:rate_card:activate" "evt_2" "aud_2") sampleHalf >>=
        fun _ => pure sampleHalf) rfl
  have hupdated : updateApprovalRow sampleHalf 1 5 (((fun d => d) ∘ id) (proposed event noRequests)) =
      .ok ⟨.ok 1, ApprovalDb.setRequest (settle sampleHalf sampleRow), some sampleRow.key⟩ :=
    updateApprovalRow_half 5 hrow
  refine ⟨event', ?_⟩
  change (decide _ _ _ _ _).alone _ _ _ = _
  rw [hload, Tx.alone_query hselect, hloaded, hupdate]
  refine (Tx.alone_query hupdated).trans ?_
  rw [hdone]
  exact (Tx.alone_bind hrecord).trans rfl

/-- A request is proposed; of two decisions on its first version one commits, and the other, which
loaded that version before, ends at its update. -/
theorem stored_approvals_refine_decision : ∃ (st : State ApprovalError ApprovalDb RequestLock
    ApprovalCommand ApprovalRequest), st.world.history.map Prod.fst = [proposal, productDecision] ∧
      st.world.db.approval_request ("tenant_a", "apr_1") = some (settle sampleHalf sampleRow) ∧
      (∃ s ∈ st.sessions, s.call = financeDecision ∧ s.rest = .throw versionConflict) ∧
      RefinesAggregate (fun _ => none) sampleHour sampleTimestamptz sampleRecorder st := by
  have hclock : ReadsYear100 proposal := by
    intro t ht
    cases ht.symm.trans (timeClip_val ⟨1790244245000, by decide⟩)
    decide
  have hdecide : decideApproval (fun _ => none) sampleRequest
      (sampleDecision "finance" "billing:invoice:finalize" (.ofNat 1 one_safe))
        (sampleTime 2000) = .ok financeHalf := by
    decide +kernel
  have hadmits : ReadsYear100 productDecision := trivial
  obtain ⟨event, hauditId, hproposal⟩ := alone_proposal
  obtain ⟨event', hproduct⟩ := alone_productDecision hauditId
  obtain ⟨loaded, hload, hloaded⟩ := decide_sample hdecide
    (show approverPermissions (environmentAt 2000 "billing:invoice:finalize" "evt_3" "aud_3")
      sampleRequest.approverRequirements = .ok ["billing:invoice:finalize"] from rfl)
  obtain ⟨updated, hupdate, hlost, -⟩ := updateApproval_sample financeHalf
    (fun _ => recordDecision "finance"
      (environmentAt 2000 "billing:invoice:finalize" "evt_3" "aud_3") financeHalf >>=
        fun _ => pure financeHalf) rfl
  have hproposed : Served (program (fun _ => none) sampleHour sampleTimestamptz sampleRecorder)
      (fun _ command => ReadsYear100 command) (noApprovals 0)
      ⟨⟨proposed event noRequests, 3, [(proposal, sampleRequest)]⟩, []⟩ :=
    Served.init.alone hclock hproposal
  have hselect : selectApproval "tenant_a" "apr_1" 3 (id (proposed event noRequests)) =
      .ok ⟨some sampleRow, fun d => d, none⟩ := rfl
  have hstale : updateApprovalRow financeHalf 1 8 (decided event' (proposed event noRequests)) =
      .ok ⟨.ok 0, id, none⟩ := rfl
  -- finance loads the first version, product decides, and finance finds another version
  have hloads := (hproposed.begin financeDecision trivial).query hload hselect
  have hdecides := hloads.beside hadmits (by simp [Session.advance]) hproduct
  have hends := hdecides.query (hloaded.trans hupdate) hstale
  exact ⟨_, rfl, rfl, ⟨_, List.mem_singleton_self _, rfl, hlost⟩,
    stored_approvals_refine readsInstants_sample 0 hends⟩

end Samples

end Sintius.Approval
