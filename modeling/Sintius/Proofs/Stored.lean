import Mathlib
import Sintius.Lib.Date
import Sintius.Lib.DateString
import Sintius.Lib.Double
import Sintius.Lib.Except
import Sintius.Lib.Text
import Sintius.Lib.Transaction
import Sintius.Spec.Problem
import Sintius.Spec.TenantContext
import Sintius.Spec.Canonical
import Sintius.Spec.Tenant
import Sintius.Spec.Approval
import Sintius.Spec.ApprovalStore
import Sintius.Spec.Stored
import Sintius.Sanity.Approval
import Sintius.Sanity.ApprovalStore
import Sintius.Sanity.Identity
import Sintius.Proofs.Approval

/-! What is written and read back: every field as it was, and the timestamps as their
texts are read. An aggregate loads back unchanged exactly when its timestamps have no
milliseconds and years of three digits or more. -/

namespace Sintius.Identity

open Js Js.Date Sintius.Tenancy Sintius.Outbox Sql

variable {d d' : IdentityDb} {tenant current row : TenantSnapshot}

theorem stateOf_stateText (state : TenantState) : stateOf (stateText state) = .ok state := by
  cases state <;> rfl

/-- Column by column or not, a row reads back the same. -/
theorem snapshotFrom_eq_snapshot (hid : nonBlank row.id = true) :
    snapshotFrom (tenantColumns row) = snapshot row := by
  unfold snapshotFrom tenantColumns snapshot
  simp only [Approval.tenantId_of_nonBlank hid, stateOf_stateText, Approval.numberOf_bigintText,
    Except.ok_bind]

theorem snapshot_eq_ok_iff : snapshot row = .ok current ↔
    ∃ createdAt updatedAt, ofString row.createdAt = some createdAt ∧
      ofString row.updatedAt = some updatedAt ∧
      { row with createdAt := createdAt, updatedAt := updatedAt } = current := by
  unfold snapshot
  simp only [Except.bind_eq_ok_iff, isoDate_eq_ok_iff, Except.ok.injEq]
  constructor
  · rintro ⟨createdAt, hcreated, updatedAt, hupdated, rfl⟩
    exact ⟨createdAt, updatedAt, hcreated, hupdated, rfl⟩
  · rintro ⟨createdAt, updatedAt, hcreated, hupdated, rfl⟩
    exact ⟨createdAt, hcreated, updatedAt, hupdated, rfl⟩

/-- The row and what is held of it agree, up to timestamps whose texts are read as the same. -/
structure Agrees (row tenant : TenantSnapshot) : Prop where
  named : nonBlank row.id = true
  columns : row = { tenant with createdAt := row.createdAt, updatedAt := row.updatedAt }
  created : ofString row.createdAt = ofString tenant.createdAt
  updated : ofString row.updatedAt = ofString tenant.updatedAt

theorem Agrees.refl (hid : nonBlank tenant.id = true) : Agrees tenant tenant :=
  ⟨hid, rfl, rfl, rfl⟩

theorem Agrees.snapshot (h : Agrees row tenant) :
    Identity.snapshot row = Identity.snapshot tenant := by
  unfold Identity.snapshot isoDate
  rw [h.created, h.updated, h.columns]

theorem load_of_row (hrow : d.tenant tenant.id = some row) (h : Agrees row tenant) :
    d.load tenant.id = .ok (some current) ↔ snapshot tenant = .ok current := by
  unfold IdentityDb.load
  rw [hrow]
  dsimp only
  rw [snapshotFrom_eq_snapshot h.named, h.snapshot]
  simp [Except.bind_eq_ok_iff]

theorem tenant_setTenant (row : TenantSnapshot) (d : IdentityDb) :
    (IdentityDb.setTenant row d).tenant row.id = some row := by
  simp [IdentityDb.setTenant]

/-- By induction on what the caller has done: the row agrees with what it holds. -/
theorem Holds.agrees (h : Holds d tenant) :
    ∃ row, d.tenant tenant.id = some row ∧ Agrees row tenant := by
  induction h with
  | @provisioned d id displayName now change n r hid hprovision hinsert =>
    obtain ⟨-, rfl⟩ := insertTenantRow_cases hinsert
    have hnamed : nonBlank change.tenant.id = true := by
      rwa [(provisionTenant_eq_ok hprovision).1]
    exact ⟨change.tenant, tenant_setTenant _ _, Agrees.refl hnamed⟩
  | @loaded d tenant current _ hload ih =>
    obtain ⟨row, hrow, hagrees⟩ := ih
    obtain ⟨createdAt, updatedAt, hcreated, hupdated, rfl⟩ :=
      snapshot_eq_ok_iff.mp ((load_of_row hrow hagrees).mp hload)
    -- what was read is read as itself again
    exact ⟨row, hrow, hagrees.named, hagrees.columns,
      hagrees.created.trans (hcreated.trans (ofString_ofString hcreated).symm),
      hagrees.updated.trans (hupdated.trans (ofString_ofString hupdated).symm)⟩
  | @transitioned d tenant target expectedVersion now change n r _ htransition hupdate hone ih =>
    obtain ⟨row, hrow, hagrees⟩ := ih
    obtain ⟨-, -, hid, -, -, -, hcreated⟩ := transitionTenant_eq_ok htransition
    rcases updateTenantRow_cases hupdate with rfl | ⟨row', hrow', -, rfl⟩
    · cases hone
    · rw [hid, hrow] at hrow'
      cases hrow'
      have hid' : row.id = tenant.id := by rw [hagrees.columns]
      refine ⟨_, tenant_setTenant _ _, ?_, rfl, ?_, rfl⟩
      · dsimp only
        rw [hid, ← hid']
        exact hagrees.named
      · -- the update leaves the created_at of the row
        dsimp only
        rw [hcreated]
        exact hagrees.created
  | @elsewhere d d' tenant _ hsame ih =>
    obtain ⟨row, hrow, hagrees⟩ := ih
    exact ⟨row, hsame.trans hrow, hagrees⟩

/-- A tenant loads back unchanged exactly when its timestamps are read as themselves. -/
theorem Holds.load_eq_iff (h : Holds d tenant) :
    d.load tenant.id = .ok (some tenant) ↔
      (tenant.createdAt.1 % 1000 = 0 ∧ 100 ≤ yearOf tenant.createdAt) ∧
        tenant.updatedAt.1 % 1000 = 0 ∧ 100 ≤ yearOf tenant.updatedAt := by
  obtain ⟨row, hrow, hagrees⟩ := h.agrees
  rw [load_of_row hrow hagrees, snapshot_eq_ok_iff, ← ofString_eq_self_iff, ← ofString_eq_self_iff]
  constructor
  · rintro ⟨createdAt, updatedAt, hcreated, hupdated, heq⟩
    have hcreated' : createdAt = tenant.createdAt := congrArg TenantSnapshot.createdAt heq
    have hupdated' : updatedAt = tenant.updatedAt := congrArg TenantSnapshot.updatedAt heq
    exact ⟨hcreated' ▸ hcreated, hupdated' ▸ hupdated⟩
  · rintro ⟨hcreated, hupdated⟩
    exact ⟨_, _, hcreated, hupdated, rfl⟩

end Sintius.Identity

namespace Sintius.Approval

open Js Js.Date Sintius.Outbox Sql

variable {other : String → Option ℤ} {secondsAfter : Instant → Js.Number → Option Instant}
  {timestamptz : String → Option Instant} {d : ApprovalDb} {request next : ApprovalRequest}

/-- The row and what is held of it agree, up to timestamps whose texts are read as the same. -/
structure Agrees (row : ApprovalRow) (request : ApprovalRequest) : Prop where
  identified : Identified request
  columns : row = rowFor request row.created_at row.expires_at
  created : ∃ t, request.createdAt = Js.Date.toISOString t ∧ ofString row.created_at = ofString t
  expires : ∃ t, request.expiresAt = Js.Date.toISOString t ∧ ofString row.expires_at = ofString t

theorem load_of_row {row : ApprovalRow} {current : ApprovalRequest}
    (hrow : d.approval_request (request.tenantId, request.id) = some row)
    (h : Agrees row request) :
    d.load request.tenantId request.id = .ok (some current) ↔
      ∃ createdAt expiresAt, ofString row.created_at = some createdAt ∧
        ofString row.expires_at = some expiresAt ∧ readBack request createdAt expiresAt = current := by
  unfold ApprovalDb.load
  rw [hrow, ← requestFrom_rowFor h.identified, ← h.columns]
  simp [Except.bind_eq_ok_iff]

/-- A request that only differs in what an update sets. -/
theorem Agrees.settle {row : ApprovalRow} (h : Agrees row request)
    (hnext : next = { request with status := next.status, decisions := next.decisions,
                                   version := next.version })
    (hidentified : ∀ decision ∈ next.decisions, nonBlank decision.actorId = true) :
    Agrees (settle next row) next := by
  rw [hnext] at hidentified ⊢
  refine ⟨⟨h.identified.tenant, h.identified.maker, hidentified⟩, ?_, h.created, h.expires⟩
  unfold Approval.settle
  rw [h.columns]
  rfl

/-- What was read is read as itself again. -/
theorem Agrees.readBack {row : ApprovalRow} {createdAt expiresAt : Instant} (h : Agrees row request)
    (hcreated : ofString row.created_at = some createdAt)
    (hexpires : ofString row.expires_at = some expiresAt) :
    Agrees row (readBack request createdAt expiresAt) := by
  refine ⟨⟨h.identified.tenant, h.identified.maker, h.identified.deciders⟩, h.columns, ?_, ?_⟩
  · exact ⟨_, rfl, hcreated.trans (ofString_ofString hcreated).symm⟩
  · exact ⟨_, rfl, hexpires.trans (ofString_ofString hexpires).symm⟩

theorem key_of_columns {row : ApprovalRow} (h : Agrees row request) :
    row.key = (request.tenantId, request.id) := by
  rw [h.columns, key_rowFor]

/-- An update that found its row. -/
theorem agrees_of_update {row : ApprovalRow} {n expectedVersion : ℕ}
    {r : Outcome ApprovalDb RequestLock (Except String ℕ)}
    (hrow : d.approval_request (request.tenantId, request.id) = some row) (h : Agrees row request)
    (hnext : next = { request with status := next.status, decisions := next.decisions,
                                   version := next.version })
    (hidentified : ∀ decision ∈ next.decisions, nonBlank decision.actorId = true)
    (hupdate : updateApprovalRow next expectedVersion n d = .ok r) (hone : r.result = .ok 1) :
    ∃ row, (r.change d).approval_request (next.tenantId, next.id) = some row ∧ Agrees row next := by
  have htenant : next.tenantId = request.tenantId := by rw [hnext]
  have hid : next.id = request.id := by rw [hnext]
  rcases updateApprovalRow_cases hupdate with
    rfl | ⟨row', message, -, -, -, rfl⟩ | ⟨row', hrow', -, -, rfl⟩
  · cases hone
  · cases hone
  · rw [htenant, hid, hrow] at hrow'
    cases hrow'
    have hsettled := h.settle hnext hidentified
    refine ⟨_, ?_, hsettled⟩
    rw [← key_of_columns hsettled]
    exact approval_request_setRequest _ _

/-- By induction on what the caller has done: the row agrees with what it holds. -/
theorem Holds.agrees (hreads : ReadsInstants timestamptz)
    (h : Holds other secondsAfter timestamptz d request) :
    ∃ row, d.approval_request (request.tenantId, request.id) = some row ∧ Agrees row request := by
  induction h with
  | @proposed d input now request n r htenant hmaker hpropose hinsert =>
    obtain ⟨-, htenant', hmaker', hdecisions, ⟨t, -, hcreated⟩, e, hexpires⟩ :=
      proposeApproval_stamps hpropose
    obtain ⟨created_at, expires_at, hcreated', hexpires', -, -, rfl⟩ :=
      insertApprovalRow_cases hinsert
    rw [hcreated] at hcreated'
    rw [hexpires] at hexpires'
    cases hreads _ _ hcreated'
    cases hreads _ _ hexpires'
    refine ⟨rowFor request t e, approval_request_setRequest (rowFor request t e) d, ?_, rfl,
      ⟨t, hcreated, rfl⟩, e, hexpires, rfl⟩
    exact ⟨htenant' ▸ htenant, hmaker' ▸ hmaker, by simp [hdecisions]⟩
  | @loaded d request current _ hload ih =>
    obtain ⟨row, hrow, hagrees⟩ := ih
    obtain ⟨createdAt, expiresAt, hcreated, hexpires, rfl⟩ := (load_of_row hrow hagrees).mp hload
    exact ⟨row, hrow, hagrees.readBack hcreated hexpires⟩
  | @decided d request next input now n r _ happrover hdecide hupdate hone ih =>
    obtain ⟨row, hrow, hagrees⟩ := ih
    obtain ⟨t, credited, -, hdecided⟩ := decideApproval_ok hdecide
    have hresult := hdecided.result
    refine agrees_of_update hrow hagrees (by rw [hresult]) ?_ hupdate hone
    intro decision hmem
    rw [hresult] at hmem
    rcases List.mem_append.mp hmem with hmem | hmem
    · exact hagrees.identified.deciders decision hmem
    · cases List.mem_singleton.mp hmem
      exact happrover
  | @cancelled d request next actorId expectedVersion n r _ hcancel hupdate hone ih =>
    obtain ⟨row, hrow, hagrees⟩ := ih
    obtain ⟨-, -, -, hresult⟩ := cancelApproval_ok hcancel
    refine agrees_of_update hrow hagrees (by rw [hresult]) ?_ hupdate hone
    rw [hresult]
    exact hagrees.identified.deciders
  | @elsewhere d d' request _ hsame ih =>
    obtain ⟨row, hrow, hagrees⟩ := ih
    exact ⟨row, hsame.trans hrow, hagrees⟩

/-- The text of an instant that its date text is read as: a whole second of a year of three digits
or more. -/
def Kept (text : String) : Prop :=
  ∃ t : Instant, text = Js.Date.toISOString t ∧ t.1 % 1000 = 0 ∧ 100 ≤ yearOf t

/-- The text of an instant whose date text can be read at all. -/
def Readable (text : String) : Prop := ∃ t : Instant, text = Js.Date.toISOString t ∧ 0 ≤ yearOf t

theorem kept_toISOString {t : Instant} : Kept (Js.Date.toISOString t) ↔ ofString t = some t := by
  rw [ofString_eq_self_iff]
  constructor
  · rintro ⟨u, hu, hkept⟩
    rwa [toISOString_injective hu]
  · exact fun hkept => ⟨t, rfl, hkept⟩

theorem readable_toISOString {t : Instant} :
    Readable (Js.Date.toISOString t) ↔ ∃ u, ofString t = some u := by
  rw [← Option.ne_none_iff_exists', Ne, ofString_eq_none_iff, not_lt]
  constructor
  · rintro ⟨u, hu, hreadable⟩
    rwa [toISOString_injective hu]
  · exact fun hreadable => ⟨t, rfl, hreadable⟩

/-- A request loads back unchanged exactly when its timestamps are read as themselves, -/
theorem load_eq_iff {row : ApprovalRow}
    (hrow : d.approval_request (request.tenantId, request.id) = some row) (h : Agrees row request) :
    d.load request.tenantId request.id = .ok (some request) ↔
      Kept request.createdAt ∧ Kept request.expiresAt := by
  obtain ⟨t, ht, hcreated⟩ := h.created
  obtain ⟨e, he, hexpires⟩ := h.expires
  rw [load_of_row hrow h, hcreated, hexpires, ht, he, kept_toISOString, kept_toISOString]
  constructor
  · rintro ⟨createdAt, expiresAt, hcreatedAt, hexpiresAt, heq⟩
    have hcreated' : Js.Date.toISOString createdAt = Js.Date.toISOString t :=
      (congrArg ApprovalRequest.createdAt heq).trans ht
    have hexpires' : Js.Date.toISOString expiresAt = Js.Date.toISOString e :=
      (congrArg ApprovalRequest.expiresAt heq).trans he
    exact ⟨toISOString_injective hcreated' ▸ hcreatedAt,
      toISOString_injective hexpires' ▸ hexpiresAt⟩
  · rintro ⟨hcreatedAt, hexpiresAt⟩
    refine ⟨t, e, hcreatedAt, hexpiresAt, ?_⟩
    unfold Approval.readBack
    rw [← ht, ← he]

/-- Two expiries decide alike exactly when they are the same. -/
theorem expiry_eq_iff (other : String → Option ℤ) {e u : Instant} :
    (∀ t, atOrAfter other t (Js.Date.toISOString u) = atOrAfter other t (Js.Date.toISOString e)) ↔
      u = e := by
  simp only [atOrAfter_toISOString, decide_eq_decide]
  constructor
  · intro h
    exact Subtype.ext (le_antisymm ((h e).mpr le_rfl) ((h u).mp le_rfl))
  · rintro rfl _
    exact Iff.rfl

/-- and its stored expiry decides as the one in memory exactly when the request can be read and
that is read as itself. -/
theorem load_expiry_iff (other : String → Option ℤ) {row : ApprovalRow}
    (hrow : d.approval_request (request.tenantId, request.id) = some row) (h : Agrees row request) :
    (∃ loaded, d.load request.tenantId request.id = .ok (some loaded) ∧
        ∀ t, atOrAfter other t loaded.expiresAt = atOrAfter other t request.expiresAt) ↔
      Readable request.createdAt ∧ Kept request.expiresAt := by
  obtain ⟨t, ht, hcreated⟩ := h.created
  obtain ⟨e, he, hexpires⟩ := h.expires
  simp only [load_of_row hrow h, hcreated, hexpires, ht, he, kept_toISOString,
    readable_toISOString]
  constructor
  · rintro ⟨_, ⟨createdAt, expiresAt, hcreatedAt, hexpiresAt, rfl⟩, hsame⟩
    obtain rfl := (expiry_eq_iff other).mp hsame
    exact ⟨⟨createdAt, hcreatedAt⟩, hexpiresAt⟩
  · rintro ⟨⟨createdAt, hcreatedAt⟩, hexpiresAt⟩
    exact ⟨_, ⟨createdAt, e, hcreatedAt, hexpiresAt, rfl⟩, fun _ => rfl⟩

/-- What was written loads back unchanged exactly when its timestamps have no milliseconds and
years of three digits or more: tenants that were provisioned or transitioned, and requests that
were proposed, decided or cancelled. -/
theorem loads_back_iff (other : String → Option ℤ)
    (secondsAfter : Instant → Js.Number → Option Instant) (timestamptz : String → Option Instant)
    (hreads : ReadsInstants timestamptz) :
    (∀ d tenant, Identity.Holds d tenant →
      (d.load tenant.id = .ok (some tenant) ↔
        (tenant.createdAt.1 % 1000 = 0 ∧ 100 ≤ yearOf tenant.createdAt) ∧
          tenant.updatedAt.1 % 1000 = 0 ∧ 100 ≤ yearOf tenant.updatedAt)) ∧
    ∀ d request, Holds other secondsAfter timestamptz d request →
      (d.load request.tenantId request.id = .ok (some request) ↔
        Kept request.createdAt ∧ Kept request.expiresAt) ∧
      ((∃ loaded, d.load request.tenantId request.id = .ok (some loaded) ∧
          ∀ t, atOrAfter other t loaded.expiresAt = atOrAfter other t request.expiresAt) ↔
        Readable request.createdAt ∧ Kept request.expiresAt) := by
  refine ⟨fun d tenant h => h.load_eq_iff, fun d request h => ?_⟩
  obtain ⟨row, hrow, hagrees⟩ := h.agrees hreads
  exact ⟨load_eq_iff hrow hagrees, load_expiry_iff other hrow hagrees⟩

section Samples

/-- PostgreSQL on the texts of instants. -/
def sampleTimestamptz (text : String) : Option Instant :=
  (Js.Date.parse (fun _ => none) text).bind timeClip

theorem readsInstants_sample : ReadsInstants sampleTimestamptz := by
  intro t u h
  unfold sampleTimestamptz at h
  rw [parse_toISOString, Option.bind_some, timeClip_val] at h
  exact (Option.some.inj h).symm

def noTenants : Identity.IdentityDb where
  tenant := fun _ => none
  tenant_role := fun _ => none
  tenant_role_assignment := []
  approval_policy := fun _ => none
  audit_event := []
  outbox_event := []

def provisionedAt (t : Instant) : Identity.TenantSnapshot where
  id := "tenant_a"
  displayName := "Acme"
  state := .PROVISIONING
  version := 1
  createdAt := t
  updatedAt := t

theorem holds_provisionedAt {t : Instant} (hdated : Identity.isTimestamp t = true) :
    Identity.Holds (Identity.IdentityDb.setTenant (provisionedAt t) noTenants)
      (provisionedAt t) := by
  have hname : trim " Acme " = "Acme" := by decide +kernel
  have hprovision : Identity.provisionTenant "tenant_a" " Acme " (some t) =
      .ok ⟨provisionedAt t, ⟨.provisioned, "tenant_a", 1, t⟩⟩ := by
    simp [Identity.provisionTenant, hname, throwIf, Identity.isoInstant, provisionedAt]
  have hchecks : Identity.tenantChecks (provisionedAt t) = true := by
    simp [Identity.tenantChecks, provisionedAt, btrimNonEmpty]
  have hinsert : Identity.insertTenantRow (provisionedAt t) 0 noTenants = .ok ⟨(),
      Identity.IdentityDb.setTenant (provisionedAt t), some (.tenant "tenant_a")⟩ := by
    unfold Identity.insertTenantRow noTenants
    rw [if_neg (by simp [provisionedAt, hdated])]
    dsimp only
    rw [if_pos hchecks]
    rfl
  exact .provisioned (by decide +kernel) hprovision hinsert

def noRequests : ApprovalDb := ⟨fun _ => none, [], []⟩

theorem abs_createdAt_le : |1790244245000| ≤ Js.Date.maxTime := by decide

def sampleRow : ApprovalRow :=
  rowFor sampleRequest ⟨1790244245000, abs_createdAt_le⟩ ⟨1790247845000, by decide⟩

theorem insertApprovalRow_sample (n : ℕ) :
    insertApprovalRow sampleTimestamptz sampleRequest n noRequests =
      .ok ⟨(), ApprovalDb.setRequest sampleRow, some sampleRow.key⟩ := by
  have hrow : rowOf sampleTimestamptz sampleRequest = some sampleRow := by decide +kernel
  have hchecks : approvalChecks sampleRow = true := by decide +kernel
  unfold insertApprovalRow
  rw [hrow]
  dsimp only
  rw [if_neg (by simp [hchecks])]
  rfl

theorem holds_sampleRequest : Holds (fun _ => none) sampleHour sampleTimestamptz
    (noRequests.setRequest sampleRow) sampleRequest := by
  have hpropose : proposeApproval sampleHour sampleInput (sampleTime 0) = .ok sampleRequest := by
    decide +kernel
  exact .proposed (by decide +kernel) (by decide +kernel) hpropose (insertApprovalRow_sample 0)

/-- A tenant and a request whose timestamps are whole seconds load back unchanged. -/
theorem loads_back_iff_whole_seconds :
    (Identity.IdentityDb.setTenant (provisionedAt ⟨1790244245000, by decide⟩) noTenants).load
        "tenant_a" = .ok (some (provisionedAt ⟨1790244245000, by decide⟩)) ∧
      (noRequests.setRequest sampleRow).load "tenant_a" "apr_1" = .ok (some sampleRequest) := by
  obtain ⟨htenant, hrequest⟩ := loads_back_iff (fun _ => none) sampleHour sampleTimestamptz
    readsInstants_sample
  refine ⟨(htenant _ _ (holds_provisionedAt (by decide))).mpr (by decide), ?_⟩
  refine (hrequest _ _ holds_sampleRequest).1.mpr ⟨?_, ?_⟩
  · exact ⟨⟨1790244245000, by decide⟩, by decide +kernel, by decide⟩
  · exact ⟨⟨1790247845000, by decide⟩, by decide +kernel, by decide⟩

/-- A tenant that is provisioned 678 milliseconds into a second loads back with other timestamps,
and so does one that is provisioned at the beginning of the year 50. -/
theorem timestamps_lost :
    (∃ d tenant, Identity.Holds d tenant ∧ tenant.createdAt.1 = 1790244245678 ∧
      d.load tenant.id ≠ .ok (some tenant)) ∧
    ∃ d tenant, Identity.Holds d tenant ∧
      Js.Date.toISOString tenant.createdAt = "0050-01-01T00:00:00.000Z" ∧
      d.load tenant.id ≠ .ok (some tenant) := by
  have hlate := holds_provisionedAt (t := ⟨1790244245678, by decide⟩) (by decide)
  have hearly := holds_provisionedAt (t := ⟨-60589296000000, by decide⟩) (by decide)
  refine ⟨⟨_, _, hlate, rfl, ?_⟩, _, _, hearly, by decide +kernel, ?_⟩
  · rw [Ne, hlate.load_eq_iff]
    decide
  · rw [Ne, hearly.load_eq_iff]
    decide

end Samples

end Sintius.Approval
