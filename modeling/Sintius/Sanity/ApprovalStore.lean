import Mathlib
import Sintius.Lib.Date
import Sintius.Lib.DateString
import Sintius.Lib.Except
import Sintius.Lib.Text
import Sintius.Lib.Transaction
import Sintius.Spec.Problem
import Sintius.Spec.TenantContext
import Sintius.Spec.Tenant
import Sintius.Spec.Approval
import Sintius.Spec.ApprovalStore
import Sintius.Sanity.Approval

/-! The columns of a request read back as that request, but for its two timestamps,
which are read from their texts, and the statements write nothing else. -/

namespace Sintius.Identity

open Js.Date

theorem isoDate_eq_ok_iff {t u : Instant} : isoDate t = .ok u ↔ ofString t = some u := by
  unfold isoDate
  cases ofString t <;> simp

end Sintius.Identity

namespace Sintius.Approval

open Js Js.Date Sintius.Outbox Sql

/-- PostgreSQL refuses the text of an instant, or takes it for that instant. -/
def ReadsInstants (timestamptz : String → Option Instant) : Prop :=
  ∀ t u, timestamptz (Js.Date.toISOString t) = some u → u = t

/-- The row of a request that was created and expires at these instants. -/
def rowFor (request : ApprovalRequest) (created_at expires_at : Instant) : ApprovalRow where
  tenant_id := request.tenantId
  approval_id := request.id
  action_type := request.actionType
  target_type := request.targetType
  target_id := request.targetId
  target_version := request.targetVersion
  maker_id := request.makerId
  required_approvals := request.requiredApprovals
  separation_of_duties := request.separationOfDuties
  approver_requirements := request.approverRequirements.map encodeRequirement
  status := request.status
  decisions := request.decisions.map encodeDecision
  row_version := request.version
  created_at := created_at
  expires_at := expires_at

/-- The request with the timestamps that were read. -/
def readBack (request : ApprovalRequest) (createdAt expiresAt : Instant) : ApprovalRequest :=
  { request with
    createdAt := Js.Date.toISOString createdAt
    expiresAt := Js.Date.toISOString expiresAt }

/-- The ids of a request, which are not blank. -/
structure Identified (request : ApprovalRequest) : Prop where
  tenant : nonBlank request.tenantId = true
  maker : nonBlank request.makerId = true
  deciders : ∀ decision ∈ request.decisions, nonBlank decision.actorId = true

theorem actorId_of_nonBlank {actor : String} (h : nonBlank actor = true) :
    Tenancy.actorId actor = .ok actor := by
  simp [Tenancy.actorId, Tenancy.requireNonBlank, throwIf, h]

theorem tenantId_of_nonBlank {tenant : String} (h : nonBlank tenant = true) :
    Tenancy.tenantId tenant = .ok tenant := by
  simp [Tenancy.tenantId, Tenancy.requireNonBlank, throwIf, h]

/-- What a reader finds in an encoded decision. -/
theorem lookup_encodeDecision (decision : ApprovalDecision) :
    (encodeDecision decision).lookup "actorId" = some (.string decision.actorId) ∧
      (encodeDecision decision).lookup "decision" = some (.string decision.decision.text) ∧
      (encodeDecision decision).lookup "decidedAt" = some (.string decision.decidedAt) ∧
      whenString ((encodeDecision decision).lookup "reason") = decision.reason ∧
      whenString ((encodeDecision decision).lookup "creditedPermission") =
        decision.creditedPermission := by
  obtain ⟨actorId, kind, decidedAt, reason, credited⟩ := decision
  cases reason <;> cases credited <;>
    simp [encodeDecision, optionalMember, List.lookup, whenString]

theorem text_injective : Function.Injective ApprovalDecisionKind.text := by
  intro a b h
  cases a <;> cases b <;> first | rfl | exact absurd h (by decide)

theorem encodeDecision_injective : Function.Injective encodeDecision := by
  intro a b h
  obtain ⟨ha, hb, hc, hd, he⟩ := lookup_encodeDecision a
  obtain ⟨ha', hb', hc', hd', he'⟩ := lookup_encodeDecision b
  rw [h] at ha hb hc hd he
  have hactor := ha.symm.trans ha'
  have hkind := hb.symm.trans hb'
  have hdecided := hc.symm.trans hc'
  simp only [Option.some.injEq, JsonScalar.string.injEq] at hactor hkind hdecided
  obtain ⟨actorId, kind, decidedAt, reason, credited⟩ := a
  cases hactor
  cases text_injective hkind
  cases hdecided
  cases hd.symm.trans hd'
  cases he.symm.trans he'
  rfl

theorem encodeRequirement_injective : Function.Injective encodeRequirement := by
  rintro ⟨permission, count⟩ ⟨permission', count'⟩ h
  simpa [encodeRequirement] using h

/-- A row keeps everything of its request but the texts of the timestamps. -/
theorem eq_of_rowFor_eq {r r' : ApprovalRequest} {c e c' e' : Instant}
    (h : rowFor r c e = rowFor r' c' e') (hcreated : r.createdAt = r'.createdAt)
    (hexpires : r.expiresAt = r'.expiresAt) : r = r' := by
  have hrequirements := List.map_injective_iff.mpr encodeRequirement_injective
    (congrArg ApprovalRow.approver_requirements h)
  have hdecisions := List.map_injective_iff.mpr encodeDecision_injective
    (congrArg ApprovalRow.decisions h)
  simp only [rowFor, ApprovalRow.mk.injEq] at h
  obtain ⟨htenant, hid, haction, htype, htarget, hversion, hmaker, hrequired, hduties, -, hstatus,
    -, hrow, -, -⟩ := h
  cases r
  cases r'
  simp only at *
  subst_vars
  rfl

/-- A decision reads back as it was written. -/
theorem decisionFrom_encodeDecision {decision : ApprovalDecision}
    (h : nonBlank decision.actorId = true) :
    decisionFrom (encodeDecision decision) = .ok decision := by
  obtain ⟨hactor, hkind, hdecided, hreason, hcredited⟩ := lookup_encodeDecision decision
  unfold decisionFrom
  rw [hactor, hkind, hdecided, hreason, hcredited]
  simp only [stringOf, actorId_of_nonBlank h, Except.ok_bind]
  cases hdecision : decision.decision <;> simp [ApprovalDecisionKind.text, ← hdecision]

theorem requirementFrom_encodeRequirement (requirement : ApproverRequirement) :
    requirementFrom (encodeRequirement requirement) = .ok requirement := rfl

theorem numberOf_bigintText (n : ℕ) : numberOf (bigintText n) = .ok n := by
  unfold numberOf bigintText
  rw [show toString n = n.repr from rfl, Nat.toNat?_repr]

theorem isoFrom_eq_ok_iff {t : Instant} {text : String} :
    isoFrom t = .ok text ↔ ∃ u, ofString t = some u ∧ Js.Date.toISOString u = text := by
  unfold isoFrom
  simp only [Except.bind_eq_ok_iff, Identity.isoDate_eq_ok_iff, Except.ok.injEq]

theorem mapM_map_eq_ok {α β : Type} {encode : α → β} {decode : β → Except Failure α} {l : List α}
    (h : ∀ a ∈ l, decode (encode a) = .ok a) : (l.map encode).mapM decode = .ok l := by
  rw [Except.mapM_eq_ok_iff, List.forall₂_map_left_iff, List.forall₂_same]
  exact h

/-- What a load gives of a request's row. -/
theorem requestFrom_rowFor {request current : ApprovalRequest} (h : Identified request)
    {created_at expires_at : Instant} :
    requestFrom (rowFor request created_at expires_at) = .ok current ↔
      ∃ createdAt expiresAt, ofString created_at = some createdAt ∧
        ofString expires_at = some expiresAt ∧ readBack request createdAt expiresAt = current := by
  have hdecisions : (request.decisions.map encodeDecision).mapM decisionFrom =
      .ok request.decisions :=
    mapM_map_eq_ok fun decision hmem => decisionFrom_encodeDecision (h.deciders decision hmem)
  have hrequirements : (request.approverRequirements.map encodeRequirement).mapM
      requirementFrom = .ok request.approverRequirements :=
    mapM_map_eq_ok fun requirement _ => requirementFrom_encodeRequirement requirement
  unfold requestFrom rowFor
  simp only [hdecisions, hrequirements, tenantId_of_nonBlank h.tenant, actorId_of_nonBlank h.maker,
    numberOf_bigintText, Except.ok_bind, Except.bind_eq_ok_iff, isoFrom_eq_ok_iff, Except.ok.injEq]
  constructor
  · rintro ⟨_, ⟨createdAt, hcreated, rfl⟩, _, ⟨expiresAt, hexpires, rfl⟩, rfl⟩
    exact ⟨createdAt, expiresAt, hcreated, hexpires, rfl⟩
  · rintro ⟨createdAt, expiresAt, hcreated, hexpires, rfl⟩
    exact ⟨_, ⟨createdAt, hcreated, rfl⟩, _, ⟨expiresAt, hexpires, rfl⟩, rfl⟩

theorem eq_of_decisionFrom {decision decision' : ApprovalDecision}
    (h : decisionFrom (encodeDecision decision) = .ok decision') : decision' = decision := by
  obtain ⟨actorId, hactor, -⟩ := Except.bind_eq_ok_iff.mp h
  cases Tenancy.requireNonBlank_eq_ok hactor
  have hid : nonBlank (stringOf ((encodeDecision decision).lookup "actorId")) = true := by
    unfold Tenancy.actorId Tenancy.requireNonBlank at hactor
    simp only [Except.bind_eq_ok_iff, throwIf_eq_ok_iff] at hactor
    obtain ⟨_, hblank, -⟩ := hactor
    exact Bool.eq_true_of_not_eq_false hblank
  have hid' : nonBlank decision.actorId = true := hid
  rw [decisionFrom_encodeDecision hid'] at h
  exact (Except.ok.inj h).symm

theorem eq_of_mapM_map {α β : Type} {encode : α → β} {decode : β → Except Failure α}
    {l l' : List α} (hdecode : ∀ a b, decode (encode a) = .ok b → b = a)
    (h : (l.map encode).mapM decode = .ok l') : l' = l := by
  rw [Except.mapM_eq_ok_iff, List.forall₂_map_left_iff] at h
  induction h with
  | nil => rfl
  | cons hhead _ ih => rw [hdecode _ _ hhead, ih]

/-- A row that loads gives its request, but for the timestamps. -/
theorem exists_readBack_of_requestFrom {request current : ApprovalRequest}
    {created_at expires_at : Instant}
    (h : requestFrom (rowFor request created_at expires_at) = .ok current) :
    ∃ createdAt expiresAt, ofString created_at = some createdAt ∧
      ofString expires_at = some expiresAt ∧ current = readBack request createdAt expiresAt := by
  unfold requestFrom rowFor at h
  simp only [numberOf_bigintText, isoFrom_eq_ok_iff, Except.ok_bind, Except.bind_eq_ok_iff] at h
  obtain ⟨decisions, hdecisions, requirements, hrequirements, tenant, htenant, maker, hmaker, _,
    ⟨createdAt, hcreated, rfl⟩, _, ⟨expiresAt, hexpires, rfl⟩, h⟩ := h
  cases eq_of_mapM_map (fun _ _ => eq_of_decisionFrom) hdecisions
  have hrequirement : ∀ a b, requirementFrom (encodeRequirement a) = .ok b → b = a := by
    intro a b hab
    rw [requirementFrom_encodeRequirement] at hab
    exact (Except.ok.inj hab).symm
  cases eq_of_mapM_map hrequirement hrequirements
  cases Tenancy.requireNonBlank_eq_ok htenant
  cases Tenancy.requireNonBlank_eq_ok hmaker
  cases h
  exact ⟨createdAt, expiresAt, hcreated, hexpires, rfl⟩

section Statements

variable {timestamptz : String → Option Instant} {n : ℕ} {d : ApprovalDb}
  {request : ApprovalRequest}

theorem key_rowFor (request : ApprovalRequest) (created_at expires_at : Instant) :
    (rowFor request created_at expires_at).key = (request.tenantId, request.id) := rfl

/-- An insert stores the row of the request, at a key that was free. -/
theorem insertApprovalRow_cases {r : Outcome ApprovalDb RequestLock Unit}
    (h : insertApprovalRow timestamptz request n d = .ok r) :
    ∃ created_at expires_at, timestamptz request.createdAt = some created_at ∧
      timestamptz request.expiresAt = some expires_at ∧ created_at.1 < expires_at.1 ∧
      d.approval_request (request.tenantId, request.id) = none ∧
      r = ⟨(), ApprovalDb.setRequest (rowFor request created_at expires_at),
        some (request.tenantId, request.id)⟩ := by
  unfold insertApprovalRow at h
  cases hrow : rowOf timestamptz request with
  | none =>
    rw [hrow] at h
    cases h
  | some row =>
    rw [hrow] at h
    dsimp only at h
    split_ifs at h with hchecks hkey
    cases h
    unfold rowOf at hrow
    simp only [Option.bind_eq_bind, Option.bind_eq_some_iff] at hrow
    obtain ⟨created_at, hcreated, expires_at, hexpires, hrow⟩ := hrow
    cases hrow
    have horder : created_at.1 < expires_at.1 := by
      simp only [approvalChecks, Bool.not_eq_false, Bool.and_eq_true, decide_eq_true_eq] at hchecks
      exact hchecks.2
    exact ⟨created_at, expires_at, hcreated, hexpires, horder,
      Option.not_isSome_iff_eq_none.mp hkey, rfl⟩

/-- The trigger lets an update pass that settles a pending row, or adds decisions to it. -/
theorem approvalRequestAppendOnly_of {old new : ApprovalRow} (hstatus : old.status = .PENDING)
    (hversion : new.row_version = old.row_version + 1) (hdecisions : old.decisions <+: new.decisions) :
    approvalRequestAppendOnly old new = .ok () := by
  unfold approvalRequestAppendOnly
  rw [if_neg (not_not.mpr hstatus), if_neg (not_not.mpr hversion), if_neg]
  rintro (hshorter | hdiffers)
  · exact absurd hdecisions.length_le (not_le.mpr hshorter)
  · exact hdiffers (List.prefix_iff_eq_take.mp hdecisions).symm

/-- An update changes the row that has the version it expects, or none, unless its trigger raises. -/
theorem updateApprovalRow_cases {expectedVersion : ℕ}
    {r : Outcome ApprovalDb RequestLock (Except String ℕ)}
    (h : updateApprovalRow request expectedVersion n d = .ok r) :
    r = ⟨.ok 0, id, none⟩ ∨
    (∃ row message, d.approval_request (request.tenantId, request.id) = some row ∧
      row.row_version = expectedVersion ∧
      approvalRequestAppendOnly row (settle request row) = .error message ∧
      r = ⟨.error message, id, none⟩) ∨
    ∃ row, d.approval_request (request.tenantId, request.id) = some row ∧
      row.row_version = expectedVersion ∧
      approvalRequestAppendOnly row (settle request row) = .ok () ∧
      r = ⟨.ok 1, ApprovalDb.setRequest (settle request row), some row.key⟩ := by
  unfold updateApprovalRow at h
  cases hrow : d.approval_request (request.tenantId, request.id) with
  | none =>
    rw [hrow] at h
    cases h
    exact .inl rfl
  | some row =>
    rw [hrow] at h
    dsimp only at h
    by_cases hversion : row.row_version = expectedVersion
    · rw [if_neg (not_not.mpr hversion)] at h
      cases htrigger : approvalRequestAppendOnly row (settle request row) with
      | error message =>
        rw [htrigger] at h
        cases h
        exact .inr (.inl ⟨row, message, rfl, hversion, htrigger, rfl⟩)
      | ok u =>
        rw [htrigger] at h
        dsimp only at h
        split_ifs at h with hchecks
        cases h
        exact .inr (.inr ⟨row, rfl, hversion, htrigger, rfl⟩)
    · rw [if_pos hversion] at h
      cases h
      exact .inl rfl

@[simp] theorem approval_request_setRequest (row : ApprovalRow) (d : ApprovalDb) :
    (ApprovalDb.setRequest row d).approval_request row.key = some row := by
  simp [ApprovalDb.setRequest]

theorem approval_request_setRequest_of_ne {row : ApprovalRow} {key : TenantId × String}
    (h : key ≠ row.key) (d : ApprovalDb) :
    (ApprovalDb.setRequest row d).approval_request key = d.approval_request key := by
  simp [ApprovalDb.setRequest, h]

end Statements

section Language

variable {other : String → Option ℤ} {secondsAfter : Instant → Js.Number → Option Instant}

/-- A change of the aggregate that an approval command makes. -/
def Transition (other : String → Option ℤ) (r r' : ApprovalRequest) : Prop :=
  (∃ input now, decideApproval other r input now = .ok r') ∨
    ∃ actor expectedVersion, cancelApproval r actor expectedVersion = .ok r'

/-- The request with the timestamps that its row keeps. -/
def stamped (first r : ApprovalRequest) : ApprovalRequest :=
  { r with createdAt := first.createdAt, expiresAt := first.expiresAt }

theorem atOrAfter_toISOString {t e : Instant} :
    atOrAfter other t (Js.Date.toISOString e) = decide (e.1 ≤ t.1) := by
  unfold atOrAfter
  rw [parse_toISOString]

/-- A decision on what was loaded is one on what is stored if the loaded expiry is not later. -/
theorem decideApproval_stamped {r next : ApprovalRequest} {input : DecideApprovalInput}
    {now : Option Instant} {createdAt expiresAt expires_at : Instant}
    (hexpires : r.expiresAt = Js.Date.toISOString expires_at) (hle : expiresAt.1 ≤ expires_at.1)
    (h : decideApproval other (readBack r createdAt expiresAt) input now = .ok next) :
    decideApproval other r input now = .ok (stamped r next) := by
  obtain ⟨t, credited, rfl, hdecided⟩ := decideApproval_ok h
  refine decideApproval_of ⟨hdecided.expected, hdecided.pending, ?_,
    hdecided.target, hdecided.duties, hdecided.once, hdecided.credit, ?_⟩
  · have hunexpired : atOrAfter other t (Js.Date.toISOString expiresAt) = false :=
      hdecided.unexpired
    rw [atOrAfter_toISOString, decide_eq_false_iff_not] at hunexpired
    rw [hexpires, atOrAfter_toISOString, decide_eq_false_iff_not]
    exact fun hexpired => hunexpired (hle.trans hexpired)
  · rw [hdecided.result]
    rfl

theorem cancelApproval_stamped {r next : ApprovalRequest} {actor : ActorId} {v : Js.Number}
    {createdAt expiresAt : Instant}
    (h : cancelApproval (readBack r createdAt expiresAt) actor v = .ok next) :
    cancelApproval r actor v = .ok (stamped r next) := by
  obtain ⟨hversion, hstatus, hmaker, rfl⟩ := cancelApproval_ok h
  exact cancelApproval_of (r := r) hversion hstatus hmaker

/-- A proposed request names who proposed it, for whom, and when. -/
theorem proposeApproval_stamps {input : ProposeApprovalInput} {now : Option Instant}
    {request : ApprovalRequest} (h : proposeApproval secondsAfter input now = .ok request) :
    request.id = input.id ∧ request.tenantId = input.policy.tenantId ∧
      request.makerId = input.makerId ∧ request.decisions = [] ∧
      (∃ t, now = some t ∧ request.createdAt = Js.Date.toISOString t) ∧
      ∃ e, request.expiresAt = Js.Date.toISOString e := by
  unfold proposeApproval at h
  simp only [Except.bind_eq_ok_iff] at h
  obtain ⟨_, -, _, -, _, -, _, -, _, -, targetVersion, -, required, -, _, -, reqs, -,
    created, hcreated, expiresAt, hexpires, h⟩ := h
  cases h
  exact ⟨rfl, rfl, rfl, rfl, ⟨created, instant_ok hcreated, rfl⟩, toISOString_ok hexpires⟩

end Language

end Sintius.Approval
