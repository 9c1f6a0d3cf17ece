import Mathlib
import Sintius.Sanity.Approval

/-! The approval aggregate along every run of its transitions: what never changes,
how decisions are counted and credited, and what each status says about them. -/

namespace Sintius.Approval

open Js.Date

variable {other : String → Option ℤ} {secondsAfter : Instant → Js.Number → Option Instant}

/-- The decide calls of a run, in order. -/
def decideCalls (steps : List Step) : List DecideApprovalInput :=
  steps.filterMap fun
    | .decide input _ => some input
    | _ => none

/-- `d` is what the call `i` left behind; with named requirements it is credited to exactly one
of them, one the approver held. -/
structure Recorded (qs : List ApproverRequirement) (i : DecideApprovalInput)
    (d : ApprovalDecision) : Prop where
  actor : d.actorId = i.approverId
  kind : d.decision = i.decision
  credit : qs ≠ [] → (∃! q, q ∈ qs ∧ d.creditedPermission = some q.permission) ∧
    ∃ p ∈ i.approverPermissions.getD [], d.creditedPermission = some p

/-- The instant of a decision precedes the request's expiry. -/
def DecidedBefore (other : String → Option ℤ) (d : ApprovalDecision) (expiresAt : String) : Prop :=
  ∃ t e, Js.Date.parse other d.decidedAt = some t ∧ Js.Date.parse other expiresAt = some e ∧ t < e

/-- The last decision is a reject and the only one. -/
def LastIsOnlyReject (ds : List ApprovalDecision) : Prop :=
  ∃ init d, ds = init ++ [d] ∧ d.decision = .reject ∧ ∀ e ∈ init, e.decision = .approve

/-- What the decisions say about the status. -/
inductive Shape (r : ApprovalRequest) : Prop
  | undecided (hall : ∀ d ∈ r.decisions, d.decision = .approve)
      (hlt : approvals r.decisions < r.requiredApprovals)
      (hs : r.status = .PENDING ∨ r.status = .CANCELLED ∨ r.status = .EXPIRED)
  | approved (hall : ∀ d ∈ r.decisions, d.decision = .approve)
      (heq : approvals r.decisions = r.requiredApprovals) (hs : r.status = .APPROVED)
  | rejected (hlast : LastIsOnlyReject r.decisions)
      (hlt : approvals r.decisions < r.requiredApprovals) (hs : r.status = .REJECTED)

theorem not_lastIsOnlyReject {ds : List ApprovalDecision}
    (h : ∀ d ∈ ds, d.decision = .approve) : ¬ LastIsOnlyReject ds := by
  rintro ⟨init, d, rfl, hrej, -⟩
  have := h d (by simp)
  rw [hrej] at this
  cases this

theorem Shape.approved_iff {r : ApprovalRequest} (h : Shape r) :
    r.status = .APPROVED ↔ approvals r.decisions = r.requiredApprovals := by
  cases h with
  | undecided hall hlt hs =>
    refine ⟨fun hc => ?_, fun he => absurd he hlt.ne⟩
    rcases hs with hs | hs | hs <;> rw [hs] at hc <;> cases hc
  | approved hall heq hs => exact ⟨fun _ => heq, fun _ => hs⟩
  | rejected hlast hlt hs =>
    refine ⟨fun hc => ?_, fun he => absurd he hlt.ne⟩
    rw [hs] at hc
    cases hc

theorem Shape.rejected_iff {r : ApprovalRequest} (h : Shape r) :
    r.status = .REJECTED ↔ LastIsOnlyReject r.decisions := by
  cases h with
  | undecided hall hlt hs =>
    refine ⟨fun hc => ?_, fun hl => absurd hl (not_lastIsOnlyReject hall)⟩
    rcases hs with hs | hs | hs <;> rw [hs] at hc <;> cases hc
  | approved hall heq hs =>
    refine ⟨fun hc => ?_, fun hl => absurd hl (not_lastIsOnlyReject hall)⟩
    rw [hs] at hc
    cases hc
  | rejected hlast hlt hs => exact ⟨fun _ => hlast, fun _ => hs⟩

theorem Shape.of_pending {r : ApprovalRequest} (h : Shape r) (hpending : r.status = .PENDING) :
    (∀ d ∈ r.decisions, d.decision = .approve) ∧
      approvals r.decisions < r.requiredApprovals := by
  cases h with
  | undecided hall hlt _ => exact ⟨hall, hlt⟩
  | approved _ _ hs => rw [hpending] at hs; cases hs
  | rejected _ _ hs => rw [hpending] at hs; cases hs

/-- The inductive invariant of a run from the proposed request `r0`. -/
structure Core (other : String → Option ℤ) (r0 : ApprovalRequest) (steps : List Step)
    (r : ApprovalRequest) : Prop where
  governed : r = { r0 with status := r.status, decisions := r.decisions, version := r.version }
  version : r.version = 1 + r.decisions.length +
    if r.status = .CANCELLED ∨ r.status = .EXPIRED then 1 else 0
  actors : (r.decisions.map (·.actorId)).Nodup
  duties : r.separationOfDuties = true → ∀ d ∈ r.decisions, d.actorId ≠ r.makerId
  recorded : List.Forall₂ (Recorded r.approverRequirements) (decideCalls steps) r.decisions
  bounded : ∀ q ∈ r.approverRequirements, creditedCount r.decisions q.permission ≤ q.count
  shape : Shape r
  before : ∀ d ∈ r.decisions, DecidedBefore other d r.expiresAt

theorem Core.init {r0 : ApprovalRequest} (h : Proposed r0) : Core other r0 [] r0 where
  governed := rfl
  version := by rw [h.version, h.decisions, h.status]; rfl
  actors := by rw [h.decisions]; exact List.nodup_nil
  duties := by rw [h.decisions]; simp
  recorded := by rw [h.decisions]; exact List.Forall₂.nil
  bounded := by rw [h.decisions]; simp [creditedCount]
  shape := by
    refine .undecided (by rw [h.decisions]; simp) ?_ (Or.inl h.status)
    rw [h.decisions]
    exact h.positive
  before := by rw [h.decisions]; simp

/-- Facts of the proposal that a request of the run still satisfies. -/
theorem Core.proposed {r0 r : ApprovalRequest} {steps : List Step} (h0 : Proposed r0)
    (h : Core other r0 steps r) :
    (r.approverRequirements.map (·.permission)).Nodup ∧
      (r.approverRequirements ≠ [] →
        r.requiredApprovals = (r.approverRequirements.map (·.count)).sum) ∧
      ∃ e : Instant, r.expiresAt = Js.Date.toISOString e := by
  rw [h.governed]
  exact ⟨h0.distinct, h0.required, h0.expiry⟩

theorem forall₂_credits {qs : List ApproverRequirement} (hne : qs ≠ []) :
    ∀ {calls : List DecideApprovalInput} {ds : List ApprovalDecision},
      List.Forall₂ (Recorded qs) calls ds →
        ∀ d ∈ ds, ∃ q ∈ qs, d.creditedPermission = some q.permission := by
  intro calls ds h
  induction h with
  | nil => simp
  | cons hrec _ ih =>
    intro d hd
    rcases List.mem_cons.mp hd with rfl | hd
    · obtain ⟨⟨q, hq, -⟩, -⟩ := hrec.credit hne
      exact ⟨q, hq.1, hq.2⟩
    · exact ih d hd

theorem decideCalls_append_decide (steps : List Step) (i : DecideApprovalInput)
    (now : Option Instant) :
    decideCalls (steps ++ [.decide i now]) = decideCalls steps ++ [i] := by
  simp [decideCalls, List.filterMap_append]

/-- A decision is credited to one requirement, the requirement permissions being distinct. -/
theorem recorded_of_credit {r : ApprovalRequest} {i : DecideApprovalInput} {t : Instant}
    {credited : Option String} (hdistinct : (r.approverRequirements.map (·.permission)).Nodup)
    (hc : creditFor r i.decision (i.approverPermissions.getD []) = .ok credited) :
    Recorded r.approverRequirements i (entryOf i t credited) := by
  refine ⟨rfl, rfl, fun hne => ?_⟩
  obtain ⟨q, hq, rfl, hheld, -⟩ := creditFor_ok hc hne
  refine ⟨⟨q, ⟨hq, rfl⟩, ?_⟩, q.permission, hheld, rfl⟩
  rintro q' ⟨hq', he⟩
  exact List.inj_on_of_nodup_map hdistinct hq' hq (Option.some.inj he).symm

theorem bounded_of_credit {r : ApprovalRequest} {i : DecideApprovalInput} {t : Instant}
    {credited : Option String}
    (hbound : ∀ q ∈ r.approverRequirements, creditedCount r.decisions q.permission ≤ q.count)
    (hdistinct : (r.approverRequirements.map (·.permission)).Nodup)
    (hc : creditFor r i.decision (i.approverPermissions.getD []) = .ok credited) :
    ∀ q ∈ r.approverRequirements,
      creditedCount (r.decisions ++ [entryOf i t credited]) q.permission ≤ q.count := by
  intro q hq
  have hne : r.approverRequirements ≠ [] := List.ne_nil_of_mem hq
  obtain ⟨q', hq', rfl, -, hroom⟩ := creditFor_ok hc hne
  rw [creditedCount_append]
  split_ifs with h
  · obtain ⟨hkind, hperm⟩ := h
    have heq := List.inj_on_of_nodup_map hdistinct hq' hq (Option.some.inj hperm)
    subst heq
    exact hroom hkind
  · exact hbound q hq

theorem not_atOrAfter {t e : Instant} (h : atOrAfter other t (Js.Date.toISOString e) = false) :
    t.1 < e.1 := by
  unfold atOrAfter at h
  rw [parse_toISOString] at h
  simpa using h

/-- Approving adds one approval and settles exactly when the required number is reached. -/
theorem shape_after_decide {r r' : ApprovalRequest} {i : DecideApprovalInput} {t : Instant}
    {credited : Option String} (hd : Decided other r i t credited r') (hsh : Shape r)
    (hdistinct : (r.approverRequirements.map (·.permission)).Nodup)
    (hrequired : r.approverRequirements ≠ [] →
      r.requiredApprovals = (r.approverRequirements.map (·.count)).sum)
    (hcredits : r.approverRequirements ≠ [] → ∀ d ∈ r.decisions,
      ∃ q ∈ r.approverRequirements, d.creditedPermission = some q.permission)
    (hbound : ∀ q ∈ r.approverRequirements, creditedCount r.decisions q.permission ≤ q.count) :
    Shape r' := by
  -- the request was pending, so its decisions are approvals and fall short
  obtain ⟨hall, hlt⟩ := hsh.of_pending hd.pending
  have happ := approvals_append r.decisions (entryOf i t credited)
  have hres := hd.result
  cases hk : i.decision with
  | reject =>
    refine .rejected ⟨r.decisions, entryOf i t credited, by rw [hres], hk, hall⟩ ?_ ?_
    · rw [hres]
      dsimp only
      rw [happ, if_neg (by rw [entryOf, hk]; simp)]
      exact hlt
    · rw [hres]
      simp [statusAfter, hk]
  | approve =>
    have hentry : (entryOf i t credited).decision = .approve := hk
    have happ' : approvals (r.decisions ++ [entryOf i t credited]) = approvals r.decisions + 1 := by
      rw [happ, if_pos hentry]
    have hall' : ∀ d ∈ r.decisions ++ [entryOf i t credited], d.decision = .approve := by
      intro d hmem
      rcases List.mem_append.mp hmem with hmem | hmem
      · exact hall d hmem
      · rw [List.mem_singleton.mp hmem]; exact hentry
    obtain ⟨hiff, hle⟩ := isSatisfied_iff (r.decisions ++ [entryOf i t credited])
      hdistinct hrequired
      (by
        intro hne d hmem _
        rcases List.mem_append.mp hmem with hmem | hmem
        · exact hcredits hne d hmem
        · obtain ⟨q, hq, rfl, -, -⟩ := creditFor_ok hd.credit hne
          rw [List.mem_singleton.mp hmem]
          exact ⟨q, hq, rfl⟩)
      (bounded_of_credit hbound hdistinct hd.credit)
      (by intro _; rw [happ']; exact hlt)
    by_cases hsat : isSatisfied r (r.decisions ++ [entryOf i t credited]) = true
    · refine .approved (by rw [hres]; exact hall') (by rw [hres]; exact hiff.mp hsat) ?_
      rw [hres]
      simp [statusAfter, hk, hsat]
    · refine .undecided (by rw [hres]; exact hall') ?_ (Or.inl ?_)
      · rw [hres]
        exact lt_of_le_of_ne hle fun heq => hsat (hiff.mpr heq)
      · rw [hres]
        simp [statusAfter, hk, hsat]

theorem Core.decide {r0 r r' : ApprovalRequest} {steps : List Step} {i : DecideApprovalInput}
    {now : Option Instant} (h0 : Proposed r0) (h : Core other r0 steps r)
    (hs : decideApproval other r i now = .ok r') :
    Core other r0 (steps ++ [.decide i now]) r' := by
  obtain ⟨t, credited, rfl, hd⟩ := decideApproval_ok hs
  obtain ⟨hdistinct, hrequired, e, he⟩ := h.proposed h0
  have hshape := shape_after_decide hd h.shape hdistinct hrequired
    (fun hne => forall₂_credits hne h.recorded) h.bounded
  have hversion := h.version
  rw [hd.pending] at hversion
  have hnot : ¬(r'.status = .CANCELLED ∨ r'.status = .EXPIRED) := by
    rw [hd.result]
    unfold statusAfter
    dsimp only
    split_ifs <;> simp
  have hbounded := bounded_of_credit (t := t) h.bounded hdistinct hd.credit
  have hrecorded := recorded_of_credit (t := t) hdistinct hd.credit
  have hres := hd.result
  refine ⟨?_, ?_, ?_, ?_, ?_, ?_, hshape, ?_⟩
  · rw [hres]
    dsimp only
    rw [h.governed]
  · rw [if_neg hnot, hres]
    simp only [List.length_append, List.length_singleton]
    simp at hversion
    omega
  · rw [hres]
    rw [List.map_append, List.nodup_append]
    refine ⟨h.actors, by simp, ?_⟩
    intro a ha b hb heq
    obtain ⟨d, hmem, rfl⟩ := List.mem_map.mp ha
    have hb' : b = i.approverId := by simpa [entryOf] using hb
    exact hd.once d hmem (heq.trans hb')
  · rw [hres]
    intro hsod d hmem
    rcases List.mem_append.mp hmem with hmem | hmem
    · exact h.duties hsod d hmem
    · rw [List.mem_singleton.mp hmem]
      exact hd.duties hsod
  · rw [hres, decideCalls_append_decide]
    exact List.rel_append h.recorded (List.Forall₂.cons hrecorded List.Forall₂.nil)
  · rw [hres]
    exact hbounded
  · rw [hres]
    intro d hmem
    rcases List.mem_append.mp hmem with hmem | hmem
    · exact h.before d hmem
    · rw [List.mem_singleton.mp hmem]
      have hun := hd.unexpired
      rw [he] at hun
      exact ⟨t.1, e.1, parse_toISOString other t, by rw [he]; exact parse_toISOString other e,
        not_atOrAfter hun⟩

/-- A transition that only settles a pending request keeps the invariant. -/
theorem Core.settle {r0 r : ApprovalRequest} {steps : List Step} {step : Step}
    {s : ApprovalStatus} (h : Core other r0 steps r) (hp : r.status = .PENDING)
    (hs : s = .CANCELLED ∨ s = .EXPIRED) (hcalls : decideCalls [step] = []) :
    Core other r0 (steps ++ [step]) { r with status := s, version := r.version + 1 } := by
  have hversion := h.version
  rw [hp] at hversion
  have hcalls' : decideCalls (steps ++ [step]) = decideCalls steps := by
    unfold decideCalls at hcalls ⊢
    rw [List.filterMap_append, hcalls, List.append_nil]
  refine ⟨?_, ?_, h.actors, h.duties, by rw [hcalls']; exact h.recorded, h.bounded, ?_, h.before⟩
  · dsimp only
    rw [h.governed]
  · dsimp only
    rw [if_pos hs]
    simp at hversion
    omega
  · cases h.shape with
    | undecided hall hlt _ => exact .undecided hall hlt (Or.inr hs)
    | approved _ _ hs' => rw [hp] at hs'; cases hs'
    | rejected _ _ hs' => rw [hp] at hs'; cases hs'

theorem core_run {r0 r : ApprovalRequest} {steps : List Step} (h0 : Proposed r0)
    (h : Run other r0 steps r) : Core other r0 steps r := by
  induction h with
  | nil => exact Core.init h0
  | @snoc steps r r' step _ hs ih =>
    cases step with
    | decide i now => exact ih.decide h0 hs
    | cancel actor v =>
      obtain ⟨-, hp, -, rfl⟩ := cancelApproval_ok hs
      exact ih.settle hp (Or.inl rfl) rfl
    | expire v now =>
      obtain ⟨hp, rfl⟩ := expireApproval_ok hs
      exact ih.settle hp (Or.inr rfl) rfl

/-- A settled request admits no step. -/
theorem applyStep_pending {r r' : ApprovalRequest} {step : Step}
    (h : applyStep other r step = .ok r') : r.status = .PENDING := by
  cases step with
  | decide i now =>
    obtain ⟨t, credited, -, hd⟩ := decideApproval_ok h
    exact hd.pending
  | cancel actor v => exact (cancelApproval_ok h).2.1
  | expire v now => exact (expireApproval_ok h).1

/-- The aggregate's invariant, in the words of its contract. -/
structure ApprovalInvariant (other : String → Option ℤ) (r0 : ApprovalRequest) (steps : List Step)
    (r : ApprovalRequest) : Prop where
  /-- only status, decisions and version ever change -/
  governed : r = { r0 with status := r.status, decisions := r.decisions, version := r.version }
  version : r.version = 1 + r.decisions.length +
    if r.status = .CANCELLED ∨ r.status = .EXPIRED then 1 else 0
  actors : (r.decisions.map (·.actorId)).Nodup
  duties : r.separationOfDuties = true → ∀ d ∈ r.decisions, d.actorId ≠ r.makerId
  recorded : List.Forall₂ (Recorded r.approverRequirements) (decideCalls steps) r.decisions
  bounded : ∀ q ∈ r.approverRequirements, creditedCount r.decisions q.permission ≤ q.count
  required : r.approverRequirements ≠ [] →
    r.requiredApprovals = (r.approverRequirements.map (·.count)).sum ∧
    (approvals r.decisions = r.requiredApprovals ↔
      ∀ q ∈ r.approverRequirements, creditedCount r.decisions q.permission = q.count)
  approved : r.status = .APPROVED ↔ approvals r.decisions = r.requiredApprovals
  rejected : r.status = .REJECTED ↔ LastIsOnlyReject r.decisions
  pending : r.status = .PENDING → (∀ d ∈ r.decisions, d.decision = .approve) ∧
    approvals r.decisions < r.requiredApprovals
  before : ∀ d ∈ r.decisions, DecidedBefore other d r.expiresAt
  settled : r.status ≠ .PENDING → ∀ step r', applyStep other r step ≠ .ok r'

theorem Core.required_met {r0 r : ApprovalRequest} {steps : List Step} (h0 : Proposed r0)
    (h : Core other r0 steps r) (hne : r.approverRequirements ≠ []) :
    approvals r.decisions = r.requiredApprovals ↔
      ∀ q ∈ r.approverRequirements, creditedCount r.decisions q.permission = q.count := by
  obtain ⟨hdistinct, hrequired, -⟩ := h.proposed h0
  have hsum := approvals_eq_sum_credits hdistinct
    (fun d hd _ => forall₂_credits hne h.recorded d hd)
  rw [hrequired hne, hsum, ← Counting.forall_le_iff_sum_eq
    (fun q : ApproverRequirement => creditedCount r.decisions q.permission) (·.count) _ h.bounded]
  refine forall₂_congr fun q hq => ?_
  have := h.bounded q hq
  omega

/-- For every accepted policy and every run of successful steps the aggregate satisfies its
invariant. -/
theorem approval_invariant {input : ProposeApprovalInput} {now : Option Instant}
    {r0 r : ApprovalRequest} {steps : List Step}
    (hp : proposeApproval secondsAfter input now = .ok r0) (hrun : Run other r0 steps r) :
    ApprovalInvariant other r0 steps r := by
  have h0 := proposeApproval_ok hp
  have h := core_run h0 hrun
  exact ⟨h.governed, h.version, h.actors, h.duties, h.recorded, h.bounded,
    fun hne => ⟨(h.proposed h0).2.1 hne, h.required_met h0 hne⟩, h.shape.approved_iff,
    h.shape.rejected_iff, h.shape.of_pending, h.before,
    fun hne step r' hok => hne (applyStep_pending hok)⟩

theorem two_safe : 2 < 2 ^ 53 := by norm_num

/-- A proposal under the rate-card policy, one requirement for each of two permissions. -/
def sampleInput : ProposeApprovalInput :=
  { id := "apr_1"
    actionType := "pricing:rate_card:activate"
    targetType := "RateCard"
    targetId := "rc_1"
    targetVersion := .ofNat 3 (by norm_num)
    makerId := "maker"
    policy :=
      { tenantId := "tenant_a"
        actionType := "pricing:rate_card:activate"
        requiredApprovals := .ofNat 2 two_safe
        separationOfDuties := true
        expiresAfterSeconds := .ofNat 3600 (by norm_num)
        approverRequirements := some
          [⟨"pricing:rate_card:activate", .ofNat 1 Js.one_safe⟩,
            ⟨"billing:invoice:finalize", .ofNat 1 Js.one_safe⟩] } }

def sampleDecision (approver permission : String) (version : Js.Number) : DecideApprovalInput :=
  { approverId := approver
    decision := .approve
    expectedVersion := version
    target := sampleInput.toApprovalTarget
    reason := some " looks right "
    approverPermissions := some [permission] }

def sampleHour (t : Instant) (_ : Js.Number) : Option Instant := timeClip (t.1 + 3600000)

def sampleTime (t : ℤ) : Option Instant := timeClip (1790244245000 + t)

def sampleFirst : Step :=
  .decide (sampleDecision "product" "pricing:rate_card:activate" (.ofNat 1 Js.one_safe))
    (sampleTime 1000)

def sampleSecond : Step :=
  .decide (sampleDecision "finance" "billing:invoice:finalize" (.ofNat 2 two_safe))
    (sampleTime 2000)

def sampleRequest : ApprovalRequest :=
  { id := "apr_1"
    tenantId := "tenant_a"
    actionType := "pricing:rate_card:activate"
    targetType := "RateCard"
    targetId := "rc_1"
    targetVersion := 3
    makerId := "maker"
    requiredApprovals := 2
    separationOfDuties := true
    approverRequirements := [⟨"pricing:rate_card:activate", 1⟩, ⟨"billing:invoice:finalize", 1⟩]
    status := .PENDING
    decisions := []
    version := 1
    createdAt := "2026-09-24T10:04:05.000Z"
    expiresAt := "2026-09-24T11:04:05.000Z" }

def sampleEntry (actor at_ permission : String) : ApprovalDecision :=
  ⟨actor, .approve, at_, some "looks right", some permission⟩

def sampleHalf : ApprovalRequest :=
  { sampleRequest with
    decisions := [sampleEntry "product" "2026-09-24T10:04:06.000Z" "pricing:rate_card:activate"]
    version := 2 }

def sampleApproved : ApprovalRequest :=
  { sampleRequest with
    status := .APPROVED
    decisions := sampleHalf.decisions ++
      [sampleEntry "finance" "2026-09-24T10:04:07.000Z" "billing:invoice:finalize"]
    version := 3 }

/-- Two named approvers approve the sample request. -/
theorem approval_invariant_sample :
    ApprovalInvariant (fun _ => none) sampleRequest [sampleFirst, sampleSecond] sampleApproved :=
  have first : Run (fun _ => none) sampleRequest [sampleFirst] sampleHalf :=
    Run.nil.snoc (by decide +kernel)
  have second : Run (fun _ => none) sampleRequest [sampleFirst, sampleSecond] sampleApproved :=
    first.snoc (by decide +kernel)
  have proposed : proposeApproval sampleHour sampleInput (sampleTime 0) = .ok sampleRequest := by
    decide +kernel
  approval_invariant proposed second

end Sintius.Approval
