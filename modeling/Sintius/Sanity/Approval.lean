import Mathlib
import Sintius.Lib.Counting
import Sintius.Lib.Except
import Sintius.Spec.Approval

/-! What a successful call of each approval function did, said once, and the
crediting arithmetic of named requirements. -/

namespace Sintius.Approval

open Js.Date

/-- The number of approvals among the decisions. -/
def approvals (decisions : List ApprovalDecision) : ℕ :=
  decisions.countP fun d => d.decision == .approve

/-- What `proposeApproval` guarantees of a new request. -/
structure Proposed (r : ApprovalRequest) : Prop where
  status : r.status = .PENDING
  decisions : r.decisions = []
  version : r.version = 1
  distinct : (r.approverRequirements.map (·.permission)).Nodup
  counts : ∀ q ∈ r.approverRequirements, 1 ≤ q.count
  positive : 1 ≤ r.requiredApprovals
  required : r.approverRequirements ≠ [] →
    r.requiredApprovals = (r.approverRequirements.map (·.count)).sum
  expiry : ∃ e : Instant, r.expiresAt = Js.Date.toISOString e

theorem assertPending_ok {r : ApprovalRequest} {v : Js.Number} {u : Unit}
    (h : assertPending r v = .ok u) : sameNumber v r.version = true ∧ r.status = .PENDING := by
  obtain ⟨_, h1, h2⟩ := Except.bind_eq_ok_iff.mp h
  exact ⟨by simpa using throwIf_eq_ok_iff.mp h1, by simpa using throwIf_eq_ok_iff.mp h2⟩

theorem assertPending_of {r : ApprovalRequest} {v : Js.Number}
    (hv : sameNumber v r.version = true) (hs : r.status = .PENDING) :
    assertPending r v = .ok () := by
  unfold assertPending throwIf
  simp [hv, hs]

theorem instant_ok {now : Option Instant} {t : Instant} (h : instant now = .ok t) :
    now = some t := by
  cases now with
  | none => exact absurd h fail_ne_ok
  | some t' => cases h; rfl

theorem positiveInteger?_pos {v : Js.Number} {n : ℕ} (h : positiveInteger? v = some n) : 1 ≤ n := by
  unfold positiveInteger? at h
  obtain ⟨m, -, hm⟩ := Option.bind_eq_some_iff.mp h
  split_ifs at hm with h1
  obtain rfl := Option.some.inj hm
  omega

theorem requirePositive_ok {v : Js.Number} {detail : String} {n : ℕ}
    (h : requirePositive v detail = .ok n) : positiveInteger? v = some n := by
  unfold requirePositive at h
  split at h
  · next m hm => cases h; exact hm
  · exact absurd h fail_ne_ok

theorem acceptedRequirement_some {q : StatedRequirement} {a : ApproverRequirement}
    (h : acceptedRequirement q = some a) : a.permission = q.permission ∧ 1 ≤ a.count := by
  unfold acceptedRequirement at h
  split_ifs at h with hb
  obtain ⟨n, hn, rfl⟩ := Option.map_eq_some_iff.mp h
  exact ⟨rfl, positiveInteger?_pos hn⟩

theorem mapM_accepted {qs : List StatedRequirement} :
    ∀ {as : List ApproverRequirement}, qs.mapM acceptedRequirement = some as →
      as.map (·.permission) = qs.map (·.permission) ∧ ∀ a ∈ as, 1 ≤ a.count := by
  induction qs with
  | nil =>
    intro as h
    obtain rfl : as = [] := by simpa using h.symm
    simp
  | cons q qs ih =>
    intro as h
    rw [List.mapM_cons] at h
    obtain ⟨a, ha, h⟩ := Option.bind_eq_some_iff.mp h
    obtain ⟨rest, hrest, h⟩ := Option.bind_eq_some_iff.mp h
    obtain rfl := Option.some.inj h
    obtain ⟨hp, hc⟩ := acceptedRequirement_some ha
    obtain ⟨ihp, ihc⟩ := ih hrest
    refine ⟨by simp [hp, ihp], ?_⟩
    intro b hb
    rcases List.mem_cons.mp hb with rfl | hb
    · exact hc
    · exact ihc b hb

theorem acceptedRequirements_ok {qs : List StatedRequirement} {as : List ApproverRequirement}
    (h : acceptedRequirements qs = .ok as) :
    (as.map (·.permission)).Nodup ∧ ∀ a ∈ as, 1 ≤ a.count := by
  unfold acceptedRequirements at h
  simp only at h
  split at h
  · next accepted hm =>
    split_ifs at h with hlen
    · cases h
      obtain ⟨hp, hc⟩ := mapM_accepted hm
      refine ⟨?_, hc⟩
      rw [hp, ← List.dedup_eq_self]
      have hsub := List.dedup_sublist (qs.map (·.permission))
      exact hsub.eq_of_length (by rw [hlen, List.length_map])
    · exact absurd h fail_ne_ok
  · exact absurd h fail_ne_ok

theorem toISOString_ok {value : Option Instant} {s : String}
    (h : Sintius.Approval.toISOString value = .ok s) : ∃ e, s = Js.Date.toISOString e := by
  unfold Sintius.Approval.toISOString at h
  split at h
  · next t => cases h; exact ⟨t, rfl⟩
  · cases h

section Language

variable {other : String → Option ℤ} {secondsAfter : Instant → Js.Number → Option Instant}

theorem proposeApproval_ok {input : ProposeApprovalInput} {now : Option Instant}
    {r : ApprovalRequest} (h : proposeApproval secondsAfter input now = .ok r) : Proposed r := by
  unfold proposeApproval at h
  simp only [Except.bind_eq_ok_iff] at h
  obtain ⟨_, -, _, -, _, -, _, -, _, -, targetVersion, -, required, hreq, _, -, reqs, hreqs,
    created, -, expiresAt, hexp, hr⟩ := h
  obtain ⟨hnodup, hcounts⟩ := acceptedRequirements_ok hreqs
  have hpos := positiveInteger?_pos (requirePositive_ok hreq)
  cases hr
  refine ⟨rfl, rfl, rfl, hnodup, hcounts, ?_, ?_, toISOString_ok hexp⟩
  · dsimp only
    cases reqs with
    | nil => simpa using hpos
    | cons q qs =>
      have hq := hcounts q (by simp)
      simp only [List.isEmpty_cons, Bool.false_eq_true, if_false, List.map_cons, List.sum_cons]
      omega
  · intro hne
    cases reqs with
    | nil => exact absurd rfl hne
    | cons q qs => simp

/-- The entry `decideApproval` appends. -/
def entryOf (input : DecideApprovalInput) (t : Instant) (credited : Option String) :
    ApprovalDecision :=
  { actorId := input.approverId
    decision := input.decision
    decidedAt := Js.Date.toISOString t
    reason := (input.reason.map Js.trim).filter fun text => text != ""
    creditedPermission := credited }

/-- The status after a decision. -/
def statusAfter (r : ApprovalRequest) (kind : ApprovalDecisionKind)
    (decisions : List ApprovalDecision) : ApprovalStatus :=
  if kind = .reject then .REJECTED else if isSatisfied r decisions then .APPROVED else .PENDING

/-- Everything a successful decision did and checked. -/
structure Decided (other : String → Option ℤ) (r : ApprovalRequest) (input : DecideApprovalInput)
    (t : Instant) (credited : Option String) (r' : ApprovalRequest) : Prop where
  expected : sameNumber input.expectedVersion r.version = true
  pending : r.status = .PENDING
  unexpired : atOrAfter other t r.expiresAt = false
  target : targetMatches input.target r = true
  duties : r.separationOfDuties = true → input.approverId ≠ r.makerId
  once : ∀ d ∈ r.decisions, d.actorId ≠ input.approverId
  credit : creditFor r input.decision (input.approverPermissions.getD []) = .ok credited
  result : r' =
    { r with
      decisions := r.decisions ++ [entryOf input t credited]
      status := statusAfter r input.decision (r.decisions ++ [entryOf input t credited])
      version := r.version + 1 }

theorem decideApproval_ok {r r' : ApprovalRequest} {input : DecideApprovalInput}
    {now : Option Instant} (h : decideApproval other r input now = .ok r') :
    ∃ t credited, now = some t ∧ Decided other r input t credited r' := by
  unfold decideApproval at h
  simp only [Except.bind_eq_ok_iff, throwIf_eq_ok_iff] at h
  obtain ⟨_, hpend, t, ht, _, hexp, _, htarget, _, hduty, _, honce, credited, hcredit, hr⟩ := h
  obtain ⟨hv, hs⟩ := assertPending_ok hpend
  refine ⟨t, credited, instant_ok ht, hv, hs, by simpa using hexp, by simpa using htarget, ?_, ?_,
    hcredit, ?_⟩
  · exact fun hsod heq => hduty ⟨hsod, heq⟩
  · exact fun d hd heq => honce ⟨d, hd, heq⟩
  · cases hr
    rfl

theorem decideApproval_of {r r' : ApprovalRequest} {input : DecideApprovalInput} {t : Instant}
    {credited : Option String} (h : Decided other r input t credited r') :
    decideApproval other r input (some t) = .ok r' := by
  have hd : ¬(r.separationOfDuties = true ∧ input.approverId = r.makerId) :=
    fun hc => h.duties hc.1 hc.2
  have ho : ¬∃ d ∈ r.decisions, d.actorId = input.approverId :=
    fun ⟨d, hm, he⟩ => h.once d hm he
  unfold decideApproval
  simp only [assertPending_of h.expected h.pending, Except.ok_bind, instant, h.unexpired,
    h.target, h.credit, throwIf, if_neg hd, if_neg ho, Bool.false_eq_true, if_false,
    Bool.true_eq_false]
  rw [h.result]
  rfl

theorem cancelApproval_ok {r r' : ApprovalRequest} {actor : ActorId} {v : Js.Number}
    (h : cancelApproval r actor v = .ok r') :
    sameNumber v r.version = true ∧ r.status = .PENDING ∧ actor = r.makerId ∧
      r' = { r with status := .CANCELLED, version := r.version + 1 } := by
  unfold cancelApproval at h
  simp only [Except.bind_eq_ok_iff, throwIf_eq_ok_iff] at h
  obtain ⟨_, hpend, _, hmaker, hr⟩ := h
  obtain ⟨hv, hs⟩ := assertPending_ok hpend
  cases hr
  exact ⟨hv, hs, by simpa using hmaker, rfl⟩

theorem cancelApproval_of {r : ApprovalRequest} {actor : ActorId} {v : Js.Number}
    (hv : sameNumber v r.version = true) (hs : r.status = .PENDING) (hm : actor = r.makerId) :
    cancelApproval r actor v = .ok { r with status := .CANCELLED, version := r.version + 1 } := by
  unfold cancelApproval
  rw [assertPending_of hv hs]
  simp [throwIf, hm]

theorem expireApproval_ok {r r' : ApprovalRequest} {v : Js.Number} {now : Option Instant}
    (h : expireApproval other r v now = .ok r') :
    r.status = .PENDING ∧ r' = { r with status := .EXPIRED, version := r.version + 1 } := by
  unfold expireApproval at h
  simp only [Except.bind_eq_ok_iff, throwIf_eq_ok_iff] at h
  obtain ⟨_, hpend, t, -, _, -, hr⟩ := h
  cases hr
  exact ⟨(assertPending_ok hpend).2, rfl⟩

end Language

/-- What crediting can return with named requirements. -/
theorem creditFor_ok {r : ApprovalRequest} {kind : ApprovalDecisionKind} {held : List String}
    {credited : Option String} (h : creditFor r kind held = .ok credited)
    (hne : r.approverRequirements ≠ []) :
    ∃ q ∈ r.approverRequirements, credited = some q.permission ∧ q.permission ∈ held ∧
      (kind = .approve → creditedCount r.decisions q.permission < q.count) := by
  have hmem : ∀ q ∈ r.approverRequirements.filter fun q => held.contains q.permission,
      q ∈ r.approverRequirements ∧ q.permission ∈ held := by
    intro q hq
    simpa using List.mem_filter.mp hq
  unfold creditFor at h
  rw [if_neg (by simpa using hne)] at h
  simp only at h
  split at h
  · exact absurd h fail_ne_ok
  · next first rest heq =>
    split_ifs at h with hrej
    · cases h
      obtain ⟨hq, hheld⟩ := hmem first (by rw [heq]; simp)
      exact ⟨first, hq, rfl, hheld, fun hk => by rw [hk] at hrej; cases hrej⟩
    · split at h
      · exact absurd h fail_ne_ok
      · next q hfind =>
        cases h
        obtain ⟨hq, hheld⟩ := hmem q (List.mem_of_find?_eq_some hfind)
        exact ⟨q, hq, rfl, hheld, fun _ => by simpa using List.find?_some hfind⟩

theorem creditedCount_eq_countP (ds : List ApprovalDecision) (p : String) :
    creditedCount ds p = ds.countP fun d =>
      d.decision == .approve && d.creditedPermission == some p := by
  rw [creditedCount, List.countP_eq_length_filter]

theorem creditedCount_append (ds : List ApprovalDecision) (d : ApprovalDecision) (p : String) :
    creditedCount (ds ++ [d]) p = creditedCount ds p +
      if d.decision = .approve ∧ d.creditedPermission = some p then 1 else 0 := by
  simp only [creditedCount_eq_countP, List.countP_append, List.countP_singleton]
  simp

theorem approvals_append (ds : List ApprovalDecision) (d : ApprovalDecision) :
    approvals (ds ++ [d]) = approvals ds + if d.decision = .approve then 1 else 0 := by
  simp only [approvals, List.countP_append, List.countP_singleton]
  simp

/-- With distinct requirement permissions and every approval credited to one of them, the credits
add up to the approvals. -/
theorem approvals_eq_sum_credits {qs : List ApproverRequirement} {ds : List ApprovalDecision}
    (hq : (qs.map (·.permission)).Nodup)
    (hc : ∀ d ∈ ds, d.decision = .approve → ∃ q ∈ qs, d.creditedPermission = some q.permission) :
    approvals ds = (qs.map fun q => creditedCount ds q.permission).sum := by
  have hks : (qs.map fun q => some q.permission).Nodup := by
    have := hq.map (Option.some_injective String)
    rwa [List.map_map] at this
  have h := Counting.length_eq_sum_countP (fun d : ApprovalDecision => d.creditedPermission) hks
    (ds.filter fun d => d.decision == .approve) (by
      intro d hd
      obtain ⟨hd, ha⟩ := List.mem_filter.mp hd
      obtain ⟨q, hq, he⟩ := hc d hd (by simpa using ha)
      exact List.mem_map.mpr ⟨q, hq, he.symm⟩)
  rw [approvals, List.countP_eq_length_filter, h, List.map_map]
  congr 1
  apply List.map_congr_left
  intro q _
  rw [creditedCount_eq_countP, Function.comp_apply, List.countP_filter]
  apply List.countP_congr
  intro d _
  simp [and_comm]

/-- Satisfaction is reaching the required number of approvals, and that number is never passed. -/
theorem isSatisfied_iff {r : ApprovalRequest} (ds : List ApprovalDecision)
    (hdistinct : (r.approverRequirements.map (·.permission)).Nodup)
    (hrequired : r.approverRequirements ≠ [] →
      r.requiredApprovals = (r.approverRequirements.map (·.count)).sum)
    (hcredit : r.approverRequirements ≠ [] → ∀ d ∈ ds, d.decision = .approve →
      ∃ q ∈ r.approverRequirements, d.creditedPermission = some q.permission)
    (hbound : ∀ q ∈ r.approverRequirements, creditedCount ds q.permission ≤ q.count)
    (hunnamed : r.approverRequirements = [] → approvals ds ≤ r.requiredApprovals) :
    (isSatisfied r ds = true ↔ approvals ds = r.requiredApprovals) ∧
      approvals ds ≤ r.requiredApprovals := by
  by_cases hne : r.approverRequirements = []
  · have hle := hunnamed hne
    refine ⟨?_, hle⟩
    unfold isSatisfied
    rw [if_pos (by simp [hne]), ← List.countP_eq_length_filter]
    change decide (approvals ds ≥ r.requiredApprovals) = true ↔ _
    rw [decide_eq_true_iff]
    omega
  · have hsum := approvals_eq_sum_credits hdistinct (hcredit hne)
    rw [hrequired hne, hsum]
    refine ⟨?_, List.sum_le_sum hbound⟩
    rw [← Counting.forall_le_iff_sum_eq (fun q : ApproverRequirement => creditedCount ds q.permission)
      (·.count) _ hbound]
    unfold isSatisfied
    rw [if_neg (by simpa using hne)]
    simp

end Sintius.Approval
