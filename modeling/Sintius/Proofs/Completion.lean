import Mathlib
import Sintius.Sanity.Approval
import Sintius.Proofs.Approval

/-! A pending request can always be completed: as many further approvals as its count
still asks for, each of an approver with one requirement left to meet, all succeed, and
the last settles it. Fewer never do. -/

namespace Sintius.Approval

open Js.Date

variable {other : String → Option ℤ} {secondsAfter : Instant → Js.Number → Option Instant}

/-- A call of `decideApproval`, with the instant at which it is made. -/
structure DecideCall where
  input : DecideApprovalInput
  at_ : Instant

def DecideCall.held (call : DecideCall) : List String := call.input.approverPermissions.getD []

def DecideCall.step (call : DecideCall) : Step := .decide call.input (some call.at_)

/-- The next of the approvers that are listed for a request, after the earlier ones. -/
structure Suitable (other : String → Option ℤ) (r : ApprovalRequest) (earlier : List DecideCall)
    (call : DecideCall) : Prop where
  approve : call.input.decision = .approve
  version : sameNumber call.input.expectedVersion (r.version + earlier.length) = true
  target : targetMatches call.input.target r = true
  unexpired : atOrAfter other call.at_ r.expiresAt = false
  undecided : ∀ d ∈ r.decisions, d.actorId ≠ call.input.approverId
  distinct : ∀ c ∈ earlier, c.input.approverId ≠ call.input.approverId
  duties : r.separationOfDuties = true → call.input.approverId ≠ r.makerId
  /-- of the requirement permissions the approver holds one, still unmet after the earlier ones -/
  unmet : r.approverRequirements ≠ [] → ∃ q ∈ r.approverRequirements,
    q.permission ∈ call.held ∧
    (∀ q' ∈ r.approverRequirements, q'.permission ∈ call.held → q' = q) ∧
    creditedCount r.decisions q.permission +
      (earlier.countP fun c => decide (q.permission ∈ c.held)) < q.count

/-- Approvers in an order in which each is suitable after the ones before. -/
inductive Listed (other : String → Option ℤ) (r : ApprovalRequest) : List DecideCall → Prop where
  | nil : Listed other r []
  | snoc {calls call} (h : Listed other r calls) (hcall : Suitable other r calls call) :
      Listed other r (calls ++ [call])

section Runs

variable {r0 r r' r'' : ApprovalRequest} {steps steps' : List Step}

theorem Run.append (h : Run other r0 steps r) (h' : Run other r steps' r') :
    Run other r0 (steps ++ steps') r' := by
  induction h' with
  | nil => rwa [List.append_nil]
  | snoc _ hstep ih =>
    rw [← List.append_assoc]
    exact ih.snoc hstep

/-- A step adds at most one approval. -/
theorem approvals_le_of_step {step : Step} (h : applyStep other r step = .ok r') :
    approvals r'.decisions ≤ approvals r.decisions + 1 ∧
      r'.requiredApprovals = r.requiredApprovals := by
  cases step with
  | decide input now =>
    obtain ⟨t, credited, -, hd⟩ := decideApproval_ok h
    rw [hd.result]
    dsimp only
    rw [approvals_append]
    split_ifs <;> omega
  | cancel actorId expectedVersion =>
    obtain ⟨-, -, -, rfl⟩ := cancelApproval_ok h
    exact ⟨Nat.le_succ _, rfl⟩
  | expire expectedVersion now =>
    obtain ⟨-, rfl⟩ := expireApproval_ok h
    exact ⟨Nat.le_succ _, rfl⟩

theorem approvals_le_of_run (h : Run other r steps r') :
    approvals r'.decisions ≤ approvals r.decisions + steps.length ∧
      r'.requiredApprovals = r.requiredApprovals := by
  induction h with
  | nil => exact ⟨le_rfl, rfl⟩
  | snoc _ hstep ih =>
    obtain ⟨hle, hrequired⟩ := approvals_le_of_step hstep
    rw [List.length_append, List.length_singleton]
    exact ⟨by omega, hrequired.trans ih.2⟩

/-- Approved means as many approvals as required. -/
theorem approvals_of_approved (h0 : Proposed r0) (h : Run other r0 steps r) :
    r.status = .APPROVED ↔ approvals r.decisions = r.requiredApprovals :=
  (core_run h0 h).shape.approved_iff

end Runs

section Progress

variable {r0 r r' : ApprovalRequest} {calls : List DecideCall} {call : DecideCall}

/-- An approver with one requirement permission is credited with it. -/
theorem creditFor_only {held : List String} {q : ApproverRequirement}
    (hq : q ∈ r.approverRequirements) (hheld : q.permission ∈ held)
    (honly : ∀ q' ∈ r.approverRequirements, q'.permission ∈ held → q' = q)
    (hroom : creditedCount r.decisions q.permission < q.count) :
    creditFor r .approve held = .ok (some q.permission) := by
  have hmem : q ∈ r.approverRequirements.filter fun q => held.contains q.permission :=
    List.mem_filter.mpr ⟨hq, by simpa using hheld⟩
  unfold creditFor
  rw [if_neg (by simpa using List.ne_nil_of_mem hq)]
  dsimp only
  split
  · next heq =>
    rw [heq] at hmem
    cases hmem
  · rw [if_neg (by decide)]
    split
    · next hfind => exact absurd hroom (by simpa using List.find?_eq_none.mp hfind q hmem)
    · next unmet hfind =>
      obtain ⟨hunmet, hcontains⟩ := List.mem_filter.mp (List.mem_of_find?_eq_some hfind)
      rw [honly unmet hunmet (by simpa using hcontains)]

/-- What calls of suitable approvers have made of a request. -/
structure Progress (r : ApprovalRequest) (calls : List DecideCall) (r' : ApprovalRequest) :
    Prop where
  governed : r' = { r with status := r'.status, decisions := r'.decisions, version := r'.version }
  version : r'.version = r.version + calls.length
  approvals : approvals r'.decisions = approvals r.decisions + calls.length
  actors : ∀ d ∈ r'.decisions, d ∈ r.decisions ∨ ∃ c ∈ calls, d.actorId = c.input.approverId
  credits : ∀ q ∈ r.approverRequirements, creditedCount r'.decisions q.permission =
    creditedCount r.decisions q.permission +
      calls.countP fun c => decide (q.permission ∈ c.held)

theorem Progress.refl (r : ApprovalRequest) : Progress r [] r where
  governed := rfl
  version := rfl
  approvals := rfl
  actors := fun _ => .inl
  credits := fun _ _ => rfl

theorem Progress.requirements (h : Progress r calls r') :
    r'.approverRequirements = r.approverRequirements := by rw [h.governed]

/-- The next approver's approval is credited to the requirement of the permission held. -/
theorem exists_credit (h : Progress r calls r') (hcall : Suitable other r calls call) :
    ∃ credited, creditFor r' call.input.decision call.held = .ok credited ∧
      ∀ q ∈ r.approverRequirements, credited = some q.permission ↔ q.permission ∈ call.held := by
  rw [hcall.approve]
  by_cases hne : r.approverRequirements = []
  · refine ⟨none, ?_, by simp [hne]⟩
    unfold creditFor
    rw [if_pos (by simp [h.requirements, hne])]
  · obtain ⟨q, hq, hheld, honly, hroom⟩ := hcall.unmet hne
    rw [← h.credits q hq] at hroom
    refine ⟨some q.permission, creditFor_only (h.requirements ▸ hq) hheld
      (h.requirements ▸ honly) hroom, fun q' hq' => ⟨fun heq => ?_, fun hheld' => ?_⟩⟩
    · exact Option.some.inj heq ▸ hheld
    · rw [honly q' hq' hheld']

/-- A recorded approval is progress. -/
theorem Progress.snoc {credited : Option String} {status : ApprovalStatus}
    (h : Progress r calls r') (happrove : call.input.decision = .approve)
    (hcredit : ∀ q ∈ r.approverRequirements,
      credited = some q.permission ↔ q.permission ∈ call.held) :
    Progress r (calls ++ [call])
      { r' with
        decisions := r'.decisions ++ [entryOf call.input call.at_ credited]
        status := status
        version := r'.version + 1 } := by
  have hkind : (entryOf call.input call.at_ credited).decision = .approve := happrove
  refine ⟨?_, ?_, ?_, ?_, ?_⟩
  · dsimp only
    rw [h.governed]
  · dsimp only
    rw [h.version, List.length_append, List.length_singleton, add_assoc]
  · dsimp only
    rw [approvals_append, if_pos hkind, h.approvals, List.length_append, List.length_singleton,
      add_assoc]
  · intro d hd
    rcases List.mem_append.mp hd with hd | hd
    · exact (h.actors d hd).imp_right fun ⟨c, hc, hactor⟩ =>
        ⟨c, List.mem_append_left _ hc, hactor⟩
    · rw [List.mem_singleton.mp hd]
      exact .inr ⟨call, by simp, rfl⟩
  · intro q hq
    have hentry : (entryOf call.input call.at_ credited).decision = .approve ∧
        (entryOf call.input call.at_ credited).creditedPermission = some q.permission ↔
          q.permission ∈ call.held :=
      ⟨fun hboth => (hcredit q hq).mp hboth.2, fun hheld => ⟨hkind, (hcredit q hq).mpr hheld⟩⟩
    dsimp only
    rw [creditedCount_append, h.credits q hq, List.countP_append, List.countP_singleton, add_assoc]
    simp only [hentry, decide_eq_true_eq]

/-- The next approver's approval succeeds. -/
theorem Progress.advance (h : Progress r calls r') (hpending : r'.status = .PENDING)
    (hcall : Suitable other r calls call) :
    ∃ r'', applyStep other r' call.step = .ok r'' ∧ Progress r (calls ++ [call]) r'' ∧
      (r''.status = .APPROVED ∨ r''.status = .PENDING) := by
  obtain ⟨credited, hcredit, hone⟩ := exists_credit h hcall
  have hgoverned := h.governed
  have hdecided : Decided other r' call.input call.at_ credited
      { r' with
        decisions := r'.decisions ++ [entryOf call.input call.at_ credited]
        status := statusAfter r' call.input.decision
          (r'.decisions ++ [entryOf call.input call.at_ credited])
        version := r'.version + 1 } := by
    refine ⟨?_, hpending, ?_, ?_, ?_, ?_, hcredit, rfl⟩
    · rw [h.version]
      exact hcall.version
    · rw [hgoverned]
      exact hcall.unexpired
    · rw [hgoverned]
      exact hcall.target
    · rw [hgoverned]
      exact hcall.duties
    · intro d hd heq
      obtain hd | ⟨c, hc, hactor⟩ := h.actors d hd
      · exact hcall.undecided d hd heq
      · exact hcall.distinct c hc (hactor.symm.trans heq)
  refine ⟨_, decideApproval_of hdecided, h.snoc hcall.approve hone, ?_⟩
  dsimp only
  unfold statusAfter
  rw [hcall.approve, if_neg (by decide)]
  split_ifs
  · exact .inl rfl
  · exact .inr rfl

/-- Listed approvers, as many as are still needed at most, make their approvals one by one. -/
theorem exists_progress {steps : List Step} (h0 : Proposed r0) (hrun : Run other r0 steps r)
    (hpending : r.status = .PENDING) (h : Listed other r calls)
    (hle : approvals r.decisions + calls.length ≤ r.requiredApprovals) :
    ∃ r', Run other r (calls.map DecideCall.step) r' ∧ Progress r calls r' ∧
      r'.status =
        if approvals r.decisions + calls.length = r.requiredApprovals then .APPROVED
        else .PENDING := by
  induction h with
  | nil =>
    have hshort := mt (approvals_of_approved h0 hrun).mpr (by rw [hpending]; decide)
    refine ⟨r, .nil, .refl r, ?_⟩
    rw [if_neg (by simpa using hshort), hpending]
  | @snoc calls call _ hcall ih =>
    rw [List.length_append, List.length_singleton] at hle
    obtain ⟨r', hrun', hprogress, hstatus⟩ := ih (by omega)
    rw [if_neg (by omega)] at hstatus
    obtain ⟨r'', hstep, hprogress', hstatus'⟩ := hprogress.advance hstatus hcall
    have hrun'' : Run other r ((calls ++ [call]).map DecideCall.step) r'' := by
      rw [List.map_append]
      exact hrun'.snoc hstep
    refine ⟨r'', hrun'', hprogress', ?_⟩
    have happroved := approvals_of_approved h0 (hrun.append hrun'')
    rw [hprogress'.approvals, show r''.requiredApprovals = r.requiredApprovals by
      rw [hprogress'.governed]] at happroved
    split_ifs with hlast
    · exact happroved.mpr hlast
    · exact hstatus'.resolve_left fun hs => hlast (happroved.mp hs)

theorem Listed.take (h : Listed other r calls) (n : ℕ) : Listed other r (calls.take n) := by
  induction h generalizing n with
  | nil => rw [List.take_nil]; exact .nil
  | @snoc calls call h hcall ih =>
    rcases le_or_gt n calls.length with hle | hlt
    · rw [List.take_append_of_le_length hle]
      exact ih n
    · rw [List.take_of_length_le (by rw [List.length_append, List.length_singleton]; omega)]
      exact h.snoc hcall

end Progress

/-- From every pending request that a run of successful steps reaches, approvals of listed
approvers, as many as are still needed, all succeed, and the last alone approves; no run with fewer
steps approves. -/
theorem pending_approval_completes {input : ProposeApprovalInput} {now : Option Instant}
    {r0 r : ApprovalRequest} {steps : List Step}
    (hp : proposeApproval secondsAfter input now = .ok r0) (hrun : Run other r0 steps r)
    (hpending : r.status = .PENDING) :
    (∀ calls, Listed other r calls →
      calls.length = r.requiredApprovals - approvals r.decisions →
      ∀ n ≤ calls.length, ∃ r', Run other r ((calls.take n).map DecideCall.step) r' ∧
        r'.status = if n = calls.length then .APPROVED else .PENDING) ∧
    ∀ steps' r', Run other r steps' r' → r'.status = .APPROVED →
      r.requiredApprovals - approvals r.decisions ≤ steps'.length := by
  have h0 := proposeApproval_ok hp
  refine ⟨fun calls hlisted hlength n hn => ?_, fun steps' r' hrun' happroved => ?_⟩
  · have hshort := ((core_run h0 hrun).shape.of_pending hpending).2
    have htake : (calls.take n).length = n := List.length_take_of_le hn
    obtain ⟨r', hrun', -, hstatus⟩ := exists_progress h0 hrun hpending (hlisted.take n) (by omega)
    refine ⟨r', hrun', ?_⟩
    rw [hstatus, htake]
    exact if_congr (by omega) rfl rfl
  · obtain ⟨hle, hrequired⟩ := approvals_le_of_run hrun'
    have hreached := (approvals_of_approved h0 (hrun.append hrun')).mp happroved
    omega

/-- The two approvers of the sample request. -/
def sampleApprovers : List DecideCall :=
  [⟨sampleDecision "product" "pricing:rate_card:activate" (.ofNat 1 Js.one_safe),
      ⟨1790244246000, by decide⟩⟩,
    ⟨sampleDecision "finance" "billing:invoice:finalize" (.ofNat 2 two_safe),
      ⟨1790244247000, by decide⟩⟩]

/-- They complete it. -/
theorem pending_approval_completes_sample : ∃ r',
    Run (fun _ => none) sampleRequest (sampleApprovers.map DecideCall.step) r' ∧
      r'.status = .APPROVED := by
  have hproposed : proposeApproval sampleHour sampleInput (sampleTime 0) = .ok sampleRequest := by
    decide +kernel
  have hfirst : Suitable (fun _ => none) sampleRequest [] (sampleApprovers.get ⟨0, by decide⟩) :=
    ⟨rfl, by decide +kernel, by decide +kernel, by decide +kernel, by decide, by decide,
      by decide, fun _ => ⟨_, List.mem_cons_self, by decide, by decide, by decide⟩⟩
  have hsecond : Suitable (fun _ => none) sampleRequest [sampleApprovers.get ⟨0, by decide⟩]
      (sampleApprovers.get ⟨1, by decide⟩) :=
    ⟨rfl, by decide +kernel, by decide +kernel, by decide +kernel, by decide, by decide,
      by decide, fun _ => ⟨⟨"billing:invoice:finalize", 1⟩, by decide, by decide, by decide,
        by decide⟩⟩
  exact (pending_approval_completes hproposed .nil rfl).1 sampleApprovers
    ((Listed.nil.snoc hfirst).snoc hsecond) (by decide) 2 (by decide)

end Sintius.Approval
