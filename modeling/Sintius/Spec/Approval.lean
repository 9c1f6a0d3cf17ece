import Mathlib
import Sintius.Lib.Date
import Sintius.Lib.Double
import Sintius.Lib.Text
import Sintius.Spec.Problem

/-! `modules/audit-governance/domain/approval.ts`: the maker-checker aggregate.
Numbers a caller supplies are JavaScript numbers; the ones the aggregate has
checked are naturals. Two operations of the language are parameters: what
`Date.parse` does with a string that is not a `toISOString` text, and the double
sum in `new Date(created.valueOf() + seconds * 1000)`. -/

namespace Sintius.Approval

open Js.Date

abbrev ActorId := String
abbrev TenantId := String

inductive ApprovalStatus where
  | PENDING
  | APPROVED
  | REJECTED
  | EXPIRED
  | CANCELLED
deriving DecidableEq, Repr

inductive ApprovalDecisionKind where
  | approve
  | reject
deriving DecidableEq, Repr

/-- A requirement as a policy states it. -/
structure StatedRequirement where
  permission : String
  count : Js.Number
deriving DecidableEq

/-- A requirement as a request keeps it. -/
structure ApproverRequirement where
  permission : String
  count : ℕ
deriving DecidableEq, Repr

structure ApprovalPolicy where
  tenantId : TenantId
  actionType : String
  requiredApprovals : Js.Number
  separationOfDuties : Bool
  expiresAfterSeconds : Js.Number
  approverRequirements : Option (List StatedRequirement)
deriving DecidableEq

structure ApprovalDecision where
  actorId : ActorId
  decision : ApprovalDecisionKind
  decidedAt : String
  reason : Option String
  creditedPermission : Option String
deriving DecidableEq, Repr

structure ApprovalRequest where
  id : String
  tenantId : TenantId
  actionType : String
  targetType : String
  targetId : String
  targetVersion : ℕ
  makerId : ActorId
  requiredApprovals : ℕ
  separationOfDuties : Bool
  approverRequirements : List ApproverRequirement
  status : ApprovalStatus
  decisions : List ApprovalDecision
  version : ℕ
  createdAt : String
  expiresAt : String
deriving DecidableEq, Repr

structure ApprovalTarget where
  actionType : String
  targetType : String
  targetId : String
  targetVersion : Js.Number
deriving DecidableEq

structure ProposeApprovalInput extends ApprovalTarget where
  id : String
  policy : ApprovalPolicy
  makerId : ActorId
deriving DecidableEq

structure DecideApprovalInput where
  approverId : ActorId
  decision : ApprovalDecisionKind
  expectedVersion : Js.Number
  target : ApprovalTarget
  reason : Option String
  approverPermissions : Option (List String)
deriving DecidableEq

def requireNonBlank (value field : String) : Except Failure Unit :=
  throwIf (Js.nonBlank value = false) .invalid_trusted_context s!"{field} must not be blank."

def instant (value : Option Instant) : Except Failure Instant :=
  match value with
  | some t => .ok t
  | none => fail .invalid_timestamp "Approval commands require a valid instant."

/-- `Number.isInteger(value) && value >= 1`, with the value. -/
def positiveInteger? (value : Js.Number) : Option ℕ :=
  value.integer?.bind fun n => if 1 ≤ n then some n.toNat else none

/-- `if (!Number.isInteger(value) || value < 1) throw ...` -/
def requirePositive (value : Js.Number) (detail : String) : Except Failure ℕ :=
  match positiveInteger? value with
  | some n => .ok n
  | none => fail .invalid_trusted_context detail

/-- `value === n` for a stored count. -/
def sameNumber (value : Js.Number) (n : ℕ) : Bool := value.integer? == some (n : ℤ)

def assertPending (request : ApprovalRequest) (expectedVersion : Js.Number) : Except Failure Unit := do
  throwIf (sameNumber expectedVersion request.version = false) .approval_version_conflict
    "The approval request changed after this command was prepared."
  throwIf (request.status ≠ .PENDING) .approval_not_pending
    "The approval request has already been settled."

/-- The accepted requirement of a stated one, if it is well formed. -/
def acceptedRequirement (requirement : StatedRequirement) : Option ApproverRequirement :=
  if Js.nonBlank requirement.permission then
    (positiveInteger? requirement.count).map fun count => ⟨requirement.permission, count⟩
  else none

/-- The policy's requirements: distinct permissions, each well formed. -/
def acceptedRequirements (requirements : List StatedRequirement) :
    Except Failure (List ApproverRequirement) :=
  let permissions := (requirements.map (·.permission)).dedup
  let accepted := requirements.mapM acceptedRequirement
  match accepted with
  | some accepted =>
    if permissions.length = requirements.length then .ok accepted
    else fail .invalid_trusted_context "Approval policy approver requirements are invalid."
  | none => fail .invalid_trusted_context "Approval policy approver requirements are invalid."

/-- `toISOString` of a date that may be invalid. -/
def toISOString (value : Option Instant) : Except Failure String :=
  match value with
  | some t => .ok (Js.Date.toISOString t)
  | none => .error (.error "RangeError: Invalid time value")

def creditedCount (decisions : List ApprovalDecision) (permission : String) : ℕ :=
  (decisions.filter fun decision =>
    decision.decision == .approve && decision.creditedPermission == some permission).length

/-- An approval counts toward the first unmet requirement, in policy order, that the approver
qualifies for. -/
def creditFor (request : ApprovalRequest) (decision : ApprovalDecisionKind)
    (approverPermissions : List String) : Except Failure (Option String) :=
  if request.approverRequirements.isEmpty then .ok none
  else
    let eligible := request.approverRequirements.filter fun requirement =>
      approverPermissions.contains requirement.permission
    match eligible with
    | [] => fail .approval_approver_not_eligible
        "The approver does not hold a permission this approval requires."
    | first :: _ =>
      if decision = .reject then .ok (some first.permission)
      else
        match eligible.find? fun requirement =>
          creditedCount request.decisions requirement.permission < requirement.count with
        | none => fail .approval_approver_not_eligible
            "Every requirement this approver can satisfy is already met."
        | some unmet => .ok (some unmet.permission)

def isSatisfied (request : ApprovalRequest) (decisions : List ApprovalDecision) : Bool :=
  if request.approverRequirements.isEmpty then
    (decisions.filter fun item => item.decision == .approve).length ≥ request.requiredApprovals
  else
    request.approverRequirements.all fun requirement =>
      creditedCount decisions requirement.permission ≥ requirement.count

section Language

variable (other : String → Option ℤ)
variable (secondsAfter : Instant → Js.Number → Option Instant)

def proposeApproval (input : ProposeApprovalInput) (now : Option Instant) :
    Except Failure ApprovalRequest := do
  let policy := input.policy
  requireNonBlank input.id "approval id"
  requireNonBlank input.actionType "actionType"
  requireNonBlank input.targetType "targetType"
  requireNonBlank input.targetId "targetId"
  throwIf (input.actionType ≠ policy.actionType) .approval_target_mismatch
    "The request does not match the governing policy action."
  let targetVersion ← requirePositive input.targetVersion
    "targetVersion must be an integer of at least 1."
  let requiredApprovals ← requirePositive policy.requiredApprovals "Approval policy is invalid."
  throwIf (policy.expiresAfterSeconds.positive = false) .invalid_trusted_context
    "Approval policy is invalid."
  let requirements ← acceptedRequirements (policy.approverRequirements.getD [])
  let created ← instant now
  let expiresAt ← toISOString (secondsAfter created policy.expiresAfterSeconds)
  .ok
    { id := input.id
      tenantId := policy.tenantId
      actionType := input.actionType
      targetType := input.targetType
      targetId := input.targetId
      targetVersion := targetVersion
      makerId := input.makerId
      requiredApprovals :=
        if requirements.isEmpty then requiredApprovals else (requirements.map (·.count)).sum
      separationOfDuties := policy.separationOfDuties
      approverRequirements := requirements
      status := .PENDING
      decisions := []
      version := 1
      createdAt := Js.Date.toISOString created
      expiresAt := expiresAt }

/-- `a >= Date.parse(text)`; a comparison with NaN is false. -/
def atOrAfter (t : Instant) (text : String) : Bool :=
  match Js.Date.parse other text with
  | some e => e ≤ t.1
  | none => false

/-- `a < Date.parse(text)`. -/
def before (t : Instant) (text : String) : Bool :=
  match Js.Date.parse other text with
  | some e => t.1 < e
  | none => false

def targetMatches (target : ApprovalTarget) (request : ApprovalRequest) : Bool :=
  target.actionType == request.actionType && target.targetType == request.targetType &&
    target.targetId == request.targetId && sameNumber target.targetVersion request.targetVersion

def decideApproval (request : ApprovalRequest) (input : DecideApprovalInput)
    (now : Option Instant) : Except Failure ApprovalRequest := do
  assertPending request input.expectedVersion
  let decidedAt ← instant now
  throwIf (atOrAfter other decidedAt request.expiresAt) .approval_expired
    "The approval request has expired."
  throwIf (targetMatches input.target request = false) .approval_target_mismatch
    "The decision does not match the governed action, resource and version."
  throwIf (request.separationOfDuties ∧ input.approverId = request.makerId)
    .separation_of_duties_violation "A proposer cannot decide their own request."
  throwIf (∃ existing ∈ request.decisions, existing.actorId = input.approverId)
    .separation_of_duties_violation "An actor may supply only one decision per request."
  let reason := input.reason.map Js.trim
  let credited ← creditFor request input.decision (input.approverPermissions.getD [])
  let entry : ApprovalDecision :=
    { actorId := input.approverId
      decision := input.decision
      decidedAt := Js.Date.toISOString decidedAt
      reason := reason.filter fun text => text != ""
      creditedPermission := credited }
  let decisions := request.decisions ++ [entry]
  let status : ApprovalStatus :=
    if input.decision = .reject then .REJECTED
    else if isSatisfied request decisions then .APPROVED else .PENDING
  .ok { request with decisions := decisions, status := status, version := request.version + 1 }

/-- Only the maker may withdraw a still-pending request. -/
def cancelApproval (request : ApprovalRequest) (actorId : ActorId) (expectedVersion : Js.Number) :
    Except Failure ApprovalRequest := do
  assertPending request expectedVersion
  throwIf (actorId ≠ request.makerId) .permission_denied
    "Only the proposer may cancel this request."
  .ok { request with status := .CANCELLED, version := request.version + 1 }

/-- Time-driven transition applied by a sweeper. -/
def expireApproval (request : ApprovalRequest) (expectedVersion : Js.Number)
    (now : Option Instant) : Except Failure ApprovalRequest := do
  assertPending request expectedVersion
  let t ← instant now
  throwIf (before other t request.expiresAt) .approval_not_pending
    "The approval request has not yet expired."
  .ok { request with status := .EXPIRED, version := request.version + 1 }

/-- One call of a transition of the aggregate. -/
inductive Step where
  | decide (input : DecideApprovalInput) (now : Option Instant)
  | cancel (actorId : ActorId) (expectedVersion : Js.Number)
  | expire (expectedVersion : Js.Number) (now : Option Instant)

def applyStep (request : ApprovalRequest) : Step → Except Failure ApprovalRequest
  | .decide input now => decideApproval other request input now
  | .cancel actorId expectedVersion => cancelApproval request actorId expectedVersion
  | .expire expectedVersion now => expireApproval other request expectedVersion now

/-- A finite sequence of successful steps from a proposed request. -/
inductive Run (r0 : ApprovalRequest) : List Step → ApprovalRequest → Prop
  | nil : Run r0 [] r0
  | snoc {steps : List Step} {r r' : ApprovalRequest} {step : Step} :
      Run r0 steps r → applyStep other r step = .ok r' → Run r0 (steps ++ [step]) r'

end Language

end Sintius.Approval
