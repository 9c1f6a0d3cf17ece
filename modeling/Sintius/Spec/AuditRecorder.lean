import Mathlib
import Sintius.Lib.Date
import Sintius.Lib.Double
import Sintius.Lib.Text
import Sintius.Lib.Utf16
import Sintius.Spec.Problem
import Sintius.Spec.TenantContext
import Sintius.Spec.Canonical
import Sintius.Spec.EventEnvelope

/-! `platform/audit/src/recorder.ts` and `policy.ts`: audit evidence from a trusted
scope, with allow-listed snapshots. The redactor of free text is a parameter. -/

namespace Sintius.Audit

open Js Js.Date Sintius.Canonical Sintius.Tenancy Sintius.Outbox

/-- The fields of a snapshot before redaction. -/
abbrev Fields := List (Text × SnapshotValue)

structure AuditRecordInput where
  action : Text
  targetType : String
  targetId : String
  reason : Option String
  approvalId : Option String
  before : Option Fields
  after : Option Fields
  occurredAt : Option Instant

structure AuditRecorder where
  /-- `policy.allowedFields` -/
  allowedFields : String → Option Keys
  redactSensitiveText : Text → Text
  sha256 : Sha256

def isWordUnit (c : CodeUnit) : Bool :=
  (0x61 ≤ c.val && c.val ≤ 0x7a) || (0x30 ≤ c.val && c.val ≤ 0x39) || c == 0x5f

def isActionPart : Text → Bool
  | [] => false
  | first :: rest => 0x61 ≤ first.val && first.val ≤ 0x7a && rest.all isWordUnit

/-- `/^[a-z][a-z0-9_]*(\.[a-z][a-z0-9_]*)+$/` -/
def ACTION_PATTERN (action : Text) : Bool :=
  let parts := action.splitOn 0x2e
  2 ≤ parts.length && parts.all isActionPart

def MAX_REASON_LENGTH : ℕ := 500

/-- What a snapshot keeps of a value: strings are redacted, numbers that are not finite dropped. -/
def safeValue (redact : Text → Text) : SnapshotValue → Option SnapshotValue
  | .null => some .null
  | .bool b => some (.bool b)
  | .string s => some (.string (redact s))
  | .number (.finite d) => some (.number (.finite d))
  | .number _ => none

def toSafeSnapshot (recorder : AuditRecorder) (targetType : String) (value : Option Fields) :
    Except Failure (Option AuditSnapshot) :=
  match value with
  | none => .ok none
  | some fields =>
    match recorder.allowedFields targetType with
    | none => fail .audit_policy_missing
        s!"No audit policy is registered for target type \"{targetType}\"."
    | some allowed =>
      let kept := fun field => (fields.lookup field).bind (safeValue recorder.redactSensitiveText)
      .ok (some
        { keys := ⟨allowed.names.filter fun field => (kept field).isSome, allowed.nodup.filter _⟩
          value := fun field => (kept field).getD .null })

def auditActorKind : PrincipalKind → AuditActorKind
  | .interactive => .interactive
  | .workload => .workload

/-- The event that `recordForScope` appends, with what `newId` and the clock give. -/
def recordForScope (recorder : AuditRecorder) (scope : EventScope) (input : AuditRecordInput)
    (newId : String) (recorded : Option Instant) : Except Failure AuditEvent := do
  refuseIf (ACTION_PATTERN input.action = false) .audit_event_invalid
    "Audit action must be a lowercase dotted name." scope.correlationId
  refuseIf (nonBlank input.targetType = false ∨ nonBlank input.targetId = false)
    .audit_event_invalid "Audit target type and id are required." scope.correlationId
  let (occurred, recorded) ← checkTimestamps input.occurredAt recorded
    "Audit timestamps must be valid instants." "An audit event cannot occur after it is recorded."
  let before ← toSafeSnapshot recorder input.targetType input.before
  let after ← toSafeSnapshot recorder input.targetType input.after
  let unsealed : UnsealedAuditEvent :=
    { auditEventId := units newId
      tenantId := units scope.tenantId
      occurredAt := units (toISOString occurred)
      recordedAt := units (toISOString recorded)
      actorId := units scope.actorId
      actorKind := auditActorKind scope.principalKind
      action := input.action
      targetType := units input.targetType
      targetId := units input.targetId
      reason := (input.reason.filter nonBlank).map fun reason =>
        (recorder.redactSensitiveText (units (trim reason))).take MAX_REASON_LENGTH
      correlationId := units scope.correlationId
      causationId := scope.causationId.map units
      approvalId := input.approvalId.map units
      before := before
      after := after }
  let evidenceHash ← computeEvidenceHash recorder.sha256 unsealed
  .ok { unsealed with evidenceHash := evidenceHash }

end Sintius.Audit
