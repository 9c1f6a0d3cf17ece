import Mathlib.Data.Nat.Notation
import Mathlib.Tactic.Common

/-! Problems: the platform's one error value. A problem names a code of the
registered catalogue and carries the text its caller reads. -/

namespace Sintius

/-- `keyof typeof PROBLEM_CATALOG`, in catalogue order. -/
inductive ProblemCode where
  | invalid_trusted_context
  | request_validation_failed
  | resource_not_found
  | precondition_failed
  | authentication_failed
  | authentication_assurance_insufficient
  | workload_scope_denied
  | untrusted_tenant_context
  | tenant_access_denied
  | tenant_not_active
  | invalid_timestamp
  | tenant_display_name_required
  | tenant_version_conflict
  | invalid_tenant_transition
  | platform_access_denied
  | tenant_not_found
  | tenant_already_exists
  | tenant_reason_required
  | permission_denied
  | unknown_permission
  | role_not_found
  | role_assignment_exists
  | role_assignment_not_found
  | separation_of_duties_violation
  | approval_policy_not_found
  | approval_not_found
  | approval_not_pending
  | approval_expired
  | approval_version_conflict
  | approval_target_mismatch
  | approval_approver_not_eligible
  | last_administrator_protected
  | idempotency_key_required
  | idempotency_key_invalid
  | idempotency_key_reused_with_different_payload
  | request_in_progress
  | dead_letter_not_resolvable
  | dead_letter_reason_required
  | audit_policy_missing
  | audit_event_invalid
  | tenant_context_missing
  | tenant_context_mismatch
  | invalid_decimal
  | calculation_rejected
  | unsupported_currency
  | currency_mismatch
  | internal_error
deriving DecidableEq, Repr

/-- Field-level validation detail; `path` is a JSON Pointer into the rejected request. -/
structure ProblemFieldError where
  path : String
  code : String
  message : String
deriving DecidableEq, Repr

/-- The fields of `ProblemDetails` the modelled callers set. Title, status and
type are functions of the code. -/
structure Problem where
  code : ProblemCode
  detail : String
  correlation_id : Option String := none
  errors : Option (List ProblemFieldError) := none
  retryAfterSeconds : Option ℕ := none
deriving DecidableEq, Repr

/-- What a command can throw: a problem, or a plain `Error` raised by an adapter
or by code that is not modelled. -/
inductive Failure where
  | problem (p : Problem)
  | error (message : String)
deriving DecidableEq, Repr

/-- `throw problem({ code, detail })` -/
def fail {α : Type} (code : ProblemCode) (detail : String) : Except Failure α :=
  .error (.problem { code := code, detail := detail })

/-- `if (condition) throw problem({ code, detail })` -/
def throwIf (condition : Prop) [Decidable condition] (code : ProblemCode) (detail : String) :
    Except Failure Unit :=
  if condition then fail code detail else .ok ()

theorem throwIf_eq_ok_iff {condition : Prop} [Decidable condition] {code : ProblemCode}
    {detail : String} {u : Unit} : throwIf condition code detail = .ok u ↔ ¬ condition := by
  unfold throwIf fail
  split_ifs with h <;> simp [h]

@[simp] theorem fail_ne_ok {α : Type} {code : ProblemCode} {detail : String} {a : α} :
    fail code detail ≠ .ok a := by
  intro h
  cases h

end Sintius
