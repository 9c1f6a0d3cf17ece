import Mathlib
import Sintius.Lib.Utf16
import Sintius.Spec.Problem
import Sintius.Spec.TenantContext
import Sintius.Spec.Canonical
import Sintius.Spec.AuditRecorder
import Sintius.Spec.Redaction

/-! `platform/audit/src/policy.ts`: the allow-lists of snapshot fields, and the recorder
that works with one and with the platform's redactor. -/

namespace Sintius.Audit

open Js Sintius.Canonical

end Sintius.Audit
