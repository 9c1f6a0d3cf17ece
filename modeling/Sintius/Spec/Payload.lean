import Mathlib
import Sintius.Lib.Date
import Sintius.Lib.Double
import Sintius.Lib.Utf16
import Sintius.Spec.Problem
import Sintius.Spec.Canonical
import Sintius.Spec.Queue
import Sintius.Spec.TenantContext
import Sintius.Spec.EventEnvelope
import Sintius.Spec.Idempotency

/-! Two more gates that a payload passes: `defineTenantCommand` of
`platform/tenant-context/src/command.ts`, and `buildEventEnvelopeFor` of
`platform/event-envelope` with event data of any shape. -/

namespace Sintius.Payload

open Js Js.Date Sintius.Canonical Sintius.Tenancy Sintius.Outbox Sintius.Idempotency

variable {Ref : Type}

/-- What `defineTenantCommand` returns; `current` is what `currentTenantContext` gives. -/
def defineTenantCommand [DecidableEq Ref] {Result : Type} (heap : Heap Ref)
    (handler : TenantContext → Value Ref → Except Failure Result)
    (current : Except Failure TenantContext) (input : Value Ref) : Except Failure Result := do
  let context ← current
  assertNoTenantIdentity heap input context.correlationId
  handler context input

/-- A problem whose detail names a path, and so may quote the keys of the data. -/
structure DataProblem where
  code : ProblemCode
  detail : Text
  correlation_id : Option String := none
deriving DecidableEq

def invalidData {α : Type} (path : Text) (rest : String) : Except DataProblem α :=
  .error
    { code := .invalid_trusted_context
      detail := ascii "Event data at " ++ path ++ ascii rest }

/-- The members of an object or array with their paths; `forEach` passes over holes. -/
def members (path : Text) : Shape (Value Ref) → List (Value Ref × Text)
  | .array items => items.zipIdx.filterMap fun (item, index) =>
      item.map fun value => (value, path ++ ascii "[" ++ ascii (toString index) ++ ascii "]")
  | .plain keys value => keys.names.map fun key => (value key, path ++ ascii "." ++ key)
  | .other _ _ => []

def assertShape (visit : Value Ref → Text → Except DataProblem Unit) (path : Text)
    (shape : Shape (Value Ref)) : Except DataProblem Unit :=
  match shape with
  | .other _ _ => invalidData path " must be a plain object."
  | _ => (members path shape).forM fun member => visit member.1 member.2

/-- `assertJsonCompatible`, with so many levels before the depth exceeds 16. -/
def assertJsonCompatible (heap : Heap Ref) : ℕ → Value Ref → Text → Except DataProblem Unit
  | 0, _, path => invalidData path " is nested too deeply."
  | left + 1, value, path =>
    match value with
    | .null => .ok ()
    | .string _ => .ok ()
    | .bool _ => .ok ()
    | .number (.finite _) => .ok ()
    | .number _ => invalidData path " must be a finite number."
    | .object shape => assertShape (assertJsonCompatible heap left) path shape
    | .reference r => assertShape (assertJsonCompatible heap left) path (heap r)
    | .undefined => invalidData path " is not JSON compatible."
    | .bigint _ => invalidData path " is not JSON compatible."
    | .symbol => invalidData path " is not JSON compatible."
    | .function => invalidData path " is not JSON compatible."

/-- The object or array that a value is. -/
def shapeOf (heap : Heap Ref) : Value Ref → Option (Shape (Value Ref))
  | .object shape => some shape
  | .reference r => some (heap r)
  | _ => none

/-- `typeof data === "object" && data !== null && !Array.isArray(data)` -/
def isRecord (heap : Heap Ref) (data : Value Ref) : Bool :=
  match shapeOf heap data with
  | some (.array _) => false
  | some _ => true
  | none => false

/-- The checks of `input.data`. -/
def checkData [DecidableEq Ref] (heap : Heap Ref) (data : Value Ref) (correlationId : String) :
    Except DataProblem Unit := do
  if isRecord heap data = false then
    .error
      { code := .invalid_trusted_context
        detail := ascii "Event data must be an object." }
  assertJsonCompatible heap 17 data (ascii "data")
  if containsTenantIdentity heap data = true then
    .error
      { code := .tenant_context_mismatch
        detail := ascii "Event data must not restate tenant identity; the envelope carries the trusted tenant."
        correlation_id := some correlationId }

def EVENT_DATA_CLASSIFICATIONS : List String :=
  ["RESTRICTED_FINANCIAL", "CONFIDENTIAL_BUSINESS", "INTERNAL_OPERATIONAL", "PUBLIC"]

/-- `/^[a-z][a-z0-9-]{0,63}$/` -/
def SOURCE_CONTEXT_PATTERN (sourceContext : String) : Bool :=
  match sourceContext.toList with
  | [] => false
  | first :: rest =>
    ('a' ≤ first && first ≤ 'z') && rest.length ≤ 63 &&
      rest.all fun c => ('a' ≤ c && c ≤ 'z') || c.isDigit || c == '-'

/-- The fields of `BuildEventInput` that decide; the version is any number. -/
structure EventInput (Ref : Type) where
  eventType : String
  sourceContext : String
  aggregateType : String
  aggregateId : String
  aggregateVersion : Number
  occurredAt : Option Instant
  classification : String
  data : Value Ref

/-- `Number.isInteger(version) && version >= 1`, with the integer. -/
def checkVersion (version : Number) : Except Failure ℕ :=
  match version.integer? with
  | some n =>
    if 1 ≤ n then .ok n.toNat
    else fail .invalid_trusted_context "Aggregate version must be an integer of at least 1."
  | none => fail .invalid_trusted_context "Aggregate version must be an integer of at least 1."

/-- The checks of `buildEventEnvelopeFor` before those of the data. -/
def checkEvent (input : EventInput Ref) : Except Failure ℕ := do
  throwIf (EVENT_TYPE_PATTERN input.eventType = false) .invalid_trusted_context
    "Event type must match <context>.<fact>.v<N>."
  throwIf (SOURCE_CONTEXT_PATTERN input.sourceContext = false) .invalid_trusted_context
    "Source context must be a lowercase bounded-context name."
  throwIf (input.classification ∉ EVENT_DATA_CLASSIFICATIONS) .invalid_trusted_context
    "Event data classification is not recognized."
  let version ← checkVersion input.aggregateVersion
  let _ ← requireNonBlank input.aggregateType "aggregateType"
  let _ ← requireNonBlank input.aggregateId "aggregateId"
  .ok version

/-- The checks after those of the data. -/
def checkRecording (input : EventInput Ref) (newEventId : String) (recorded : Option Instant) :
    Except Failure (String × Instant) := do
  let (_, recorded) ← checkTimestamps input.occurredAt recorded
    "Event timestamps must be valid instants." "An event cannot occur after it is recorded."
  let id ← requireNonBlank newEventId "event id"
  .ok (id, recorded)

/-- `buildEventEnvelopeFor`, with data of any shape. -/
def buildEventEnvelopeFor [DecidableEq Ref] (heap : Heap Ref) (context : EventScope)
    (input : EventInput Ref) (newEventId : String) (recorded : Option Instant) :
    Except (Failure ⊕ DataProblem) (EventEnvelope (Value Ref)) := do
  let version ← (checkEvent input).mapError .inl
  (checkData heap input.data context.correlationId).mapError .inr
  let (id, recorded) ← (checkRecording input newEventId recorded).mapError .inl
  .ok
    { id := id
      type := "com.subrevos." ++ input.eventType
      tenant_id := context.tenantId
      aggregate_type := input.aggregateType
      aggregate_id := input.aggregateId
      aggregate_version := version
      correlation_id := context.correlationId
      causation_id := context.causationId
      recorded_at := timestamp recorded
      data := input.data }

end Sintius.Payload
