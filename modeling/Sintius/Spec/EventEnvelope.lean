import Mathlib
import Sintius.Lib.Date
import Sintius.Lib.Text
import Sintius.Spec.Problem
import Sintius.Spec.Queue
import Sintius.Spec.TenantContext

/-! `platform/event-envelope`: envelopes stamped from a trusted scope. The data of
the modelled producers are plain objects with fixed keys, so that the checks of the
data itself always pass. -/

namespace Sintius.Outbox

open Js.Date Sintius.Tenancy

/-- The trusted identity that events and audit evidence are stamped with. -/
structure EventScope where
  tenantId : TenantId
  actorId : ActorId
  principalKind : PrincipalKind
  correlationId : String
  causationId : Option String
deriving DecidableEq, Repr

def eventScopeFromContext (context : TenantContext) : EventScope where
  tenantId := context.tenantId
  actorId := context.actorId
  principalKind := context.principalKind
  correlationId := context.correlationId
  causationId := context.causationId

def eventScopeForPlatformCommand (context : PlatformCommandContext) (targetTenantId : TenantId) :
    Except Failure EventScope := do
  assertIssuedPlatformContext context
  .ok
    { tenantId := targetTenantId
      actorId := context.actorId
      principalKind := context.principalKind
      correlationId := context.correlationId
      causationId := context.causationId }

structure BuildEventInput (Data : Type) where
  eventType : String
  aggregateType : String
  aggregateId : String
  aggregateVersion : ℕ
  occurredAt : Option Instant
  data : Data

def isFactChar (c : Char) : Bool := ('a' ≤ c && c ≤ 'z') || c == '_'

/-- `/^[a-z_]+\.[a-z_]+\.v[0-9]+$/` -/
def EVENT_TYPE_PATTERN (eventType : String) : Bool :=
  match eventType.toList.splitOn '.' with
  | [scope, fact, 'v' :: digits] =>
    !scope.isEmpty && scope.all isFactChar && !fact.isEmpty && fact.all isFactChar &&
      !digits.isEmpty && digits.all Char.isDigit
  | _ => false

/-- A timestamp of the database, from an instant. -/
def timestamp (t : Instant) : Time := t.1 * 1000

/-- Instants that are valid, the first not after the second. -/
def checkTimestamps (occurred recorded : Option Instant) (invalid late : String) :
    Except Failure (Instant × Instant) :=
  match occurred, recorded with
  | some occurred, some recorded =>
    if recorded.1 < occurred.1 then fail .invalid_timestamp late else .ok (occurred, recorded)
  | _, _ => fail .invalid_timestamp invalid

variable {Data : Type}

/-- `buildEventEnvelopeFor`, with what `newEventId` and the clock give. -/
def buildEventEnvelopeFor (context : EventScope) (input : BuildEventInput Data)
    (newEventId : String) (recorded : Option Instant) : Except Failure (EventEnvelope Data) := do
  throwIf (EVENT_TYPE_PATTERN input.eventType = false) .invalid_trusted_context
    "Event type must match <context>.<fact>.v<N>."
  throwIf (input.aggregateVersion < 1) .invalid_trusted_context
    "Aggregate version must be an integer of at least 1."
  let aggregateType ← requireNonBlank input.aggregateType "aggregateType"
  let aggregateId ← requireNonBlank input.aggregateId "aggregateId"
  let (_, recorded) ← checkTimestamps input.occurredAt recorded
    "Event timestamps must be valid instants." "An event cannot occur after it is recorded."
  let id ← requireNonBlank newEventId "event id"
  .ok
    { id := id
      type := "com.subrevos." ++ input.eventType
      tenant_id := context.tenantId
      aggregate_type := aggregateType
      aggregate_id := aggregateId
      aggregate_version := input.aggregateVersion
      correlation_id := context.correlationId
      causation_id := context.causationId
      recorded_at := timestamp recorded
      data := input.data }

end Sintius.Outbox
