import Mathlib
import Sintius.Lib.Date
import Sintius.Lib.NumberText
import Sintius.Lib.Utf16
import Sintius.Spec.Redaction
import Sintius.Spec.Uuid7

/-! The error boundary: `mapErrorToProblemResponse` turns what was thrown into a response,
and hands evidence of it to an internal sink. A thrown value can be any value, and an access
to an object can run code of the object: an access that throws is none. -/

namespace Sintius.Boundary

open Js Js.Date Redaction

/-- A value that is copied, or compared with undefined. -/
inductive Value where
  | undefined
  | null
  | number (n : ℤ)
  | string (text : Text)
  | other (name : ℕ)
deriving DecidableEq

/-- What `redactSensitiveText` is called with: a string, or a value with what its own
`replace`, `length` and `slice` make of it. -/
inductive Redactable where
  | string (text : Text)
  | other (outcome : Option Value)

def redact : Redactable → Option Value
  | .string text => some (.string (redactSensitiveText text))
  | .other outcome => outcome

/-- The accesses to `known`, and to `details` where it is `known`, one by one. -/
structure Details where
  correlation_id : Option Value
  /-- `known.status >= 500` -/
  isServerProblem : Option Bool
  responseCode : Option Value
  type : Option Value
  title : Option Value
  status : Option Value
  code : Option Value
  detail : Option Value
  errors : Option Value
  errorsAgain : Option Value
  statusAgain : Option Value

/-- `error.problem` -/
inductive Known where
  | undefined
  | null
  | details (d : Details)

/-- `error.retryAfterSeconds`, with `String(retryAfterSeconds)`. -/
inductive RetryAfter where
  | undefined
  | seconds (text : Option Text)

/-- The accesses to a thrown object, one by one. -/
structure ThrownObject where
  /-- `error instanceof PlatformProblem` -/
  isProblem : Option Bool
  problem : Option Known
  isProblemAgain : Option Bool
  retryAfterSeconds : Option RetryAfter
  /-- `error instanceof Error` -/
  isError : Option Bool
  name : Option Value
  message : Option Redactable
  /-- `error.stack !== undefined` -/
  hasStack : Option Bool
  stack : Option Redactable
  typeof : Text
  /-- `String(error)` -/
  text : Option Text

/-- What is thrown; a primitive always has a text. -/
inductive Thrown where
  | primitive (typeof text : Text)
  | object (o : ThrownObject)

structure Evidence where
  name : Value
  message : Value
  stack : Option Value

def describeThrown : Thrown → Option Evidence
  | .primitive typeof text =>
    some ⟨.string typeof, .string (redactSensitiveText text), none⟩
  | .object o => do
    if ← o.isError then
      let name ← o.name
      let message ← redact (← o.message)
      if ← o.hasStack then
        let stack ← redact (← o.stack)
        return ⟨name, message, some stack⟩
      else
        return ⟨name, message, none⟩
    else
      return ⟨.string o.typeof, .string (redactSensitiveText (← o.text)), none⟩

/-- Trusted identifiers; undefined where they are left out. -/
structure ProblemBoundaryContext where
  correlationId : Value
  causationId : Value
  route : Value

def TRACE_ID_PATTERN : Text → Bool
  | [] => false
  | c :: text => (isLetter c || isDigit c) && text.length ≤ 127 &&
      text.all fun c => isLetter c || isDigit c || among "._:-" c

/-- A valid identifier is a string of the pattern. -/
def isValidTraceId : Value → Option Text
  | .string text => if TRACE_ID_PATTERN text then some text else none
  | _ => none

/-- What `randomUUID` returns. -/
structure RandomUuid where
  text : Text
  length_eq : text.length = 36
  mem : ∀ c ∈ text, Id.isLowerHex c = true ∨ c = 0x2d

def sampleUuid : Text := ascii "00000000-0000-4000-8000-000000000000"

theorem length_sampleUuid : sampleUuid.length = 36 := by decide +kernel

theorem mem_sampleUuid : ∀ c ∈ sampleUuid, Id.isLowerHex c = true ∨ c = 0x2d := by
  simp [sampleUuid, ascii, Id.isLowerHex]

instance : Inhabited RandomUuid := ⟨⟨sampleUuid, length_sampleUuid, mem_sampleUuid⟩⟩

def newTraceId (uuid : RandomUuid) : Text := ascii "corr_" ++ uuid.text

def pickCorrelationId (uuid : RandomUuid) (context : ProblemBoundaryContext) (carried : Value) :
    Text :=
  match isValidTraceId context.correlationId with
  | some correlationId => correlationId
  | none => (isValidTraceId carried).getD (newTraceId uuid)

inductive UnexpectedErrorReason where
  | unhandled_exception
  | server_problem
deriving DecidableEq

structure UnexpectedErrorReport where
  reason : UnexpectedErrorReason
  occurredAt : String
  correlationId : Text
  causationId : Value
  route : Value
  responseCode : Value
  errorName : Value
  errorMessage : Value
  stack : Option Value

/-- A sink has a state of its own; none where it throws. -/
def UnexpectedErrorSink (σ : Type) : Type := UnexpectedErrorReport → σ → Option Unit × σ

/-- Telemetry failure never changes the response. -/
def safelyRecord {σ : Type} (sink : Option (UnexpectedErrorSink σ))
    (report : UnexpectedErrorReport) (s : σ) : σ :=
  match sink with
  | none => s
  | some record =>
    match record report s with
    | (some (), s') => s'
    | (none, s') => s'

def PROBLEM_CONTENT_TYPE : Text := ascii "application/problem+json"

def CORRELATION_ID_HEADER : Text := ascii "x-correlation-id"

structure ProblemDetails where
  type : Value
  title : Value
  status : Value
  code : Value
  detail : Value
  correlation_id : Text
  errors : Option Value
deriving DecidableEq

structure ProblemResponse where
  status : Value
  headers : List (Text × Text)
  body : ProblemDetails
deriving DecidableEq

def Known.correlation_id : Known → Option Value
  | .undefined => some .undefined
  | .null => some .undefined
  | .details d => d.correlation_id

/-- `problem({ code: "internal_error", detail: … }).problem` -/
def internalError : Details where
  correlation_id := some .undefined
  isServerProblem := some true
  responseCode := some (.string (ascii "internal_error"))
  type := some (.string (ascii "https://errors.sintius.example/internal_error"))
  title := some (.string (ascii "Internal error"))
  status := some (.number 500)
  code := some (.string (ascii "internal_error"))
  detail := some (.string (ascii
    "An unexpected error occurred. Quote the correlation ID when contacting support."))
  errors := some .undefined
  errorsAgain := some .undefined
  statusAgain := some (.number 500)

/-- `known ?? problem({ … }).problem` -/
def Known.orInternal : Known → Details
  | .undefined => internalError
  | .null => internalError
  | .details d => d

/-- `known === undefined || known.status >= 500`; the second part has no answer for null. -/
def Known.isUnexpected : Known → Option Bool
  | .undefined => some true
  | .null => none
  | .details d => d.isServerProblem

def Known.reason : Known → UnexpectedErrorReason
  | .undefined => .unhandled_exception
  | _ => .server_problem

/-- `error instanceof PlatformProblem ? error.problem : undefined` -/
def readKnown : Thrown → Option Known
  | .primitive _ _ => some .undefined
  | .object o => do if ← o.isProblem then o.problem else return .undefined

/-- `error instanceof PlatformProblem ? error.retryAfterSeconds : undefined` -/
def readRetryAfter : Thrown → Option RetryAfter
  | .primitive _ _ => some .undefined
  | .object o => do if ← o.isProblemAgain then o.retryAfterSeconds else return .undefined

def retryHeader : RetryAfter → Option (List (Text × Text))
  | .undefined => some []
  | .seconds text => do return [(ascii "retry-after", ← text)]

/-- `details.errors === undefined ? {} : { errors: details.errors }` -/
def copyErrors (details : Details) : Option (Option Value) := do
  if (← details.errors) = .undefined then return none else some <$> details.errorsAgain

/-- The body, field by field, and the headers. -/
def respond (details : Details) (correlationId : Text) (retryAfterSeconds : RetryAfter) :
    Option ProblemResponse := do
  let type ← details.type
  let title ← details.title
  let status ← details.status
  let code ← details.code
  let detail ← details.detail
  let errors ← copyErrors details
  let responseStatus ← details.statusAgain
  let retry ← retryHeader retryAfterSeconds
  return {
    status := responseStatus
    headers := [(ascii "content-type", PROBLEM_CONTENT_TYPE),
      (CORRELATION_ID_HEADER, correlationId)] ++ retry
    body := { type, title, status, code, detail, correlation_id := correlationId, errors } }

/-- The response and the sink afterwards; none where the boundary throws. The clock is none
where it throws or its date is invalid. -/
def mapErrorToProblemResponse {σ : Type} (uuid : RandomUuid) (error : Thrown)
    (context : ProblemBoundaryContext) (sink : Option (UnexpectedErrorSink σ))
    (clock : Option Instant) (s : σ) : Option (ProblemResponse × σ) := do
  let known ← readKnown error
  let retryAfterSeconds ← readRetryAfter error
  let correlationId := pickCorrelationId uuid context (← known.correlation_id)
  let details := known.orInternal
  let s ← if ← known.isUnexpected then do
      let evidence ← describeThrown error
      let occurredAt ← clock
      let responseCode ← details.responseCode
      pure (safelyRecord sink
        { reason := known.reason
          occurredAt := toISOString occurredAt
          correlationId
          causationId := context.causationId
          route := context.route
          responseCode
          errorName := evidence.name
          errorMessage := evidence.message
          stack := evidence.stack } s)
    else pure s
  return (← respond details correlationId retryAfterSeconds, s)

/-- The value of the operation, or the response; none where the boundary throws. -/
def runAtProblemBoundary {σ α : Type} (uuid : RandomUuid) (context : ProblemBoundaryContext)
    (operation : Except Thrown α) (sink : Option (UnexpectedErrorSink σ))
    (clock : Option Instant) (s : σ) : Option (Except ProblemResponse α × σ) :=
  match operation with
  | .ok value => some (.ok value, s)
  | .error error => do
    let (response, s) ← mapErrorToProblemResponse uuid error context sink clock s
    return (.error response, s)

end Sintius.Boundary
