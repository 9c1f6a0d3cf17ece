import Mathlib
import Sintius.Lib.Digits
import Sintius.Lib.Double
import Sintius.Lib.Json
import Sintius.Lib.Text
import Sintius.Lib.Transaction
import Sintius.Lib.Uri
import Sintius.Lib.Utf16
import Sintius.Spec.Problem
import Sintius.Spec.TenantContext
import Sintius.Spec.Authentication
import Sintius.Spec.Canonical
import Sintius.Spec.Idempotency
import Sintius.Spec.Tenant
import Sintius.Spec.Roles
import Sintius.Spec.Boundary
import Sintius.Spec.Ingress

/-! `apps/api/src/http`: the platform's tenant routes, from the headers of a request to
the command that it runs, and from what the command stored to the response. The
framework has found the route and checked the body against its schema. -/

namespace Sintius.Api

open Js Js.Date Sintius.Tenancy Sintius.Identity Sintius.Idempotency

/-! ### Credentials -/

def isCredentialChar (c : Char) : Bool := c.isAlphanum || "-._~+/".toList.contains c

def isBlankChar (c : Char) : Bool := c == ' ' || c == '\t'

/-- `/^Bearer[ \t]+([A-Za-z0-9\-._~+/]+=*)[ \t]*$/i`, with its group. -/
def BEARER (text : List Char) : Option String :=
  let credential := (text.drop 6).dropWhile isBlankChar
  let padded := credential.dropWhile isCredentialChar
  let token := credential.takeWhile isCredentialChar
  if (text.take 6).map Char.toLower = "bearer".toList ∧
      (text.drop 6).head?.any isBlankChar = true ∧ token ≠ [] ∧
      (padded.dropWhile (· == '=')).all isBlankChar = true then
    some (String.ofList (token ++ padded.takeWhile (· == '=')))
  else none

def MAX_CREDENTIAL_LENGTH : ℕ := 16 * 1024

def bearerCredential (authorization : Option String) (correlationId : String) :
    Except Failure String :=
  let credential := authorization.bind fun text =>
    if MAX_CREDENTIAL_LENGTH < (units text).length then none else BEARER text.toList
  match credential with
  | some credential => .ok credential
  | none => refuse .authentication_failed "Authentication is required." correlationId

/-! ### Trace identifiers -/

structure ResolvedTraceIds where
  correlationId : String
  causationId : Option String
deriving DecidableEq, Repr

def isValidTraceId (value : String) : Bool := Boundary.TRACE_ID_PATTERN (units value)

/-- `generated` is what `newTraceId` would return. -/
def resolveTraceIds (correlationId causationId : Option String) (generated : String) :
    ResolvedTraceIds where
  correlationId := (correlationId.filter isValidTraceId).getD generated
  causationId := causationId.filter isValidTraceId

/-! ### Requests -/

inductive PlatformRoute where
  | provision (tenant_id display_name initial_administrator_actor_id : String)
  | lifecycle (command : LifecycleCommand) (tenantId : String) (reason : Option String)
deriving DecidableEq, Repr

def PlatformRoute.tenantId : PlatformRoute → String
  | .provision tenant_id _ _ => tenant_id
  | .lifecycle _ tenantId _ => tenantId

/-- The headers that are read on every route. -/
structure RequestHeaders where
  authorization : HeaderValue
  correlationId : HeaderValue
  causationId : HeaderValue
  idempotencyKey : HeaderValue

/-- A request for a platform route. -/
structure PlatformRequest extends RequestHeaders where
  route : PlatformRoute
  ifMatch : HeaderValue

/-- What a request meets: two fresh trace identifiers, the identity provider's answers, clocks and
fresh identifiers. -/
structure Arrival where
  requestId : String
  correlationId : String
  authentication : AuthenticationDependencies
  dateNow : ℤ
  now : Option Instant
  executorNow : Option Instant
  recordedAt : Option Instant
  newEventId : String
  newAuditId : String

/-- `genReqId`, and the `onRequest` hook on what it returns. -/
def traceOf (headers : RequestHeaders) (arrival : Arrival) : ResolvedTraceIds :=
  let id := (resolveTraceIds headers.correlationId.singleHeader none
    arrival.requestId).correlationId
  resolveTraceIds (some id) headers.causationId.singleHeader arrival.correlationId

/-- `/^(?:W\/)?"([1-9][0-9]{0,15})"$/`, with its group. -/
def IF_MATCH (text : List Char) : Option (List Char) :=
  match (match text with | 'W' :: '/' :: text => text | text => text) with
  | '"' :: first :: rest =>
    let digits := first :: rest.takeWhile Char.isDigit
    if first.isDigit = true ∧ first ≠ '0' ∧ digits.length ≤ 16 ∧
        rest.dropWhile Char.isDigit = ['"'] then some digits
    else none
  | _ => none

/-- From `2 ^ 53` on the doubles are even; the nearer one, or the one with the even mantissa. -/
def evenHalf (n : ℕ) : ℕ := if n % 4 = 3 then n / 2 + 1 else n / 2

theorem evenCode_lt {n : ℕ} (h : n < 2 ^ 54) :
    1076 * 2 ^ 52 + (evenHalf n - 2 ^ 52) < 2047 * 2 ^ 52 := by
  have hhalf : evenHalf n ≤ 2 ^ 53 := by
    unfold evenHalf
    split_ifs <;> omega
  omega

/-- `Number(digits)` of an integer with at most sixteen digits. -/
def numberOfDigits (n : ℕ) : Number :=
  if h : n < 2 ^ 53 then .ofNat n h
  else if h : n < 2 ^ 54 then
    .finite ⟨false, 1076 * 2 ^ 52 + (evenHalf n - 2 ^ 52), evenCode_lt h⟩
  else .nan

def expectedVersionOf (ifMatch : Option String) : Except Failure Number :=
  match ifMatch.bind fun header => IF_MATCH (trim header).toList with
  | some digits => .ok (numberOfDigits (Digits.value digits))
  | none => .error (.problem
      { code := .request_validation_failed
        detail := "Lifecycle commands require If-Match with the current tenant version, for example If-Match: \"1\"."
        errors := some [⟨"/headers/if-match", "required", "Send the current ETag."⟩] })

section Language

variable (other : String → Option ℤ) (providerId : String)

/-- `createPlatformBearerAuthenticator(…).authenticate` -/
def authenticate (request : PlatformRequest) (arrival : Arrival) :
    Except Failure AuthenticatedPrincipal := do
  let correlationId := (traceOf request.toRequestHeaders arrival).correlationId
  let rawCredential ← bearerCredential request.authorization.singleHeader correlationId
  authenticatePlatformOperator other arrival.authentication
    ⟨providerId, rawCredential, correlationId⟩

def platformContext (principal : AuthenticatedPrincipal) (request : PlatformRequest)
    (arrival : Arrival) : Except Failure PlatformCommandContext :=
  let trace := traceOf request.toRequestHeaders arrival
  resolvePlatformCommandContext other ⟨principal, trace.correlationId, trace.causationId⟩
    arrival.dateNow

/-- What the command is given; its `authorize` asks the platform authorizer. -/
def Arrival.environment (arrival : Arrival) (context : PlatformCommandContext)
    (permission : String) : CommandEnvironment where
  authorized := assertAllowed context permission
  now := arrival.now
  executorNow := arrival.executorNow
  recordedAt := arrival.recordedAt
  newEventId := arrival.newEventId
  newAuditId := arrival.newAuditId

/-- The hook and the handler of a route, up to its command. -/
def accept (request : PlatformRequest) (arrival : Arrival) : Except Failure Command := do
  let principal ← authenticate other providerId request arrival
  let idempotencyKey := request.idempotencyKey.singleHeader.map units
  match request.route with
  | .provision tenant_id display_name initial_administrator_actor_id => do
    let context ← platformContext other principal request arrival
    .ok (.provision context ⟨tenant_id, display_name, initial_administrator_actor_id⟩
      idempotencyKey (arrival.environment context "platform:tenant:provision"))
  | .lifecycle command tenantId reason => do
    let expectedVersion ← expectedVersionOf request.ifMatch.singleHeader
    let context ← platformContext other principal request arrival
    .ok (.lifecycle command context ⟨tenantId, expectedVersion, reason⟩ idempotencyKey
      (arrival.environment context "platform:tenant:lifecycle"))

/-- A request that comes to its command. -/
structure Accepted where
  request : PlatformRequest
  arrival : Arrival
  command : Command
  accepted : accept other providerId request arrival = .ok command

variable {other providerId} in
def Accepted.trace (call : Accepted other providerId) : ResolvedTraceIds :=
  traceOf call.request.toRequestHeaders call.arrival

/-- What runs on the database: the commands of requests, and changes of roles. -/
inductive ServerCall where
  | platform (call : Accepted other providerId)
  | role (kind : RoleChange) (context : TenantContext) (input : RoleAssignmentInput)
      (env : RoleEnvironment)

end Language

section Responses

variable {other : String → Option ℤ} {providerId : String}

def ServerCall.command : ServerCall other providerId → Command
  | .platform call => call.command
  | .role kind context input env => .role kind context input env

def serve (dependencies : CommandDependencies) (call : ServerCall other providerId) :
    StoreTx IdentityDb RowLock Reply :=
  program dependencies call.command

/-! ### Responses -/

structure TenantRepresentation where
  id : Text
  displayName : Text
  state : TenantState
  version : ℤ
  createdAt : Text
  updatedAt : Text
deriving DecidableEq

def stateOfText (text : Text) : Option TenantState :=
  [TenantOperationalState.PROVISIONING, .ACTIVE, .SUSPENDED, .CLOSED].find? fun state =>
    ascii (stateText state) == text

/-- The members of a stored body, where their types are right. -/
def readTenant (body : Json) : Option TenantRepresentation :=
  match body with
  | .object value =>
    match value (ascii "id"), value (ascii "display_name"), value (ascii "state"),
        value (ascii "version"), value (ascii "created_at"), value (ascii "updated_at") with
    | some (.string id), some (.string displayName), some (.string state), some (.number version),
        some (.string createdAt), some (.string updatedAt) =>
      if version.isInt = true then
        (stateOfText state).map fun state =>
          ⟨id, displayName, state, version.num, createdAt, updatedAt⟩
      else none
    | _, _, _, _, _, _ => none
  | _ => none

def tenantFromStored (response : StoredResponse) (expectedTenantId correlationId : String) :
    Except Failure TenantRepresentation :=
  match (readTenant response.body).filter (·.id = units expectedTenantId) with
  | none => refuse .invalid_trusted_context "Stored tenant response is invalid." correlationId
  | some tenant => do
    let _ ← tenantId expectedTenantId
    .ok tenant

/-- `"${tenant.version}"` in quotes; an integer below `10 ^ 21` is written with its digits. -/
def etag (version : ℤ) : String := "\"" ++ toString version ++ "\""

structure HttpResponse where
  status : ℕ
  etag : String
  location : Option Text
  body : TenantRepresentation
deriving DecidableEq

def respond (call : Accepted other providerId) (result : IdempotentResult) :
    Except Failure HttpResponse := do
  let tenant ← tenantFromStored result.response call.request.route.tenantId
    call.trace.correlationId
  match call.request.route with
  | .provision _ _ _ =>
    match encodeURIComponent tenant.id with
    | none => .error (.error "URIError: URI malformed")
    | some id =>
      .ok ⟨201, etag tenant.version, some (ascii "/v1/platform/tenants/" ++ id), tenant⟩
  | .lifecycle _ _ _ => .ok ⟨200, etag tenant.version, none, tenant⟩

/-- A stale `If-Match` is a failed precondition, not a generic conflict. -/
def lifecycleFailure : Failure → Failure
  | .problem p =>
    if p.code = .tenant_version_conflict then
      .problem
        { code := .precondition_failed
          detail := "The tenant changed since the supplied If-Match version. Re-read it and retry." }
    else .problem p
  | .error message => .error message

/-- How a request ends, once its command has. -/
def answer (call : Accepted other providerId) (outcome : Except Failure IdempotentResult) :
    Except Failure HttpResponse :=
  match call.request.route with
  | .provision _ _ _ => outcome >>= respond call
  | .lifecycle _ _ _ => (outcome >>= respond call).mapError lifecycleFailure

end Responses

end Sintius.Api
