import Mathlib
import Sintius.Lib.JsonValue
import Sintius.Lib.Text
import Sintius.Lib.Transaction
import Sintius.Lib.Utf16
import Sintius.Spec.Problem
import Sintius.Spec.TenantContext
import Sintius.Spec.Authentication
import Sintius.Spec.Canonical
import Sintius.Spec.Idempotency
import Sintius.Spec.Tenant
import Sintius.Spec.Authorization
import Sintius.Spec.TenantAuthorizer
import Sintius.Spec.FoundationProof
import Sintius.Spec.Ingress
import Sintius.Spec.Server

/-! The tenant route of `apps/api/src/http/server.ts`, as `composition/postgres.ts` puts it
together: from the credential of a request to the proof that its tenant records, and to
the response. -/

namespace Sintius.Api

open Js Js.Date Sintius.Canonical Sintius.Tenancy Sintius.Identity Sintius.Idempotency
  Sintius.FoundationProof Sql

def FOUNDATION_PROOF_PERMISSION : String := "foundation:proof:execute"

/-- A request for `/v1/foundation/proofs`; the body is absent where nothing was sent. -/
structure ProofRequest extends RequestHeaders where
  activeTenant : HeaderValue
  body : Option JsonValue

/-- What such a request meets besides: the states of tenants, the roles of actors, one more fresh
identifier. -/
structure ProofArrival extends Arrival where
  tenantStates : TenantStates
  loadAssignedRoles : TenantId → ActorId → Except Failure (List RoleSnapshot)
  newProofRecordId : String

/-- The schema of a field: `{ type: "string", minLength: 1, maxLength: 200, pattern: "\\S" }` -/
def nonBlankField : JsonValue → Option String
  | .string text =>
    if 1 ≤ text.length ∧ text.length ≤ 200 ∧ Js.nonBlank text = true then some text else none
  | _ => none

/-- The label of a body that the schema of the route accepts: it has no other property. -/
def proofLabel : Option JsonValue → Option String
  | some (.object members) =>
    if members.all (fun member => member.1 == "label") = true then
      (members.lookup "label").bind nonBlankField
    else none
  | _ => none

/-- The provider and the audience of the tenant API. -/
structure TenantApi where
  providerId : String
  audience : String

section Language

variable (other : String → Option ℤ) (api : TenantApi)

/-- `createBearerAuthenticator(…).authenticate` -/
def authenticateTenant (request : ProofRequest) (arrival : ProofArrival) :
    Except Failure AuthenticatedPrincipal := do
  let correlationId := (traceOf request.toRequestHeaders arrival.toArrival).correlationId
  let rawCredential ← bearerCredential request.authorization.singleHeader correlationId
  authenticateInteractive other arrival.authentication
    ⟨api.providerId, rawCredential, api.audience, correlationId⟩

/-- What `resolveTenant` sees of a request whose credential was accepted. -/
def tenantRequest (principal : AuthenticatedPrincipal) (request : ProofRequest)
    (arrival : ProofArrival) : TenantRequest :=
  let trace := traceOf request.toRequestHeaders arrival.toArrival
  { principal := principal
    activeTenant := request.activeTenant
    body := request.body
    correlationId := trace.correlationId
    causationId := trace.causationId }

/-- The authorizer of the composed application; it has no constraints. -/
def ProofArrival.authorizer (arrival : ProofArrival) : TenantAuthorizer where
  loadAssignedRoles := arrival.loadAssignedRoles
  constraintsFor := none

def ProofArrival.environment (arrival : ProofArrival) (context : TenantContext) :
    ProofEnvironment where
  permitted := assertPermission arrival.authorizer context FOUNDATION_PROOF_PERMISSION
    fun _ => none
  now := arrival.now
  executorNow := arrival.executorNow
  recordedAt := arrival.recordedAt
  newProofRecordId := arrival.newProofRecordId
  newEventId := arrival.newEventId
  newAuditId := arrival.newAuditId

/-- The command up to its transaction. -/
def proofCall (context : TenantContext) (label : String) (idempotencyKey : Option Text)
    (env : ProofEnvironment) : Except Failure ProofCall :=
  match h : prepareProof context label env with
  | .ok prepared => .ok ⟨context, label, idempotencyKey, env, prepared, h⟩
  | .error e => .error e

/-- The hooks and the handler of the route, up to the transaction of the command. -/
def acceptProof (request : ProofRequest) (arrival : ProofArrival) : Except Failure ProofCall := do
  let principal ← authenticateTenant other api request arrival
  let context ← (resolveTenant other arrival.tenantStates (tenantRequest principal request arrival)
    arrival.dateNow).result
  match proofLabel request.body with
  | none => fail .request_validation_failed "The request does not match the endpoint contract."
  | some label =>
    proofCall context label (request.idempotencyKey.singleHeader.map units)
      (arrival.environment context)

/-- A request that comes to the transaction of its command. -/
structure AcceptedProof where
  request : ProofRequest
  arrival : ProofArrival
  call : ProofCall
  accepted : acceptProof other api request arrival = .ok call

end Language

variable {other : String → Option ℤ} {api : TenantApi}

def AcceptedProof.trace (call : AcceptedProof other api) : ResolvedTraceIds :=
  traceOf call.request.toRequestHeaders call.arrival.toArrival

def serveProof (dependencies : CommandDependencies) (call : AcceptedProof other api) :
    StoreTx ProofDb Empty IdempotentResult :=
  recordProof dependencies call.call

structure ProofResponse where
  status : ℕ
  body : FoundationProofResult
deriving DecidableEq

def respondProof (call : AcceptedProof other api) (result : IdempotentResult) :
    Except Failure ProofResponse := do
  let result ← resultFrom result.response call.trace.correlationId
  .ok ⟨201, result⟩

end Sintius.Api
