import Mathlib
import Sintius.Lib.Date
import Sintius.Lib.Double
import Sintius.Lib.Json
import Sintius.Lib.Transaction
import Sintius.Lib.Utf16
import Sintius.Spec.Problem
import Sintius.Spec.TenantContext
import Sintius.Spec.Canonical

/-! `platform/idempotency`: the executor and its PostgreSQL store. Scopes, keys and
hashes are texts of code units; instants are milliseconds, as their ISO texts name
them. The claim, the protected command and the stored response are one
transaction. -/

namespace Sintius.Idempotency

open Js Sintius.Canonical Sintius.Tenancy Sql

def isLower (c : CodeUnit) : Bool := 0x61 ≤ c.val && c.val ≤ 0x7a

def isUpper (c : CodeUnit) : Bool := 0x41 ≤ c.val && c.val ≤ 0x5a

def toLowerUnit (c : CodeUnit) : CodeUnit := if isUpper c then c + 0x20 else c

/-- `toLowerCase` on ASCII. -/
def toLowerCase (s : Text) : Text := s.map toLowerUnit

def isHexDigit (c : CodeUnit) : Bool :=
  isDigit c || (0x61 ≤ c.val && c.val ≤ 0x66) || (0x41 ≤ c.val && c.val ≤ 0x46)

def isHyphen (c : CodeUnit) : Bool := c == 0x2d

def isUuidVersion (c : CodeUnit) : Bool := 0x31 ≤ c.val && c.val ≤ 0x38

def isUuidVariant (c : CodeUnit) : Bool :=
  c == 0x38 || c == 0x39 || c == 0x61 || c == 0x62 || c == 0x41 || c == 0x42

/-- The classes of `KEY_PATTERN`, code unit by code unit. -/
def keyClasses : List (CodeUnit → Bool) :=
  List.replicate 8 isHexDigit ++ [isHyphen] ++ List.replicate 4 isHexDigit ++ [isHyphen] ++
    [isUuidVersion] ++ List.replicate 3 isHexDigit ++ [isHyphen] ++
    [isUuidVariant] ++ List.replicate 3 isHexDigit ++ [isHyphen] ++ List.replicate 12 isHexDigit

def KEY_PATTERN (key : Text) : Bool :=
  key.length == keyClasses.length && (List.zipWith (fun p c => p c) keyClasses key).all id

def isScopeUnit (c : CodeUnit) : Bool :=
  isLower c || isDigit c || c == 0x5f || c == 0x2e || c == 0x3a || c == 0x2d

def SCOPE_PATTERN : Text → Bool
  | [] => false
  | first :: rest => isLower first && rest.length ≤ 63 && rest.all isScopeUnit

section TenantIdentity

variable {Ref : Type} [DecidableEq Ref]

def MAX_SCAN_DEPTH : ℕ := 16

/-- Only ASCII letters have the letters of `tenantid` as their lower case. -/
def normalizeKey (key : Text) : Text :=
  (toLowerCase key).filter fun c => c != 0x5f && c != 0x2d

/-- `some`, with the objects seen so far. -/
def someOf {α : Type} (visit : α → List Ref → Bool × List Ref) :
    List α → List Ref → Bool × List Ref
  | [], seen => (false, seen)
  | a :: as, seen =>
    match visit a seen with
    | (true, seen) => (true, seen)
    | (false, seen) => someOf visit as seen

def visitEntry (visit : Value Ref → List Ref → Bool × List Ref) (value : Text → Value Ref)
    (key : Text) (seen : List Ref) : Bool × List Ref :=
  if normalizeKey key = ascii "tenantid" then (true, seen) else visit (value key) seen

def visitShape (visit : Value Ref → List Ref → Bool × List Ref) :
    Shape (Value Ref) → List Ref → Bool × List Ref
  | .array items, seen => someOf visit (items.filterMap id) seen
  | .plain keys value, seen => someOf (visitEntry visit value) keys.names seen
  | .other keys value, seen => someOf (visitEntry visit value) keys.names seen

/-- `visit`, with so many levels before the depth exceeds `MAX_SCAN_DEPTH`. -/
def visitAt (heap : Heap Ref) : ℕ → Value Ref → List Ref → Bool × List Ref
  | 0, .object _, seen => (true, seen)
  | 0, .reference _, seen => (true, seen)
  | left + 1, .object shape, seen => visitShape (visitAt heap left) shape seen
  | left + 1, .reference r, seen =>
    if r ∈ seen then (false, seen) else visitShape (visitAt heap left) (heap r) (r :: seen)
  | _, _, seen => (false, seen)

def containsTenantIdentity (heap : Heap Ref) (input : Value Ref) : Bool :=
  (visitAt heap (MAX_SCAN_DEPTH + 1) input []).1

def assertNoTenantIdentity (heap : Heap Ref) (input : Value Ref) (correlationId : String) :
    Except Failure Unit :=
  refuseIf (containsTenantIdentity heap input = true) .untrusted_tenant_context
    "Tenant identity must not be supplied in a command payload." correlationId

end TenantIdentity

inductive IdempotencyStatus where
  | processing
  | completed
deriving DecidableEq, Repr

/-- A response, its body as the JSON value it is. -/
structure StoredResponse where
  status : ℤ
  body : Json

/-- The primary key of `idempotency_record`. -/
structure RecordKey where
  tenant_id : TenantId
  command_scope : Text
  idempotency_key : Text
deriving DecidableEq

structure IdempotencyRecord where
  requestHash : Text
  status : IdempotencyStatus
  response : Option StoredResponse
  createdAt : ℤ
  expiresAt : ℤ

/-- The records, and everything that protected commands write. -/
structure Store (E : Type) where
  records : RecordKey → Option IdempotencyRecord
  effects : E

variable {E K Ref : Type}

def Store.setRecord (key : RecordKey) (record : IdempotencyRecord) (d : Store E) : Store E :=
  { d with records := Function.update d.records key (some record) }

def Store.mapEffects (f : E → E) (d : Store E) : Store E := { d with effects := f d.effects }

structure ClaimInput where
  tenantId : TenantId
  scope : Text
  key : Text
  requestHash : Text
  now : ℤ
  expiresAt : ℤ
deriving DecidableEq

def ClaimInput.recordKey (input : ClaimInput) : RecordKey := ⟨input.tenantId, input.scope, input.key⟩

inductive ClaimResult where
  | claimed
  | existing (tenantId : TenantId) (record : IdempotencyRecord)
  | in_progress (retryAfterSeconds : ℕ)

/-- The row that a claim writes. -/
def ClaimInput.processing (input : ClaimInput) : IdempotencyRecord where
  requestHash := input.requestHash
  status := .processing
  response := none
  createdAt := input.now
  expiresAt := input.expiresAt

/-- The CHECK constraints a claim can violate. -/
def recordChecks (key : RecordKey) (record : IdempotencyRecord) : Bool :=
  key.command_scope.any (· != 0x20) && 16 ≤ key.idempotency_key.length &&
    key.idempotency_key.length ≤ 128 && record.requestHash.length == 64 &&
    record.createdAt < record.expiresAt

def violated : Failure := .error "new row violates check constraint"

/-- `INSERT … ON CONFLICT DO NOTHING`, with its row count. It waits for a transaction that holds
the key, and holds it once it has inserted. -/
def insertClaim (input : ClaimInput) : Statement Failure (Store E) (RecordKey ⊕ K) ℕ := fun _ d =>
  match d.records input.recordKey with
  | some _ => .ok ⟨0, id, none⟩
  | none =>
    if recordChecks input.recordKey input.processing then
      .ok ⟨1, Store.setRecord input.recordKey input.processing, some (.inl input.recordKey)⟩
    else .error violated

/-- `UPDATE … WHERE expires_at <= $5`, with its row count. -/
def replaceExpired (input : ClaimInput) : Statement Failure (Store E) (RecordKey ⊕ K) ℕ :=
  fun _ d =>
    match d.records input.recordKey with
    | none => .ok ⟨0, id, none⟩
    | some record =>
      if record.expiresAt ≤ input.now then
        if recordChecks input.recordKey input.processing then
          .ok ⟨1, Store.setRecord input.recordKey input.processing, some (.inl input.recordKey)⟩
        else .error violated
      else .ok ⟨0, id, none⟩

def selectRecord (key : RecordKey) :
    Statement Failure (Store E) (RecordKey ⊕ K) (Option IdempotencyRecord) := fun _ d =>
  .ok ⟨d.records key, id, none⟩

/-- `UPDATE … WHERE status = 'processing'`, with its row count. -/
def updateCompleted (key : RecordKey) (response : StoredResponse) :
    Statement Failure (Store E) (RecordKey ⊕ K) ℕ := fun _ d =>
  match d.records key with
  | none => .ok ⟨0, id, none⟩
  | some record =>
    if record.status = .processing then
      .ok ⟨1, Store.setRecord key { record with status := .completed, response := some response },
        some (.inl key)⟩
    else .ok ⟨0, id, none⟩

def assertTenant (actual expected : TenantId) : Except Failure Unit :=
  throwIf (actual ≠ expected) .tenant_context_mismatch
    "The idempotency record does not belong to the bound tenant."

/-- Programs of the store. -/
abbrev StoreTx (E K A : Type) := Tx Failure (Store E) (RecordKey ⊕ K) A

def claim (boundTenantId : TenantId) (input : ClaimInput) : StoreTx E K ClaimResult := do
  Tx.lift (assertTenant input.tenantId boundTenantId)
  let inserted ← Tx.query (insertClaim input) Tx.done
  if inserted = 1 then return .claimed
  let replaced ← Tx.query (replaceExpired input) Tx.done
  if replaced = 1 then return .claimed
  let existing ← Tx.query (selectRecord input.recordKey) Tx.done
  match existing with
  | none =>
    Tx.throw (.error "Idempotency claim conflicted but no tenant-visible record exists.")
  | some record => do
    Tx.lift (assertTenant input.tenantId boundTenantId)
    return .existing input.tenantId record

def complete (boundTenantId : TenantId) (input : ClaimInput) (response : StoredResponse) :
    StoreTx E K Unit := do
  Tx.lift (assertTenant input.tenantId boundTenantId)
  let completed ← Tx.query (updateCompleted input.recordKey response) Tx.done
  if completed ≠ 1 then
    Tx.throw (.error "Idempotency completion requires one processing claim in the same transaction.")

structure IdempotentRequest (Ref : Type) where
  scope : Text
  key : Option Text
  payload : Value Ref

structure TrustedExecutionScope where
  tenantId : TenantId
  correlationId : String
deriving DecidableEq, Repr

structure IdempotentResult where
  response : StoredResponse
  replayed : Bool

/-- What the protected command returns, its body a value of the language. -/
structure WorkResponse (Ref : Type) where
  status : Number
  heap : Heap Ref
  body : Value Ref

structure ExecutorDependencies where
  sha256 : Sha256
  /-- `new Date(now.valueOf() + retentionSeconds * 1000)`; none if it is invalid. -/
  expiresAt : Js.Date.Instant → Option Js.Date.Instant

def DEFAULT_RETENTION_SECONDS : ℤ := 7 * 24 * 3600

def expiresAtAfter (retentionSeconds : ℤ) (now : Js.Date.Instant) : Option Js.Date.Instant :=
  Js.Date.timeClip (now.1 + retentionSeconds * 1000)

/-- One call of the executor: the trusted scope, the request, how `authorize` ends, what the clock
shows (none for an invalid date) and the work. -/
structure Call (E K Ref : Type) : Type 1 where
  context : TrustedExecutionScope
  heap : Heap Ref
  request : IdempotentRequest Ref
  authorize : Except Failure Unit
  now : Option Js.Date.Instant
  work : Tx Failure E K (WorkResponse Ref)

variable [DecidableEq Ref]

def requireKey (key : Option Text) (correlation_id : String) : Except Failure Text :=
  match key with
  | some (c :: cs) => .ok (c :: cs)
  | _ => refuse .idempotency_key_required "This operation requires an Idempotency-Key header."
      correlation_id

/-- `executeUntraced` up to the transaction. -/
def prepare (dependencies : ExecutorDependencies) (call : Call E K Ref) :
    Except Failure ClaimInput := do
  let correlation_id := call.context.correlationId
  refuseIf (SCOPE_PATTERN call.request.scope = false) .invalid_trusted_context
    "Idempotency scope is not a valid command name." correlation_id
  let rawKey ← requireKey call.request.key correlation_id
  refuseIf (KEY_PATTERN rawKey = false) .idempotency_key_invalid
    "Idempotency-Key must be a UUID, for example 8f14e45f-ceea-467f-a0e6-1c2d3e4f5a6b."
    correlation_id
  assertNoTenantIdentity call.heap call.request.payload correlation_id
  let requestHash ← canonicalRequestHash dependencies.sha256 call.heap call.request.scope
    call.request.payload
  call.authorize
  match call.now with
  | none => .error (.error "RangeError: Invalid time value")
  | some now =>
    match dependencies.expiresAt now with
    | none => .error (.error "RangeError: Invalid time value")
    | some expiresAt =>
      .ok
        { tenantId := call.context.tenantId
          scope := call.request.scope
          key := toLowerCase rawKey
          requestHash := requestHash
          now := now.1
          expiresAt := expiresAt.1 }

/-- The status of a created resource is a safe integer. -/
theorem created_safe : 201 < 2 ^ 53 := by norm_num

def checkStatus (status : Number) (correlation_id : String) : Except Failure ℤ :=
  match status.integer? with
  | none => refuse .invalid_trusted_context "Stored response status must be an HTTP status code."
      correlation_id
  | some status =>
    if status < 100 ∨ 599 < status then
      refuse .invalid_trusted_context "Stored response status must be an HTTP status code."
        correlation_id
    else .ok status

def reusedWithDifferentPayload (correlation_id : String) : Failure :=
  .problem
    { code := .idempotency_key_reused_with_different_payload
      detail := "This Idempotency-Key was already used with a different request."
      correlation_id := some correlation_id }

def inProgress (detail correlation_id : String) (retryAfterSeconds : ℕ) : Failure :=
  .problem
    { code := .request_in_progress
      detail := detail
      correlation_id := some correlation_id
      retryAfterSeconds := some retryAfterSeconds }

/-- An existing record is replayed to the request that it was made for. -/
def replay (context : TrustedExecutionScope) (requestHash : Text) (tenantId : TenantId)
    (record : IdempotencyRecord) : Except Failure IdempotentResult := do
  refuseIf (tenantId ≠ context.tenantId) .tenant_context_mismatch
    "The idempotency store returned a record from another tenant." context.correlationId
  if record.requestHash ≠ requestHash then
    .error (reusedWithDifferentPayload context.correlationId)
  else
    match record.status, record.response with
    | .completed, some response => .ok ⟨response, true⟩
    | _, _ => .error (inProgress "A request with this key is still being processed."
        context.correlationId 1)

/-- What is stored of a response. -/
def storedResponse (context : TrustedExecutionScope) (response : WorkResponse Ref) :
    Except Failure StoredResponse := do
  let status ← checkStatus response.status context.correlationId
  let _ ← canonicalJson response.heap response.body
  .ok ⟨status, (stringify response.heap response.body).getD .null⟩

/-- The body of `runInTransaction`. -/
def executeClaimed (context : TrustedExecutionScope) (input : ClaimInput)
    (work : Tx Failure E K (WorkResponse Ref)) : StoreTx E K IdempotentResult := do
  let result ← claim context.tenantId input
  match result with
  | .in_progress retryAfterSeconds =>
    Tx.throw (inProgress s!"A request with this key is still being processed. Retry after {retryAfterSeconds} seconds."
      context.correlationId retryAfterSeconds)
  | .existing tenantId record => Tx.lift (replay context input.requestHash tenantId record)
  | .claimed => do
    let response ← work.zoom Store.effects Store.mapEffects Sum.inr
    let stored ← Tx.lift (storedResponse context response)
    complete context.tenantId input stored
    return ⟨stored, false⟩

def executeUntraced (dependencies : ExecutorDependencies) (call : Call E K Ref) :
    StoreTx E K IdempotentResult :=
  match prepare dependencies call with
  | .error e => .throw e
  | .ok input => executeClaimed call.context input call.work

end Sintius.Idempotency
