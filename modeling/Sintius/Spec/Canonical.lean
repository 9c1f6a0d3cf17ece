import Mathlib
import Sintius.Lib.Double
import Sintius.Lib.Json
import Sintius.Lib.NumberText
import Sintius.Lib.Utf16
import Sintius.Spec.Problem

/-! `platform/idempotency/src/canonical.ts` and `platform/audit/src/model.ts`:
deterministic JSON, the request hash and the evidence hash built on it. The
values of the language are a graph: an object is given in place, or by reference
to a heap, so that it may be shared and may contain itself. -/

namespace Sintius.Canonical

open Js

/-- Own enumerable property names, in the order of `Object.keys`. -/
structure Keys where
  names : List Text
  nodup : names.Nodup

/-- What `canonicalJson` sees of an object: an array, whose holes are `none`; an object whose
prototype is `Object.prototype` or null; or any other. -/
inductive Shape (V : Type) where
  | array (items : List (Option V))
  | plain (keys : Keys) (value : Text → V)
  | other (keys : Keys) (value : Text → V)

inductive Value (Ref : Type) where
  | undefined
  | null
  | bool (b : Bool)
  | number (n : Number)
  | string (s : Text)
  | bigint (n : ℤ)
  | symbol
  | function
  | object (shape : Shape (Value Ref))
  | reference (r : Ref)

abbrev Heap (Ref : Type) := Ref → Shape (Value Ref)

variable {Ref : Type}

def Value.isUndefined : Value Ref → Bool
  | .undefined => true
  | _ => false

/-- `item === undefined ? null : item` -/
def undefinedAsNull (item : Value Ref) : Value Ref := if item.isUndefined then .null else item

def MAX_DEPTH : ℕ := 32

def invalid {α : Type} (detail : String) : Except Failure α :=
  fail .invalid_trusted_context detail

/-- `Object.entries(value)` without the undefined properties, sorted by key. -/
def entriesOf (keys : Keys) (value : Text → Value Ref) : List (Text × Value Ref) :=
  ((keys.names.map fun key => (key, value key)).filter fun entry => !entry.2.isUndefined).mergeSort
    fun left right => left.1 ≤ right.1

/-- The object case of `canonicalJson`, with the call for the children. -/
def canonicalShape (child : Value Ref → Except Failure Text) :
    Shape (Value Ref) → Except Failure Text
  | .array items => do
    -- `map` passes over holes, and `join` writes nothing for them
    let texts ← items.mapM fun item =>
      match item with
      | none => .ok []
      | some v => child (undefinedAsNull v)
    .ok (arrayText texts)
  | .plain keys value => do
    let texts ← (entriesOf keys value).mapM fun entry => do
      let text ← child entry.2
      .ok (memberText entry.1 text)
    .ok (objectText texts)
  | .other _ _ => invalid "Request payload must contain only plain objects."

def numberCase : Number → Except Failure Text
  | .finite d => .ok (if d.negative && d.code == 0 then [0x30] else numberText d)
  | _ => invalid "Request payload contains a non-finite number."

/-- `canonicalJson` with `left` levels before the depth exceeds `MAX_DEPTH`. -/
def canonicalAt (heap : Heap Ref) : ℕ → Value Ref → Except Failure Text
  | 0, _ => invalid "Request payload is nested too deeply to canonicalize."
  | left + 1, value =>
    match value with
    | .null => .ok nullText
    | .bool b => .ok (boolText b)
    | .string s => .ok (quoteJson s)
    | .number n => numberCase n
    | .object shape => canonicalShape (canonicalAt heap left) shape
    | .reference r => canonicalShape (canonicalAt heap left) (heap r)
    | .undefined => invalid "Request payload is not JSON compatible."
    | .bigint _ => invalid "Request payload is not JSON compatible."
    | .symbol => invalid "Request payload is not JSON compatible."
    | .function => invalid "Request payload is not JSON compatible."

def canonicalJson (heap : Heap Ref) (value : Value Ref) : Except Failure Text :=
  canonicalAt heap (MAX_DEPTH + 1) value

/-- The object case of `stringifyAt`, with the call for the children. -/
def stringifyShape (child : Value Ref → Option Json) : Shape (Value Ref) → Json
  | .array items => .array (items.map fun item => (item.bind child).getD .null)
  | .plain keys value => .object fun key => if key ∈ keys.names then child (value key) else none
  | .other keys value => .object fun key => if key ∈ keys.names then child (value key) else none

/-- What `JSON.stringify` writes, as a JSON value, with so many levels left: nothing for what JSON
has no text for, which is null in an array and no member in an object. -/
def stringifyAt (heap : Heap Ref) : ℕ → Value Ref → Option Json
  | 0, _ => none
  | left + 1, value =>
    match value with
    | .null => some .null
    | .bool b => some (.bool b)
    | .string s => some (.string s)
    | .number (.finite d) => some (.number d.value)
    | .number _ => some .null
    | .object shape => some (stringifyShape (stringifyAt heap left) shape)
    | .reference r => some (stringifyShape (stringifyAt heap left) (heap r))
    | _ => none

/-- `JSON.stringify` of what `canonicalJson` accepts. -/
def stringify (heap : Heap Ref) (value : Value Ref) : Option Json :=
  stringifyAt heap (MAX_DEPTH + 1) value

/-- An object literal whose properties are in this order; a name given twice keeps the first. -/
def literal (properties : List (Text × Value Ref)) : Value Ref :=
  .object (.plain ⟨(properties.map Prod.fst).dedup, List.nodup_dedup _⟩
    fun key => (properties.lookup key).getD .undefined)

/-- `createHash("sha256").update(text).digest("hex")` -/
abbrev Sha256 := Text → Text

def canonicalRequestHash (sha256 : Sha256) (heap : Heap Ref) (scope : Text)
    (payload : Value Ref) : Except Failure Text := do
  let text ← canonicalJson heap
    (literal [(ascii "scope", .string scope), (ascii "payload", payload)])
  .ok (sha256 text)

/-- Snapshot values: `string | number | boolean | null`. -/
inductive SnapshotValue where
  | null
  | bool (b : Bool)
  | number (n : Number)
  | string (s : Text)

structure AuditSnapshot where
  keys : Keys
  value : Text → SnapshotValue

inductive AuditActorKind where
  | interactive
  | workload
deriving DecidableEq, Repr

structure UnsealedAuditEvent where
  auditEventId : Text
  tenantId : Text
  occurredAt : Text
  recordedAt : Text
  actorId : Text
  actorKind : AuditActorKind
  action : Text
  targetType : Text
  targetId : Text
  reason : Option Text
  correlationId : Text
  causationId : Option Text
  approvalId : Option Text
  before : Option AuditSnapshot
  after : Option AuditSnapshot

structure AuditEvent extends UnsealedAuditEvent where
  evidenceHash : Text

def AuditActorKind.text : AuditActorKind → Text
  | .interactive => ascii "interactive"
  | .workload => ascii "workload"

def SnapshotValue.toValue : SnapshotValue → Value Ref
  | .null => .null
  | .bool b => .bool b
  | .number n => .number n
  | .string s => .string s

def optionalText : Option Text → Value Ref
  | none => .undefined
  | some s => .string s

def optionalSnapshot : Option AuditSnapshot → Value Ref
  | none => .undefined
  | some s => .object (.plain s.keys fun key => (s.value key).toValue)

/-- The event as the object it is. -/
def UnsealedAuditEvent.toValue (e : UnsealedAuditEvent) : Value Empty :=
  literal [
    (ascii "auditEventId", .string e.auditEventId),
    (ascii "tenantId", .string e.tenantId),
    (ascii "occurredAt", .string e.occurredAt),
    (ascii "recordedAt", .string e.recordedAt),
    (ascii "actor", literal [(ascii "id", .string e.actorId),
      (ascii "kind", .string e.actorKind.text)]),
    (ascii "action", .string e.action),
    (ascii "target", literal [(ascii "type", .string e.targetType),
      (ascii "id", .string e.targetId)]),
    (ascii "reason", optionalText e.reason),
    (ascii "correlationId", .string e.correlationId),
    (ascii "causationId", optionalText e.causationId),
    (ascii "approvalId", optionalText e.approvalId),
    (ascii "before", optionalSnapshot e.before),
    (ascii "after", optionalSnapshot e.after)]

def computeEvidenceHash (sha256 : Sha256) (event : UnsealedAuditEvent) : Except Failure Text := do
  let text ← canonicalJson Empty.elim event.toValue
  .ok (sha256 text)

/-- The digest is ASCII, so that equal bytes are equal texts. -/
def verifyAuditEvent (sha256 : Sha256) (event : AuditEvent) : Except Failure Bool := do
  let expected ← computeEvidenceHash sha256 event.toUnsealedAuditEvent
  .ok (expected == event.evidenceHash)

end Sintius.Canonical
