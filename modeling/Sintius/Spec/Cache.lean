import Mathlib
import Sintius.Lib.Double
import Sintius.Lib.OrderedMap
import Sintius.Lib.Uri
import Sintius.Lib.Utf16
import Sintius.Spec.Problem

/-! `platform/tenant-context/src/cache.ts` and `memory-store.ts`: keys under the active
tenant, and the bounded store with expiry behind them. A method runs to its end
before another one starts. Values are what they are copied to; some cannot be
copied. -/

namespace Sintius.Cache

open Js

def isNamespaceStart (c : CodeUnit) : Bool := 0x61 ≤ c.val && c.val ≤ 0x7a

def isNamespaceUnit (c : CodeUnit) : Bool :=
  (0x61 ≤ c.val && c.val ≤ 0x7a) || (0x30 ≤ c.val && c.val ≤ 0x39) ||
    c == 0x5f || c == 0x2e || c == 0x2d

/-- `/^[a-z][a-z0-9_.-]{0,63}$/` -/
def NAMESPACE_PATTERN : Text → Bool
  | [] => false
  | first :: rest => isNamespaceStart first && rest.length ≤ 63 && rest.all isNamespaceUnit

def encodeSegment (value : Text) (field : String) : Except Failure Text :=
  if value.length = 0 ∨ value.length > 256 then
    fail .invalid_trusted_context s!"{field} must be a non-empty string of at most 256 characters."
  else
    match encodeURIComponent value with
    | some text => .ok text
    | none => .error (.error "URIError: URI malformed")

/-- `segments.join(":")` -/
def joinSegments (segments : List Text) : Text := [0x3a].intercalate segments

/-- The active context's tenant, where there is one. -/
def currentTenantId (active : Option Text) : Except Failure Text :=
  match active with
  | some tenantId => .ok tenantId
  | none => fail .tenant_context_missing
      "A trusted tenant context was required but was not established."

def tenantScopedKey (active : Option Text) (namespace_ : Text) (parts : List Text) :
    Except Failure Text := do
  let tenantId ← currentTenantId active
  throwIf (NAMESPACE_PATTERN namespace_ = false) .invalid_trusted_context
    "Cache namespace must be a lowercase module-owned identifier."
  throwIf (parts.length = 0) .invalid_trusted_context
    "A cache key requires at least one key part."
  let tenant ← encodeSegment tenantId "tenantId"
  let encoded ← parts.mapM fun part => encodeSegment part "key part"
  .ok (joinSegments ([ascii "tenant", tenant, namespace_] ++ encoded))

variable {V : Type}

structure Entry (V : Type) where
  value : V
  expiresAt : Option Number

abbrev Entries (V : Type) := OrderedMap Text (Entry V)

/-- The options of the store, and what it takes from the language: which values can be copied, and
the sum `clock + ttl * 1000` of doubles. -/
structure InMemoryKeyValueStore (V : Type) where
  maxEntries : ℕ
  positive : 1 ≤ maxEntries
  defaultTtlSeconds : Option Number
  cloneable : V → Bool
  deadline : Number → Number → Number

namespace InMemoryKeyValueStore

variable (store : InMemoryKeyValueStore V)

def structuredClone (value : V) : Except Failure V :=
  if store.cloneable value then .ok value else .error (.error "DataCloneError")

def expired (entry : Entry V) (clock : Number) : Bool :=
  match entry.expiresAt with
  | none => false
  | some expiresAt => expiresAt.le clock

/-- What a method returns or throws, and the entries after it. -/
abbrev Result (V A : Type) := Except Failure A × Entries V

def get (key : Text) (clock : Number) (entries : Entries V) : Result V (Option V) :=
  match entries.get key with
  | none => (.ok none, entries)
  | some entry =>
    if expired entry clock then (.ok none, entries.delete key)
    else (some <$> store.structuredClone entry.value, (entries.delete key).set key entry)

/-- `Number.isFinite(ttl) && ttl > 0` -/
def validTtl (ttl : Number) : Bool := ttl.isFinite && ttl.positive

/-- The `while` loop that drops the oldest entries. -/
def evict (maxEntries : ℕ) (entries : Entries V) : Entries V :=
  if h : entries.size > maxEntries then
    match hkeys : entries.keys with
    | [] => entries
    | oldest :: _ =>
      have : (entries.delete oldest).size < entries.size := by
        have hmem : oldest ∈ entries.keys := by simp [hkeys]
        obtain ⟨entry, hentry, hkey⟩ := List.mem_map.mp hmem
        exact List.length_filter_lt_length_iff_exists.mpr ⟨entry, hentry, by simp [hkey]⟩
      evict maxEntries (entries.delete oldest)
  else entries
termination_by entries.size

def set (key : Text) (value : V) (ttlSeconds : Option Number) (clock : Number)
    (entries : Entries V) : Result V Unit :=
  let ttl := ttlSeconds.or store.defaultTtlSeconds
  if ttl.any (fun ttl => !validTtl ttl) then
    (.error (.error "RangeError: ttlSeconds must be a positive number."), entries)
  else
    -- the old entry is gone before the new value is copied
    match store.structuredClone value with
    | .error e => (.error e, entries.delete key)
    | .ok copy =>
      let entry : Entry V := ⟨copy, ttl.map (store.deadline clock)⟩
      (.ok (), evict store.maxEntries ((entries.delete key).set key entry))

def delete (key : Text) (entries : Entries V) : Result V Unit := (.ok (), entries.delete key)

end InMemoryKeyValueStore

inductive Action (V : Type) where
  | get
  | set (value : V) (ttlSeconds : Option Number)
  | delete

/-- A call of a `TenantScopedCache`: the active tenant, the namespace of the instance, the parts,
and what the clock shows. -/
structure Call (V : Type) where
  active : Option Text
  namespace_ : Text
  parts : List Text
  action : Action V
  clock : Number

/-- The method a call makes on the store. -/
def Action.run (store : InMemoryKeyValueStore V) (key : Text) (clock : Number) :
    Action V → Entries V → InMemoryKeyValueStore.Result V (Option V)
  | .get, entries => store.get key clock entries
  | .set value ttlSeconds, entries =>
    let (result, entries) := store.set key value ttlSeconds clock entries
    ((fun _ => none) <$> result, entries)
  | .delete, entries => (.ok none, (InMemoryKeyValueStore.delete key entries).2)

/-- A call, from the entries before it. -/
def Call.run (store : InMemoryKeyValueStore V) (call : Call V) (entries : Entries V) :
    InMemoryKeyValueStore.Result V (Option V) :=
  match tenantScopedKey call.active call.namespace_ call.parts with
  | .error e => (.error e, entries)
  | .ok key => call.action.run store key call.clock entries

/-- The entries after a sequence of calls on a new store. -/
def run (store : InMemoryKeyValueStore V) (calls : List (Call V)) : Entries V :=
  calls.foldl (fun entries call => (call.run store entries).2) OrderedMap.empty

end Sintius.Cache
