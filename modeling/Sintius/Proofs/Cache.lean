import Mathlib
import Sintius.Lib.Double
import Sintius.Lib.Except
import Sintius.Lib.NumberText
import Sintius.Lib.OrderedMap
import Sintius.Lib.Uri
import Sintius.Lib.Utf16
import Sintius.Spec.Problem
import Sintius.Spec.Cache

/-! Tenants share a store and do not meet in it: keys of different tenants,
namespaces or parts differ, and what others do can only take an entry away. -/

namespace Sintius.Cache

open Js

section Keys

theorem encodeSegment_eq_ok {value text : Text} {field : String}
    (h : encodeSegment value field = .ok text) : encodeURIComponent value = some text := by
  unfold encodeSegment at h
  split_ifs at h
  · cases h
  · split at h
    · rename_i heq
      cases h
      exact heq
    · cases h

theorem colon_not_mem_namespace {namespace_ : Text} (h : NAMESPACE_PATTERN namespace_ = true) :
    0x3a ∉ namespace_ := by
  cases namespace_ with
  | nil => cases h
  | cons first rest =>
    simp only [NAMESPACE_PATTERN, Bool.and_eq_true, List.all_eq_true] at h
    intro hmem
    rcases List.mem_cons.mp hmem with rfl | hmem
    · exact absurd h.1.1 (by decide)
    · exact absurd (h.2 _ hmem) (by decide)

/-- The segments of a key, none of which holds a colon. -/
theorem tenantScopedKey_eq_ok {active : Option Text} {namespace_ key : Text} {parts : List Text}
    (h : tenantScopedKey active namespace_ parts = .ok key) :
    ∃ tenantId tenant encoded, active = some tenantId ∧
      encodeURIComponent tenantId = some tenant ∧
      List.Forall₂ (fun part text => encodeURIComponent part = some text) parts encoded ∧
      key = joinSegments ([ascii "tenant", tenant, namespace_] ++ encoded) ∧
      ∀ segment ∈ [ascii "tenant", tenant, namespace_] ++ encoded, 0x3a ∉ segment := by
  unfold tenantScopedKey at h
  simp only [Except.bind_eq_ok_iff, throwIf_eq_ok_iff] at h
  obtain ⟨tenantId, hactive, _, hnamespace, _, -, tenant, htenant, encoded, hencoded, h⟩ := h
  cases h
  have hactive' : active = some tenantId := by
    cases active with
    | none => cases hactive
    | some _ =>
      cases hactive
      rfl
  have hparts := Except.mapM_eq_ok_iff.mp hencoded
  refine ⟨tenantId, tenant, encoded, hactive', encodeSegment_eq_ok htenant,
    hparts.imp fun _ _ => encodeSegment_eq_ok, rfl, ?_⟩
  intro segment hsegment
  simp only [List.mem_append, List.mem_cons, List.not_mem_nil, or_false] at hsegment
  rcases hsegment with (rfl | rfl | rfl) | hsegment
  · decide
  · exact colon_not_mem_encodeURIComponent (encodeSegment_eq_ok htenant)
  · exact colon_not_mem_namespace (by simpa using hnamespace)
  · obtain ⟨part, -, hpart⟩ := Except.exists_of_mem_mapM hencoded hsegment
    exact colon_not_mem_encodeURIComponent (encodeSegment_eq_ok hpart)

theorem joinSegments_injective {segments segments' : List Text} (hne : segments ≠ [])
    (hne' : segments' ≠ []) (h : ∀ segment ∈ segments, 0x3a ∉ segment)
    (h' : ∀ segment ∈ segments', 0x3a ∉ segment)
    (heq : joinSegments segments = joinSegments segments') : segments = segments' := by
  rw [← List.splitOn_intercalate (0x3a : CodeUnit) h hne,
    ← List.splitOn_intercalate (0x3a : CodeUnit) h' hne']
  exact congrArg _ heq

theorem encoded_parts_injective {parts parts' encoded : List Text}
    (h : List.Forall₂ (fun part text => encodeURIComponent part = some text) parts encoded)
    (h' : List.Forall₂ (fun part text => encodeURIComponent part = some text) parts' encoded) :
    parts = parts' := by
  induction h generalizing parts' with
  | nil =>
    cases h'
    rfl
  | cons hpart _ ih =>
    cases h' with
    | cons hpart' hrest => rw [encodeURIComponent_injective hpart hpart', ih hrest]

theorem tenantScopedKey_injective {active active' : Option Text} {namespace_ namespace' key : Text}
    {parts parts' : List Text} (h : tenantScopedKey active namespace_ parts = .ok key)
    (h' : tenantScopedKey active' namespace' parts' = .ok key) :
    active = active' ∧ namespace_ = namespace' ∧ parts = parts' := by
  obtain ⟨tenantId, tenant, encoded, rfl, htenant, hparts, rfl, hcolon⟩ := tenantScopedKey_eq_ok h
  obtain ⟨tenantId', tenant', encoded', rfl, htenant', hparts', heq, hcolon'⟩ :=
    tenantScopedKey_eq_ok h'
  have hsegments := joinSegments_injective (by simp) (by simp) hcolon hcolon' heq
  simp only [List.cons_append, List.nil_append, List.cons.injEq, true_and] at hsegments
  obtain ⟨rfl, rfl, rfl⟩ := hsegments
  exact ⟨congrArg some (encodeURIComponent_injective htenant htenant'), rfl,
    encoded_parts_injective hparts hparts'⟩

example : (tenantScopedKey (some (ascii "acme")) (ascii "rates") [ascii "a:b"]).toOption =
    some (ascii "tenant:acme:rates:a%3Ab") := by
  decide +kernel

end Keys

section Store

open InMemoryKeyValueStore

variable {V : Type} {store : InMemoryKeyValueStore V} {entries : Entries V} {key key' : Text}
  {entry : Entry V} {clock : Number}

theorem delete_head {rest : List (Text × Entry V)} (h : entries.entries = (key, entry) :: rest) :
    (entries.delete key).entries = rest := by
  have hnodup := entries.nodup
  rw [h, List.map_cons, List.nodup_cons] at hnodup
  change entries.entries.filter (fun e => e.1 ≠ key) = rest
  rw [h, List.filter_cons_of_neg (by simp)]
  refine List.filter_eq_self.mpr ?_
  intro e he
  have hne : e.1 ≠ key := by
    rintro rfl
    exact hnodup.1 (List.mem_map.mpr ⟨e, he, rfl⟩)
  simpa using hne

/-- The loop keeps the newest entries. -/
theorem entries_evict (maxEntries : ℕ) (entries : Entries V) :
    (evict maxEntries entries).entries = entries.entries.drop (entries.size - maxEntries) := by
  induction entries using evict.induct maxEntries with
  | case1 entries hsize hkeys =>
    have hnil : entries.entries = [] := List.map_eq_nil_iff.mp hkeys
    rw [OrderedMap.size, hnil] at hsize
    simp at hsize
  | case2 entries hsize oldest rest hkeys _ ih =>
    obtain ⟨⟨k, e⟩, others, hentries, rfl, -⟩ := List.map_eq_cons_iff.mp hkeys
    have hdelete := delete_head hentries
    have hlength : entries.size - maxEntries = others.length - maxEntries + 1 := by
      rw [OrderedMap.size, hentries, List.length_cons] at hsize ⊢
      omega
    rw [evict, dif_pos hsize]
    split
    · rename_i hnil
      rw [hkeys] at hnil
      cases hnil
    · rename_i oldest' rest' hkeys'
      rw [hkeys] at hkeys'
      cases hkeys'
      rw [ih, hlength, hentries, List.drop_succ_cons]
      unfold OrderedMap.size
      rw [hdelete]
  | case3 entries hsize =>
    rw [evict, dif_neg hsize, Nat.sub_eq_zero_of_le (not_lt.mp hsize)]
    rfl

theorem get_of_get_evict {maxEntries : ℕ} (h : (evict maxEntries entries).get key = some entry) :
    entries.get key = some entry := by
  rw [← OrderedMap.mem_entries_iff, entries_evict] at h
  exact OrderedMap.mem_entries_iff.mp (List.mem_of_mem_drop h)

/-- The entry just set is never the one that is dropped. -/
theorem get_evict_set {maxEntries : ℕ} (hpositive : 1 ≤ maxEntries) (hkey : key ∉ entries.keys) :
    (evict maxEntries (entries.set key entry)).get key = some entry := by
  rw [← OrderedMap.mem_entries_iff, entries_evict]
  unfold OrderedMap.size
  rw [OrderedMap.entries_set_of_not_mem hkey, List.drop_append_of_le_length ?_]
  · exact List.mem_append_right _ (List.mem_singleton.mpr rfl)
  · rw [List.length_append, List.length_singleton]
    omega

/-- What a call on one key leaves of an entry. -/
def Action.entryAfter (store : InMemoryKeyValueStore V) (clock : Number) :
    Action V → Option (Entry V) → Option (Entry V)
  | .get, entry => entry.filter fun entry => !expired entry clock
  | .set value ttlSeconds, entry =>
    let ttl := ttlSeconds.or store.defaultTtlSeconds
    if ttl.any (fun ttl => !validTtl ttl) then entry
    else if store.cloneable value then some ⟨value, ttl.map (store.deadline clock)⟩
    else none
  | .delete, _ => none

/-- The TTL of a `set`, its own or the store's, is one the store takes. -/
def acceptsTtl (store : InMemoryKeyValueStore V) (ttlSeconds : Option Number) : Prop :=
  (ttlSeconds.or store.defaultTtlSeconds).all validTtl = true

/-- A `get` or a `set` the store refuses leaves the entry in place; a `delete` or a `set` the store
takes does not. -/
def Action.replaces (store : InMemoryKeyValueStore V) : Action V → Prop
  | .get => False
  | .set _ ttlSeconds => acceptsTtl store ttlSeconds
  | .delete => True

/-- A TTL the store takes is a finite number above zero. -/
theorem validTtl_iff {ttl : Number} :
    validTtl ttl = true ↔ ∃ d : Double, ttl = .finite d ∧ 0 < d.value := by
  cases ttl with
  | nan => simp [validTtl, Number.isFinite]
  | infinity negative => simp [validTtl, Number.isFinite]
  | finite d =>
    suffices hpositive : Number.positive (.finite d) = true ↔ 0 < d.value by
      simpa [validTtl, Number.isFinite] using hpositive
    unfold Number.positive Double.value
    by_cases hcode : d.code = 0
    · simp [hcode, magnitude_zero]
    · have hpos := magnitude_div_pos hcode
      cases hnegative : d.negative with
      | false => simpa [hcode, hnegative] using hpos
      | true => simpa [hnegative] using hpos.le

/-- An entry expires when the clock reaches its deadline. -/
theorem expired_ofNat {value : V} {deadline now : ℕ} (hdeadline : deadline < 2 ^ 53)
    (hnow : now < 2 ^ 53) :
    expired ⟨value, some (.ofNat deadline hdeadline)⟩ (.ofNat now hnow) = decide (deadline ≤ now) :=
  Number.le_ofNat hdeadline hnow

theorem any_not_validTtl_iff {ttlSeconds : Option Number} :
    (ttlSeconds.or store.defaultTtlSeconds).any (fun ttl => !validTtl ttl) = true ↔
      ¬ acceptsTtl store ttlSeconds := by
  unfold acceptsTtl
  cases ttlSeconds.or store.defaultTtlSeconds with
  | none => simp
  | some ttl => simp

theorem entryAfter_of_replaces {action : Action V} {previous previous' : Option (Entry V)}
    (h : action.replaces store) :
    action.entryAfter store clock previous = action.entryAfter store clock previous' := by
  cases action with
  | get => exact h.elim
  | set value ttlSeconds =>
    have hvalid := fun hinvalid => any_not_validTtl_iff.mp hinvalid h
    unfold Action.entryAfter
    dsimp only
    rw [if_neg hvalid, if_neg hvalid]
  | delete => rfl

/-- An entry was there before the call, or the call wrote it. -/
theorem entryAfter_eq_some {action : Action V} {previous : Option (Entry V)}
    (h : action.entryAfter store clock previous = some entry) :
    (¬ action.replaces store ∧ previous = some entry) ∨
      ∃ ttlSeconds, action = .set entry.value ttlSeconds ∧ acceptsTtl store ttlSeconds ∧
        store.cloneable entry.value = true ∧
        entry.expiresAt = (ttlSeconds.or store.defaultTtlSeconds).map (store.deadline clock) := by
  cases action with
  | get =>
    left
    exact ⟨not_false, (Option.filter_eq_some_iff.mp h).1⟩
  | set value ttlSeconds =>
    unfold Action.entryAfter at h
    dsimp only at h
    split_ifs at h with hinvalid hcloneable
    · left
      exact ⟨any_not_validTtl_iff.mp hinvalid, h⟩
    · right
      cases h
      refine ⟨ttlSeconds, rfl, ?_, hcloneable, rfl⟩
      exact not_not.mp fun hrefused => hinvalid (any_not_validTtl_iff.mpr hrefused)
  | delete => cases h

/-- A call on the key itself. -/
theorem get_run_self (action : Action V) :
    (action.run store key clock entries).2.get key =
      action.entryAfter store clock (entries.get key) := by
  cases action with
  | get =>
    unfold Action.run Action.entryAfter InMemoryKeyValueStore.get
    cases hget : entries.get key with
    | none => simp [hget]
    | some entry =>
      by_cases hexpired : expired entry clock = true
      · simp [hget, hexpired, OrderedMap.get_delete, Option.filter_some]
      · simp [hget, hexpired, OrderedMap.get_set_delete, Option.filter_some]
  | set value ttlSeconds =>
    unfold Action.run Action.entryAfter InMemoryKeyValueStore.set structuredClone
    dsimp only
    split_ifs with hinvalid hcloneable
    · rfl
    · exact get_evict_set store.positive (OrderedMap.not_mem_keys_delete entries key)
    · exact (OrderedMap.get_delete entries key key).trans (if_pos rfl)
  | delete => exact (OrderedMap.get_delete entries key key).trans (if_pos rfl)

/-- A call on another key. -/
theorem get_run_other {action : Action V} (hne : key ≠ key')
    (h : (action.run store key' clock entries).2.get key = some entry) :
    entries.get key = some entry := by
  have hdelete : (entries.delete key').get key = entries.get key := by
    rw [OrderedMap.get_delete, if_neg hne]
  have hset : ∀ e, ((entries.delete key').set key' e).get key = entries.get key := by
    intro e
    rw [OrderedMap.get_set_delete, if_neg hne]
  cases action with
  | get =>
    unfold Action.run InMemoryKeyValueStore.get at h
    dsimp only at h
    split at h
    · exact h
    · split_ifs at h
      · exact hdelete ▸ h
      · exact hset _ ▸ h
  | set value ttlSeconds =>
    unfold Action.run InMemoryKeyValueStore.set structuredClone at h
    dsimp only at h
    split_ifs at h
    · exact h
    · exact hset _ ▸ get_of_get_evict h
    · exact hdelete ▸ h
  | delete => exact hdelete ▸ h

end Store

section Isolation

variable {V : Type} (store : InMemoryKeyValueStore V)

/-- Whose calls these are: the tenant, the namespace and the parts. -/
def Call.scope (call : Call V) : Option Text × Text × List Text :=
  (call.active, call.namespace_, call.parts)

theorem run_concat (calls : List (Call V)) (call : Call V) :
    run store (calls ++ [call]) = (call.run store (run store calls)).2 := by
  unfold run
  rw [List.foldl_append]
  rfl

variable {store} {key : Text} {scope : Option Text × Text × List Text}

theorem run_of_key {call : Call V} {entries : Entries V}
    (hkey : tenantScopedKey call.active call.namespace_ call.parts = .ok key) :
    call.run store entries = call.action.run store key call.clock entries := by
  unfold Call.run
  rw [hkey]

/-- A call of another scope leaves an entry alone, or takes it away. -/
theorem get_of_other {call : Call V} {entries : Entries V} {entry : Entry V}
    (hkey : tenantScopedKey scope.1 scope.2.1 scope.2.2 = .ok key) (hscope : call.scope ≠ scope)
    (h : (call.run store entries).2.get key = some entry) : entries.get key = some entry := by
  cases hcall : tenantScopedKey call.active call.namespace_ call.parts with
  | error e =>
    unfold Call.run at h
    rw [hcall] at h
    exact h
  | ok key' =>
    rw [run_of_key hcall] at h
    refine get_run_other ?_ h
    rintro rfl
    obtain ⟨h₁, h₂, h₃⟩ := tenantScopedKey_injective hcall hkey
    exact hscope (Prod.ext h₁ (Prod.ext h₂ h₃))

/-- The entry that the calls of one scope alone would leave. -/
def ownEntry (store : InMemoryKeyValueStore V) (scope : Option Text × Text × List Text)
    (calls : List (Call V)) : Option (Entry V) :=
  (calls.filter fun call => call.scope = scope).foldl
    (fun entry call => call.action.entryAfter store call.clock entry) none

theorem ownEntry_concat_own {calls : List (Call V)} {call : Call V} (h : call.scope = scope) :
    ownEntry store scope (calls ++ [call]) =
      call.action.entryAfter store call.clock (ownEntry store scope calls) := by
  unfold ownEntry
  rw [List.filter_append, List.filter_cons_of_pos (by simpa using h), List.filter_nil,
    List.foldl_append]
  rfl

theorem ownEntry_concat_other {calls : List (Call V)} {call : Call V} (h : call.scope ≠ scope) :
    ownEntry store scope (calls ++ [call]) = ownEntry store scope calls := by
  unfold ownEntry
  rw [List.filter_append, List.filter_cons_of_neg (by simpa using h), List.filter_nil,
    List.append_nil]

/-- What other scopes do can only take the entry away. -/
theorem ownEntry_of_get_run {entry : Entry V} {calls : List (Call V)}
    (hkey : tenantScopedKey scope.1 scope.2.1 scope.2.2 = .ok key)
    (h : (run store calls).get key = some entry) : ownEntry store scope calls = some entry := by
  induction calls using List.reverseRecOn generalizing entry with
  | nil => cases h
  | append_singleton calls call ih =>
    rw [run_concat] at h
    by_cases hscope : call.scope = scope
    · subst hscope
      rw [run_of_key hkey, get_run_self] at h
      rw [ownEntry_concat_own rfl]
      rcases entryAfter_eq_some h with ⟨-, hprevious⟩ | ⟨_, haction, haccepts, -⟩
      · rw [ih hprevious, ← hprevious, h, hprevious]
      · rw [← h, haction]
        exact entryAfter_of_replaces haccepts
    · rw [ownEntry_concat_other hscope]
      exact ih (get_of_other hkey hscope h)

/-- With no other scope's calls the entry is what the calls make of it. -/
theorem get_run_own (hkey : tenantScopedKey scope.1 scope.2.1 scope.2.2 = .ok key)
    (calls : List (Call V)) :
    (run store (calls.filter fun call => call.scope = scope)).get key =
      ownEntry store scope calls := by
  induction calls using List.reverseRecOn with
  | nil => rfl
  | append_singleton calls call ih =>
    by_cases hscope : call.scope = scope
    · rw [List.filter_append, List.filter_cons_of_pos (by simpa using hscope), List.filter_nil,
        run_concat, ownEntry_concat_own hscope, ← ih]
      subst hscope
      rw [run_of_key hkey, get_run_self]
    · rw [List.filter_append, List.filter_cons_of_neg (by simpa using hscope), List.filter_nil,
        List.append_nil, ownEntry_concat_other hscope, ih]

/-- The `set` an entry comes from: the last of its scope, with no later `delete`. -/
structure WrittenBy (store : InMemoryKeyValueStore V) (scope : Option Text × Text × List Text)
    (calls : List (Call V)) (entry : Entry V) (before : List (Call V)) (write : Call V)
    (after : List (Call V)) : Prop where
  split : calls = before ++ write :: after
  own : write.scope = scope
  set : ∃ ttlSeconds, write.action = .set entry.value ttlSeconds ∧ acceptsTtl store ttlSeconds ∧
    entry.expiresAt = (ttlSeconds.or store.defaultTtlSeconds).map (store.deadline write.clock)
  cloneable : store.cloneable entry.value = true
  last : ∀ call ∈ after, call.scope = scope → ¬ call.action.replaces store

theorem writtenBy_concat {calls before after : List (Call V)} {write call : Call V}
    {entry : Entry V} (h : WrittenBy store scope calls entry before write after)
    (hcall : call.scope = scope → ¬ call.action.replaces store) :
    WrittenBy store scope (calls ++ [call]) entry before write (after ++ [call]) where
  split := by rw [h.split, List.append_assoc, List.cons_append]
  own := h.own
  set := h.set
  cloneable := h.cloneable
  last := by
    intro call' hmem
    rcases List.mem_append.mp hmem with hmem | hmem
    · exact h.last call' hmem
    · cases List.mem_singleton.mp hmem
      exact hcall

theorem exists_writtenBy {calls : List (Call V)} {entry : Entry V}
    (h : ownEntry store scope calls = some entry) :
    ∃ before write after, WrittenBy store scope calls entry before write after := by
  induction calls using List.reverseRecOn generalizing entry with
  | nil => cases h
  | append_singleton calls call ih =>
    by_cases hscope : call.scope = scope
    · rw [ownEntry_concat_own hscope] at h
      rcases entryAfter_eq_some h with ⟨hkeeps, hprevious⟩ | ⟨ttlSeconds, haction, haccepts,
        hcloneable, hexpiresAt⟩
      · obtain ⟨before, write, after, hwritten⟩ := ih hprevious
        exact ⟨before, write, after ++ [call], writtenBy_concat hwritten fun _ => hkeeps⟩
      · exact ⟨calls, call, [], rfl, hscope, ⟨ttlSeconds, haction, haccepts, hexpiresAt⟩,
          hcloneable, by simp⟩
    · rw [ownEntry_concat_other hscope] at h
      obtain ⟨before, write, after, hwritten⟩ := ih h
      exact ⟨before, write, after ++ [call], writtenBy_concat hwritten fun h => absurd h hscope⟩

/-- What a `get` of a scope returns or throws after the calls. -/
def getAfter (store : InMemoryKeyValueStore V) (scope : Option Text × Text × List Text)
    (clock : Number) (calls : List (Call V)) : Except Failure (Option V) :=
  (Call.run store ⟨scope.1, scope.2.1, scope.2.2, .get, clock⟩ (run store calls)).1

theorem getAfter_of_key {clock : Number} {calls : List (Call V)}
    (hkey : tenantScopedKey scope.1 scope.2.1 scope.2.2 = .ok key) :
    getAfter store scope clock calls = (store.get key clock (run store calls)).1 := by
  unfold getAfter Call.run
  simp only [hkey]
  rfl

theorem getAfter_of_error {clock : Number} {calls : List (Call V)} {e : Failure}
    (hkey : tenantScopedKey scope.1 scope.2.1 scope.2.2 = .error e) :
    getAfter store scope clock calls = .error e := by
  unfold getAfter Call.run
  simp only [hkey]

/-- A `get` finds nothing, or a live entry that its own scope wrote. -/
theorem getAfter_cases {clock : Number} {calls : List (Call V)}
    (hkey : tenantScopedKey scope.1 scope.2.1 scope.2.2 = .ok key) :
    getAfter store scope clock calls = .ok none ∨
      ∃ entry, (run store calls).get key = some entry ∧ ownEntry store scope calls = some entry ∧
        store.cloneable entry.value = true ∧ InMemoryKeyValueStore.expired entry clock = false ∧
        getAfter store scope clock calls = .ok (some entry.value) := by
  rw [getAfter_of_key hkey]
  unfold InMemoryKeyValueStore.get
  cases hget : (run store calls).get key with
  | none => exact .inl rfl
  | some entry =>
    have hown := ownEntry_of_get_run hkey hget
    obtain ⟨before, write, after, hwritten⟩ := exists_writtenBy hown
    by_cases hexpired : InMemoryKeyValueStore.expired entry clock = true
    · left
      simp [hexpired]
    · right
      refine ⟨entry, rfl, hown, hwritten.cloneable, by simpa using hexpired, ?_⟩
      simp [hexpired, InMemoryKeyValueStore.structuredClone, hwritten.cloneable]

/-- Only its own scope's calls decide what a `get` can return; the others can make it
`undefined`. -/
theorem getAfter_eq_own {clock : Number} {calls : List (Call V)} :
    getAfter store scope clock calls = .ok none ∨
      getAfter store scope clock calls =
        getAfter store scope clock (calls.filter fun call => call.scope = scope) := by
  cases hkey : tenantScopedKey scope.1 scope.2.1 scope.2.2 with
  | error e =>
    right
    rw [getAfter_of_error hkey, getAfter_of_error hkey]
  | ok key =>
    rcases getAfter_cases hkey with h | ⟨entry, hget, hown, -, -, -⟩
    · exact .inl h
    · right
      rw [getAfter_of_key hkey, getAfter_of_key hkey]
      unfold InMemoryKeyValueStore.get
      rw [get_run_own hkey, hget, hown]
      dsimp only
      split_ifs <;> rfl

/-- Over one store, whatever calls are made on it: a `get` throws what its key throws, or
returns `undefined`, or the unexpired value of the last `set` of the same tenant, namespace and
parts; without the other calls it would return the same or more; and keys do not collide. -/
theorem tenant_cache_isolated (store : InMemoryKeyValueStore V) :
    (∀ scope clock calls,
      (∃ e, tenantScopedKey scope.1 scope.2.1 scope.2.2 = .error e ∧
        getAfter store scope clock calls = .error e) ∨
      getAfter store scope clock calls = .ok none ∨
      ∃ entry before write after, WrittenBy store scope calls entry before write after ∧
        InMemoryKeyValueStore.expired entry clock = false ∧
        getAfter store scope clock calls = .ok (some entry.value)) ∧
    (∀ scope clock calls,
      getAfter store scope clock calls = .ok none ∨
      getAfter store scope clock calls =
        getAfter store scope clock (calls.filter fun call => call.scope = scope)) ∧
    ∀ active active' namespace_ namespace' parts parts' key,
      tenantScopedKey active namespace_ parts = .ok key →
      tenantScopedKey active' namespace' parts' = .ok key →
      active = active' ∧ namespace_ = namespace' ∧ parts = parts' := by
  refine ⟨?_, fun _ _ _ => getAfter_eq_own, fun _ _ _ _ _ _ _ => tenantScopedKey_injective⟩
  intro scope clock calls
  cases hkey : tenantScopedKey scope.1 scope.2.1 scope.2.2 with
  | error e => exact .inl ⟨e, rfl, getAfter_of_error hkey⟩
  | ok key =>
    right
    rcases getAfter_cases hkey with h | ⟨entry, -, hown, -, hlive, h⟩
    · exact .inl h
    · obtain ⟨before, write, after, hwritten⟩ := exists_writtenBy hown
      exact .inr ⟨entry, before, write, after, hwritten, hlive, h⟩

end Isolation

section Samples

open InMemoryKeyValueStore

/-- `clock + ttl * 1000` of whole numbers whose sum is exact. -/
def wholeDeadline (clock ttlSeconds : Number) : Number :=
  match clock.integer?, ttlSeconds.integer? with
  | some clock, some ttlSeconds =>
    let sum := (clock + ttlSeconds * 1000).toNat
    if h : sum < 2 ^ 53 then .ofNat sum h else .nan
  | _, _ => .nan

theorem wholeDeadline_ofNat (clock ttlSeconds : ℕ) (hclock : clock < 2 ^ 53)
    (httl : ttlSeconds < 2 ^ 53) (hsum : clock + ttlSeconds * 1000 < 2 ^ 53) :
    wholeDeadline (.ofNat clock hclock) (.ofNat ttlSeconds httl) =
      .ofNat (clock + ttlSeconds * 1000) hsum := by
  have hnat : ((clock : ℤ) + (ttlSeconds : ℤ) * 1000).toNat = clock + ttlSeconds * 1000 := by omega
  unfold wholeDeadline
  simp only [Number.integer?_ofNat, hnat, hsum, dif_pos]

/-- A store of two entries. Its values are numbers, and functions (`none`), which cannot be copied. -/
def sampleStore : InMemoryKeyValueStore (Option ℕ) where
  maxEntries := 2
  positive := by decide
  defaultTtlSeconds := none
  cloneable := Option.isSome
  deadline := wholeDeadline

theorem thousand_safe : 1000 < 2 ^ 53 := by norm_num

def oneSecond : Number := .ofNat 1 one_safe

theorem acceptsTtl_oneSecond : acceptsTtl sampleStore (some oneSecond) :=
  validTtl_iff.mpr ⟨_, rfl, by rw [Double.value_ofNatCode one_safe]; norm_num⟩

theorem deadline_oneSecond : sampleStore.deadline (.ofNat 0 zero_safe) oneSecond =
    .ofNat 1000 thousand_safe := by
  unfold sampleStore oneSecond
  dsimp only
  rw [wholeDeadline_ofNat 0 1 _ _ thousand_safe]

/-- A value that is set at time 0 for a second. -/
theorem entryAfter_oneSecond (value : ℕ) (previous : Option (Entry (Option ℕ))) :
    Action.entryAfter sampleStore (.ofNat 0 zero_safe) (.set (some value) (some oneSecond))
      previous = some ⟨some value, some (.ofNat 1000 thousand_safe)⟩ := by
  unfold Action.entryAfter
  dsimp only
  rw [if_neg fun h => any_not_validTtl_iff.mp h acceptsTtl_oneSecond,
    if_pos (show sampleStore.cloneable (some value) = true from rfl)]
  exact congrArg (fun deadline : Number => some (⟨some value, some deadline⟩ : Entry (Option ℕ)))
    deadline_oneSecond

def sampleScope (tenantId : String) : Option Text × Text × List Text :=
  (some (ascii tenantId), ascii "rates", [ascii "eur"])

def sampleSet (tenantId : String) (value : ℕ) : Call (Option ℕ) where
  active := (sampleScope tenantId).1
  namespace_ := (sampleScope tenantId).2.1
  parts := (sampleScope tenantId).2.2
  action := .set (some value) (some oneSecond)
  clock := .ofNat 0 zero_safe

/-- What a tenant set within the second is read back, whatever another one has set; then it has
expired. -/
theorem tenant_cache_isolated_second :
    (∃ entry before write after, WrittenBy sampleStore (sampleScope "acme")
        [sampleSet "globex" 8, sampleSet "acme" 7] entry before write after ∧ entry.value = some 7 ∧
      getAfter sampleStore (sampleScope "acme") (.ofNat 999 (by norm_num))
        [sampleSet "globex" 8, sampleSet "acme" 7] = .ok (some entry.value)) ∧
    getAfter sampleStore (sampleScope "acme") (.ofNat 1000 thousand_safe)
      [sampleSet "globex" 8, sampleSet "acme" 7] = .ok none := by
  have hkey : tenantScopedKey (sampleScope "acme").1 (sampleScope "acme").2.1
      (sampleScope "acme").2.2 = .ok (ascii "tenant:acme:rates:eur") := by rfl
  have hlast : (run sampleStore [sampleSet "globex" 8, sampleSet "acme" 7]).get
      (ascii "tenant:acme:rates:eur") = some ⟨some 7, some (.ofNat 1000 thousand_safe)⟩ := by
    have hcall := @run_of_key _ sampleStore _ (sampleSet "acme" 7)
      (run sampleStore [sampleSet "globex" 8]) hkey
    rw [← List.singleton_append, run_concat, hcall, get_run_self]
    exact entryAfter_oneSecond 7 _
  have hhit : getAfter sampleStore (sampleScope "acme") (.ofNat 999 (by norm_num))
      [sampleSet "globex" 8, sampleSet "acme" 7] = .ok (some (some 7)) := by
    rw [getAfter_of_key hkey, InMemoryKeyValueStore.get, hlast]
    simp only [expired_ofNat]
    rfl
  have hexpired : getAfter sampleStore (sampleScope "acme") (.ofNat 1000 thousand_safe)
      [sampleSet "globex" 8, sampleSet "acme" 7] = .ok none := by
    rw [getAfter_of_key hkey, InMemoryKeyValueStore.get, hlast]
    simp only [expired_ofNat]
    rfl
  refine ⟨?_, hexpired⟩
  rcases (tenant_cache_isolated sampleStore).1 (sampleScope "acme") (.ofNat 999 (by norm_num))
      [sampleSet "globex" 8, sampleSet "acme" 7] with
    ⟨e, herror, -⟩ | hnone | ⟨entry, before, write, after, hwritten, -, hvalue⟩
  · rw [hkey] at herror
    cases herror
  · rw [hhit] at hnone
    cases hnone
  · refine ⟨entry, before, write, after, hwritten, ?_, hvalue⟩
    rw [hhit] at hvalue
    exact (Option.some.inj (Except.ok.inj hvalue)).symm

end Samples

end Sintius.Cache
