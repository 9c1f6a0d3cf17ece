import Mathlib
import Sintius.Lib.Double
import Sintius.Lib.OrderedMap
import Sintius.Lib.Utf16
import Sintius.Spec.Problem
import Sintius.Spec.Cache
import Sintius.Proofs.Cache

/-! The bounded store as a cache: its map lists the keys by their last touch, a `set`
drops the first of them when it must, and an entry stays until as many other keys
have been touched as the store holds. -/

namespace Sintius.Cache

open Js InMemoryKeyValueStore

/-- A call on the store itself. -/
structure StoreCall (V : Type) where
  key : Text
  action : Action V
  clock : Number

section Calls

variable {V : Type} (store : InMemoryKeyValueStore V)

/-- The call leaves the entry of its key as the newest: a `set` that succeeds, a `get` that hits. -/
def StoreCall.touches (entries : Entries V) (call : StoreCall V) : Bool :=
  match call.action with
  | .get => (entries.get call.key).any fun entry => !expired entry call.clock
  | .set value ttlSeconds =>
    (ttlSeconds.or store.defaultTtlSeconds).all validTtl && store.cloneable value
  | .delete => false

/-- The call deletes the entry of its key: `delete`, a `get` that finds it expired, and a `set` that
throws because its value cannot be copied. -/
def StoreCall.deletes (entries : Entries V) (call : StoreCall V) : Bool :=
  match call.action with
  | .get => (entries.get call.key).any fun entry => expired entry call.clock
  | .set value ttlSeconds =>
    (ttlSeconds.or store.defaultTtlSeconds).all validTtl && !store.cloneable value
  | .delete => true

def StoreCall.run (entries : Entries V) (call : StoreCall V) : Entries V :=
  (call.action.run store call.key call.clock entries).2

/-- The entries after calls on a store that holds these. -/
def runFrom (calls : List (StoreCall V)) (entries : Entries V) : Entries V :=
  calls.foldl (StoreCall.run store) entries

/-- The keys that calls touch, in order. -/
def touched : List (StoreCall V) → Entries V → List Text
  | [], _ => []
  | call :: calls, entries =>
    (if call.touches store entries then [call.key] else []) ++ touched calls (call.run store entries)

/-- What the last `set` of a key that succeeded has written. -/
def lastSet (key : Text) (calls : List (StoreCall V)) : Option (Entry V) :=
  calls.foldl (fun last call =>
    match call.action with
    | .set value ttlSeconds =>
      if call.key = key ∧ (ttlSeconds.or store.defaultTtlSeconds).all validTtl = true ∧
          store.cloneable value = true then
        some ⟨value, (ttlSeconds.or store.defaultTtlSeconds).map (store.deadline call.clock)⟩
      else last
    | _ => last) none

theorem runFrom_concat (calls : List (StoreCall V)) (call : StoreCall V) (entries : Entries V) :
    runFrom store (calls ++ [call]) entries = call.run store (runFrom store calls entries) := by
  unfold runFrom
  rw [List.foldl_append]
  rfl

theorem touched_append (calls calls' : List (StoreCall V)) (entries : Entries V) :
    touched store (calls ++ calls') entries =
      touched store calls entries ++ touched store calls' (runFrom store calls entries) := by
  induction calls generalizing entries with
  | nil => rfl
  | cons call calls ih =>
    rw [List.cons_append, touched, touched, ih, List.append_assoc]
    rfl

end Calls

variable {V : Type} {store : InMemoryKeyValueStore V} {entries : Entries V} {call : StoreCall V}

/-- What a call does to the entries, by what it is. -/
theorem StoreCall.run_cases (entries : Entries V) (call : StoreCall V) :
    (call.touches store entries = false ∧ call.deletes store entries = true ∧
      call.run store entries = entries.delete call.key) ∨
    (call.touches store entries = false ∧ call.deletes store entries = false ∧
      call.run store entries = entries) ∨
    (call.touches store entries = true ∧ call.deletes store entries = false ∧
      ∃ entry, entries.get call.key = some entry ∧
        call.run store entries = (entries.delete call.key).set call.key entry) ∨
    (call.touches store entries = true ∧ call.deletes store entries = false ∧
      ∃ entry, call.run store entries =
        evict store.maxEntries ((entries.delete call.key).set call.key entry)) := by
  obtain ⟨key, action, clock⟩ := call
  cases action with
  | get =>
    unfold StoreCall.touches StoreCall.deletes StoreCall.run Action.run InMemoryKeyValueStore.get
    dsimp only
    cases hget : entries.get key with
    | none => exact .inr (.inl ⟨rfl, rfl, rfl⟩)
    | some entry =>
      cases hexpired : expired entry clock with
      | true => exact .inl ⟨by simp [hexpired], by simp [hexpired], by simp [hexpired]⟩
      | false =>
        refine .inr (.inr (.inl ⟨by simp [hexpired], by simp [hexpired], entry, rfl, ?_⟩))
        simp [hexpired]
  | set value ttlSeconds =>
    unfold StoreCall.touches StoreCall.deletes StoreCall.run Action.run InMemoryKeyValueStore.set
      structuredClone
    dsimp only
    by_cases haccepts : (ttlSeconds.or store.defaultTtlSeconds).all validTtl = true
    · have hvalid : ¬ (ttlSeconds.or store.defaultTtlSeconds).any (fun ttl => !validTtl ttl) = true :=
        fun h => any_not_validTtl_iff.mp h haccepts
      rw [if_neg hvalid]
      cases hcloneable : store.cloneable value with
      | true =>
        refine .inr (.inr (.inr ⟨by simp [haccepts], by simp,
          ⟨value, (ttlSeconds.or store.defaultTtlSeconds).map (store.deadline clock)⟩, ?_⟩))
        rw [if_pos rfl]
      | false =>
        refine .inl ⟨by simp, by simp [haccepts], ?_⟩
        rw [if_neg Bool.false_ne_true]
    · rw [if_pos (any_not_validTtl_iff.mpr haccepts)]
      exact .inr (.inl ⟨by simp [haccepts], by simp [haccepts], rfl⟩)
  | delete => exact .inl ⟨rfl, rfl, rfl⟩

section Order

theorem keys_evict_sublist (maxEntries : ℕ) (entries : Entries V) :
    (evict maxEntries entries).keys.Sublist entries.keys := by
  unfold OrderedMap.keys
  rw [entries_evict]
  exact (List.drop_sublist _ _).map _

theorem size_evict_le (maxEntries : ℕ) (entries : Entries V) :
    (evict maxEntries entries).size ≤ maxEntries := by
  unfold OrderedMap.size
  rw [entries_evict, List.length_drop]
  change entries.size - (entries.size - maxEntries) ≤ maxEntries
  omega

/-- No call leaves more entries than the store may hold. -/
theorem StoreCall.size_run_le (h : entries.size ≤ store.maxEntries) :
    (call.run store entries).size ≤ store.maxEntries := by
  have hdelete : (entries.delete call.key).size ≤ entries.size := List.length_filter_le _ _
  rcases StoreCall.run_cases entries call with
    ⟨-, -, hrun⟩ | ⟨-, -, hrun⟩ | ⟨-, -, entry, hget, hrun⟩ | ⟨-, -, entry, hrun⟩
  · rw [hrun]
    exact hdelete.trans h
  · rwa [hrun]
  · have hmem : call.key ∈ entries.keys :=
      List.mem_map_of_mem (f := Prod.fst) (OrderedMap.mem_entries_iff.mpr hget)
    have hlt := OrderedMap.size_delete_lt hmem
    rw [hrun]
    unfold OrderedMap.size at hlt h ⊢
    rw [OrderedMap.entries_set_delete, List.length_append, List.length_singleton]
    omega
  · rw [hrun]
    exact size_evict_le _ _

/-- A touch moves its key to the end, a deletion takes it away; eviction takes from the front. -/
theorem StoreCall.keys_run_sublist {order : List Text} (h : entries.keys.Sublist order.dedup) :
    (call.run store entries).keys.Sublist
      (order ++ if call.touches store entries then [call.key] else []).dedup := by
  have hmoved : ∀ entry, ((entries.delete call.key).set call.key entry).keys.Sublist
      (order ++ [call.key]).dedup := by
    intro entry
    rw [OrderedMap.keys_set_delete, List.dedup_concat]
    exact (h.filter _).append (List.Sublist.refl _)
  rcases StoreCall.run_cases entries call with
    ⟨htouches, -, hrun⟩ | ⟨htouches, -, hrun⟩ | ⟨htouches, -, entry, -, hrun⟩ |
      ⟨htouches, -, entry, hrun⟩
  · rw [htouches, hrun, OrderedMap.keys_delete]
    simpa using List.filter_sublist.trans h
  · rw [htouches, hrun]
    simpa using h
  · rw [htouches, hrun]
    exact hmoved entry
  · rw [htouches, hrun]
    exact (keys_evict_sublist _ _).trans (hmoved entry)

theorem touched_concat (calls : List (StoreCall V)) (call : StoreCall V) (entries : Entries V) :
    touched store (calls ++ [call]) entries = touched store calls entries ++
      if call.touches store (runFrom store calls entries) then [call.key] else [] := by
  rw [touched_append, touched, touched, List.append_nil]

/-- The store never holds more than it may, -/
theorem size_runFrom_le (calls : List (StoreCall V)) :
    (runFrom store calls OrderedMap.empty).size ≤ store.maxEntries := by
  induction calls using List.reverseRecOn with
  | nil => exact Nat.zero_le _
  | append_singleton calls call ih =>
    rw [runFrom_concat]
    exact StoreCall.size_run_le ih

/-- and it lists its keys in the order of their last touch. -/
theorem keys_runFrom_sublist (calls : List (StoreCall V)) :
    (runFrom store calls OrderedMap.empty).keys.Sublist
      (touched store calls OrderedMap.empty).dedup := by
  induction calls using List.reverseRecOn with
  | nil => exact List.nil_sublist _
  | append_singleton calls call ih =>
    rw [runFrom_concat, touched_concat]
    exact StoreCall.keys_run_sublist ih

end Order

section Eviction

variable {key : Text} {new : Entry V}

/-- With room for the key, nothing is dropped, -/
theorem evict_set_of_room (hsize : entries.size ≤ store.maxEntries)
    (hroom : key ∈ entries.keys ∨ entries.size < store.maxEntries) :
    (evict store.maxEntries ((entries.delete key).set key new)).entries =
      (entries.delete key).entries ++ [(key, new)] := by
  have hdelete : (entries.delete key).size < store.maxEntries := by
    rcases hroom with hmem | hlt
    · exact (OrderedMap.size_delete_lt hmem).trans_le hsize
    · exact (List.length_filter_le _ _).trans_lt hlt
  rw [entries_evict]
  unfold OrderedMap.size at hdelete ⊢
  rw [OrderedMap.entries_set_delete, List.length_append, List.length_singleton,
    Nat.sub_eq_zero_of_le hdelete, List.drop_zero]

/-- and without, the first entry is. -/
theorem evict_set_of_full (hfull : entries.size = store.maxEntries) (hnew : key ∉ entries.keys) :
    ∃ oldest entry rest, entries.entries = (oldest, entry) :: rest ∧
      (evict store.maxEntries ((entries.delete key).set key new)).entries =
        rest ++ [(key, new)] := by
  have hpositive := store.positive
  cases hentries : entries.entries with
  | nil =>
    rw [← hfull, OrderedMap.size, hentries] at hpositive
    cases hpositive
  | cons oldest rest =>
    refine ⟨oldest.1, oldest.2, rest, rfl, ?_⟩
    unfold OrderedMap.size at hfull
    rw [entries_evict, OrderedMap.size, OrderedMap.entries_set_delete,
      OrderedMap.entries_delete_of_not_mem hnew, List.length_append, List.length_singleton, hfull,
      Nat.add_sub_cancel_left, hentries]
    rfl

end Eviction

section Retention

variable {key : Text} {entry : Entry V}

/-- The entry of a key, with none but these keys behind it. -/
def KeptBefore (key : Text) (entry : Entry V) (others : List Text) (entries : Entries V) : Prop :=
  ∃ front back, entries.entries = front ++ (key, entry) :: back ∧
    ∀ other ∈ back.map Prod.fst, other ∈ others

theorem KeptBefore.get {others : List Text} (h : KeptBefore key entry others entries) :
    entries.get key = some entry := by
  obtain ⟨front, back, hentries, -⟩ := h
  rw [← OrderedMap.mem_entries_iff, hentries]
  simp

theorem KeptBefore.delete {others : List Text} {key' : Text}
    (h : KeptBefore key entry others entries) (hne : key' ≠ key) :
    KeptBefore key entry others (entries.delete key') := by
  obtain ⟨front, back, hentries, hback⟩ := h
  refine ⟨front.filter fun e => e.1 ≠ key', back.filter fun e => e.1 ≠ key', ?_, ?_⟩
  · unfold OrderedMap.delete
    dsimp only
    rw [hentries, List.filter_append, List.filter_cons_of_pos (by simpa using hne.symm)]
  · intro other hother
    exact hback other ((List.filter_sublist.map Prod.fst).subset hother)

/-- Another key is touched. -/
theorem KeptBefore.touch {others : List Text} {key' : Text} {entry' : Entry V}
    (h : KeptBefore key entry others entries) (hne : key' ≠ key) :
    KeptBefore key entry (others ++ [key']) ((entries.delete key').set key' entry') := by
  obtain ⟨front, back, hentries, hback⟩ := h.delete hne
  refine ⟨front, back ++ [(key', entry')], ?_, ?_⟩
  · rw [OrderedMap.entries_set_delete, hentries, List.append_assoc, List.cons_append]
  · intro other hother
    rw [List.map_append, List.mem_append] at hother
    rcases hother with hother | hother
    · exact List.mem_append_left _ (hback other hother)
    · exact List.mem_append_right _ (by simpa using hother)

/-- Behind the entry stand fewer keys than were touched. -/
theorem KeptBefore.evict {others : List Text} (h : KeptBefore key entry others entries)
    (hfew : others.dedup.length < store.maxEntries) :
    KeptBefore key entry others (evict store.maxEntries entries) := by
  obtain ⟨front, back, hentries, hback⟩ := h
  have hnodup : (back.map Prod.fst).Nodup := by
    have hall := entries.nodup
    rw [hentries, List.map_append, List.map_cons] at hall
    exact (List.nodup_cons.mp (List.nodup_append.mp hall).2.1).2
  have hlength : back.length ≤ others.dedup.length := by
    rw [← List.length_map Prod.fst]
    refine (hnodup.subperm ?_).length_le
    exact fun other hother => List.mem_dedup.mpr (hback other hother)
  refine ⟨front.drop (entries.size - store.maxEntries), back, ?_, hback⟩
  rw [entries_evict, hentries, List.drop_append_of_le_length ?_]
  rw [OrderedMap.size, hentries, List.length_append, List.length_cons]
  omega

/-- What other keys' calls leave of it. -/
theorem KeptBefore.run {others : List Text} (h : KeptBefore key entry others entries)
    (hne : call.key ≠ key)
    (hfew : (others ++ if call.touches store entries then [call.key] else []).dedup.length <
      store.maxEntries) :
    KeptBefore key entry (others ++ if call.touches store entries then [call.key] else [])
      (call.run store entries) := by
  rcases StoreCall.run_cases entries call with
    ⟨htouches, -, hrun⟩ | ⟨htouches, -, hrun⟩ | ⟨htouches, -, entry', -, hrun⟩ |
      ⟨htouches, -, entry', hrun⟩
  · rw [htouches, hrun]
    simpa using h.delete hne
  · rw [htouches, hrun]
    simpa using h
  · rw [htouches, hrun]
    exact h.touch hne
  · rw [htouches] at hfew
    rw [htouches, hrun]
    exact (h.touch hne).evict hfew

theorem length_dedup_le_append {α : Type} [DecidableEq α] (l l' : List α) :
    l.dedup.length ≤ (l ++ l').dedup.length := by
  refine ((List.nodup_dedup l).subperm ?_).length_le
  intro a ha
  rw [List.mem_dedup] at ha ⊢
  exact List.mem_append_left _ ha

/-- The touch itself. -/
theorem keptBefore_of_touches (htouches : call.touches store entries = true) :
    ∃ entry, KeptBefore call.key entry [] (call.run store entries) := by
  have hlast : ∀ entry, KeptBefore call.key entry []
      ((entries.delete call.key).set call.key entry) := fun entry =>
    ⟨_, [], OrderedMap.entries_set_delete _ _ _, fun _ h => h⟩
  rcases StoreCall.run_cases entries call with
    ⟨hnot, -, -⟩ | ⟨hnot, -, -⟩ | ⟨-, -, entry, -, hrun⟩ | ⟨-, -, entry, hrun⟩
  · cases htouches.symm.trans hnot
  · cases htouches.symm.trans hnot
  · rw [hrun]
    exact ⟨entry, hlast entry⟩
  · rw [hrun]
    exact ⟨entry, (hlast entry).evict store.positive⟩

/-- Calls that neither touch nor delete this key. -/
def Undisturbed (store : InMemoryKeyValueStore V) (key : Text) (calls : List (StoreCall V))
    (entries : Entries V) : Prop :=
  ∀ front call back, calls = front ++ call :: back → call.key = key →
    call.touches store (runFrom store front entries) = false ∧
      call.deletes store (runFrom store front entries) = false

/-- By induction on the calls since the last touch. -/
theorem KeptBefore.runFrom {calls : List (StoreCall V)} (h : KeptBefore key entry [] entries)
    (hcalls : Undisturbed store key calls entries)
    (hfew : (touched store calls entries).dedup.length < store.maxEntries) :
    KeptBefore key entry (touched store calls entries) (runFrom store calls entries) := by
  induction calls using List.reverseRecOn with
  | nil => exact h
  | append_singleton calls call ih =>
    have hundisturbed : Undisturbed store key calls entries := by
      rintro front later back rfl
      exact hcalls front later (back ++ [call]) (by simp)
    rw [touched_concat] at hfew ⊢
    have hkept := ih hundisturbed ((length_dedup_le_append _ _).trans_lt hfew)
    rw [runFrom_concat]
    by_cases hkey : call.key = key
    · obtain ⟨htouches, hdeletes⟩ := hcalls calls call [] rfl hkey
      rw [htouches]
      rcases StoreCall.run_cases (Cache.runFrom store calls entries) call with
        ⟨-, hdeletes', -⟩ | ⟨-, -, hrun⟩ | ⟨htouches', -⟩ | ⟨htouches', -⟩
      · cases hdeletes.symm.trans hdeletes'
      · rw [hrun]
        simpa using hkept
      · cases htouches.symm.trans htouches'
      · cases htouches.symm.trans htouches'
    · exact hkept.run hkey hfew

/-- An entry that is there is what the last `set` of its key has written. -/
theorem lastSet_of_get {calls : List (StoreCall V)}
    (h : (Cache.runFrom store calls OrderedMap.empty).get key = some entry) :
    lastSet store key calls = some entry := by
  induction calls using List.reverseRecOn generalizing entry with
  | nil => cases h
  | append_singleton calls call ih =>
    obtain ⟨key', action, clock⟩ := call
    rw [runFrom_concat] at h
    unfold lastSet at ih ⊢
    rw [List.foldl_append, List.foldl_cons, List.foldl_nil]
    by_cases hkey : key' = key
    · subst hkey
      unfold StoreCall.run at h
      rw [get_run_self] at h
      rcases entryAfter_eq_some h with ⟨hkeeps, hprevious⟩ | ⟨ttlSeconds, rfl, haccepts,
        hcloneable, hexpiresAt⟩
      · cases action with
        | get => exact ih hprevious
        | set value ttlSeconds =>
          dsimp only
          rw [if_neg fun hwrites => hkeeps hwrites.2.1]
          exact ih hprevious
        | delete => exact absurd trivial hkeeps
      · dsimp only
        rw [if_pos ⟨rfl, haccepts, hcloneable⟩, ← hexpiresAt]
    · have hprevious := ih (get_run_other (fun h => hkey h.symm) h)
      cases action with
      | get => exact hprevious
      | set value ttlSeconds =>
        dsimp only
        rw [if_neg fun hwrites => hkey hwrites.1]
        exact hprevious
      | delete => exact hprevious

end Retention

section Main

/-- The store as a cache, after some calls. -/
structure IsLruCache (store : InMemoryKeyValueStore V) (calls : List (StoreCall V)) : Prop where
  bounded : (runFrom store calls OrderedMap.empty).size ≤ store.maxEntries
  /-- The keys stand in the order of their last touch. -/
  ordered : (runFrom store calls OrderedMap.empty).keys.Sublist
    (touched store calls OrderedMap.empty).dedup
  /-- With room for the key, a `set` drops nothing, -/
  set_of_room : ∀ key value ttlSeconds clock, acceptsTtl store ttlSeconds →
    store.cloneable value = true →
    key ∈ (runFrom store calls OrderedMap.empty).keys ∨
      (runFrom store calls OrderedMap.empty).size < store.maxEntries →
    (store.set key value ttlSeconds clock (runFrom store calls OrderedMap.empty)).2.entries =
      ((runFrom store calls OrderedMap.empty).delete key).entries ++
        [(key, ⟨value, (ttlSeconds.or store.defaultTtlSeconds).map (store.deadline clock)⟩)]
  /-- and without, the key whose last touch is oldest. -/
  set_of_full : ∀ key value ttlSeconds clock, acceptsTtl store ttlSeconds →
    store.cloneable value = true → key ∉ (runFrom store calls OrderedMap.empty).keys →
    (runFrom store calls OrderedMap.empty).size = store.maxEntries →
    ∃ oldest entry rest, (runFrom store calls OrderedMap.empty).entries = (oldest, entry) :: rest ∧
      (∀ other ∈ rest.map Prod.fst,
        [oldest, other].Sublist (touched store calls OrderedMap.empty).dedup) ∧
      (store.set key value ttlSeconds clock (runFrom store calls OrderedMap.empty)).2.entries =
        rest ++
          [(key, ⟨value, (ttlSeconds.or store.defaultTtlSeconds).map (store.deadline clock)⟩)]
  /-- A `set` with an invalid TTL throws and changes nothing. -/
  set_of_invalid : ∀ key value ttlSeconds clock, ¬ acceptsTtl store ttlSeconds →
    store.set key value ttlSeconds clock (runFrom store calls OrderedMap.empty) =
      (.error (.error "RangeError: ttlSeconds must be a positive number."),
        runFrom store calls OrderedMap.empty)
  /-- A key that was touched, and since then neither touched nor deleted while fewer other keys were
  touched than the store holds, still has its last value. -/
  retained : ∀ front call back, calls = front ++ call :: back →
    call.touches store (runFrom store front OrderedMap.empty) = true →
    Undisturbed store call.key back (runFrom store (front ++ [call]) OrderedMap.empty) →
    (touched store back (runFrom store (front ++ [call]) OrderedMap.empty)).dedup.length <
      store.maxEntries →
    ∃ entry, lastSet store call.key calls = some entry ∧
      ∀ clock, InMemoryKeyValueStore.expired entry clock = false →
        (store.get call.key clock (runFrom store calls OrderedMap.empty)).1 =
          .ok (some entry.value)

theorem set_of_accepts {key : Text} {value : V} {ttlSeconds : Option Number} {clock : Number}
    (haccepts : acceptsTtl store ttlSeconds) (hcloneable : store.cloneable value = true) :
    (store.set key value ttlSeconds clock entries).2 =
      evict store.maxEntries ((entries.delete key).set key
        ⟨value, (ttlSeconds.or store.defaultTtlSeconds).map (store.deadline clock)⟩) := by
  unfold InMemoryKeyValueStore.set structuredClone
  dsimp only
  rw [if_neg fun h => any_not_validTtl_iff.mp h haccepts, if_pos hcloneable]

/-- Only values that can be copied are ever stored. -/
theorem cloneable_of_lastSet {key : Text} {entry : Entry V} {calls : List (StoreCall V)}
    (h : lastSet store key calls = some entry) : store.cloneable entry.value = true := by
  induction calls using List.reverseRecOn with
  | nil => cases h
  | append_singleton calls call ih =>
    obtain ⟨key', action, clock⟩ := call
    unfold lastSet at ih h
    rw [List.foldl_append, List.foldl_cons, List.foldl_nil] at h
    cases action with
    | get => exact ih h
    | set value ttlSeconds =>
      dsimp only at h
      split_ifs at h with hwrites
      · cases h
        exact hwrites.2.2
      · exact ih h
    | delete => exact ih h

/-- The in-memory store is a bounded cache that drops the least recently touched key. -/
theorem bounded_lru_cache (store : InMemoryKeyValueStore V) (calls : List (StoreCall V)) :
    IsLruCache store calls := by
  have hbounded : (runFrom store calls OrderedMap.empty).size ≤ store.maxEntries :=
    size_runFrom_le calls
  have hordered : (runFrom store calls OrderedMap.empty).keys.Sublist
      (touched store calls OrderedMap.empty).dedup := keys_runFrom_sublist calls
  refine ⟨hbounded, hordered, ?_, ?_, ?_, ?_⟩
  · intro key value ttlSeconds clock haccepts hcloneable hroom
    rw [set_of_accepts haccepts hcloneable]
    exact evict_set_of_room hbounded hroom
  · intro key value ttlSeconds clock haccepts hcloneable hnew hfull
    rw [set_of_accepts haccepts hcloneable]
    obtain ⟨oldest, entry, rest, hentries, hevict⟩ := evict_set_of_full hfull hnew
    refine ⟨oldest, entry, rest, hentries, ?_, hevict⟩
    intro other hother
    unfold OrderedMap.keys at hordered
    rw [hentries, List.map_cons] at hordered
    exact ((List.singleton_sublist.mpr hother).cons_cons oldest).trans hordered
  · intro key value ttlSeconds clock hrefused
    unfold InMemoryKeyValueStore.set
    dsimp only
    rw [if_pos (any_not_validTtl_iff.mpr hrefused)]
  · rintro front call back rfl htouches hundisturbed hfew
    have hsplit : runFrom store (front ++ call :: back) OrderedMap.empty =
        runFrom store back (runFrom store (front ++ [call]) OrderedMap.empty) := by
      unfold runFrom
      rw [← List.foldl_append, List.append_assoc]
      rfl
    obtain ⟨entry, htouched⟩ := keptBefore_of_touches htouches
    rw [← runFrom_concat] at htouched
    have hget := (htouched.runFrom hundisturbed hfew).get
    rw [← hsplit] at hget
    have hlast := lastSet_of_get hget
    refine ⟨entry, hlast, ?_⟩
    intro clock hlive
    unfold InMemoryKeyValueStore.get structuredClone
    rw [hget]
    dsimp only
    rw [if_neg (by simp [hlive]), if_pos (cloneable_of_lastSet hlast)]
    rfl

end Main

section Removals

/-- That only `delete` takes a key away: after these calls a key that was touched, and since then
neither touched nor passed to `delete` while fewer other keys were touched than the store holds,
still has its last value. -/
def RetainedUntilDelete (store : InMemoryKeyValueStore V) (calls : List (StoreCall V)) : Prop :=
  ∀ front call back, calls = front ++ call :: back →
    call.touches store (runFrom store front OrderedMap.empty) = true →
    (∀ front' later back', back = front' ++ later :: back' → later.key = call.key →
      later.action ≠ .delete ∧
        later.touches store (runFrom store (front ++ call :: front') OrderedMap.empty) = false) →
    (touched store back (runFrom store (front ++ [call]) OrderedMap.empty)).dedup.length <
      store.maxEntries →
    ∃ entry, lastSet store call.key calls = some entry ∧
      ∀ clock, InMemoryKeyValueStore.expired entry clock = false →
        (store.get call.key clock (runFrom store calls OrderedMap.empty)).1 =
          .ok (some entry.value)

/-- A call that is no `delete` and takes away what the call before it has set. -/
theorem not_retainedUntilDelete {first later : StoreCall V} {entry : Entry V} {clock : Number}
    (hkey : later.key = first.key) (hfirst : first.touches store OrderedMap.empty = true)
    (hdelete : later.action ≠ .delete)
    (hlater : later.touches store (first.run store OrderedMap.empty) = false)
    (hlast : lastSet store first.key [first, later] = some entry)
    (hlive : InMemoryKeyValueStore.expired entry clock = false)
    (hgone : (later.run store (first.run store OrderedMap.empty)).get first.key = none) :
    ¬ RetainedUntilDelete store [first, later] := by
  intro hretained
  obtain ⟨entry', hlast', hget⟩ := hretained [] first [later] rfl hfirst
    (by
      intro front' call back' hsplit _
      obtain ⟨rfl, rfl, rfl⟩ : front' = [] ∧ call = later ∧ back' = [] := by
        cases front' with
        | nil => simpa [eq_comm] using hsplit
        | cons head tail => simp at hsplit
      exact ⟨hdelete, hlater⟩)
    (by
      have htouched : touched store [later] (first.run store OrderedMap.empty) = [] := by
        simp [touched, hlater]
      change (touched store [later] (first.run store OrderedMap.empty)).dedup.length < _
      rw [htouched]
      exact store.positive)
  cases hlast.symm.trans hlast'
  have hget := hget clock hlive
  unfold InMemoryKeyValueStore.get at hget
  change (runFrom store [first, later] OrderedMap.empty).get first.key = none at hgone
  rw [hgone] at hget
  cases hget

def sampleKey : Text := ascii "tenant:acme:rates:eur"

/-- A value that cannot be copied is set over one that was. -/
def overwrites : List (StoreCall (Option ℕ)) :=
  [⟨sampleKey, .set (some 7) none, .ofNat 0 zero_safe⟩,
    ⟨sampleKey, .set none none, .ofNat 0 zero_safe⟩]

/-- A `get` finds the entry expired; the clock may be set back behind it. -/
def expiredRead : List (StoreCall (Option ℕ)) :=
  [⟨sampleKey, .set (some 7) (some oneSecond), .ofNat 0 zero_safe⟩,
    ⟨sampleKey, .get, .ofNat 1000 thousand_safe⟩]

/-- Two more ways to lose a key that no `delete` was called for: a `set` that throws because its
value cannot be copied, and a `get` at a clock that shows the entry expired, for a later `get` at
one that does not. -/
theorem lost_without_delete : ¬ RetainedUntilDelete sampleStore overwrites ∧
    ¬ RetainedUntilDelete sampleStore expiredRead := by
  constructor
  · exact not_retainedUntilDelete rfl rfl (by simp) rfl rfl
      (show expired ⟨some 7, none⟩ (.ofNat 0 zero_safe) = false from rfl) (get_run_self _)
  · have hentry : lastSet sampleStore sampleKey expiredRead =
        some ⟨some 7, some (.ofNat 1000 thousand_safe)⟩ := by
      simp only [lastSet, expiredRead, List.foldl_cons, List.foldl_nil]
      rw [if_pos ⟨trivial, acceptsTtl_oneSecond, rfl⟩]
      exact congrArg (fun deadline : Number => some (⟨some 7, some deadline⟩ : Entry (Option ℕ)))
        deadline_oneSecond
    have hstored : (StoreCall.run sampleStore OrderedMap.empty ⟨sampleKey,
        .set (some 7) (some oneSecond), .ofNat 0 zero_safe⟩).get sampleKey =
          some ⟨some 7, some (.ofNat 1000 thousand_safe)⟩ :=
      (get_run_self _).trans (entryAfter_oneSecond 7 _)
    refine not_retainedUntilDelete rfl ?_ (by simp) ?_ hentry
      (expired_ofNat thousand_safe zero_safe) ?_
    · simp only [StoreCall.touches, Bool.and_eq_true]
      exact ⟨acceptsTtl_oneSecond, rfl⟩
    · simp only [StoreCall.touches, hstored, Option.any_some, expired_ofNat]
      rfl
    · refine (get_run_self _).trans ?_
      simp only [Action.entryAfter, hstored, Option.filter_some, expired_ofNat]
      rfl

end Removals

end Sintius.Cache
