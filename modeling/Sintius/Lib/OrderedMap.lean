import Mathlib

/-! Maps that remember the order in which their keys were inserted, as `Map` of the
language: setting a key that is there keeps its place. -/

structure OrderedMap (K V : Type) where
  entries : List (K × V)
  nodup : (entries.map Prod.fst).Nodup

namespace OrderedMap

variable {K V : Type} [DecidableEq K]

def empty : OrderedMap K V := ⟨[], List.nodup_nil⟩

def size (m : OrderedMap K V) : ℕ := m.entries.length

def keys (m : OrderedMap K V) : List K := m.entries.map Prod.fst

def get (m : OrderedMap K V) (k : K) : Option V := m.entries.lookup k

def delete (m : OrderedMap K V) (k : K) : OrderedMap K V where
  entries := m.entries.filter fun entry => entry.1 ≠ k
  nodup := m.nodup.sublist (List.Sublist.map _ List.filter_sublist)

def replaceValue (k : K) (v : V) (entry : K × V) : K × V := if entry.1 = k then (k, v) else entry

theorem replaceValue_fst (k : K) (v : V) (entry : K × V) : (replaceValue k v entry).1 = entry.1 := by
  unfold replaceValue
  split_ifs with h
  · exact h.symm
  · rfl

def set (m : OrderedMap K V) (k : K) (v : V) : OrderedMap K V :=
  if h : k ∈ m.keys then
    { entries := m.entries.map (replaceValue k v)
      nodup := by
        rw [List.map_map]
        exact (List.map_congr_left fun entry _ => replaceValue_fst k v entry) ▸ m.nodup }
  else
    { entries := m.entries ++ [(k, v)]
      nodup := by
        rw [List.map_append]
        exact m.nodup.append (List.nodup_singleton k) (by simpa [keys] using h) }

theorem mem_entries_iff {m : OrderedMap K V} {k : K} {v : V} :
    (k, v) ∈ m.entries ↔ m.get k = some v := by
  obtain ⟨entries, hnodup⟩ := m
  unfold get
  induction entries with
  | nil => simp
  | cons entry entries ih =>
    obtain ⟨k', v'⟩ := entry
    rw [List.map_cons, List.nodup_cons] at hnodup
    rw [List.mem_cons, List.lookup_cons]
    by_cases hk : k = k'
    · subst hk
      have hnot : (k, v) ∉ entries := fun h => hnodup.1 (List.mem_map.mpr ⟨(k, v), h, rfl⟩)
      simp [hnot, eq_comm]
    · rw [ih hnodup.2, beq_false_of_ne hk]
      simp [hk]

@[simp] theorem get_empty (k : K) : (empty : OrderedMap K V).get k = none := rfl

theorem get_delete (m : OrderedMap K V) (k k' : K) :
    (m.delete k).get k' = if k' = k then none else m.get k' := by
  ext v
  rw [← mem_entries_iff]
  unfold delete
  rw [List.mem_filter]
  split_ifs with h
  · simp [h]
  · simp [h, mem_entries_iff]

theorem not_mem_keys_delete (m : OrderedMap K V) (k : K) : k ∉ (m.delete k).keys := by
  intro h
  obtain ⟨entry, hentry, rfl⟩ := List.mem_map.mp h
  simpa using (List.mem_filter.mp hentry).2

theorem get_eq_none_of_not_mem_keys {m : OrderedMap K V} {k : K} (h : k ∉ m.keys) :
    m.get k = none := by
  cases hget : m.get k with
  | none => rfl
  | some v => exact absurd (List.mem_map.mpr ⟨(k, v), mem_entries_iff.mpr hget, rfl⟩) h

/-- A new key comes last. -/
theorem entries_set_of_not_mem {m : OrderedMap K V} {k : K} (h : k ∉ m.keys) (v : V) :
    (m.set k v).entries = m.entries ++ [(k, v)] := by
  unfold set
  rw [dif_neg h]

theorem get_set_of_not_mem {m : OrderedMap K V} {k : K} (h : k ∉ m.keys) (v : V) (k' : K) :
    (m.set k v).get k' = if k' = k then some v else m.get k' := by
  ext w
  rw [← mem_entries_iff, entries_set_of_not_mem h, List.mem_append, mem_entries_iff]
  split_ifs with hk
  · subst hk
    simp [get_eq_none_of_not_mem_keys h, eq_comm]
  · simp [hk]

/-- `m.delete(k); m.set(k, v)`: the key comes last. -/
theorem get_set_delete (m : OrderedMap K V) (k k' : K) (v : V) :
    ((m.delete k).set k v).get k' = if k' = k then some v else m.get k' := by
  rw [get_set_of_not_mem (not_mem_keys_delete m k), get_delete]
  split_ifs with h <;> rfl

theorem keys_delete (m : OrderedMap K V) (k : K) :
    (m.delete k).keys = m.keys.filter fun k' => k' ≠ k := by
  unfold keys delete
  rw [List.filter_map]
  rfl

theorem entries_delete_of_not_mem {m : OrderedMap K V} {k : K} (h : k ∉ m.keys) :
    (m.delete k).entries = m.entries := by
  refine List.filter_eq_self.mpr ?_
  intro entry hentry
  have hne : entry.1 ≠ k := by
    rintro rfl
    exact h (List.mem_map_of_mem hentry)
  simpa using hne

/-- `m.delete(k); m.set(k, v)`, as a list. -/
theorem entries_set_delete (m : OrderedMap K V) (k : K) (v : V) :
    ((m.delete k).set k v).entries = (m.delete k).entries ++ [(k, v)] :=
  entries_set_of_not_mem (not_mem_keys_delete m k) v

theorem keys_set_delete (m : OrderedMap K V) (k : K) (v : V) :
    ((m.delete k).set k v).keys = m.keys.filter (fun k' => k' ≠ k) ++ [k] := by
  rw [← keys_delete]
  unfold keys
  rw [entries_set_delete, List.map_append, List.map_singleton]

theorem size_delete_lt {m : OrderedMap K V} {k : K} (h : k ∈ m.keys) :
    (m.delete k).size < m.size := by
  obtain ⟨entry, hentry, rfl⟩ := List.mem_map.mp h
  exact List.length_filter_lt_length_iff_exists.mpr ⟨entry, hentry, by simp⟩

end OrderedMap

/-- The order of last occurrences, after one more. -/
theorem List.dedup_concat {α : Type} [DecidableEq α] (l : List α) (a : α) :
    (l ++ [a]).dedup = (l.dedup.filter fun b => b ≠ a) ++ [a] := by
  induction l with
  | nil => simp
  | cons b l ih =>
    rw [List.cons_append]
    by_cases hb : b ∈ l
    · rw [List.dedup_cons_of_mem (List.mem_append_left _ hb), List.dedup_cons_of_mem hb, ih]
    · by_cases hba : b = a
      · subst hba
        rw [List.dedup_cons_of_mem (by simp), List.dedup_cons_of_notMem hb, ih,
          List.filter_cons_of_neg (by simp)]
      · rw [List.dedup_cons_of_notMem (by simp [hb, hba]), List.dedup_cons_of_notMem hb, ih,
          List.filter_cons_of_pos (by simpa using hba), List.cons_append]
