import Mathlib
import Sintius.Lib.Except
import Sintius.Lib.Json
import Sintius.Spec.Problem
import Sintius.Spec.Canonical

/-! `canonicalJson` writes the canonical text of the JSON value that a payload
denotes, and refuses a payload exactly when something in it stands in the way.
Two payloads therefore have one text exactly when they denote one value. -/

namespace Sintius.Canonical

open Js

variable {Ref Ref' : Type} {heap : Heap Ref} {heap' : Heap Ref'}

/-- What an object denotes, given what its children do. -/
def DenotesShape (child : Value Ref → Json → Prop) : Shape (Value Ref) → Json → Prop
  | .array items, j => ∃ js, List.Forall₂
      (fun item x => ∃ v, item = some v ∧ child (undefinedAsNull v) x) items js ∧ j = .array js
  | .plain keys value, j => ∃ members, j = .object members ∧ ∀ key,
      (key ∈ keys.names ∧ (value key).isUndefined = false →
        ∃ x, members key = some x ∧ child (value key) x) ∧
      (¬ (key ∈ keys.names ∧ (value key).isUndefined = false) → members key = none)
  | .other _ _, _ => False

/-- The JSON value of a payload of at most so many levels: undefined properties are not members,
undefined items are null, and arrays are dense. -/
def DenotesAt (heap : Heap Ref) : ℕ → Value Ref → Json → Prop
  | 0, _, _ => False
  | n + 1, v, j =>
    match v with
    | .null => j = .null
    | .bool b => j = .bool b
    | .string s => j = .string s
    | .number (.finite d) => j = .number d.value
    | .object shape => DenotesShape (DenotesAt heap n) shape j
    | .reference r => DenotesShape (DenotesAt heap n) (heap r) j
    | _ => False

/-- A payload is built from null, booleans, strings, finite numbers, dense arrays and plain
objects, and is the JSON value `j`. -/
def Denotes (heap : Heap Ref) (v : Value Ref) (j : Json) : Prop := ∃ n, DenotesAt heap n v j

theorem mem_entriesOf {keys : Keys} {value : Text → Value Ref} {entry : Text × Value Ref} :
    entry ∈ entriesOf keys value ↔
      entry.1 ∈ keys.names ∧ entry.2 = value entry.1 ∧ entry.2.isUndefined = false := by
  unfold entriesOf
  rw [List.mem_mergeSort, List.mem_filter, List.mem_map]
  constructor
  · rintro ⟨⟨key, hkey, rfl⟩, hdef⟩
    exact ⟨hkey, rfl, by simpa using hdef⟩
  · rintro ⟨hkey, hvalue, hdef⟩
    exact ⟨⟨entry.1, hkey, by rw [← hvalue]⟩, by simpa using hdef⟩

theorem nodup_entriesOf (keys : Keys) (value : Text → Value Ref) :
    ((entriesOf keys value).map Prod.fst).Nodup := by
  unfold entriesOf
  have hperm := (List.mergeSort_perm ((keys.names.map fun key => (key, value key)).filter
    fun entry => !entry.2.isUndefined) fun left right => left.1 ≤ right.1).map Prod.fst
  rw [hperm.nodup_iff]
  have hsub := List.filter_sublist (p := fun entry : Text × Value Ref => !entry.2.isUndefined)
    (l := keys.names.map fun key => (key, value key))
  refine (hsub.map Prod.fst).nodup ?_
  rw [List.map_map]
  simpa [Function.comp_def] using keys.nodup

/-- The entries come in the order of their keys. -/
theorem sorted_entriesOf (keys : Keys) (value : Text → Value Ref) :
    (entriesOf keys value).Pairwise fun a b => a.1 < b.1 := by
  have hle : (entriesOf keys value).Pairwise fun a b => a.1 ≤ b.1 := by
    refine (List.pairwise_mergeSort ?_ ?_ _).imp ?_
    · intro a b c hab hbc
      simp only [decide_eq_true_eq] at hab hbc ⊢
      exact le_trans hab hbc
    · intro a b
      simpa using le_total a.1 b.1
    · intro a b hab
      simpa using hab
  have hne : (entriesOf keys value).Pairwise fun a b => a.1 ≠ b.1 :=
    List.pairwise_map.mp (nodup_entriesOf keys value)
  exact hle.imp₂ (fun a b hab hne => lt_of_le_of_ne hab hne) hne

/-- The members of a denoted object, in the order of the keys. -/
theorem lists_entriesOf {keys : Keys} {value : Text → Value Ref} {members : Text → Option Json}
    {child : Value Ref → Json → Prop}
    (h : ∀ key, (key ∈ keys.names ∧ (value key).isUndefined = false →
        ∃ x, members key = some x ∧ child (value key) x) ∧
      (¬ (key ∈ keys.names ∧ (value key).isUndefined = false) → members key = none)) :
    Lists ((entriesOf keys value).map fun entry => (entry.1, (members entry.1).getD .null))
      members where
  sorted := by
    rw [List.pairwise_map]
    exact sorted_entriesOf keys value
  mem := by
    intro k j
    rw [List.mem_map]
    constructor
    · intro hj
      by_cases hdef : k ∈ keys.names ∧ (value k).isUndefined = false
      · exact ⟨(k, value k), mem_entriesOf.mpr ⟨hdef.1, rfl, hdef.2⟩, by simp [hj]⟩
      · rw [(h k).2 hdef] at hj
        cases hj
    · rintro ⟨⟨k', v⟩, hmem, heq⟩
      obtain ⟨hkey, hvalue, hdef⟩ := mem_entriesOf.mp hmem
      dsimp only at hkey hvalue hdef heq
      rw [hvalue] at hdef
      obtain ⟨x, hx, -⟩ := (h k').1 ⟨hkey, hdef⟩
      rw [hx] at heq
      cases heq
      exact hx

theorem writes_shape {n : ℕ} {child : Value Ref → Except Failure Text}
    {denote : Value Ref → Json → Prop}
    (ih : ∀ {v t j}, child v = .ok t → denote v j → Writes n j t) {shape : Shape (Value Ref)}
    {t : Text} {j : Json} (ht : canonicalShape child shape = .ok t)
    (hj : DenotesShape denote shape j) : Writes (n + 1) j t := by
  cases shape with
  | array items =>
    obtain ⟨js, hjs, rfl⟩ := hj
    obtain ⟨texts, htexts, ht⟩ := Except.bind_eq_ok_iff.mp ht
    cases ht
    refine ⟨texts, ?_, rfl⟩
    have htexts := Except.mapM_eq_ok_iff.mp htexts
    clear * - ih hjs htexts
    induction hjs generalizing texts with
    | nil =>
      cases htexts
      exact .nil
    | cons hitem _ ih' =>
      cases htexts with
      | cons htext htexts =>
        obtain ⟨v, rfl, hv⟩ := hitem
        exact .cons (ih htext hv) (ih' _ htexts)
  | plain keys value =>
    obtain ⟨members, rfl, hmembers⟩ := hj
    obtain ⟨texts, htexts, ht⟩ := Except.bind_eq_ok_iff.mp ht
    cases ht
    refine ⟨_, texts, lists_entriesOf hmembers, ?_, rfl⟩
    rw [List.forall₂_map_left_iff]
    have hmem := (List.forall₂_and_left _ _).mpr
      ⟨fun entry (h : entry ∈ entriesOf keys value) => mem_entriesOf.mp h,
        Except.mapM_eq_ok_iff.mp htexts⟩
    refine hmem.imp ?_
    rintro ⟨key, v⟩ text ⟨⟨hkey, hvalue, hdef⟩, htext⟩
    dsimp only at hkey hvalue hdef htext ⊢
    subst hvalue
    obtain ⟨s, hs, htext⟩ := Except.bind_eq_ok_iff.mp htext
    obtain ⟨x, hx, hchild⟩ := (hmembers key).1 ⟨hkey, hdef⟩
    refine ⟨s, ?_, ?_⟩
    · simpa [hx] using ih hs hchild
    · cases htext
      rfl
  | other _ _ => cases hj

/-- Negative zero is written as zero. -/
theorem exists_numberCase {d : Double} {t : Text} (ht : numberCase (.finite d) = .ok t) :
    ∃ e : Double, e.value = d.value ∧ t = numberText e := by
  unfold numberCase at ht
  cases ht
  split_ifs with hzero
  · obtain ⟨-, hcode⟩ := Bool.and_eq_true_iff.mp hzero
    refine ⟨⟨false, 0, by positivity⟩, ?_, by decide +kernel⟩
    simp [Double.value, magnitude, beq_iff_eq.mp hcode]
  · exact ⟨d, rfl, rfl⟩

/-- `canonicalJson` writes the canonical text of what a payload denotes. -/
theorem writes_canonicalAt {n m : ℕ} {v : Value Ref} {t : Text} {j : Json}
    (ht : canonicalAt heap n v = .ok t) (hj : DenotesAt heap m v j) : Writes n j t := by
  induction n generalizing m v t j with
  | zero => cases ht
  | succ n ih =>
    cases m with
    | zero => cases hj
    | succ m =>
      have hshape : ∀ shape, canonicalShape (canonicalAt heap n) shape = .ok t →
          DenotesShape (DenotesAt heap m) shape j → Writes (n + 1) j t :=
        fun _ ht hj => writes_shape (fun hv hx => ih hv hx) ht hj
      cases v with
      | undefined => cases ht
      | null =>
        cases ht
        exact hj ▸ rfl
      | bool b =>
        cases ht
        exact hj ▸ rfl
      | number x =>
        cases x with
        | nan => cases hj
        | infinity _ => cases hj
        | finite d =>
          rw [show j = .number d.value from hj]
          exact exists_numberCase ht
      | string s =>
        cases ht
        exact hj ▸ rfl
      | bigint _ => cases ht
      | symbol => cases ht
      | function => cases ht
      | object shape => exact hshape shape ht hj
      | reference r => exact hshape (heap r) ht hj

/-- Two texts are equal exactly when the values they were written for are. -/
theorem canonicalJson_eq_iff {v : Value Ref} {w : Value Ref'} {t t' : Text} {j j' : Json}
    (hv : Denotes heap v j) (hw : Denotes heap' w j') (ht : canonicalJson heap v = .ok t)
    (ht' : canonicalJson heap' w = .ok t') : t = t' ↔ j = j' := by
  obtain ⟨n, hv⟩ := hv
  obtain ⟨m, hw⟩ := hw
  have hj := writes_canonicalAt ht hv
  have hj' := writes_canonicalAt ht' hw
  constructor
  · rintro rfl
    exact hj.injective hj'
  · rintro rfl
    exact hj.functional hj'

/-- The shape of an object, given in place or by reference. -/
def shapeOf (heap : Heap Ref) : Value Ref → Option (Shape (Value Ref))
  | .object shape => some shape
  | .reference r => some (heap r)
  | _ => none

/-- Values that no JSON text stands for. -/
def NotJson : Value Ref → Prop
  | .undefined => True
  | .bigint _ => True
  | .symbol => True
  | .function => True
  | _ => False

def NotFinite : Value Ref → Prop
  | .number .nan => True
  | .number (.infinity _) => True
  | _ => False

/-- Something in a payload, reached at this depth, is not JSON, not finite, not plain or too
deep. -/
inductive Offends (heap : Heap Ref) : ℕ → Value Ref → Prop where
  | tooDeep {depth v} : MAX_DEPTH < depth → Offends heap depth v
  | notJson {depth v} : NotJson v → Offends heap depth v
  | notFinite {depth v} : NotFinite v → Offends heap depth v
  | notPlain {depth v keys value} : shapeOf heap v = some (.other keys value) →
      Offends heap depth v
  | item {depth v items x} : shapeOf heap v = some (.array items) → some x ∈ items →
      Offends heap (depth + 1) (undefinedAsNull x) → Offends heap depth v
  | member {depth v keys value key} : shapeOf heap v = some (.plain keys value) →
      key ∈ keys.names → (value key).isUndefined = false →
      Offends heap (depth + 1) (value key) → Offends heap depth v

theorem not_notJson_of_shapeOf {v : Value Ref} {shape : Shape (Value Ref)}
    (h : shapeOf heap v = some shape) : ¬ NotJson v ∧ ¬ NotFinite v := by
  cases v with
  | object _ => exact ⟨id, id⟩
  | reference _ => exact ⟨id, id⟩
  | _ => cases h

/-- What an object needs of its children to be written. -/
def ShapeAccepted (accepted : Value Ref → Prop) : Shape (Value Ref) → Prop
  | .array items => ∀ x, some x ∈ items → accepted (undefinedAsNull x)
  | .plain keys value => ∀ key ∈ keys.names, (value key).isUndefined = false →
      accepted (value key)
  | .other _ _ => False

theorem exists_canonicalShape_iff {child : Value Ref → Except Failure Text}
    {shape : Shape (Value Ref)} : (∃ t, canonicalShape child shape = .ok t) ↔
      ShapeAccepted (fun v => ∃ t, child v = .ok t) shape := by
  cases shape with
  | array items =>
    simp only [canonicalShape, Except.bind_eq_ok_iff, ShapeAccepted]
    constructor
    · rintro ⟨t, texts, htexts, -⟩ x hx
      exact Except.exists_mapM_eq_ok_iff.mp ⟨texts, htexts⟩ (some x) hx
    · intro h
      refine Exists.elim (Except.exists_mapM_eq_ok_iff.mpr fun item hitem => ?_)
        fun texts htexts => ⟨_, texts, htexts, rfl⟩
      cases item with
      | none => exact ⟨[], rfl⟩
      | some x => exact h x hitem
  | plain keys value =>
    simp only [canonicalShape, Except.bind_eq_ok_iff, ShapeAccepted]
    have hmap := @Except.exists_mapM_eq_ok_iff _ _ _ (fun entry => do
      let text ← child entry.2
      .ok (memberText entry.1 text)) (entriesOf keys value)
    constructor
    · rintro ⟨t, texts, htexts, -⟩ key hkey hdef
      obtain ⟨_, h⟩ := hmap.mp ⟨texts, htexts⟩ (key, value key)
        (mem_entriesOf.mpr ⟨hkey, rfl, hdef⟩)
      obtain ⟨text, htext, -⟩ := Except.bind_eq_ok_iff.mp h
      exact ⟨text, htext⟩
    · intro h
      obtain ⟨texts, htexts⟩ := hmap.mpr fun entry hentry => by
        obtain ⟨hkey, hvalue, hdef⟩ := mem_entriesOf.mp hentry
        rw [hvalue] at hdef
        obtain ⟨text, htext⟩ := h entry.1 hkey hdef
        exact ⟨_, Except.bind_eq_ok_iff.mpr ⟨text, hvalue ▸ htext, rfl⟩⟩
      exact ⟨_, texts, htexts, rfl⟩
  | other _ _ => simp [canonicalShape, ShapeAccepted, invalid]

theorem exists_canonicalAt_iff {n : ℕ} (hn : n ≤ MAX_DEPTH + 1) {v : Value Ref} :
    (∃ t, canonicalAt heap n v = .ok t) ↔ ¬ Offends heap (MAX_DEPTH + 1 - n) v := by
  induction n generalizing v with
  | zero =>
    constructor
    · rintro ⟨t, ht⟩
      cases ht
    · intro h
      exact absurd (.tooDeep (by omega)) h
  | succ n ih =>
    have hdepth : MAX_DEPTH + 1 - (n + 1) + 1 = MAX_DEPTH + 1 - n := by omega
    have hshallow : ¬ MAX_DEPTH < MAX_DEPTH + 1 - (n + 1) := by omega
    -- an object offends exactly when one of its children does
    have hshape : ∀ shape, shapeOf heap v = some shape →
        ((∃ t, canonicalShape (canonicalAt heap n) shape = .ok t) ↔
          ¬ Offends heap (MAX_DEPTH + 1 - (n + 1)) v) := by
      intro shape hv
      rw [exists_canonicalShape_iff]
      constructor
      · intro haccepted hoff
        cases hoff with
        | tooDeep h => exact hshallow h
        | notJson h => exact (not_notJson_of_shapeOf hv).1 h
        | notFinite h => exact (not_notJson_of_shapeOf hv).2 h
        | notPlain h =>
          cases hv.symm.trans h
          exact haccepted
        | item h hx hoff =>
          cases hv.symm.trans h
          rw [hdepth] at hoff
          exact (ih (by omega)).mp (haccepted _ hx) hoff
        | member h hkey hdef hoff =>
          cases hv.symm.trans h
          rw [hdepth] at hoff
          exact (ih (by omega)).mp (haccepted _ hkey hdef) hoff
      · intro hoff
        cases shape with
        | array items =>
          intro x hx
          refine (ih (by omega)).mpr fun h => hoff (.item hv hx ?_)
          rwa [hdepth]
        | plain keys value =>
          intro key hkey hdef
          refine (ih (by omega)).mpr fun h => hoff (.member hv hkey hdef ?_)
          rwa [hdepth]
        | other _ _ => exact hoff (.notPlain hv)
    have hleaf : ∀ {t}, shapeOf heap v = none → ¬ NotJson v → ¬ NotFinite v →
        canonicalAt heap (n + 1) v = .ok t → ((∃ t, canonicalAt heap (n + 1) v = .ok t) ↔
          ¬ Offends heap (MAX_DEPTH + 1 - (n + 1)) v) := by
      intro t hv hjson hfinite ht
      refine ⟨fun _ hoff => ?_, fun _ => ⟨t, ht⟩⟩
      cases hoff with
      | tooDeep h => exact hshallow h
      | notJson h => exact hjson h
      | notFinite h => exact hfinite h
      | notPlain h => rw [hv] at h; cases h
      | item h => rw [hv] at h; cases h
      | member h => rw [hv] at h; cases h
    have hoffends : Offends heap (MAX_DEPTH + 1 - (n + 1)) v →
        (∀ t, canonicalAt heap (n + 1) v ≠ .ok t) → ((∃ t, canonicalAt heap (n + 1) v = .ok t) ↔
          ¬ Offends heap (MAX_DEPTH + 1 - (n + 1)) v) := by
      intro hoff hne
      exact ⟨fun ⟨t, ht⟩ => absurd ht (hne t), fun h => absurd hoff h⟩
    cases v with
    | undefined => exact hoffends (.notJson trivial) (by simp [canonicalAt, invalid])
    | null => exact hleaf rfl id id rfl
    | bool b => exact hleaf rfl id id rfl
    | number x =>
      cases x with
      | nan => exact hoffends (.notFinite trivial) (by simp [canonicalAt, numberCase, invalid])
      | infinity _ =>
        exact hoffends (.notFinite trivial) (by simp [canonicalAt, numberCase, invalid])
      | finite d => exact hleaf rfl id id rfl
    | string s => exact hleaf rfl id id rfl
    | bigint _ => exact hoffends (.notJson trivial) (by simp [canonicalAt, invalid])
    | symbol => exact hoffends (.notJson trivial) (by simp [canonicalAt, invalid])
    | function => exact hoffends (.notJson trivial) (by simp [canonicalAt, invalid])
    | object shape => exact hshape shape rfl
    | reference r => exact hshape (heap r) rfl

/-- A payload is refused with `invalid_trusted_context`. -/
def Refused {α : Type} (result : Except Failure α) : Prop :=
  ∃ detail, result = fail .invalid_trusted_context detail

theorem refused_mapM {α β : Type} {f : α → Except Failure β}
    (h : ∀ a, (∃ b, f a = .ok b) ∨ Refused (f a)) (as : List α) :
    (∃ bs, as.mapM f = .ok bs) ∨ Refused (as.mapM f) := by
  induction as with
  | nil => exact .inl ⟨[], rfl⟩
  | cons a as ih =>
    rw [List.mapM_cons]
    obtain ⟨b, hb⟩ | ⟨detail, hb⟩ := h a
    · obtain ⟨bs, hbs⟩ | ⟨detail, hbs⟩ := ih
      · exact .inl ⟨b :: bs, by rw [hb, hbs]; rfl⟩
      · exact .inr ⟨detail, by rw [hb, hbs]; rfl⟩
    · exact .inr ⟨detail, by rw [hb]; rfl⟩

theorem refused_bind {α β : Type} {x : Except Failure α} {f : α → Except Failure β}
    (hx : (∃ a, x = .ok a) ∨ Refused x) (hf : ∀ a, (∃ b, f a = .ok b) ∨ Refused (f a)) :
    (∃ b, (x >>= f) = .ok b) ∨ Refused (x >>= f) := by
  obtain ⟨a, rfl⟩ | ⟨detail, rfl⟩ := hx
  · exact hf a
  · exact .inr ⟨detail, rfl⟩

theorem refused_canonicalShape {child : Value Ref → Except Failure Text}
    (h : ∀ v, (∃ t, child v = .ok t) ∨ Refused (child v)) (shape : Shape (Value Ref)) :
    (∃ t, canonicalShape child shape = .ok t) ∨ Refused (canonicalShape child shape) := by
  cases shape with
  | array items =>
    refine refused_bind (refused_mapM ?_ _) fun texts => .inl ⟨_, rfl⟩
    intro item
    cases item with
    | none => exact .inl ⟨[], rfl⟩
    | some v => exact h _
  | plain keys value =>
    refine refused_bind (refused_mapM ?_ _) fun texts => .inl ⟨_, rfl⟩
    intro entry
    exact refused_bind (h entry.2) fun text => .inl ⟨_, rfl⟩
  | other _ _ => exact .inr ⟨_, rfl⟩

theorem refused_canonicalAt (n : ℕ) (v : Value Ref) :
    (∃ t, canonicalAt heap n v = .ok t) ∨ Refused (canonicalAt heap n v) := by
  induction n generalizing v with
  | zero => exact .inr ⟨_, rfl⟩
  | succ n ih =>
    cases v with
    | undefined => exact .inr ⟨_, rfl⟩
    | null => exact .inl ⟨_, rfl⟩
    | bool b => exact .inl ⟨_, rfl⟩
    | number x =>
      cases x with
      | nan => exact .inr ⟨_, rfl⟩
      | infinity _ => exact .inr ⟨_, rfl⟩
      | finite d => exact .inl ⟨_, rfl⟩
    | string s => exact .inl ⟨_, rfl⟩
    | bigint _ => exact .inr ⟨_, rfl⟩
    | symbol => exact .inr ⟨_, rfl⟩
    | function => exact .inr ⟨_, rfl⟩
    | object shape => exact refused_canonicalShape ih shape
    | reference r => exact refused_canonicalShape ih (heap r)

theorem wellFormed_shape {child : Value Ref → Except Failure Text}
    (h : ∀ {v t}, child v = .ok t → WellFormed t) {shape : Shape (Value Ref)} {t : Text}
    (ht : canonicalShape child shape = .ok t) : WellFormed t := by
  cases shape with
  | array items =>
    obtain ⟨texts, htexts, ht⟩ := Except.bind_eq_ok_iff.mp ht
    cases ht
    have hall : ∀ t ∈ texts, WellFormed t := by
      intro t ht
      obtain ⟨item, -, hitem⟩ := Except.exists_of_mem_mapM htexts ht
      cases item with
      | none =>
        cases hitem
        exact .nil
      | some v => exact h hitem
    exact .unit (by decide) ((wellFormed_joined hall).append (.unit (by decide) .nil))
  | plain keys value =>
    obtain ⟨texts, htexts, ht⟩ := Except.bind_eq_ok_iff.mp ht
    cases ht
    have hall : ∀ t ∈ texts, WellFormed t := by
      intro t ht
      obtain ⟨entry, -, hentry⟩ := Except.exists_of_mem_mapM htexts ht
      obtain ⟨text, htext, heq⟩ := Except.bind_eq_ok_iff.mp hentry
      cases heq
      exact (wellFormed_quoteJson _).append (.unit (by decide) (h htext))
    exact .unit (by decide) ((wellFormed_joined hall).append (.unit (by decide) .nil))
  | other _ _ => cases ht

/-- The text has no lone surrogates, so that its bytes determine it. -/
theorem wellFormed_canonicalAt {n : ℕ} {v : Value Ref} {t : Text}
    (ht : canonicalAt heap n v = .ok t) : WellFormed t := by
  induction n generalizing v t with
  | zero => cases ht
  | succ n ih =>
    have hshape : ∀ shape, canonicalShape (canonicalAt heap n) shape = .ok t → WellFormed t :=
      fun _ ht => wellFormed_shape (fun h => ih h) ht
    cases v with
    | undefined => cases ht
    | null =>
      cases ht
      exact wellFormed_of_ascii (by simp [nullText])
    | bool b =>
      cases ht
      cases b <;> exact wellFormed_of_ascii (by simp [boolText, trueText, falseText])
    | number x =>
      cases x with
      | nan => cases ht
      | infinity _ => cases ht
      | finite d =>
        obtain ⟨e, -, rfl⟩ := exists_numberCase ht
        exact wellFormed_number
    | string s =>
      cases ht
      exact wellFormed_quoteJson s
    | bigint _ => cases ht
    | symbol => cases ht
    | function => cases ht
    | object shape => exact hshape shape ht
    | reference r => exact hshape (heap r) ht

/-- An array in the payload has a hole. -/
inductive HasHole (heap : Heap Ref) : Value Ref → Prop where
  | hole {v items} : shapeOf heap v = some (.array items) → none ∈ items → HasHole heap v
  | item {v items x} : shapeOf heap v = some (.array items) → some x ∈ items →
      HasHole heap (undefinedAsNull x) → HasHole heap v
  | member {v keys value key} : shapeOf heap v = some (.plain keys value) →
      key ∈ keys.names → HasHole heap (value key) → HasHole heap v

theorem exists_forall₂ {α β : Type} {R : α → β → Prop} {as : List α}
    (h : ∀ a ∈ as, ∃ b, R a b) : ∃ bs, List.Forall₂ R as bs := by
  induction as with
  | nil => exact ⟨[], .nil⟩
  | cons a as ih =>
    obtain ⟨b, hb⟩ := h a List.mem_cons_self
    obtain ⟨bs, hbs⟩ := ih fun a ha => h a (List.mem_cons_of_mem _ ha)
    exact ⟨b :: bs, .cons hb hbs⟩

theorem exists_of_mem_left {α β : Type} {R : α → β → Prop} {as : List α} {bs : List β} {a : α}
    (h : List.Forall₂ R as bs) (ha : a ∈ as) : ∃ b, R a b := by
  induction h with
  | nil => cases ha
  | cons hhead _ ih =>
    rcases List.mem_cons.mp ha with rfl | ha
    · exact ⟨_, hhead⟩
    · exact ih ha

open Classical in
theorem exists_denotesShape {accepted : Value Ref → Prop} {denote : Value Ref → Json → Prop}
    {v : Value Ref} {shape : Shape (Value Ref)} (hv : shapeOf heap v = some shape)
    (hshape : ShapeAccepted accepted shape) (hdense : ¬ HasHole heap v)
    (ih : ∀ {v}, accepted v → ¬ HasHole heap v → ∃ j, denote v j) :
    ∃ j, DenotesShape denote shape j := by
  cases shape with
  | array items =>
    have hitems : ∀ item ∈ items, ∃ j, ∃ x, item = some x ∧ denote (undefinedAsNull x) j := by
      intro item hitem
      cases item with
      | none => exact absurd (.hole hv hitem) hdense
      | some x =>
        obtain ⟨j, hj⟩ := ih (hshape x hitem) fun h => hdense (.item hv hitem h)
        exact ⟨j, x, rfl, hj⟩
    obtain ⟨js, hjs⟩ := exists_forall₂ hitems
    exact ⟨_, js, hjs, rfl⟩
  | plain keys value =>
    have hmember : ∀ key, key ∈ keys.names ∧ (value key).isUndefined = false →
        ∃ j, denote (value key) j := by
      rintro key ⟨hkey, hdef⟩
      exact ih (hshape key hkey hdef) fun h => hdense (.member hv hkey h)
    choose! member hdenote using hmember
    refine ⟨_, fun key => if key ∈ keys.names ∧ (value key).isUndefined = false then
      some (member key) else none, rfl, fun key => ⟨fun h => ?_, fun h => if_neg h⟩⟩
    exact ⟨member key, if_pos h, hdenote key h⟩
  | other _ _ => exact hshape.elim

/-- What is accepted denotes a value, holes apart. -/
theorem exists_denotesAt {n : ℕ} {v : Value Ref} (h : ∃ t, canonicalAt heap n v = .ok t)
    (hdense : ¬ HasHole heap v) : ∃ j, DenotesAt heap n v j := by
  induction n generalizing v with
  | zero =>
    obtain ⟨t, ht⟩ := h
    cases ht
  | succ n ih =>
    have hshape : ∀ shape, shapeOf heap v = some shape →
        (∃ t, canonicalShape (canonicalAt heap n) shape = .ok t) →
        ∃ j, DenotesShape (DenotesAt heap n) shape j :=
      fun _ hv ht => exists_denotesShape hv (exists_canonicalShape_iff.mp ht) hdense
        fun h hd => ih h hd
    cases v with
    | null => exact ⟨_, rfl⟩
    | bool b => exact ⟨_, rfl⟩
    | number x =>
      cases x with
      | finite d => exact ⟨_, rfl⟩
      | _ =>
        obtain ⟨t, ht⟩ := h
        cases ht
    | string s => exact ⟨_, rfl⟩
    | object shape => exact hshape shape rfl h
    | reference r => exact hshape (heap r) rfl h
    | _ =>
      obtain ⟨t, ht⟩ := h
      cases ht

theorem not_offends_of_denotesAt {n depth : ℕ} {v : Value Ref} {j : Json}
    (hj : DenotesAt heap n v j) (hdepth : depth + n ≤ MAX_DEPTH + 1) :
    ¬ Offends heap depth v := by
  induction n generalizing depth v j with
  | zero => cases hj
  | succ n ih =>
    have hshape : ∀ {shape}, shapeOf heap v = some shape →
        DenotesShape (DenotesAt heap n) shape j := by
      intro shape hv
      cases v with
      | object _ => cases hv; exact hj
      | reference _ => cases hv; exact hj
      | _ => cases hv
    intro hoff
    cases hoff with
    | tooDeep h => omega
    | notJson h =>
      cases v with
      | undefined => exact hj
      | bigint _ => exact hj
      | symbol => exact hj
      | function => exact hj
      | _ => exact h
    | notFinite h =>
      cases v with
      | number x =>
        cases x with
        | finite d => exact h
        | _ => exact hj
      | _ => exact h
    | notPlain h => exact hshape h
    | item h hx hoff =>
      obtain ⟨js, hjs, -⟩ := hshape h
      obtain ⟨x', y, hy, hj⟩ := exists_of_mem_left hjs hx
      cases hy
      exact ih hj (by omega) hoff
    | member h hkey hdef hoff =>
      obtain ⟨members, -, hmembers⟩ := hshape h
      obtain ⟨x, -, hj⟩ := (hmembers _).1 ⟨hkey, hdef⟩
      exact ih hj (by omega) hoff

theorem stringifyShape_of_denotes {child : Value Ref → Option Json}
    {denote : Value Ref → Json → Prop} {shape : Shape (Value Ref)} {j : Json}
    (ih : ∀ {v j}, denote v j → child v = some j)
    (hundef : ∀ {v}, v.isUndefined = true → child v = none)
    (hnull : ∀ {j}, denote .null j → j = .null)
    (hj : DenotesShape denote shape j) : stringifyShape child shape = j := by
  cases shape with
  | array items =>
    obtain ⟨js, hjs, rfl⟩ := hj
    refine congrArg Json.array ?_
    induction hjs with
    | nil => rfl
    | cons hitem _ ih' =>
      obtain ⟨v, rfl, hv⟩ := hitem
      rw [List.map_cons, ih', Option.bind_some]
      unfold undefinedAsNull at hv
      split_ifs at hv with hundefined
      · rw [hundef hundefined, hnull hv, Option.getD_none]
      · rw [ih hv, Option.getD_some]
  | plain keys value =>
    obtain ⟨members, rfl, hmembers⟩ := hj
    refine congrArg Json.object (funext fun key => ?_)
    by_cases hkey : key ∈ keys.names
    · rw [if_pos hkey]
      by_cases hdef : (value key).isUndefined = false
      · obtain ⟨x, hx, hchild⟩ := (hmembers key).1 ⟨hkey, hdef⟩
        rw [hx, ih hchild]
      · rw [(hmembers key).2 fun h => hdef h.2, hundef (by simpa using hdef)]
    · rw [if_neg hkey, (hmembers key).2 fun h => hkey h.1]
  | other _ _ => cases hj

theorem stringifyAt_of_denotesAt {n m : ℕ} {v : Value Ref} {j : Json} (hnm : n ≤ m)
    (hj : DenotesAt heap n v j) : stringifyAt heap m v = some j := by
  induction n generalizing m v j with
  | zero => cases hj
  | succ n ih =>
    obtain ⟨m, rfl⟩ : ∃ m', m = m' + 1 := ⟨m - 1, by omega⟩
    have hshape : ∀ shape, DenotesShape (DenotesAt heap n) shape j →
        stringifyShape (stringifyAt heap m) shape = j := by
      intro shape hj
      refine stringifyShape_of_denotes (fun hv => ih (by omega) hv) ?_ ?_ hj
      · intro v hv
        cases v with
        | undefined => cases m <;> rfl
        | _ => cases hv
      · intro j hj
        cases n with
        | zero => cases hj
        | succ n => exact hj
    cases v with
    | null => exact congrArg some hj.symm
    | bool b => exact congrArg some hj.symm
    | string s => exact congrArg some hj.symm
    | number x =>
      cases x with
      | finite d => exact congrArg some hj.symm
      | _ => cases hj
    | object shape => exact congrArg some (hshape shape hj)
    | reference r => exact congrArg some (hshape (heap r) hj)
    | _ => cases hj

theorem denotesShape_of_accepted {accepted : Value Ref → Prop}
    {denote denote' : Value Ref → Json → Prop} {shape : Shape (Value Ref)} {j : Json}
    (h : ∀ {v j}, accepted v → denote v j → denote' v j) (haccepted : ShapeAccepted accepted shape)
    (hj : DenotesShape denote shape j) : DenotesShape denote' shape j := by
  cases shape with
  | array items =>
    obtain ⟨js, hjs, rfl⟩ := hj
    refine ⟨js, ?_, rfl⟩
    have hmem := (List.forall₂_and_left _ _).mpr
      ⟨fun item (hitem : item ∈ items) => hitem, hjs⟩
    refine hmem.imp ?_
    rintro item x ⟨hitem, v, rfl, hv⟩
    exact ⟨v, rfl, h (haccepted v hitem) hv⟩
  | plain keys value =>
    obtain ⟨members, rfl, hmembers⟩ := hj
    refine ⟨members, rfl, fun key => ⟨fun hkey => ?_, (hmembers key).2⟩⟩
    obtain ⟨x, hx, hchild⟩ := (hmembers key).1 hkey
    exact ⟨x, hx, h (haccepted key hkey.1 hkey.2) hchild⟩
  | other _ _ => cases hj

/-- An accepted payload is no deeper than the limit. -/
theorem denotesAt_of_accepted {n m : ℕ} {v : Value Ref} {j : Json}
    (ht : ∃ t, canonicalAt heap n v = .ok t) (hj : DenotesAt heap m v j) :
    DenotesAt heap n v j := by
  induction n generalizing m v j with
  | zero =>
    obtain ⟨t, ht⟩ := ht
    cases ht
  | succ n ih =>
    cases m with
    | zero => cases hj
    | succ m =>
      have hshape : ∀ shape, (∃ t, canonicalShape (canonicalAt heap n) shape = .ok t) →
          DenotesShape (DenotesAt heap m) shape j → DenotesShape (DenotesAt heap n) shape j :=
        fun _ ht hj => denotesShape_of_accepted (fun h hj => ih h hj)
          (exists_canonicalShape_iff.mp ht) hj
      cases v with
      | object shape => exact hshape shape ht hj
      | reference r => exact hshape (heap r) ht hj
      | number x =>
        cases x with
        | finite d => exact hj
        | _ => cases hj
      | _ => exact hj

/-- `JSON.stringify` writes what an accepted payload denotes. -/
theorem stringify_of_denotes {v : Value Ref} {t : Text} {j : Json}
    (ht : canonicalJson heap v = .ok t) (hj : Denotes heap v j) :
    stringify heap v = some j := by
  obtain ⟨n, hj⟩ := hj
  exact stringifyAt_of_denotesAt le_rfl (denotesAt_of_accepted ⟨t, ht⟩ hj)

/-- What a property denotes: nothing if it is undefined. -/
def DenotesProperty (heap : Heap Ref) (n : ℕ) (v : Value Ref) (x : Option Json) : Prop :=
  (v.isUndefined = true ∧ x = none) ∨
    (v.isUndefined = false ∧ ∃ j, x = some j ∧ DenotesAt heap n v j)

/-- The object with these properties. -/
def document (properties : List (Text × Option Json)) : Json :=
  .object fun key => (properties.lookup key).join

theorem denotesAt_literal {n : ℕ} {properties : List (Text × Value Ref)}
    {fields : List (Text × Option Json)}
    (h : List.Forall₂ (fun p f => p.1 = f.1 ∧ DenotesProperty heap n p.2 f.2) properties fields) :
    DenotesAt heap (n + 1) (literal properties) (document fields) := by
  refine ⟨_, rfl, fun key => ?_⟩
  simp only [List.mem_dedup]
  induction h with
  | nil => simp
  | @cons p f ps fs hhead _ ih =>
    obtain ⟨k, v⟩ := p
    obtain ⟨k', x⟩ := f
    obtain ⟨rfl, hv⟩ := hhead
    by_cases hkey : key = k
    · subst hkey
      simp only [List.map_cons, List.mem_cons, true_or, List.lookup_cons, beq_self_eq_true, true_and,
        Option.getD_some, Option.join_some]
      obtain ⟨hundef, rfl⟩ | ⟨hdef, j, rfl, hj⟩ := hv
      · rw [hundef]
        exact ⟨nofun, fun _ => rfl⟩
      · exact ⟨fun _ => ⟨j, rfl, hj⟩, fun h => absurd hdef h⟩
    · have hne : (key == k) = false := by simpa using hkey
      simpa [List.lookup_cons, hne, hkey] using ih

/-- A payload of few enough levels has a canonical text. -/
theorem exists_canonicalJson_of_denotesAt {n : ℕ} {v : Value Ref} {j : Json}
    (h : DenotesAt heap n v j) (hn : n ≤ MAX_DEPTH + 1) : ∃ t, canonicalJson heap v = .ok t := by
  refine (exists_canonicalAt_iff le_rfl).mpr ?_
  simpa using not_offends_of_denotesAt h (by simpa using hn : 0 + n ≤ MAX_DEPTH + 1)

/-- Fields can be read back from a document. -/
theorem document_inj {fields fields' : List (Text × Option Json)}
    (h : document fields = document fields') (hkeys : fields.map Prod.fst = fields'.map Prod.fst)
    (hnodup : (fields.map Prod.fst).Nodup) : fields = fields' := by
  have hlookup : ∀ key ∈ fields.map Prod.fst,
      (fields.lookup key).join = (fields'.lookup key).join :=
    fun key _ => congrFun (Json.object.inj h) key
  clear h
  induction fields generalizing fields' with
  | nil => exact (List.map_eq_nil_iff.mp hkeys.symm).symm
  | cons f fs ih =>
    cases fields' with
    | nil => cases hkeys
    | cons f' fs' =>
      obtain ⟨k, x⟩ := f
      obtain ⟨k', x'⟩ := f'
      simp only [List.map_cons, List.cons.injEq] at hkeys
      obtain ⟨rfl, hkeys⟩ := hkeys
      obtain ⟨hk, hnodup⟩ := List.nodup_cons.mp hnodup
      have hhead := hlookup k (by simp)
      simp only [List.lookup_cons, beq_self_eq_true, Option.join_some] at hhead
      rw [hhead, ih hkeys hnodup]
      intro key hkey
      have hne : (key == k) = false := by
        simp only [beq_eq_false_iff_ne]
        rintro rfl
        exact hk hkey
      simpa [List.lookup_cons, hne] using hlookup key (List.mem_cons_of_mem _ hkey)

end Sintius.Canonical
