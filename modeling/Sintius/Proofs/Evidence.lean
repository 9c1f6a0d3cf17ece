import Mathlib
import Sintius.Lib.Except
import Sintius.Lib.Json
import Sintius.Lib.NumberText
import Sintius.Lib.Date
import Sintius.Lib.Text
import Sintius.Lib.Utf16
import Sintius.Spec.Problem
import Sintius.Spec.Canonical
import Sintius.Spec.TenantContext
import Sintius.Spec.EventEnvelope
import Sintius.Spec.AuditRecorder
import Sintius.Proofs.Canonical

/-! What the hashes rest on: a request hash tells scopes and payloads apart, and
an evidence hash verifies exactly the event that it was computed from, as far as
the hash function does not collide on their texts. -/

namespace Sintius.Canonical

open Js

variable {Ref Ref' : Type} {heap : Heap Ref} {heap' : Heap Ref'}

/-- The hash function does not collide on the texts of two values. -/
def NoCollision (sha256 : Sha256) (heap : Heap Ref) (v : Value Ref) (heap' : Heap Ref')
    (w : Value Ref') : Prop :=
  ∀ t t', canonicalJson heap v = .ok t → canonicalJson heap' w = .ok t' →
    sha256 t = sha256 t' → t = t'

theorem hash_eq_iff {sha256 : Sha256} {v : Value Ref} {w : Value Ref'} {t t' : Text} {j j' : Json}
    (hv : Denotes heap v j) (hw : Denotes heap' w j') (ht : canonicalJson heap v = .ok t)
    (ht' : canonicalJson heap' w = .ok t') (hfree : NoCollision sha256 heap v heap' w) :
    sha256 t = sha256 t' ↔ j = j' := by
  rw [← canonicalJson_eq_iff hv hw ht ht']
  exact ⟨hfree t t' ht ht', congrArg sha256⟩

/-- `{ scope, payload }` -/
def requestDocument (scope : Text) (payload : Value Ref) : Value Ref :=
  literal [(ascii "scope", .string scope), (ascii "payload", payload)]

theorem isUndefined_of_denotesAt {n : ℕ} {v : Value Ref} {j : Json} (h : DenotesAt heap n v j) :
    v.isUndefined = false := by
  cases n with
  | zero => cases h
  | succ n => cases v <;> first | rfl | cases h

theorem denotesProperty_of_denotesAt {n : ℕ} {v : Value Ref} {j : Json}
    (h : DenotesAt heap n v j) : DenotesProperty heap n v (some j) :=
  .inr ⟨isUndefined_of_denotesAt h, j, rfl, h⟩

theorem denotesAt_requestDocument {n : ℕ} {scope : Text} {payload : Value Ref} {j : Json}
    (h : DenotesAt heap (n + 1) payload j) : DenotesAt heap (n + 2) (requestDocument scope payload)
      (document [(ascii "scope", some (.string scope)), (ascii "payload", some j)]) := by
  refine denotesAt_literal (.cons ⟨rfl, ?_⟩ (.cons ⟨rfl, ?_⟩ .nil))
  · exact denotesProperty_of_denotesAt rfl
  · exact denotesProperty_of_denotesAt h

theorem denotes_requestDocument {scope : Text} {payload : Value Ref} {j : Json}
    (h : Denotes heap payload j) : Denotes heap (requestDocument scope payload)
      (document [(ascii "scope", some (.string scope)), (ascii "payload", some j)]) := by
  obtain ⟨n, h⟩ := h
  cases n with
  | zero => cases h
  | succ n => exact ⟨n + 2, denotesAt_requestDocument h⟩

/-- The request hash tells scopes and payloads apart. -/
theorem canonicalRequestHash_eq_iff {sha256 : Sha256} {scope scope' : Text} {v : Value Ref}
    {w : Value Ref'} {h h' : Text} {j j' : Json} (hv : Denotes heap v j) (hw : Denotes heap' w j')
    (hh : canonicalRequestHash sha256 heap scope v = .ok h)
    (hh' : canonicalRequestHash sha256 heap' scope' w = .ok h')
    (hfree : NoCollision sha256 heap (requestDocument scope v) heap' (requestDocument scope' w)) :
    h = h' ↔ scope = scope' ∧ j = j' := by
  obtain ⟨t, ht, hh⟩ := Except.bind_eq_ok_iff.mp hh
  obtain ⟨t', ht', hh'⟩ := Except.bind_eq_ok_iff.mp hh'
  cases hh
  cases hh'
  rw [hash_eq_iff (denotes_requestDocument hv) (denotes_requestDocument hw) ht ht' hfree]
  constructor
  · intro h
    have hfields := document_inj h rfl
      (show List.Nodup [ascii "scope", ascii "payload"] by decide +kernel)
    simpa using hfields
  · rintro ⟨rfl, rfl⟩
    rfl

/-- The same number, up to the sign of zero. -/
def SameNumber (m n : Number) : Prop :=
  m = n ∨ ∃ d e : Double, m = .finite d ∧ n = .finite e ∧ d.code = 0 ∧ e.code = 0

def SameSnapshotValue : SnapshotValue → SnapshotValue → Prop
  | .number m, .number n => SameNumber m n
  | v, w => v = w

def AuditSnapshot.get (s : AuditSnapshot) (key : Text) : Option SnapshotValue :=
  if key ∈ s.keys.names then some (s.value key) else none

/-- The same snapshot, up to the order of its fields. -/
def SameSnapshot (s s' : AuditSnapshot) : Prop :=
  ∀ key, Option.Rel SameSnapshotValue (s.get key) (s'.get key)

/-- No field differs. -/
def SameEvent (e e' : UnsealedAuditEvent) : Prop :=
  { e with before := none, after := none } = { e' with before := none, after := none } ∧
    Option.Rel SameSnapshot e.before e'.before ∧ Option.Rel SameSnapshot e.after e'.after

/-- A number that is not finite has no JSON value. -/
def numberJson : Number → Option Json
  | .finite d => some (.number d.value)
  | _ => none

def SnapshotValue.json : SnapshotValue → Option Json
  | .null => some .null
  | .bool b => some (.bool b)
  | .number n => numberJson n
  | .string s => some (.string s)

def AuditSnapshot.json (s : AuditSnapshot) : Json :=
  .object fun key => (s.get key).bind SnapshotValue.json

def AuditSnapshot.Finite (s : AuditSnapshot) : Prop :=
  ∀ key v, s.get key = some v → v.json.isSome

/-- All numbers of an event are finite. -/
def FiniteEvent (e : UnsealedAuditEvent) : Prop :=
  (∀ s, e.before = some s → s.Finite) ∧ ∀ s, e.after = some s → s.Finite

theorem sameNumber_finite_iff {d e : Double} :
    SameNumber (.finite d) (.finite e) ↔ d.value = e.value := by
  rw [value_eq_iff]
  constructor
  · rintro (h | ⟨d', e', hd, he, hd0, he0⟩)
    · exact .inl (Number.finite.inj h)
    · cases hd
      cases he
      exact .inr ⟨hd0, he0⟩
  · rintro (rfl | ⟨hd, he⟩)
    · exact .inl rfl
    · exact .inr ⟨d, e, rfl, rfl, hd, he⟩

theorem numberJson_eq_some_iff {n : Number} {j : Json} :
    numberJson n = some j ↔ ∃ d, n = .finite d ∧ j = .number d.value := by
  cases n with
  | finite d => simp [numberJson, eq_comm]
  | _ => simp [numberJson]

/-- A finite value has the JSON value of the same values only. -/
theorem json_eq_iff {v w : SnapshotValue} (hv : v.json.isSome) :
    w.json = v.json ↔ SameSnapshotValue v w := by
  obtain ⟨j, hj⟩ := Option.isSome_iff_exists.mp hv
  cases v with
  | null =>
    cases w <;> simp [SnapshotValue.json, SameSnapshotValue, numberJson_eq_some_iff]
  | bool b =>
    cases w <;>
      simp [SnapshotValue.json, SameSnapshotValue, numberJson_eq_some_iff, eq_comm (a := b)]
  | string s =>
    cases w <;>
      simp [SnapshotValue.json, SameSnapshotValue, numberJson_eq_some_iff, eq_comm (a := s)]
  | number m =>
    obtain ⟨d, rfl, rfl⟩ := numberJson_eq_some_iff.mp hj
    rw [hj]
    cases w with
    | number n =>
      simp only [SnapshotValue.json, SameSnapshotValue, numberJson_eq_some_iff, Json.number.injEq]
      constructor
      · rintro ⟨e, rfl, he⟩
        exact sameNumber_finite_iff.mpr he
      · intro h
        cases n with
        | finite e => exact ⟨e, rfl, sameNumber_finite_iff.mp h⟩
        | _ => simp [SameNumber] at h
    | _ => simp [SnapshotValue.json, SameSnapshotValue]

theorem finite_of_same {v w : SnapshotValue} (hv : v.json.isSome) (h : SameSnapshotValue v w) :
    w.json.isSome := by
  rwa [(json_eq_iff hv).mpr h]

theorem snapshot_finite_of_same {s s' : AuditSnapshot} (hs : s.Finite) (h : SameSnapshot s s') :
    s'.Finite := by
  intro key w hw
  have hkey := h key
  rw [hw] at hkey
  cases hv : s.get key with
  | none =>
    rw [hv] at hkey
    cases hkey
  | some v =>
    rw [hv] at hkey
    cases hkey with
    | some hsame => exact finite_of_same (hs key v hv) hsame

theorem snapshot_json_eq_iff {s s' : AuditSnapshot} (hs : s.Finite) (hs' : s'.Finite) :
    s.json = s'.json ↔ SameSnapshot s s' := by
  simp only [AuditSnapshot.json, Json.object.injEq, funext_iff]
  refine forall_congr' fun key => ?_
  have hfinite := hs key
  have hfinite' := hs' key
  cases hv : s.get key with
  | none =>
    cases hw : s'.get key with
    | none => simp
    | some w =>
      obtain ⟨j, hj⟩ := Option.isSome_iff_exists.mp (hfinite' w hw)
      simp [hj]
  | some v =>
    cases hw : s'.get key with
    | none =>
      obtain ⟨j, hj⟩ := Option.isSome_iff_exists.mp (hfinite v hv)
      simp [hj]
    | some w =>
      simp only [Option.bind_some, Option.rel_some_some]
      rw [eq_comm]
      exact json_eq_iff (hfinite v hv)

theorem optionalSnapshot_eq_iff {s s' : Option AuditSnapshot} (hs : ∀ t, s = some t → t.Finite)
    (hs' : ∀ t, s' = some t → t.Finite) :
    s.map AuditSnapshot.json = s'.map AuditSnapshot.json ↔ Option.Rel SameSnapshot s s' := by
  cases s with
  | none => cases s' <;> simp
  | some t =>
    cases s' with
    | none => simp
    | some t' => simpa using snapshot_json_eq_iff (hs t rfl) (hs' t' rfl)

theorem denotesAt_snapshotValue {n : ℕ} {v : SnapshotValue} {j : Json} (h : v.json = some j) :
    DenotesAt heap (n + 1) v.toValue j := by
  cases v with
  | null => cases h; rfl
  | bool b => cases h; rfl
  | string s => cases h; rfl
  | number m =>
    cases m with
    | finite d => cases h; rfl
    | _ => cases h

/-- What an event denotes. -/
def UnsealedAuditEvent.fields (e : UnsealedAuditEvent) : List (Text × Option Json) := [
  (ascii "auditEventId", some (.string e.auditEventId)),
  (ascii "tenantId", some (.string e.tenantId)),
  (ascii "occurredAt", some (.string e.occurredAt)),
  (ascii "recordedAt", some (.string e.recordedAt)),
  (ascii "actor", some (document [(ascii "id", some (.string e.actorId)),
    (ascii "kind", some (.string e.actorKind.text))])),
  (ascii "action", some (.string e.action)),
  (ascii "target", some (document [(ascii "type", some (.string e.targetType)),
    (ascii "id", some (.string e.targetId))])),
  (ascii "reason", e.reason.map .string),
  (ascii "correlationId", some (.string e.correlationId)),
  (ascii "causationId", e.causationId.map .string),
  (ascii "approvalId", e.approvalId.map .string),
  (ascii "before", e.before.map AuditSnapshot.json),
  (ascii "after", e.after.map AuditSnapshot.json)]

theorem denotesProperty_string {n : ℕ} (s : Text) :
    DenotesProperty heap (n + 1) (.string s) (some (.string s)) :=
  denotesProperty_of_denotesAt rfl

theorem denotesProperty_optionalText {n : ℕ} (s : Option Text) :
    DenotesProperty heap (n + 1) (optionalText s) (s.map .string) := by
  cases s with
  | none => exact .inl ⟨rfl, rfl⟩
  | some s => exact denotesProperty_string s

theorem denotesProperty_optionalSnapshot {n : ℕ} {s : Option AuditSnapshot}
    (hs : ∀ t, s = some t → t.Finite) :
    DenotesProperty heap (n + 2) (optionalSnapshot s) (s.map AuditSnapshot.json) := by
  cases s with
  | none => exact .inl ⟨rfl, rfl⟩
  | some s =>
    refine denotesProperty_of_denotesAt ⟨_, rfl, fun key => ?_⟩
    have hfinite := hs s rfl key (s.value key)
    by_cases hkey : key ∈ s.keys.names
    · rw [AuditSnapshot.get, if_pos hkey] at hfinite ⊢
      obtain ⟨j, hj⟩ := Option.isSome_iff_exists.mp (hfinite rfl)
      have hdef : ((s.value key).toValue : Value Ref).isUndefined = false := by
        cases s.value key <;> rfl
      exact ⟨fun _ => ⟨j, hj, denotesAt_snapshotValue hj⟩, fun h => absurd ⟨hkey, hdef⟩ h⟩
    · rw [AuditSnapshot.get, if_neg hkey]
      exact ⟨fun h => absurd h.1 hkey, fun _ => rfl⟩

theorem denotesAt_event {e : UnsealedAuditEvent} (he : FiniteEvent e) :
    DenotesAt Empty.elim 3 e.toValue (document e.fields) := by
  have hpair : ∀ k k' s s' : Text, DenotesProperty (Empty.elim : Heap Empty) 2
      (literal [(k, .string s), (k', .string s')])
      (some (document [(k, some (.string s)), (k', some (.string s'))])) := fun k k' s s' =>
    denotesProperty_of_denotesAt (denotesAt_literal (.cons ⟨rfl, denotesProperty_string s⟩
      (.cons ⟨rfl, denotesProperty_string s'⟩ .nil)))
  exact denotesAt_literal <|
    .cons ⟨rfl, denotesProperty_string _⟩ <|
    .cons ⟨rfl, denotesProperty_string _⟩ <|
    .cons ⟨rfl, denotesProperty_string _⟩ <|
    .cons ⟨rfl, denotesProperty_string _⟩ <|
    .cons ⟨rfl, hpair _ _ _ _⟩ <|
    .cons ⟨rfl, denotesProperty_string _⟩ <|
    .cons ⟨rfl, hpair _ _ _ _⟩ <|
    .cons ⟨rfl, denotesProperty_optionalText _⟩ <|
    .cons ⟨rfl, denotesProperty_string _⟩ <|
    .cons ⟨rfl, denotesProperty_optionalText _⟩ <|
    .cons ⟨rfl, denotesProperty_optionalText _⟩ <|
    .cons ⟨rfl, denotesProperty_optionalSnapshot he.1⟩ <|
    .cons ⟨rfl, denotesProperty_optionalSnapshot he.2⟩ .nil

theorem pair_inj {k k' : Text} (hk : k ≠ k') {s s' t t' : Text}
    (h : document [(k, some (.string s)), (k', some (.string s'))] =
      document [(k, some (.string t)), (k', some (.string t'))]) : s = t ∧ s' = t' := by
  have hfields := document_inj h rfl (by simpa using hk)
  simpa using hfields

theorem kind_text_injective {k k' : AuditActorKind} (h : k.text = k'.text) : k = k' := by
  cases k <;> cases k' <;> first | rfl | exact absurd h (by decide +kernel)

/-- The fields of a document are those of the event. -/
theorem document_fields_eq_iff {e e' : UnsealedAuditEvent} (he : FiniteEvent e)
    (he' : FiniteEvent e') : document e.fields = document e'.fields ↔ SameEvent e e' := by
  constructor
  · intro h
    have hfields := document_inj h rfl (show List.Nodup [ascii "auditEventId", ascii "tenantId",
      ascii "occurredAt", ascii "recordedAt", ascii "actor", ascii "action", ascii "target",
      ascii "reason", ascii "correlationId", ascii "causationId", ascii "approvalId",
      ascii "before", ascii "after"] by decide +kernel)
    simp only [UnsealedAuditEvent.fields, List.cons.injEq, Prod.mk.injEq, true_and,
      Option.some.injEq, Json.string.injEq, and_true] at hfields
    obtain ⟨h1, h2, h3, h4, hactor, h6, htarget, h8, h9, h10, h11, hbefore, hafter⟩ := hfields
    obtain ⟨h5, hkind⟩ := pair_inj (by decide +kernel) hactor
    obtain ⟨h7, h7'⟩ := pair_inj (by decide +kernel) htarget
    have hstring : Function.Injective (Option.map Json.string) :=
      Option.map_injective fun _ _ h => Json.string.inj h
    refine ⟨?_, (optionalSnapshot_eq_iff he.1 he'.1).mp hbefore,
      (optionalSnapshot_eq_iff he.2 he'.2).mp hafter⟩
    rw [UnsealedAuditEvent.mk.injEq]
    exact ⟨h1, h2, h3, h4, h5, kind_text_injective hkind, h6, h7, h7', hstring h8, h9,
      hstring h10, hstring h11, rfl, rfl⟩
  · rintro ⟨h, hbefore, hafter⟩
    have hb := (optionalSnapshot_eq_iff he.1 he'.1).mpr hbefore
    have ha := (optionalSnapshot_eq_iff he.2 he'.2).mpr hafter
    obtain ⟨⟩ := e
    obtain ⟨⟩ := e'
    simp only [UnsealedAuditEvent.mk.injEq, and_true] at h
    obtain ⟨rfl, rfl, rfl, rfl, rfl, rfl, rfl, rfl, rfl, rfl, rfl, rfl, rfl⟩ := h
    simp only [UnsealedAuditEvent.fields]
    rw [hb, ha]

theorem offends_literal {depth : ℕ} {properties : List (Text × Value Ref)} {key : Text}
    {v : Value Ref} (hkey : properties.lookup key = some v) (hdef : v.isUndefined = false)
    (h : Offends heap (depth + 1) v) : Offends heap depth (literal properties) := by
  have hmem : key ∈ properties.map Prod.fst := by
    have hentry := List.lookup_eq_some_iff.mp hkey
    obtain ⟨l, r, rfl, -⟩ := hentry
    simp
  have hvalue : (properties.lookup key).getD .undefined = v := by rw [hkey, Option.getD_some]
  exact .member rfl (List.mem_dedup.mpr hmem) (by rwa [hvalue]) (by rwa [hvalue])

/-- A number that is not finite stands out from a snapshot. -/
theorem offends_optionalSnapshot {depth : ℕ} {s : AuditSnapshot} (h : ¬ s.Finite) :
    Offends heap depth (optionalSnapshot (some s)) := by
  simp only [AuditSnapshot.Finite, not_forall] at h
  obtain ⟨key, v, hv, hjson⟩ := h
  unfold AuditSnapshot.get at hv
  split_ifs at hv with hkey
  cases hv
  have hvalue : ((s.value key).toValue : Value Ref).isUndefined = false ∧
      NotFinite ((s.value key).toValue : Value Ref) := by
    cases hval : s.value key with
    | number n =>
      rw [hval] at hjson
      cases n with
      | finite d => exact absurd rfl hjson
      | _ => exact ⟨rfl, trivial⟩
    | _ => exact absurd (by rw [hval]; rfl) hjson
  exact .member rfl hkey hvalue.1 (.notFinite hvalue.2)

/-- An event is hashed exactly when its numbers are finite. -/
theorem exists_canonicalJson_event_iff {e : UnsealedAuditEvent} :
    (∃ t, canonicalJson Empty.elim e.toValue = .ok t) ↔ FiniteEvent e := by
  rw [canonicalJson, exists_canonicalAt_iff le_rfl, Nat.sub_self]
  constructor
  · intro hoff
    constructor
    · intro s hs
      by_contra hfinite
      have hoff' : Offends Empty.elim 1 (optionalSnapshot e.before) :=
        hs ▸ offends_optionalSnapshot hfinite
      have hdef : (optionalSnapshot e.before : Value Empty).isUndefined = false := hs ▸ rfl
      exact hoff (offends_literal (rfl : List.lookup (ascii "before") _ = _) hdef hoff')
    · intro s hs
      by_contra hfinite
      have hoff' : Offends Empty.elim 1 (optionalSnapshot e.after) :=
        hs ▸ offends_optionalSnapshot hfinite
      have hdef : (optionalSnapshot e.after : Value Empty).isUndefined = false := hs ▸ rfl
      exact hoff (offends_literal (rfl : List.lookup (ascii "after") _ = _) hdef hoff')
  · intro he
    exact not_offends_of_denotesAt (denotesAt_event he) (by decide)

theorem finiteEvent_of_same {e e' : UnsealedAuditEvent} (he : FiniteEvent e)
    (h : SameEvent e e') : FiniteEvent e' := by
  have hsnapshot : ∀ {s s' : Option AuditSnapshot}, (∀ t, s = some t → t.Finite) →
      Option.Rel SameSnapshot s s' → ∀ t, s' = some t → t.Finite := by
    rintro s s' hs hrel t rfl
    cases hrel with
    | some hsame => exact snapshot_finite_of_same (hs _ rfl) hsame
  exact ⟨hsnapshot he.1 h.2.1, hsnapshot he.2 h.2.2⟩

/-- An evidence hash verifies the event it was computed from, and no other. -/
theorem verifyAuditEvent_eq_true_iff {sha256 : Sha256} {u e : UnsealedAuditEvent} {hash : Text}
    (hu : computeEvidenceHash sha256 u = .ok hash)
    (hfree : NoCollision sha256 Empty.elim u.toValue Empty.elim e.toValue) :
    verifyAuditEvent sha256 { e with evidenceHash := hash } = .ok true ↔ SameEvent u e := by
  obtain ⟨t, ht, hhash⟩ := Except.bind_eq_ok_iff.mp hu
  cases hhash
  have hu := exists_canonicalJson_event_iff.mp ⟨t, ht⟩
  have hequal : ∀ {t'}, canonicalJson Empty.elim e.toValue = .ok t' → FiniteEvent e →
      (sha256 t = sha256 t' ↔ SameEvent u e) := by
    intro t' ht' he
    rw [hash_eq_iff ⟨3, denotesAt_event hu⟩ ⟨3, denotesAt_event he⟩ ht ht' hfree,
      document_fields_eq_iff hu he]
  constructor
  · intro h
    obtain ⟨expected, hexpected, h⟩ := Except.bind_eq_ok_iff.mp h
    obtain ⟨t', ht', hhash⟩ := Except.bind_eq_ok_iff.mp hexpected
    cases hhash
    have heq := beq_iff_eq.mp (Except.ok.inj h)
    exact (hequal ht' (exists_canonicalJson_event_iff.mp ⟨t', ht'⟩)).mp heq.symm
  · intro h
    have he := finiteEvent_of_same hu h
    obtain ⟨t', ht'⟩ := exists_canonicalJson_event_iff.mpr he
    have heq := (hequal ht' he).mpr h
    unfold verifyAuditEvent computeEvidenceHash
    simp [ht', heq]

/-- Verification decides every event whose numbers are finite. -/
theorem exists_verifyAuditEvent {sha256 : Sha256} {e : AuditEvent}
    (he : FiniteEvent e.toUnsealedAuditEvent) : ∃ b, verifyAuditEvent sha256 e = .ok b := by
  obtain ⟨t, ht⟩ := exists_canonicalJson_event_iff.mpr he
  unfold verifyAuditEvent computeEvidenceHash
  simp [ht]

/-- `canonicalJson` as an encoding of JSON values, and what the hashes gain from it. -/
structure CanonicalEncoding (sha256 : Sha256) : Prop where
  /-- Texts are equal exactly when the payloads are one JSON value. -/
  text_eq_iff : ∀ {Ref Ref' : Type} {heap : Heap Ref} {heap' : Heap Ref'} {v : Value Ref}
    {w : Value Ref'} {j j' : Json} {t t' : Text}, Denotes heap v j → Denotes heap' w j' →
    canonicalJson heap v = .ok t → canonicalJson heap' w = .ok t' → (t = t' ↔ j = j')
  /-- An accepted payload without holes is one JSON value. -/
  denotes : ∀ {Ref : Type} {heap : Heap Ref} {v : Value Ref} {t : Text},
    canonicalJson heap v = .ok t → ¬ HasHole heap v → ∃! j, Denotes heap v j
  /-- The bytes that are hashed determine the text. -/
  wellFormed : ∀ {Ref : Type} {heap : Heap Ref} {v : Value Ref} {t : Text},
    canonicalJson heap v = .ok t → WellFormed t
  request_hash_eq_iff : ∀ {Ref Ref' : Type} {heap : Heap Ref} {heap' : Heap Ref'}
    {scope scope' : Text} {v : Value Ref} {w : Value Ref'} {j j' : Json} {h h' : Text},
    Denotes heap v j → Denotes heap' w j' → canonicalRequestHash sha256 heap scope v = .ok h →
    canonicalRequestHash sha256 heap' scope' w = .ok h' →
    NoCollision sha256 heap (requestDocument scope v) heap' (requestDocument scope' w) →
    (h = h' ↔ scope = scope' ∧ j = j')
  /-- An event verifies exactly when no field differs from those that were hashed. -/
  verify_eq_true_iff : ∀ {u e : UnsealedAuditEvent} {hash : Text},
    computeEvidenceHash sha256 u = .ok hash →
    NoCollision sha256 Empty.elim u.toValue Empty.elim e.toValue →
    (verifyAuditEvent sha256 { e with evidenceHash := hash } = .ok true ↔ SameEvent u e)
  verify_decides : ∀ {e : AuditEvent}, FiniteEvent e.toUnsealedAuditEvent →
    ∃ b, verifyAuditEvent sha256 e = .ok b
  /-- Every call returns: a text, or a refusal where something offends. -/
  returns : ∀ {Ref : Type} (heap : Heap Ref) (v : Value Ref),
    (∃ t, canonicalJson heap v = .ok t) ∨ Refused (canonicalJson heap v)
  refused_iff : ∀ {Ref : Type} (heap : Heap Ref) (v : Value Ref),
    Refused (canonicalJson heap v) ↔ Offends heap 0 v

theorem canonicalJson_encoding (sha256 : Sha256) : CanonicalEncoding sha256 where
  text_eq_iff := canonicalJson_eq_iff
  denotes := by
    intro Ref heap v t ht hdense
    obtain ⟨j, hj⟩ := exists_denotesAt ⟨t, ht⟩ hdense
    refine ⟨j, ⟨_, hj⟩, fun j' hj' => ?_⟩
    exact (canonicalJson_eq_iff hj' ⟨_, hj⟩ ht ht).mp rfl
  wellFormed := wellFormed_canonicalAt
  request_hash_eq_iff := canonicalRequestHash_eq_iff
  verify_eq_true_iff := verifyAuditEvent_eq_true_iff
  verify_decides := exists_verifyAuditEvent
  returns := fun heap v => refused_canonicalAt _ v
  refused_iff := by
    intro Ref heap v
    have haccepted : (∃ t, canonicalAt heap (MAX_DEPTH + 1) v = .ok t) ↔ ¬ Offends heap 0 v := by
      rw [exists_canonicalAt_iff le_rfl, Nat.sub_self]
    constructor
    · rintro ⟨detail, hdetail⟩
      by_contra hoff
      obtain ⟨t, ht⟩ := haccepted.mpr hoff
      rw [canonicalJson, ht] at hdetail
      cases hdetail
    · intro hoff
      refine (refused_canonicalAt _ v).resolve_left fun h => haccepted.mp h hoff

example : canonicalJson (Empty.elim : Heap Empty) (.object (.array [some .undefined,
    some (.number (.finite ⟨true, 0, by decide⟩)), some (.string [0xd800])])) =
      .ok (ascii "[null,0,\"\\ud800\"]") := by decide +kernel

end Sintius.Canonical

namespace Sintius.Audit

open Js Js.Date Sintius.Canonical Sintius.Tenancy Sintius.Outbox

variable {recorder : AuditRecorder}

theorem json_of_safeValue {redact : Text → Text} {v w : SnapshotValue}
    (h : safeValue redact v = some w) : w.json.isSome := by
  cases v with
  | number n =>
    cases n <;> cases h
    rfl
  | null | bool _ | string _ =>
    cases h
    rfl

/-- Snapshots keep no number that is not finite. -/
theorem finite_of_toSafeSnapshot {targetType : String} {value : Option Fields}
    {kept : Option AuditSnapshot} (h : toSafeSnapshot recorder targetType value = .ok kept) :
    ∀ s, kept = some s → s.Finite := by
  rintro s rfl
  unfold toSafeSnapshot at h
  split at h
  · cases h
  · split at h
    · cases h
    · cases h
      intro key v hget
      simp only [AuditSnapshot.get, List.mem_filter] at hget
      split_ifs at hget with hkey
      cases hget
      obtain ⟨w, hw⟩ := Option.isSome_iff_exists.mp hkey.2
      rw [hw, Option.getD_some]
      obtain ⟨raw, -, hraw⟩ := Option.bind_eq_some_iff.mp hw
      exact json_of_safeValue hraw

theorem exists_seal {sha256 : Sha256} {unsealed : UnsealedAuditEvent}
    {P : AuditEvent → Text → Prop} (he : FiniteEvent unsealed)
    (h : ∀ t, P { unsealed with evidenceHash := sha256 t } t) :
    ∃ event t, (computeEvidenceHash sha256 unsealed >>= fun evidenceHash =>
      (.ok { unsealed with evidenceHash := evidenceHash } : Except Failure AuditEvent)) =
        .ok event ∧ P event t := by
  obtain ⟨t, ht⟩ := exists_canonicalJson_event_iff.mpr he
  refine ⟨_, t, ?_, h t⟩
  unfold computeEvidenceHash
  rw [ht]
  rfl

/-- A record that passes the checks is always sealed. -/
theorem exists_recordForScope (recorder : AuditRecorder) (scope : EventScope)
    (input : AuditRecordInput) (newId : String) (recorded : Option Instant) {at_ at' : Instant}
    {before after : Option AuditSnapshot}
    (haction : ACTION_PATTERN input.action = true) (htype : nonBlank input.targetType = true)
    (htarget : nonBlank input.targetId = true)
    (hinstants : checkTimestamps input.occurredAt recorded
      "Audit timestamps must be valid instants."
      "An audit event cannot occur after it is recorded." = .ok (at_, at'))
    (hbefore : toSafeSnapshot recorder input.targetType input.before = .ok before)
    (hafter : toSafeSnapshot recorder input.targetType input.after = .ok after) :
    ∃ event t, recordForScope recorder scope input newId recorded = .ok event ∧
      event.auditEventId = units newId ∧ event.action = input.action ∧
      event.correlationId = units scope.correlationId ∧ event.evidenceHash = recorder.sha256 t := by
  unfold recordForScope
  rw [(refuseIf_eq_ok_iff (u := ())).mpr (by simp [haction]), Except.ok_bind,
    (refuseIf_eq_ok_iff (u := ())).mpr (by simp [htype, htarget]), Except.ok_bind, hinstants,
    Except.ok_bind]
  dsimp only
  rw [hbefore, Except.ok_bind, hafter, Except.ok_bind]
  refine exists_seal ?_ fun t => ⟨rfl, rfl, rfl, rfl⟩
  exact ⟨finite_of_toSafeSnapshot hbefore, finite_of_toSafeSnapshot hafter⟩

end Sintius.Audit
