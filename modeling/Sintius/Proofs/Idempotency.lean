import Mathlib
import Sintius.Lib.Except
import Sintius.Lib.Transaction
import Sintius.Spec.Problem
import Sintius.Spec.Canonical
import Sintius.Spec.Idempotency
import Sintius.Sanity.Idempotency
import Sintius.Proofs.Canonical

/-! Exactly-once execution. Whatever the calls do at the same time, what is
committed is that of a serial history, in which a call either executed its work
because its key was free or expired, or was given the response of an earlier one
whose record was live and made for the same request. -/

namespace Sintius.Idempotency

open Js Sintius.Canonical Sintius.Tenancy Sql

variable {E K Ref : Type} [DecidableEq Ref] {dependencies : ExecutorDependencies} {effects₀ : E}

abbrev Entry (E K Ref : Type) := Call E K Ref × IdempotentResult

abbrev StoreWorld (E K Ref : Type) := World (Store E) (Call E K Ref) IdempotentResult

/-- The record that an execution leaves. -/
def ClaimInput.completed (input : ClaimInput) (response : StoredResponse) : IdempotencyRecord where
  requestHash := input.requestHash
  status := .completed
  response := some response
  createdAt := input.now
  expiresAt := input.expiresAt

/-- The records after one more committed call. -/
def recordEntry (dependencies : ExecutorDependencies)
    (records : RecordKey → Option IdempotencyRecord) (entry : Entry E K Ref) :
    RecordKey → Option IdempotencyRecord :=
  match prepare dependencies entry.1 with
  | .error _ => records
  | .ok input =>
    if entry.2.replayed then records
    else Function.update records input.recordKey (some (input.completed entry.2.response))

/-- The records that a history leaves. -/
def recordsOf (dependencies : ExecutorDependencies) (history : List (Entry E K Ref)) :
    RecordKey → Option IdempotencyRecord :=
  history.foldl (recordEntry dependencies) fun _ => none

/-- `entry` executed its work for this key and request. -/
structure ExecutedAs (dependencies : ExecutorDependencies) (entry : Entry E K Ref)
    (input : ClaimInput) : Prop where
  executed : entry.2.replayed = false
  prepared : prepare dependencies entry.1 = .ok input

/-- Histories in which one call runs after the other, with the effects they leave. -/
inductive Serial (dependencies : ExecutorDependencies) (effects₀ : E) :
    List (Entry E K Ref) → E → Prop where
  | nil : Serial dependencies effects₀ [] effects₀
  | execute {history effects} {call : Call E K Ref} {input : ClaimInput}
      {response : WorkResponse Ref} {stored : StoredResponse} {change : E → E}
      (h : Serial dependencies effects₀ history effects)
      (hprepare : prepare dependencies call = .ok input)
      (hvacant : ∀ record, recordsOf dependencies history input.recordKey = some record →
        record.expiresAt ≤ input.now)
      (hexpires : input.now < input.expiresAt)
      (hwork : call.work.Produces response change)
      (hstored : storedResponse call.context response = .ok stored) :
      Serial dependencies effects₀ (history ++ [(call, ⟨stored, false⟩)]) (change effects)
  | replay {history effects} {call : Call E K Ref} {input input₀ : ClaimInput}
      {entry : Entry E K Ref} (h : Serial dependencies effects₀ history effects)
      (hprepare : prepare dependencies call = .ok input) (hmem : entry ∈ history)
      (hentry : ExecutedAs dependencies entry input₀) (hkey : input₀.recordKey = input.recordKey)
      (hhash : input₀.requestHash = input.requestHash) (hlive : input.now < input₀.expiresAt) :
      Serial dependencies effects₀ (history ++ [(call, ⟨entry.2.response, true⟩)]) effects

theorem recordsOf_append (history : List (Entry E K Ref)) (entry : Entry E K Ref) :
    recordsOf dependencies (history ++ [entry]) =
      recordEntry dependencies (recordsOf dependencies history) entry := by
  simp [recordsOf]

theorem recordsOf_execute {history : List (Entry E K Ref)} {call : Call E K Ref}
    {input : ClaimInput} {stored : StoredResponse}
    (hprepare : prepare dependencies call = .ok input) :
    recordsOf dependencies (history ++ [(call, ⟨stored, false⟩)]) =
      Function.update (recordsOf dependencies history) input.recordKey
        (some (input.completed stored)) := by
  simp [recordsOf_append, recordEntry, hprepare]

theorem recordsOf_replay {history : List (Entry E K Ref)} {call : Call E K Ref}
    {stored : StoredResponse} : recordsOf dependencies (history ++ [(call, ⟨stored, true⟩)]) =
      recordsOf dependencies history := by
  rw [recordsOf_append, recordEntry]
  cases prepare dependencies call <;> simp

/-- Every record was left by an execution of the history. -/
theorem exists_executed {history : List (Entry E K Ref)} {key : RecordKey}
    {record : IdempotencyRecord} (h : recordsOf dependencies history key = some record) :
    ∃ entry ∈ history, ∃ input, ExecutedAs dependencies entry input ∧ input.recordKey = key ∧
      record = input.completed entry.2.response := by
  induction history using List.reverseRecOn with
  | nil => cases h
  | append_singleton history entry ih =>
    have hearlier : recordsOf dependencies history key = some record →
        ∃ entry' ∈ history ++ [entry], ∃ input, ExecutedAs dependencies entry' input ∧
          input.recordKey = key ∧ record = input.completed entry'.2.response := by
      intro h
      obtain ⟨entry', hmem, hentry⟩ := ih h
      exact ⟨entry', List.mem_append_left _ hmem, hentry⟩
    rw [recordsOf_append, recordEntry] at h
    cases hprepare : prepare dependencies entry.1 with
    | error e =>
      rw [hprepare] at h
      exact hearlier h
    | ok input =>
      rw [hprepare] at h
      dsimp only at h
      split_ifs at h with hreplayed
      · exact hearlier h
      · by_cases hkey : key = input.recordKey
        · subst hkey
          rw [Function.update_self] at h
          exact ⟨entry, by simp, input, ⟨by simpa using hreplayed, hprepare⟩, rfl,
            (Option.some.inj h).symm⟩
        · rw [Function.update_of_ne hkey] at h
          exact hearlier h

/-- A key that is taken stays taken, and its records expire later and later. -/
theorem Serial.records_mono {history history' : List (Entry E K Ref)} {effects : E}
    {key : RecordKey} {record : IdempotencyRecord}
    (h : Serial dependencies effects₀ history' effects) (hfront : history <+: history')
    (hrecord : recordsOf dependencies history key = some record) :
    ∃ record', recordsOf dependencies history' key = some record' ∧
      record.expiresAt ≤ record'.expiresAt := by
  induction h with
  | nil =>
    rw [List.prefix_nil.mp hfront] at hrecord
    cases hrecord
  | @execute history' effects call input response stored change _ hprepare hvacant hexpires _ _ ih =>
    rcases List.prefix_concat_iff.mp hfront with rfl | hfront
    · exact ⟨record, hrecord, le_rfl⟩
    · obtain ⟨record', hrecord', hle⟩ := ih hfront
      rw [recordsOf_execute hprepare]
      by_cases hkey : key = input.recordKey
      · subst hkey
        refine ⟨_, Function.update_self .., ?_⟩
        have := hvacant record' hrecord'
        simp only [ClaimInput.completed]
        omega
      · rw [Function.update_of_ne hkey]
        exact ⟨record', hrecord', hle⟩
  | replay _ _ _ _ _ _ _ ih =>
    rcases List.prefix_concat_iff.mp hfront with rfl | hfront
    · exact ⟨record, hrecord, le_rfl⟩
    · rw [recordsOf_replay]
      exact ih hfront

/-- What is committed is what a serial history leaves. -/
structure Serialized (dependencies : ExecutorDependencies) (effects₀ : E)
    (w : StoreWorld E K Ref) : Prop where
  records : w.db.records = recordsOf dependencies w.history
  serial : Serial dependencies effects₀ w.history w.db.effects

/-- The lock of a key guards its record. -/
def SameRecord : RecordKey ⊕ K → Store E → Store E → Prop
  | .inl key, d, d' => d.records key = d'.records key
  | .inr _, _, _ => True

def discipline (dependencies : ExecutorDependencies) (effects₀ : E) :
    Discipline (Store E) (RecordKey ⊕ K) (Call E K Ref) IdempotentResult where
  same := SameRecord
  equivalence := fun k => match k with
    | .inl _ => ⟨fun _ => rfl, fun h => h.symm, fun h h' => h.trans h'⟩
    | .inr _ => ⟨fun _ => trivial, fun _ => trivial, fun _ _ => trivial⟩
  inv := Serialized dependencies effects₀
  inv_tick := fun h => ⟨h.records, h.serial⟩
  effect := fun _ _ _ _ => True

/-- The key is free for a claim. -/
def Vacant (input : ClaimInput) (w : StoreWorld E K Ref) : Prop :=
  ∀ record, w.db.records input.recordKey = some record → record.expiresAt ≤ input.now

/-- When a call returns, a live record of its key is that of its request. -/
def ReturnsFor (dependencies : ExecutorDependencies) (call : Call E K Ref)
    (_ : IdempotentResult) (w : StoreWorld E K Ref) : Prop :=
  ∀ input, prepare dependencies call = .ok input → ∀ record,
    w.db.records input.recordKey = some record → input.now < record.expiresAt →
    record.requestHash = input.requestHash

/-- When a call throws and there is a live record of its key for another request, it says so. -/
def ThrowsFor (dependencies : ExecutorDependencies) (call : Call E K Ref) (e : Failure)
    (w : StoreWorld E K Ref) : Prop :=
  ∀ input, prepare dependencies call = .ok input → ∀ record,
    w.db.records input.recordKey = some record → input.now < record.expiresAt →
    record.requestHash ≠ input.requestHash →
    e = reusedWithDifferentPayload call.context.correlationId

theorem guardsRecords : GuardsRecords (discipline dependencies effects₀ :
    Discipline (Store E) (RecordKey ⊕ K) (Call E K Ref) IdempotentResult) :=
  ⟨Iff.rfl, fun _ => trivial⟩

section Execute

variable {call : Call E K Ref} {input : ClaimInput}

/-- The postconditions of one call. -/
def Returns (dependencies : ExecutorDependencies) (effects₀ : E) (call : Call E K Ref) :
    Post (Store E) (RecordKey ⊕ K) (Call E K Ref) IdempotentResult IdempotentResult :=
  fun a locks change w => Committable (discipline dependencies effects₀) call a locks change w ∧
    ReturnsFor dependencies call a w

def Throws (dependencies : ExecutorDependencies) (call : Call E K Ref) :
    Post (Store E) (RecordKey ⊕ K) (Call E K Ref) IdempotentResult Failure :=
  fun e _ _ w => ThrowsFor dependencies call e w

theorem throwsFor_of_vacant {e : Failure} {w : StoreWorld E K Ref}
    (hprepare : prepare dependencies call = .ok input) (hvacant : Vacant input w) :
    ThrowsFor dependencies call e w := by
  intro input' hprepare' record hrecord hlive
  cases hprepare.symm.trans hprepare'
  exact absurd (hvacant record hrecord) (not_le.mpr hlive)

theorem returnsFor_of_vacant {a : IdempotentResult} {w : StoreWorld E K Ref}
    (hprepare : prepare dependencies call = .ok input) (hvacant : Vacant input w) :
    ReturnsFor dependencies call a w := by
  intro input' hprepare' record hrecord hlive
  cases hprepare.symm.trans hprepare'
  exact absurd (hvacant record hrecord) (not_le.mpr hlive)

/-- While the key's lock is held, nobody else fills it. -/
theorem Vacant.rely {locks : List (RecordKey ⊕ K)} {w w' : StoreWorld E K Ref}
    (h : Vacant input w) (hlock : .inl input.recordKey ∈ locks)
    (hrely : Rely (discipline dependencies effects₀) locks w w') : Vacant input w' := by
  intro record hrecord
  have hsame : w.db.records input.recordKey = w'.db.records input.recordKey :=
    hrely.same _ hlock
  exact h record (hsame.trans hrecord)

/-- What an execution commits. -/
theorem committable_execute {locks : List (RecordKey ⊕ K)} {w : StoreWorld E K Ref}
    {response : WorkResponse Ref} {stored : StoredResponse} {f : E → E}
    (hprepare : prepare dependencies call = .ok input) (hvacant : Vacant input w)
    (hexpires : input.now < input.expiresAt) (hlock : .inl input.recordKey ∈ locks)
    (hwork : call.work.Produces response f)
    (hstored : storedResponse call.context response = .ok stored) :
    Committable (discipline dependencies effects₀) call ⟨stored, false⟩ locks
      (Store.setRecord input.recordKey (input.completed stored) ∘ Store.mapEffects f ∘
        Store.setRecord input.recordKey input.processing) w := by
  intro w' hrely hinv
  have hvacant' := hvacant.rely hlock hrely
  refine ⟨⟨?_, ?_⟩, trivial⟩
  · rw [World.commit, recordsOf_execute hprepare, ← hinv.records]
    simp [Store.setRecord, Store.mapEffects]
  · refine hinv.serial.execute hprepare ?_ hexpires hwork hstored
    rw [← hinv.records]
    exact hvacant'

/-- The rest of a call that has claimed its key. -/
theorem wp_claimed {w : StoreWorld E K Ref} (hprepare : prepare dependencies call = .ok input)
    (htenant : input.tenantId = call.context.tenantId) (hvacant : Vacant input w)
    (hexpires : input.now < input.expiresAt) :
    wp (discipline dependencies effects₀) (Returns dependencies effects₀ call)
      (Throws dependencies call)
      (do
        let response ← call.work.zoom Store.effects Store.mapEffects Sum.inr
        let stored ← Tx.lift (storedResponse call.context response)
        complete call.context.tenantId input stored
        return ⟨stored, false⟩)
      [.inl input.recordKey] (Store.setRecord input.recordKey input.processing) w := by
  refine wp_bind (wp_mono ?_ (wp_zoom (Q := fun locks _ w => .inl input.recordKey ∈ locks ∧
    Vacant input w) ?_ ?_ ?_ ?_ ?_ ?_ ?_))
  · rintro response locks change w ⟨f, hwork, rfl, hlock, hvacant⟩
    refine wp_lift (fun stored hstored => ?_) fun e _ => throwsFor_of_vacant hprepare hvacant
    unfold complete
    rw [htenant, show assertTenant call.context.tenantId call.context.tenantId = .ok () by
      simp [assertTenant, throwIf]]
    refine wp_statement fun w' r hrely hinv hrun => ?_
    have hvacant' := hvacant.rely hlock hrely
    have hrecord : ((Store.mapEffects f ∘ Store.setRecord input.recordKey input.processing)
        w'.db).records input.recordKey = some input.processing := Function.update_self ..
    obtain rfl := updateCompleted_of_processing hrecord rfl hrun
    refine ⟨guardsRecords.setRecord (by simp), ?_⟩
    refine ⟨committable_execute hprepare hvacant' hexpires (by simp) hwork hstored, ?_⟩
    exact returnsFor_of_vacant hprepare hvacant'
  · intro f g
    rfl
  · rfl
  · intro f lock locks k hk d
    cases k with
    | inl k => rfl
    | inr k => trivial
  · rintro e locks change w ⟨-, hvacant⟩
    exact throwsFor_of_vacant hprepare hvacant
  · rintro locks change w w' ⟨hlock, hvacant⟩ hrely _
    exact ⟨hlock, hvacant.rely hlock hrely⟩
  · rintro locks change w f lock ⟨hlock, hvacant⟩
    exact ⟨List.mem_append_right _ hlock, hvacant⟩
  · exact ⟨List.mem_singleton_self _, hvacant⟩

/-- A record that is found is live, and was left by a committed execution. -/
theorem exists_entry_of_record {w₁ w₂ w₃ : StoreWorld E K Ref} {record : IdempotencyRecord}
    (hinv₁ : Serialized dependencies effects₀ w₁) (hinv₂ : Serialized dependencies effects₀ w₂)
    (hinv₃ : Serialized dependencies effects₀ w₃) (h₁₂ : w₁.history <+: w₂.history)
    (h₂₃ : w₂.history <+: w₃.history) (htaken : w₁.db.records input.recordKey ≠ none)
    (hlive : ∀ record, w₂.db.records input.recordKey = some record →
      input.now < record.expiresAt)
    (hrecord : w₃.db.records input.recordKey = some record) :
    input.now < record.expiresAt ∧ ∃ entry ∈ w₃.history, ∃ input₀,
      ExecutedAs dependencies entry input₀ ∧ input₀.recordKey = input.recordKey ∧
      record = input₀.completed entry.2.response := by
  obtain ⟨record₁, hrecord₁⟩ := Option.ne_none_iff_exists'.mp htaken
  rw [hinv₁.records] at hrecord₁
  obtain ⟨record₂, hrecord₂, -⟩ := hinv₂.serial.records_mono h₁₂ hrecord₁
  obtain ⟨record₃, hrecord₃, hle⟩ := hinv₃.serial.records_mono h₂₃ hrecord₂
  rw [← hinv₂.records] at hrecord₂
  rw [hinv₃.records] at hrecord
  cases hrecord₃.symm.trans hrecord
  exact ⟨(hlive record₂ hrecord₂).trans_le hle, exists_executed hrecord⟩

/-- What a replay commits. -/
theorem committable_replay {w : StoreWorld E K Ref} {entry : Entry E K Ref} {input₀ : ClaimInput}
    (hprepare : prepare dependencies call = .ok input) (hmem : entry ∈ w.history)
    (hentry : ExecutedAs dependencies entry input₀) (hkey : input₀.recordKey = input.recordKey)
    (hhash : input₀.requestHash = input.requestHash) (hlive : input.now < input₀.expiresAt) :
    Committable (discipline dependencies effects₀) call ⟨entry.2.response, true⟩ [] id w := by
  intro w' hrely hinv
  refine ⟨⟨?_, ?_⟩, trivial⟩
  · rw [World.commit, recordsOf_replay, ← hinv.records]
    rfl
  · exact hinv.serial.replay hprepare (hrely.history.subset hmem) hentry hkey hhash hlive

/-- A live record is replayed to its own request, and refused to others. -/
theorem wp_existing {w : StoreWorld E K Ref} {record : IdempotencyRecord}
    {entry : Entry E K Ref} {input₀ : ClaimInput}
    (hprepare : prepare dependencies call = .ok input)
    (htenant : input.tenantId = call.context.tenantId)
    (hrecord : w.db.records input.recordKey = some record) (hlive : input.now < record.expiresAt)
    (hmem : entry ∈ w.history) (hentry : ExecutedAs dependencies entry input₀)
    (hkey : input₀.recordKey = input.recordKey) (heq : record = input₀.completed entry.2.response) :
    wp (discipline dependencies effects₀) (Returns dependencies effects₀ call)
      (Throws dependencies call)
      (Tx.lift (replay call.context input.requestHash input.tenantId record)) [] id w := by
  have hthe : ∀ {input' record'}, prepare dependencies call = .ok input' →
      w.db.records input'.recordKey = some record' → input' = input ∧ record' = record := by
    intro input' record' hprepare' hrecord'
    cases hprepare.symm.trans hprepare'
    exact ⟨rfl, Option.some.inj (hrecord'.symm.trans hrecord)⟩
  subst heq
  unfold replay
  rw [htenant]
  simp only [refuseIf, ne_eq, not_true_eq_false, if_false, Except.ok_bind]
  by_cases hhash : (input₀.completed entry.2.response).requestHash = input.requestHash
  · rw [if_neg (not_not.mpr hhash)]
    refine ⟨committable_replay hprepare hmem hentry hkey hhash hlive, ?_⟩
    intro input' hprepare' record' hrecord' _
    obtain ⟨rfl, rfl⟩ := hthe hprepare' hrecord'
    exact hhash
  · rw [if_pos hhash]
    intro input' hprepare' record' hrecord' _ _
    rfl

omit [DecidableEq Ref] in
theorem requireKey_eq_ok {key : Option Text} {rawKey : Text} {correlation_id : String}
    (h : requireKey key correlation_id = .ok rawKey) : key = some rawKey := by
  unfold requireKey at h
  split at h
  · cases h
    rfl
  · cases h

/-- What a call claims: the record of its tenant, its command and its key in lower case, with the
hash of its canonical request. -/
structure ClaimsFor (dependencies : ExecutorDependencies) (call : Call E K Ref)
    (input : ClaimInput) : Prop where
  record : ∃ key, call.request.key = some key ∧
    input.recordKey = ⟨call.context.tenantId, call.request.scope, toLowerCase key⟩
  hash : canonicalRequestHash dependencies.sha256 call.heap call.request.scope
    call.request.payload = .ok input.requestHash

theorem prepare_spec (hprepare : prepare dependencies call = .ok input) :
    ClaimsFor dependencies call input := by
  unfold prepare at hprepare
  simp only [Except.bind_eq_ok_iff] at hprepare
  obtain ⟨-, -, rawKey, hkey, -, -, -, -, hash, hhash, -, -, h⟩ := hprepare
  cases hnow : call.now with
  | none =>
    rw [hnow] at h
    cases h
  | some now =>
    rw [hnow] at h
    dsimp only at h
    cases hexpires : dependencies.expiresAt now with
    | none =>
      rw [hexpires] at h
      cases h
    | some expiresAt =>
      rw [hexpires] at h
      cases h
      exact ⟨⟨rawKey, requireKey_eq_ok hkey, rfl⟩, hhash⟩

theorem tenantId_of_prepare (hprepare : prepare dependencies call = .ok input) :
    input.tenantId = call.context.tenantId := by
  obtain ⟨key, -, hrecord⟩ := (prepare_spec hprepare).record
  exact congrArg RecordKey.tenant_id hrecord

theorem executeUntraced_eq {call : Call E K Ref} {input : ClaimInput}
    (h : prepare dependencies call = .ok input) :
    executeUntraced dependencies call = executeClaimed call.context input call.work := by
  rw [executeUntraced, h]

/-- Every call keeps the history serial. -/
theorem verified (dependencies : ExecutorDependencies) (effects₀ : E) :
    Verified (discipline dependencies effects₀) (ReturnsFor dependencies)
      (ThrowsFor dependencies)
      (executeUntraced dependencies : Call E K Ref → StoreTx E K IdempotentResult) := by
  intro call w _
  cases hprepare : prepare dependencies call with
  | error e =>
    rw [executeUntraced, hprepare]
    intro input hprepare'
    rw [hprepare] at hprepare'
    cases hprepare'
  | ok input =>
    have htenant := tenantId_of_prepare hprepare
    rw [executeUntraced_eq hprepare]
    refine wp_bind (wp_claim guardsRecords htenant ?_ ?_ ?_)
    · intro w' _ hvacant hexpires
      exact wp_claimed hprepare htenant hvacant hexpires
    · intro w₁ w₂ w₃ record hinv₁ hinv₂ hinv₃ h₁₂ h₂₃ htaken hlive hrecord
      obtain ⟨hlive', entry, hmem, input₀, hentry, hkey, heq⟩ :=
        exists_entry_of_record hinv₁ hinv₂ hinv₃ h₁₂ h₂₃ htaken hlive hrecord
      exact wp_existing hprepare htenant hrecord hlive' hmem hentry hkey heq
    · intro w₁ w₃ e _ _ _ _ hnone input' hprepare' record hrecord
      cases hprepare.symm.trans hprepare'
      cases hnone.symm.trans hrecord

end Execute

/-- Every execution left a record, or made room for one that expires later. -/
theorem Serial.exists_record {history : List (Entry E K Ref)} {effects : E}
    {entry : Entry E K Ref} {input : ClaimInput}
    (h : Serial dependencies effects₀ history effects) (hmem : entry ∈ history)
    (hentry : ExecutedAs dependencies entry input) :
    ∃ record, recordsOf dependencies history input.recordKey = some record ∧
      input.expiresAt ≤ record.expiresAt := by
  obtain ⟨before, after, rfl⟩ := List.append_of_mem hmem
  have hfront : before ++ [entry] <+: before ++ entry :: after := ⟨after, by simp⟩
  have hrecord : recordsOf dependencies (before ++ [entry]) input.recordKey =
      some (input.completed entry.2.response) := by
    rw [recordsOf_append, recordEntry, hentry.prepared]
    simp [hentry.executed]
  exact h.records_mono hfront hrecord

/-- Two executions for one key, in the order of a history. -/
def Spaced (dependencies : ExecutorDependencies) (earlier later : Entry E K Ref) : Prop :=
  ∀ i j, ExecutedAs dependencies earlier i → ExecutedAs dependencies later j →
    i.recordKey = j.recordKey → i.expiresAt ≤ j.now

theorem Serial.spaced {history : List (Entry E K Ref)} {effects : E}
    (h : Serial dependencies effects₀ history effects) :
    history.Pairwise (Spaced dependencies) := by
  induction h with
  | nil => exact .nil
  | @execute history effects call input response stored change h hprepare hvacant _ _ _ ih =>
    refine List.pairwise_append.mpr ⟨ih, List.pairwise_singleton _ _, ?_⟩
    intro earlier hmem later hlater i j hi hj hkey
    rw [List.mem_singleton.mp hlater] at hj
    cases hprepare.symm.trans hj.prepared
    obtain ⟨record, hrecord, hle⟩ := h.exists_record hmem hi
    rw [hkey] at hrecord
    exact hle.trans (hvacant record hrecord)
  | replay _ _ _ _ _ _ _ ih =>
    refine List.pairwise_append.mpr ⟨ih, List.pairwise_singleton _ _, ?_⟩
    intro earlier _ later hlater i j _ hj
    rw [List.mem_singleton.mp hlater] at hj
    cases hj.executed

/-- The execution whose response a call was given. -/
structure ReplayOf (dependencies : ExecutorDependencies) (entry : Entry E K Ref)
    (source : Entry E K Ref) : Prop where
  response : entry.2.response = source.2.response
  live : ∃ i j, ExecutedAs dependencies source i ∧ prepare dependencies entry.1 = .ok j ∧
    i.recordKey = j.recordKey ∧ i.requestHash = j.requestHash ∧ j.now < i.expiresAt

theorem Serial.replayed {history before after : List (Entry E K Ref)} {effects : E}
    {entry : Entry E K Ref} (h : Serial dependencies effects₀ history effects)
    (hsplit : history = before ++ entry :: after) (hreplayed : entry.2.replayed = true) :
    ∃ source ∈ before, ReplayOf dependencies entry source := by
  induction h generalizing after with
  | nil => simp at hsplit
  | execute _ _ _ _ _ _ ih =>
    rcases List.eq_nil_or_concat after with rfl | ⟨after, last, rfl⟩
    · obtain ⟨-, hlast⟩ := List.append_inj' hsplit rfl
      cases hlast
      cases hreplayed
    · rw [List.concat_eq_append, ← List.cons_append, ← List.append_assoc] at hsplit
      exact ih (List.append_inj' hsplit rfl).1
  | @replay history effects call input input₀ source _ hprepare hmem hentry hkey hhash hlive ih =>
    rcases List.eq_nil_or_concat after with rfl | ⟨after, last, rfl⟩
    · obtain ⟨rfl, hlast⟩ := List.append_inj' hsplit rfl
      cases hlast
      exact ⟨source, hmem, rfl, input₀, input, hentry, hprepare, hkey, hhash, hlive⟩
    · rw [List.concat_eq_append, ← List.cons_append, ← List.append_assoc] at hsplit
      exact ih (List.append_inj' hsplit rfl).1

/-- What a call that executed returned: the response of its work. -/
structure ResponseOf (entry : Entry E K Ref) (response : WorkResponse Ref) : Prop where
  status : response.status.integer? = some entry.2.response.status
  body : ∀ j, Denotes response.heap response.body j → entry.2.response.body = j

omit [DecidableEq Ref] in
theorem responseOf_storedResponse {call : Call E K Ref} {response : WorkResponse Ref}
    {stored : StoredResponse} (h : storedResponse call.context response = .ok stored) :
    ResponseOf (call, ⟨stored, false⟩) response := by
  obtain ⟨status, hstatus, h⟩ := Except.bind_eq_ok_iff.mp h
  obtain ⟨text, htext, h⟩ := Except.bind_eq_ok_iff.mp h
  cases h
  constructor
  · unfold checkStatus at hstatus
    cases hinteger : response.status.integer? with
    | none =>
      rw [hinteger] at hstatus
      cases hstatus
    | some n =>
      rw [hinteger] at hstatus
      dsimp only at hstatus
      split_ifs at hstatus
      · cases hstatus
      · cases hstatus
        rfl
  · intro j hj
    simp [stringify_of_denotes htext hj]

theorem Serial.executed {history : List (Entry E K Ref)} {effects : E}
    {entry : Entry E K Ref} (h : Serial dependencies effects₀ history effects)
    (hmem : entry ∈ history) (hexecuted : entry.2.replayed = false) :
    ∃ input response change, prepare dependencies entry.1 = .ok input ∧
      entry.1.work.Produces response change ∧ ResponseOf entry response := by
  induction h with
  | nil => cases hmem
  | execute _ hprepare _ _ hwork hstored ih =>
    rcases List.mem_append.mp hmem with hmem | hmem
    · exact ih hmem
    · cases List.mem_singleton.mp hmem
      exact ⟨_, _, _, hprepare, hwork, responseOf_storedResponse hstored⟩
  | replay _ _ _ _ _ _ _ ih =>
    rcases List.mem_append.mp hmem with hmem | hmem
    · exact ih hmem
    · cases List.mem_singleton.mp hmem
      cases hexecuted

abbrev StoreState (E K Ref : Type) :=
  State Failure (Store E) (RecordKey ⊕ K) (Call E K Ref) IdempotentResult

/-- An empty store. -/
def emptyWorld (effects₀ : E) (seq : ℕ) : StoreWorld E K Ref where
  db := ⟨fun _ => none, effects₀⟩
  seq := seq
  history := []

theorem serialized_emptyWorld (effects₀ : E) (seq : ℕ) :
    Serialized dependencies effects₀ (emptyWorld effects₀ seq : StoreWorld E K Ref) :=
  ⟨rfl, .nil⟩

/-- A statement of a call is refused: nothing is returned, and nothing else is thrown. -/
def Refuses (rest : Tx Failure (Store E) (RecordKey ⊕ K) IdempotentResult) (e : Failure) : Prop :=
  (∀ a, rest ≠ .done a) ∧ ∀ e', rest = .throw e' → e' = e

/-- What holds of the executor's store whenever anybody looks. -/
structure ExactlyOnce (dependencies : ExecutorDependencies) (effects₀ : E)
    (st : StoreState E K Ref) : Prop where
  /-- What is committed is the effects of the calls that executed, each once and in turn. -/
  effects : Serial dependencies effects₀ st.world.history st.world.db.effects
  /-- Two executions for one key commit only if the first had expired by the second. -/
  spaced : st.world.history.Pairwise (Spaced dependencies)
  /-- The records are those of the last executions. -/
  records : st.world.db.records = recordsOf dependencies st.world.history
  /-- A call returned its own work's response if it executed, -/
  executed : ∀ entry ∈ st.world.history, entry.2.replayed = false →
    ∃ input response change, prepare dependencies entry.1 = .ok input ∧
      entry.1.work.Produces response change ∧ ResponseOf entry response
  /-- and otherwise that of an earlier execution that was live, for the same request. -/
  replayed : ∀ before entry after, st.world.history = before ++ entry :: after →
    entry.2.replayed = true → ∃ source ∈ before, ReplayOf dependencies entry source
  /-- A statement that settles a call while its key has a live record for another request refuses
  the call for that. -/
  mismatch : ∀ {before s after} {B : Type} {stmt : Statement Failure (Store E) (RecordKey ⊕ K) B}
    {next : B → Tx Failure (Store E) (RecordKey ⊕ K) IdempotentResult}
    {r : Outcome (Store E) (RecordKey ⊕ K) B} {input : ClaimInput} {record : IdempotencyRecord},
    st.sessions = before ++ s :: after → s.rest = .query stmt next →
    stmt st.world.seq (s.change st.world.db) = .ok r →
    prepare dependencies s.call = .ok input →
    st.world.db.records input.recordKey = some record → input.now < record.expiresAt →
    record.requestHash ≠ input.requestHash →
    Refuses (next r.result) (reusedWithDifferentPayload s.call.context.correlationId)
  /-- A step that commits no call changes nothing. -/
  unchanged : ∀ {st'}, Step (executeUntraced dependencies) st st' →
    st'.world.history = st.world.history → st'.world.db = st.world.db

theorem execute_exactly_once {seq : ℕ} {st : StoreState E K Ref}
    (h : Reachable (executeUntraced dependencies) (emptyWorld effects₀ seq) st) :
    ExactlyOnce dependencies effects₀ st := by
  have hsound := (verified dependencies effects₀).sound (serialized_emptyWorld effects₀ seq) h
  have hinv : Serialized dependencies effects₀ st.world := hsound.inv
  refine ⟨hinv.serial, hinv.serial.spaced, hinv.records, fun _ => hinv.serial.executed,
    fun _ _ _ => hinv.serial.replayed, ?_, fun hstep => hstep.db_eq⟩
  intro before s after B stmt next r input record hsessions hrest hrun hprepare hrecord hlive hne
  obtain ⟨w, sessions⟩ := st
  subst hsessions
  obtain ⟨-, hnext⟩ := hsound.query hrest hrun
  constructor
  · intro a ha
    rw [ha] at hnext
    exact hne (hnext.2 input hprepare record hrecord hlive)
  · intro e he
    rw [he] at hnext
    exact hnext input hprepare record hrecord hlive hne

/-- A call of a command that returns 201 and null, with its key in the given letter case. -/
def sampleCall (key : String) : Call Unit Empty Empty where
  context := ⟨"tenant_A", "corr_1"⟩
  heap := Empty.elim
  request := ⟨ascii "tenant.provision", some (ascii key), .null⟩
  authorize := .ok ()
  now := some ⟨0, by decide⟩
  work := .done ⟨Number.ofNat 201 created_safe, Empty.elim, .null⟩

def sampleDependencies : ExecutorDependencies where
  sha256 := fun _ => List.replicate 64 0x30
  expiresAt := expiresAtAfter DEFAULT_RETENTION_SECONDS

def sampleInput : ClaimInput where
  tenantId := "tenant_A"
  scope := ascii "tenant.provision"
  key := ascii "8f14e45f-ceea-467f-a0e6-1c2d3e4f5a6b"
  requestHash := List.replicate 64 0x30
  now := 0
  expiresAt := 604800000

theorem canonicalRequestHash_sample : canonicalRequestHash sampleDependencies.sha256
    (Empty.elim : Heap Empty) (ascii "tenant.provision") .null = .ok (List.replicate 64 0x30) := by
  have hdenotes : DenotesAt (Empty.elim : Heap Empty) 2
      (literal [(ascii "scope", .string (ascii "tenant.provision")), (ascii "payload", .null)])
      (document [(ascii "scope", some (.string (ascii "tenant.provision"))),
        (ascii "payload", some .null)]) :=
    denotesAt_literal (.cons ⟨rfl, .inr ⟨rfl, _, rfl, rfl⟩⟩ (.cons ⟨rfl, .inr ⟨rfl, _, rfl, rfl⟩⟩
      .nil))
  obtain ⟨t, ht⟩ := exists_canonicalJson_of_denotesAt hdenotes (by decide)
  exact Except.bind_eq_ok_iff.mpr ⟨t, ht, rfl⟩

/-- The key is the same in either letter case. -/
theorem prepare_sample : ∀ key ∈ ["8f14e45f-ceea-467f-a0e6-1c2d3e4f5a6b",
    "8F14E45F-CEEA-467F-A0E6-1C2D3E4F5A6B"],
    prepare sampleDependencies (sampleCall key) = .ok sampleInput := by
  intro key hkey
  have hparts : requireKey (some (ascii key)) "corr_1" = .ok (ascii key) ∧
      KEY_PATTERN (ascii key) = true ∧ toLowerCase (ascii key) = sampleInput.key := by
    revert key
    decide +kernel
  unfold prepare
  simp only [Except.bind_eq_ok_iff]
  refine ⟨(), rfl, _, hparts.1, (), ?_, (), rfl, _, canonicalRequestHash_sample, (), rfl, ?_⟩
  · simp [hparts.2.1, refuseIf]
  · rw [hparts.2.2]
    rfl

theorem storedResponse_sample : storedResponse (sampleCall "").context
    ⟨Number.ofNat 201 (by norm_num), (Empty.elim : Heap Empty), .null⟩ = .ok ⟨201, .null⟩ := by
  have hstatus : checkStatus (Number.ofNat 201 (by norm_num)) "corr_1" = .ok 201 := by
    decide +kernel
  exact Except.bind_eq_ok_iff.mpr ⟨201, hstatus, rfl⟩

theorem assertTenant_self (tenant : TenantId) : assertTenant tenant tenant = .ok () := by
  simp [assertTenant, throwIf]

omit [DecidableEq Ref] in
/-- A call executes for a key without a record, -/
theorem alone_execute {context : TrustedExecutionScope} {input : ClaimInput}
    {response : WorkResponse Ref} {stored : StoredResponse} {d : Store E} {n : ℕ}
    (htenant : input.tenantId = context.tenantId) (hnone : d.records input.recordKey = none)
    (hchecks : recordChecks input.recordKey input.processing = true)
    (hstored : storedResponse context response = .ok stored) :
    (executeClaimed context input (.done response) : StoreTx E K IdempotentResult).alone d n id =
      some (⟨stored, false⟩, Store.setRecord input.recordKey (input.completed stored) ∘
        Store.setRecord input.recordKey input.processing, n + 2) := by
  have hinsert : insertClaim input n (id d) = (.ok ⟨1,
      Store.setRecord input.recordKey input.processing, some (.inl input.recordKey)⟩ :
        Except Failure (Outcome (Store E) (RecordKey ⊕ K) ℕ)) := by
    simp [insertClaim, hnone, hchecks]
  have hcomplete : updateCompleted input.recordKey stored (n + 1)
      ((Store.setRecord input.recordKey input.processing ∘ id) d) = (.ok ⟨1,
        Store.setRecord input.recordKey (input.completed stored), some (.inl input.recordKey)⟩ :
        Except Failure (Outcome (Store E) (RecordKey ⊕ K) ℕ)) := by
    simp [updateCompleted, Store.setRecord, ClaimInput.processing, ClaimInput.completed]
  unfold executeClaimed claim complete
  rw [htenant, assertTenant_self]
  simp only [Tx.lift_ok, Tx.done_bind, Tx.query_bind]
  rw [Tx.alone_query hinsert]
  simp only [if_true, Tx.pure_bind, Tx.zoom, Tx.done_bind, hstored, Tx.lift_ok]
  rw [Tx.alone_query hcomplete]
  rfl

omit [DecidableEq Ref] in
/-- and is replayed where it finds a live one. -/
theorem alone_replay {context : TrustedExecutionScope} {input : ClaimInput}
    {work : Tx Failure E K (WorkResponse Ref)} {stored : StoredResponse} {d : Store E} {n : ℕ}
    (htenant : input.tenantId = context.tenantId)
    (hrecord : d.records input.recordKey = some (input.completed stored))
    (hlive : input.now < input.expiresAt) :
    (executeClaimed context input work).alone d n id = some (⟨stored, true⟩, id, n + 3) := by
  have hinsert : insertClaim input n (id d) = (.ok ⟨0, id, none⟩ :
      Except Failure (Outcome (Store E) (RecordKey ⊕ K) ℕ)) := by
    simp [insertClaim, hrecord]
  have hreplace : replaceExpired input (n + 1) ((id ∘ id) d) = (.ok ⟨0, id, none⟩ :
      Except Failure (Outcome (Store E) (RecordKey ⊕ K) ℕ)) := by
    simp [replaceExpired, hrecord, ClaimInput.completed, not_le.mpr hlive]
  have hselect : selectRecord input.recordKey (n + 2) ((id ∘ id ∘ id) d) =
      (.ok ⟨some (input.completed stored), id, none⟩ :
        Except Failure (Outcome (Store E) (RecordKey ⊕ K) (Option IdempotencyRecord))) := by
    simp [selectRecord, hrecord]
  have hreplay : replay context input.requestHash context.tenantId (input.completed stored) =
      .ok ⟨stored, true⟩ := by
    simp [replay, refuseIf, ClaimInput.completed]
  unfold executeClaimed claim
  rw [htenant, assertTenant_self]
  simp only [Tx.lift_ok, Tx.done_bind, Tx.query_bind]
  rw [Tx.alone_query hinsert]
  simp only [zero_ne_one, if_false, Tx.query_bind]
  rw [Tx.alone_query hreplace]
  simp only [zero_ne_one, if_false, Tx.query_bind]
  rw [Tx.alone_query hselect]
  simp only [Tx.pure_bind, hreplay, Tx.lift_ok]
  rfl

/-- A command runs once for two calls whose keys differ in letter case. -/
theorem execute_exactly_once_replay : ∃ st : StoreState Unit Empty Empty,
    Reachable (executeUntraced sampleDependencies) (emptyWorld () 0) st ∧
      st.world.history.map (fun entry => (entry.1.request.key, entry.2.replayed)) =
        [(some (ascii "8f14e45f-ceea-467f-a0e6-1c2d3e4f5a6b"), false),
          (some (ascii "8F14E45F-CEEA-467F-A0E6-1C2D3E4F5A6B"), true)] ∧
      ExactlyOnce sampleDependencies () st := by
  have hlower := prepare_sample "8f14e45f-ceea-467f-a0e6-1c2d3e4f5a6b" (by simp)
  have hupper := prepare_sample "8F14E45F-CEEA-467F-A0E6-1C2D3E4F5A6B" (by simp)
  have hchecks : recordChecks sampleInput.recordKey sampleInput.processing = true := by
    decide +kernel
  have hfirst := (congrArg (Tx.alone · (emptyWorld () 0 : StoreWorld Unit Empty Empty).db 0 id)
    (executeUntraced_eq hlower)).trans (alone_execute rfl rfl hchecks storedResponse_sample)
  have hreached := Reachable.init.alone hfirst
  have hsecond : (executeUntraced sampleDependencies
      (sampleCall "8F14E45F-CEEA-467F-A0E6-1C2D3E4F5A6B")).alone
      ((Store.setRecord sampleInput.recordKey (sampleInput.completed ⟨201, .null⟩) ∘
        Store.setRecord sampleInput.recordKey sampleInput.processing)
        (emptyWorld () 0 : StoreWorld Unit Empty Empty).db) 2 id =
        some (⟨⟨201, .null⟩, true⟩, id, 5) := by
    rw [executeUntraced_eq hupper]
    exact alone_replay rfl (by simp [Store.setRecord]) (by decide)
  have hreplayed := hreached.alone hsecond
  exact ⟨_, hreplayed, rfl, execute_exactly_once hreplayed⟩

end Sintius.Idempotency
