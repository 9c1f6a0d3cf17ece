import Mathlib
import Sintius.Lib.Except
import Sintius.Lib.Transaction
import Sintius.Spec.Problem
import Sintius.Spec.Canonical
import Sintius.Spec.Idempotency

/-! What each statement of the store can do, and what a claim comes to when other
transactions commit between its statements. -/

namespace Sintius.Idempotency

open Js Sintius.Canonical Sintius.Tenancy Sql

universe u

variable {A E K : Type} {C : Type u} {R : Type} {P : Discipline (Store E) (RecordKey ⊕ K) C R}

theorem now_lt_expiresAt {input : ClaimInput}
    (h : recordChecks input.recordKey input.processing = true) : input.now < input.expiresAt := by
  simp only [recordChecks, Bool.and_eq_true, decide_eq_true_eq] at h
  exact h.2

theorem insertClaim_cases {input : ClaimInput} {n : ℕ} {d : Store E}
    {r : Outcome (Store E) (RecordKey ⊕ K) ℕ} (h : insertClaim input n d = .ok r) :
    (d.records input.recordKey ≠ none ∧ r = ⟨0, id, none⟩) ∨
    (d.records input.recordKey = none ∧ recordChecks input.recordKey input.processing = true ∧
      r = ⟨1, Store.setRecord input.recordKey input.processing, some (.inl input.recordKey)⟩) := by
  unfold insertClaim at h
  cases hrecord : d.records input.recordKey with
  | some record =>
    rw [hrecord] at h
    cases h
    exact .inl ⟨by simp, rfl⟩
  | none =>
    rw [hrecord] at h
    dsimp only at h
    split_ifs at h with hchecks
    cases h
    exact .inr ⟨rfl, hchecks, rfl⟩

theorem replaceExpired_cases {input : ClaimInput} {n : ℕ} {d : Store E}
    {r : Outcome (Store E) (RecordKey ⊕ K) ℕ} (h : replaceExpired input n d = .ok r) :
    ((∀ record, d.records input.recordKey = some record → input.now < record.expiresAt) ∧
      r = ⟨0, id, none⟩) ∨
    ((∃ record, d.records input.recordKey = some record ∧ record.expiresAt ≤ input.now) ∧
      recordChecks input.recordKey input.processing = true ∧
      r = ⟨1, Store.setRecord input.recordKey input.processing, some (.inl input.recordKey)⟩) := by
  unfold replaceExpired at h
  cases hrecord : d.records input.recordKey with
  | none =>
    rw [hrecord] at h
    cases h
    exact .inl ⟨by simp, rfl⟩
  | some record =>
    rw [hrecord] at h
    dsimp only at h
    split_ifs at h with hexpired hchecks
    · cases h
      exact .inr ⟨⟨record, rfl, hexpired⟩, hchecks, rfl⟩
    · cases h
      refine .inl ⟨?_, rfl⟩
      rintro record' heq
      cases heq
      exact not_le.mp hexpired

/-- Completion finds the row that the claim wrote. -/
theorem updateCompleted_of_processing {key : RecordKey} {record : IdempotencyRecord}
    {response : StoredResponse} {n : ℕ} {d : Store E} {r : Outcome (Store E) (RecordKey ⊕ K) ℕ}
    (hrecord : d.records key = some record) (hstatus : record.status = .processing)
    (h : updateCompleted key response n d = .ok r) :
    r = ⟨1, Store.setRecord key { record with status := .completed, response := some response },
      some (.inl key)⟩ := by
  unfold updateCompleted at h
  rw [hrecord] at h
  dsimp only at h
  rw [if_pos hstatus] at h
  cases h
  rfl

theorem updateCompleted_cases {key : RecordKey} {response : StoredResponse} {n : ℕ} {d : Store E}
    {r : Outcome (Store E) (RecordKey ⊕ K) ℕ} (h : updateCompleted key response n d = .ok r) :
    r = ⟨0, id, none⟩ ∨ ∃ record, r = ⟨1, Store.setRecord key record, some (.inl key)⟩ := by
  unfold updateCompleted at h
  cases hrecord : d.records key with
  | none =>
    rw [hrecord] at h
    cases h
    exact .inl rfl
  | some record =>
    rw [hrecord] at h
    dsimp only at h
    split_ifs at h with hstatus
    · cases h
      exact .inr ⟨_, rfl⟩
    · cases h
      exact .inl rfl

theorem replayed_of_replay {context : TrustedExecutionScope} {requestHash : Text}
    {tenantId : TenantId} {record : IdempotencyRecord} {result : IdempotentResult}
    (h : replay context requestHash tenantId record = .ok result) :
    result = ⟨result.response, true⟩ := by
  unfold replay at h
  obtain ⟨-, -, h⟩ := Except.bind_eq_ok_iff.mp h
  split_ifs at h
  split at h
  · cases h
    rfl
  · cases h

/-- The lock of a key guards its record. -/
structure GuardsRecords (P : Discipline (Store E) (RecordKey ⊕ K) C R) : Prop where
  record : ∀ {key d d'}, P.same (.inl key) d d' ↔ d.records key = d'.records key
  effects : ∀ {k d d'}, d.effects = d'.effects → P.same (.inr k) d d'

theorem GuardsRecords.setRecord (hP : GuardsRecords P) {locks : List (RecordKey ⊕ K)}
    {key : RecordKey} {record : IdempotencyRecord} (hlock : .inl key ∈ locks) :
    Guards P locks (Store.setRecord key record) := by
  intro k hk d
  cases k with
  | inr k => exact hP.effects rfl
  | inl k =>
    have hne : k ≠ key := by
      rintro rfl
      exact hk hlock
    exact hP.record.mpr (Function.update_of_ne hne _ _).symm

/-- A claim takes a key that is absent or expired, with its lock; or it finds a record, where the
key was taken at first, and later not expired. -/
theorem wp_claim {tenant : TenantId} {input : ClaimInput} {w : World (Store E) C R}
    {Φ : Post (Store E) (RecordKey ⊕ K) C R ClaimResult}
    {Ψ : Post (Store E) (RecordKey ⊕ K) C R Failure} (hP : GuardsRecords P)
    (htenant : input.tenantId = tenant)
    (hclaimed : ∀ w', P.inv w' → (∀ record, w'.db.records input.recordKey = some record →
      record.expiresAt ≤ input.now) → input.now < input.expiresAt →
      Φ .claimed [.inl input.recordKey] (Store.setRecord input.recordKey input.processing) w'.tick)
    (hexisting : ∀ w₁ w₂ w₃ record, P.inv w₁ → P.inv w₂ → P.inv w₃ →
      w₁.history <+: w₂.history → w₂.history <+: w₃.history →
      w₁.db.records input.recordKey ≠ none →
      (∀ record, w₂.db.records input.recordKey = some record → input.now < record.expiresAt) →
      w₃.db.records input.recordKey = some record →
      Φ (.existing input.tenantId record) [] id w₃.tick)
    (hthrow : ∀ w₁ w₃ e, P.inv w₁ → P.inv w₃ → w₁.history <+: w₃.history →
      w₁.db.records input.recordKey ≠ none → w₃.db.records input.recordKey = none →
      Ψ e [] id w₃.tick) :
    wp P Φ Ψ (claim tenant input) [] id w := by
  subst htenant
  have hassert : assertTenant input.tenantId input.tenantId = .ok () := by
    simp [assertTenant, throwIf]
  unfold claim
  rw [hassert]
  refine wp_statement fun w₁ r₁ _ hinv₁ hrun₁ => ?_
  obtain ⟨htaken, rfl⟩ | ⟨hnone, hchecks, rfl⟩ := insertClaim_cases hrun₁
  · refine ⟨Guards.id P _, ?_⟩
    refine wp_statement fun w₂ r₂ hrely₂ hinv₂ hrun₂ => ?_
    obtain ⟨hlive, rfl⟩ | ⟨⟨record, hrecord, hexpired⟩, hchecks, rfl⟩ :=
      replaceExpired_cases hrun₂
    · refine ⟨Guards.id P _, ?_⟩
      refine wp_statement fun w₃ r₃ hrely₃ hinv₃ hrun₃ => ?_
      cases hrun₃
      refine ⟨Guards.id P _, ?_⟩
      dsimp only [Function.comp, id]
      cases hrecord : w₃.db.records input.recordKey with
      | none => exact hthrow w₁ w₃ _ hinv₁ hinv₃ (hrely₂.history.trans hrely₃.history) htaken hrecord
      | some record =>
        exact hexisting w₁ w₂ w₃ record hinv₁ hinv₂ hinv₃ hrely₂.history hrely₃.history htaken
          hlive hrecord
    · refine ⟨hP.setRecord (by simp), ?_⟩
      refine hclaimed w₂ hinv₂ ?_ (now_lt_expiresAt hchecks)
      intro record' hrecord'
      cases hrecord.symm.trans hrecord'
      exact hexpired
  · refine ⟨hP.setRecord (by simp), ?_⟩
    refine hclaimed w₁ hinv₁ ?_ (now_lt_expiresAt hchecks)
    intro record hrecord
    cases hnone.symm.trans hrecord

section Effects

variable {Q : Discipline E K C R} {Ref : Type}

/-- The world without the records. -/
def effectsOf (w : World (Store E) C R) : World E C R where
  db := w.db.effects
  seq := w.seq
  history := w.history

/-- A discipline of what commands write, beside the records. -/
def stored (Q : Discipline E K C R) : Discipline (Store E) (RecordKey ⊕ K) C R where
  same := fun k d d' => match k with
    | .inl key => d.records key = d'.records key
    | .inr k => Q.same k d.effects d'.effects
  equivalence := fun k => match k with
    | .inl _ => ⟨fun _ => rfl, fun h => h.symm, fun h h' => h.trans h'⟩
    | .inr k => ⟨fun _ => (Q.equivalence k).refl _, fun h => (Q.equivalence k).symm h,
        fun h h' => (Q.equivalence k).trans h h'⟩
  inv := fun w => Q.inv (effectsOf w)
  inv_tick := fun h => Q.inv_tick h
  effect := fun call r d d' => Q.effect call r d.effects d'.effects

theorem guardsRecords_stored : GuardsRecords (stored Q) where
  record := Iff.rfl
  effects := fun {k d d'} h => by
    change Q.same k d.effects d'.effects
    rw [h]
    exact (Q.equivalence k).refl _

/-- A transaction of the store is one of the effects: the same locks, and the same change. -/
structure Beside (locks' : List (RecordKey ⊕ K)) (change' : Store E → Store E) (locks : List K)
    (change : E → E) : Prop where
  locks : ∀ k, .inr k ∈ locks' ↔ k ∈ locks
  change : ∀ d, (change' d).effects = change d.effects

theorem Beside.rely {locks' : List (RecordKey ⊕ K)} {change' : Store E → Store E}
    {locks : List K} {change : E → E} {w w' : World (Store E) C R}
    (h : Beside locks' change' locks change) (hrely : Rely (stored Q) locks' w w') :
    Rely Q locks (effectsOf w) (effectsOf w') :=
  ⟨hrely.seq, hrely.history, fun k hk => hrely.same (.inr k) ((h.locks k).mpr hk)⟩

theorem Beside.committable {locks' : List (RecordKey ⊕ K)} {change' : Store E → Store E}
    {locks : List K} {change : E → E} {w : World (Store E) C R} {call : C} {r : R}
    (h : Beside locks' change' locks change)
    (hcommit : Committable Q call r locks change (effectsOf w)) :
    Committable (stored Q) call r locks' change' w := by
  intro w' hrely hinv
  have hboth := hcommit (effectsOf w') (h.rely hrely) hinv
  have hworld : effectsOf (w'.commit call change' r) = (effectsOf w').commit call change r := by
    simp [effectsOf, World.commit, h.change]
  refine ⟨?_, ?_⟩
  · change Q.inv (effectsOf (w'.commit call change' r))
    rw [hworld]
    exact hboth.1
  · change Q.effect call r w'.db.effects (change' w'.db).effects
    rw [h.change]
    exact hboth.2

/-- A program of the effects, verified among them, is so beside the records. -/
theorem wp_zoom_effects {p : Tx Failure E K A} {Φ : Post E K C R A} {Ψ : Post E K C R Failure}
    {locks' : List (RecordKey ⊕ K)} {change' : Store E → Store E} {locks : List K}
    {change : E → E} {w : World (Store E) C R} (hbeside : Beside locks' change' locks change)
    (h : wp Q Φ Ψ p locks change (effectsOf w)) :
    wp (stored Q)
      (fun a locks' change' w => ∃ locks change, Beside locks' change' locks change ∧
        Φ a locks change (effectsOf w))
      (fun _ _ _ _ => True) (p.zoom Store.effects Store.mapEffects Sum.inr) locks' change' w := by
  induction p generalizing locks' change' locks change w with
  | done a => exact ⟨locks, change, hbeside, h⟩
  | throw e => trivial
  | query s next ih =>
    intro w' r hrely hinv hrun
    unfold Tx.zoomStatement at hrun
    rw [hbeside.change] at hrun
    obtain ⟨r', hr', hrun⟩ := Except.bind_eq_ok_iff.mp hrun
    cases hrun
    obtain ⟨hguards, hnext⟩ := h (effectsOf w') r' (hbeside.rely hrely) hinv hr'
    have hlocks : ∀ k, Sum.inr k ∈ (r'.lock.map Sum.inr).toList ++ locks' ↔
        k ∈ r'.lock.toList ++ locks := by
      intro k
      cases r'.lock <;> simp [hbeside.locks]
    refine ⟨?_, ih r'.result ⟨hlocks, ?_⟩ hnext⟩
    · intro k hk d
      cases k with
      | inl key => rfl
      | inr k => exact hguards k (fun h => hk ((hlocks k).mpr h)) d.effects
    · intro d
      simp [Store.mapEffects, hbeside.change]

/-- Completion writes nothing but a record. -/
theorem wp_complete {tenant : TenantId} {input : ClaimInput} {response : StoredResponse}
    {locks' : List (RecordKey ⊕ K)} {change' : Store E → Store E} {locks : List K}
    {change : E → E} {w : World (Store E) C R} {call : C} {r : R}
    (hbeside : Beside locks' change' locks change)
    (hcommit : Committable Q call r locks change (effectsOf w)) :
    wp (stored Q) (fun _ locks change w => Committable (stored Q) call r locks change w)
      (fun _ _ _ _ => True) (complete tenant input response) locks' change' w := by
  unfold complete
  refine wp_lift ?_ fun _ _ => trivial
  rintro - -
  refine wp_statement fun w' o hrely _ hrun => ?_
  have hlater : Committable Q call r locks change (effectsOf w'.tick) := fun w'' hr =>
    hcommit w'' ((hbeside.rely hrely).trans ((Rely.tick Q locks (effectsOf w')).trans hr))
  obtain rfl | ⟨record, rfl⟩ := updateCompleted_cases hrun
  · exact ⟨Guards.id _ _, trivial⟩
  · refine ⟨guardsRecords_stored.setRecord (by simp), ?_⟩
    exact Beside.committable ⟨by simpa using hbeside.locks, hbeside.change⟩ hlater

/-- The executor keeps a discipline that its work keeps, and that a replay keeps by changing
nothing. -/
theorem wp_executeClaimed {context : TrustedExecutionScope} {input : ClaimInput}
    {work : Tx Failure E K (WorkResponse Ref)} {w : World (Store E) C R} {call : C}
    {reply : IdempotentResult → R} (htenant : input.tenantId = context.tenantId)
    (hreplay : ∀ response w, Q.inv w → Committable Q call (reply ⟨response, true⟩) [] id w)
    (hwork : ∀ w, Q.inv w → wp Q (fun _ locks change w => ∀ response,
      Committable Q call (reply ⟨response, false⟩) locks change w) (fun _ _ _ _ => True)
      work [] id w) :
    wp (stored Q) (fun a locks change w => Committable (stored Q) call (reply a) locks change w)
      (fun _ _ _ _ => True) (executeClaimed context input work) [] id w := by
  refine wp_bind (wp_claim guardsRecords_stored htenant ?_ ?_ ?_)
  · intro w' hinv _ _
    have hbeside : Beside (E := E) (K := K) [.inl input.recordKey]
        (Store.setRecord input.recordKey input.processing) [] id := ⟨by simp, fun _ => rfl⟩
    have hzoom := wp_zoom_effects (w := w'.tick) hbeside (hwork _ (Q.inv_tick hinv))
    refine wp_bind (wp_mono ?_ hzoom)
    rintro response locks' change' w'' ⟨locks, change, hbeside', hcommit⟩
    refine wp_lift ?_ fun _ _ => trivial
    intro stored _
    exact wp_bind (wp_complete hbeside' (hcommit stored))
  · intro w₁ w₂ w₃ record _ _ hinv₃ _ _ _ _ _
    dsimp only
    cases hresult : replay context input.requestHash input.tenantId record with
    | error e => trivial
    | ok result =>
      have hbeside : Beside (E := E) (K := K) [] id [] id := ⟨by simp, fun _ => rfl⟩
      have hcommit := hreplay result.response (effectsOf w₃.tick) (Q.inv_tick hinv₃)
      rw [← replayed_of_replay hresult] at hcommit
      exact hbeside.committable hcommit
  · intros
    trivial

end Effects

end Sintius.Idempotency
