import Mathlib
import Sintius.Lib.Except
import Sintius.Lib.Agreement
import Sintius.Spec.Canonical
import Sintius.Spec.Idempotency
import Sintius.Sanity.Idempotency
import Sintius.Proofs.Idempotency

/-! A lookup shows nothing that its caller may not see. A request that is not valid, or
that `authorize` rejects, comes to no statement. An authorized one runs alike wherever
the records of its tenant are the same and so is what its work reads. -/

namespace Sintius.Idempotency

open Js Sintius.Canonical Sintius.Tenancy Sql

variable {E K Ref : Type} [DecidableEq Ref]

/-- A request that passes every check made before the lookup. -/
structure Admitted (dependencies : ExecutorDependencies) (call : Call E K Ref) : Prop where
  scope : SCOPE_PATTERN call.request.scope = true
  key : ∃ key, call.request.key = some key ∧ KEY_PATTERN key = true
  tenant : containsTenantIdentity call.heap call.request.payload = false
  payload : ∃ requestHash, canonicalRequestHash dependencies.sha256 call.heap call.request.scope
    call.request.payload = .ok requestHash
  authorized : call.authorize = .ok ()

/-- Before the lookup, every check was made. -/
theorem Admitted.of_prepare {dependencies : ExecutorDependencies} {call : Call E K Ref}
    {input : ClaimInput} (h : prepare dependencies call = .ok input) :
    Admitted dependencies call := by
  unfold prepare at h
  obtain ⟨_, hscope, h⟩ := Except.bind_eq_ok_iff.mp h
  obtain ⟨rawKey, hkey, h⟩ := Except.bind_eq_ok_iff.mp h
  obtain ⟨_, hpattern, h⟩ := Except.bind_eq_ok_iff.mp h
  obtain ⟨_, htenant, h⟩ := Except.bind_eq_ok_iff.mp h
  obtain ⟨requestHash, hhash, h⟩ := Except.bind_eq_ok_iff.mp h
  obtain ⟨_, hauthorize, -⟩ := Except.bind_eq_ok_iff.mp h
  refine ⟨?_, ⟨rawKey, ?_, ?_⟩, ?_, ⟨requestHash, hhash⟩, hauthorize⟩
  · simpa using refuseIf_eq_ok_iff.mp hscope
  · exact requireKey_eq_ok hkey
  · simpa using refuseIf_eq_ok_iff.mp hpattern
  · simpa using refuseIf_eq_ok_iff.mp htenant

/-- A request that some check refuses comes to no statement. -/
theorem executeUntraced_eq_throw {dependencies : ExecutorDependencies} {call : Call E K Ref}
    (h : ¬ Admitted dependencies call) :
    ∃ e, executeUntraced dependencies call = .throw e := by
  unfold executeUntraced
  cases hprepare : prepare dependencies call with
  | ok input => exact absurd (Admitted.of_prepare hprepare) h
  | error e => exact ⟨e, rfl⟩

/-- The same records of the tenant, and the same of what its work reads. -/
def ofTenant (tenant : TenantId) (reads : Agreement E) : Agreement (Store E) where
  same n d n' d' := (∀ key, key.tenant_id = tenant → d.records key = d'.records key) ∧
    reads.same n d.effects n' d'.effects
  tick := by
    rintro n d n' d' ⟨hrecords, hreads⟩
    exact ⟨hrecords, reads.tick hreads⟩

variable {tenant : TenantId} {reads : Agreement E}

/-- A statement that leaves the effects writes one record of the tenant, or none. -/
theorem ofTenant_setRecord {n n' : ℕ} {d d' : Store E} {key : RecordKey}
    {record : IdempotencyRecord} (h : (ofTenant tenant reads).same n d n' d') :
    (ofTenant tenant reads).same (n + 1) (d.setRecord key record) (n' + 1)
      (d'.setRecord key record) := by
  refine ⟨?_, reads.tick h.2⟩
  intro key' htenant
  by_cases heq : key' = key
  · simp [Store.setRecord, heq]
  · simp [Store.setRecord, Function.update_of_ne heq, h.1 key' htenant]

theorem respects_insertClaim {input : ClaimInput} (htenant : input.tenantId = tenant) :
    (insertClaim (E := E) (K := K) input).Respects (ofTenant tenant reads) := by
  intro n d n' d' h
  unfold insertClaim
  rw [h.1 input.recordKey htenant]
  cases d'.records input.recordKey with
  | some record => exact ⟨rfl, (ofTenant tenant reads).tick h⟩
  | none =>
    dsimp only
    split_ifs with hchecks
    · exact ⟨rfl, ofTenant_setRecord h⟩
    · rfl

theorem respects_replaceExpired {input : ClaimInput} (htenant : input.tenantId = tenant) :
    (replaceExpired (E := E) (K := K) input).Respects (ofTenant tenant reads) := by
  intro n d n' d' h
  unfold replaceExpired
  rw [h.1 input.recordKey htenant]
  cases d'.records input.recordKey with
  | none => exact ⟨rfl, (ofTenant tenant reads).tick h⟩
  | some record =>
    dsimp only
    split_ifs with hexpired hchecks
    · exact ⟨rfl, ofTenant_setRecord h⟩
    · rfl
    · exact ⟨rfl, (ofTenant tenant reads).tick h⟩

theorem respects_selectRecord {key : RecordKey} (htenant : key.tenant_id = tenant) :
    (selectRecord (E := E) (K := K) key).Respects (ofTenant tenant reads) := by
  intro n d n' d' h
  exact ⟨h.1 key htenant, (ofTenant tenant reads).tick h⟩

theorem respects_updateCompleted {key : RecordKey} {response : StoredResponse}
    (htenant : key.tenant_id = tenant) :
    (updateCompleted (E := E) (K := K) key response).Respects (ofTenant tenant reads) := by
  intro n d n' d' h
  unfold updateCompleted
  rw [h.1 key htenant]
  cases d'.records key with
  | none => exact ⟨rfl, (ofTenant tenant reads).tick h⟩
  | some record =>
    dsimp only
    split_ifs with hstatus
    · exact ⟨rfl, ofTenant_setRecord h⟩
    · exact ⟨rfl, (ofTenant tenant reads).tick h⟩

theorem respects_claim {boundTenantId : TenantId} {input : ClaimInput}
    (htenant : input.tenantId = tenant) :
    (claim boundTenantId input : StoreTx E K ClaimResult).Respects (ofTenant tenant reads) := by
  unfold claim
  refine .bind (.lift _) fun _ => ?_
  refine .bind (.statement (respects_insertClaim htenant)) fun inserted => ?_
  split_ifs with hinserted
  · trivial
  · refine .bind (.statement (respects_replaceExpired htenant)) fun replaced => ?_
    split_ifs with hreplaced
    · trivial
    · refine .bind (.statement (respects_selectRecord htenant)) fun existing => ?_
      cases existing with
      | none => trivial
      | some record => exact .bind (.lift _) fun _ => trivial

theorem respects_complete {boundTenantId : TenantId} {input : ClaimInput}
    {response : StoredResponse} (htenant : input.tenantId = tenant) :
    (complete boundTenantId input response : StoreTx E K Unit).Respects
      (ofTenant tenant reads) := by
  unfold complete
  refine .bind (.lift _) fun _ => ?_
  refine .bind (.statement (respects_updateCompleted htenant)) fun completed => ?_
  split_ifs with hcompleted
  · trivial
  · trivial

omit [DecidableEq Ref] in
/-- The work touches no record. -/
theorem respects_work {work : Tx Failure E K (WorkResponse Ref)} (h : work.Respects reads) :
    (work.zoom Store.effects Store.mapEffects Sum.inr :
      StoreTx E K (WorkResponse Ref)).Respects (ofTenant tenant reads) := by
  refine h.zoom (fun hsame => hsame.2) ?_
  intro n d n' d' f g hsame hafter
  exact ⟨hsame.1, hafter⟩

omit [DecidableEq Ref] in
theorem respects_executeClaimed {context : TrustedExecutionScope} {input : ClaimInput}
    {work : Tx Failure E K (WorkResponse Ref)} (htenant : input.tenantId = tenant)
    (h : work.Respects reads) :
    (executeClaimed context input work).Respects (ofTenant tenant reads) := by
  unfold executeClaimed
  refine .bind (respects_claim htenant) fun result => ?_
  cases result with
  | in_progress retryAfterSeconds => trivial
  | existing tenantId record => exact .lift _
  | claimed =>
    refine .bind (respects_work h) fun response => ?_
    refine .bind (.lift _) fun stored => ?_
    exact .bind (respects_complete htenant) fun _ => trivial

/-- A request that some check refuses starts no transaction and ends the same everywhere. For an
admitted one, two states that agree on the records of its tenant, and on what its work reads, give
the same outcome and the same rows of the tenant, whatever else they hold. -/
theorem lookups_do_not_leak (dependencies : ExecutorDependencies) (call : Call E K Ref)
    (reads : Agreement E) :
    (¬ Admitted dependencies call → ∃ e, executeUntraced dependencies call = .throw e ∧
      ∀ n d, (executeUntraced dependencies call).transaction n d = ⟨.error e, n, d⟩) ∧
    (Admitted dependencies call → call.work.Respects reads → ∀ n d n' d',
      (∀ key, key.tenant_id = call.context.tenantId → d.records key = d'.records key) →
      reads.same n d.effects n' d'.effects →
      (ofTenant call.context.tenantId reads).Alike
        ((executeUntraced dependencies call).transaction n d)
        ((executeUntraced dependencies call).transaction n' d')) := by
  refine ⟨?_, ?_⟩
  · intro hrefused
    obtain ⟨e, he⟩ := executeUntraced_eq_throw hrefused
    refine ⟨e, he, ?_⟩
    intro n d
    rw [he]
    rfl
  · intro _ hwork n d n' d' hrecords hreads
    refine Tx.Respects.transaction ?_ ⟨hrecords, hreads⟩
    unfold executeUntraced
    cases hprepare : prepare dependencies call with
    | error e => trivial
    | ok input => exact respects_executeClaimed (tenantId_of_prepare hprepare) hwork

section Runs

variable {A : Type} {committed d : Store E} {n n' : ℕ} {e' : E}

omit [DecidableEq Ref] in
/-- The work runs on the effects alone. -/
theorem run_zoom_effects {p : Tx Failure E K A} {a : A}
    (h : p.run committed.effects n d.effects = ⟨.ok a, n', e'⟩) :
    (p.zoom Store.effects Store.mapEffects Sum.inr : StoreTx E K A).run committed n d =
      ⟨.ok a, n', { d with effects := e' }⟩ := by
  induction p generalizing n d with
  | done a' =>
    cases h
    rfl
  | throw e => cases h
  | query s next ih =>
    rw [Tx.run] at h
    rw [Tx.zoom, Tx.run]
    unfold Tx.zoomStatement
    cases hs : s n d.effects with
    | error e =>
      rw [hs] at h
      cases h
    | ok r =>
      rw [hs] at h
      exact ih (d := d.mapEffects r.change) r.result h

omit [DecidableEq Ref] in
/-- A command executes for a key without a record. -/
theorem run_executeClaimed {context : TrustedExecutionScope} {input : ClaimInput}
    {work : Tx Failure E K (WorkResponse Ref)} {response : WorkResponse Ref}
    {stored : StoredResponse} (htenant : input.tenantId = context.tenantId)
    (hnone : d.records input.recordKey = none)
    (hchecks : recordChecks input.recordKey input.processing = true)
    (hwork : work.run committed.effects (n + 1) d.effects = ⟨.ok response, n', e'⟩)
    (hstored : storedResponse context response = .ok stored) :
    (executeClaimed context input work : StoreTx E K IdempotentResult).run committed n d =
      ⟨.ok ⟨stored, false⟩, n' + 1,
        { records := Function.update (Function.update d.records input.recordKey
            (some input.processing)) input.recordKey (some (input.completed stored))
          effects := e' }⟩ := by
  have hinsert : insertClaim input n d = (.ok ⟨1, Store.setRecord input.recordKey
      input.processing, some (.inl input.recordKey)⟩ :
        Except Failure (Outcome (Store E) (RecordKey ⊕ K) ℕ)) := by
    simp [insertClaim, hnone, hchecks]
  have hclaim : (claim context.tenantId input : StoreTx E K ClaimResult).run committed n d =
      ⟨.ok .claimed, n + 1, d.setRecord input.recordKey input.processing⟩ := by
    unfold claim
    rw [htenant, assertTenant_self]
    refine (Tx.run_bind (Tx.run_lift rfl)).trans ?_
    exact (Tx.run_bind (Tx.run_query hinsert)).trans rfl
  have hupdate : updateCompleted input.recordKey stored n'
      { d.setRecord input.recordKey input.processing with effects := e' } = (.ok ⟨1,
        Store.setRecord input.recordKey (input.completed stored), some (.inl input.recordKey)⟩ :
        Except Failure (Outcome (Store E) (RecordKey ⊕ K) ℕ)) := by
    simp [updateCompleted, Store.setRecord, ClaimInput.processing, ClaimInput.completed]
  have hcomplete : (complete context.tenantId input stored : StoreTx E K Unit).run committed n'
      { d.setRecord input.recordKey input.processing with effects := e' } =
      ⟨.ok (), n' + 1, Store.setRecord input.recordKey (input.completed stored)
        { d.setRecord input.recordKey input.processing with effects := e' }⟩ := by
    unfold complete
    rw [htenant, assertTenant_self]
    refine (Tx.run_bind (Tx.run_lift rfl)).trans ?_
    exact (Tx.run_bind (Tx.run_query hupdate)).trans rfl
  unfold executeClaimed
  refine (Tx.run_bind hclaim).trans ?_
  dsimp only
  refine (Tx.run_bind (run_zoom_effects (d := d.setRecord _ _) hwork)).trans ?_
  refine (Tx.run_bind (Tx.run_lift hstored)).trans ?_
  exact (Tx.run_bind hcomplete).trans rfl

end Runs

/-- The same count of one tenant. -/
def sameCount (tenant : TenantId) : Agreement (TenantId → ℕ) where
  same _ counts _ counts' := counts tenant = counts' tenant
  tick := id

/-- A command of `tenant_A` that counts its runs, and returns whether this was the first. -/
def countingCall (authorize : Except Failure Unit) : Call (TenantId → ℕ) Empty Empty where
  context := (sampleCall "").context
  heap := Empty.elim
  request := (sampleCall "8f14e45f-ceea-467f-a0e6-1c2d3e4f5a6b").request
  authorize := authorize
  now := (sampleCall "").now
  work := .query
    (fun _ counts => .ok
      ⟨counts "tenant_A", fun counts => Function.update counts "tenant_A" (counts "tenant_A" + 1),
        none⟩)
    fun count => .done ⟨Number.ofNat 201 created_safe, Empty.elim, .bool (count = 0)⟩

theorem respects_countingCall (authorize : Except Failure Unit) :
    (countingCall authorize).work.Respects (sameCount "tenant_A") := by
  refine ⟨?_, fun _ _ _ _ _ _ _ => trivial⟩
  intro n counts n' counts' hsame
  refine ⟨hsame, ?_⟩
  simp [sameCount, show counts "tenant_A" = counts' "tenant_A" from hsame]

theorem admitted_countingCall : Admitted sampleDependencies (countingCall (.ok ())) := by
  have hsample := Admitted.of_prepare
    (prepare_sample "8f14e45f-ceea-467f-a0e6-1c2d3e4f5a6b" (by simp))
  exact ⟨hsample.scope, hsample.key, hsample.tenant, hsample.payload, rfl⟩

/-- Nothing that `tenant_B` has shows: neither its count nor its record under the same scope and
key. A caller whom `authorize` rejects gets to no statement. -/
theorem lookups_do_not_leak_counting :
    (∃ e, executeUntraced sampleDependencies (countingCall (.error (.error "denied"))) =
      .throw e) ∧
    (ofTenant "tenant_A" (sameCount "tenant_A")).Alike
      ((executeUntraced sampleDependencies (countingCall (.ok ()))).transaction 0
        ⟨fun _ => none, fun _ => 0⟩)
      ((executeUntraced sampleDependencies (countingCall (.ok ()))).transaction 5
        ⟨Function.update (fun _ => none) { sampleInput.recordKey with tenant_id := "tenant_B" }
          (some (sampleInput.completed ⟨201, .null⟩)),
          Function.update (fun _ => 0) "tenant_B" 7⟩) := by
  refine ⟨?_, ?_⟩
  · have hrefused : ¬ Admitted sampleDependencies (countingCall (.error (.error "denied"))) := by
      intro h
      cases h.authorized
    obtain ⟨e, he, -⟩ :=
      (lookups_do_not_leak _ (countingCall (.error (.error "denied"))) (sameCount "tenant_A")).1
        hrefused
    exact ⟨e, he⟩
  · refine (lookups_do_not_leak _ _ (sameCount "tenant_A")).2 admitted_countingCall
      (respects_countingCall _) _ _ _ _ ?_ ?_
    · intro key htenant
      have hne : key ≠ { sampleInput.recordKey with tenant_id := "tenant_B" } := by
        rintro rfl
        exact absurd htenant (by decide)
      simp [Function.update_of_ne hne]
    · simp [sameCount]

end Sintius.Idempotency
