import Mathlib
import Sintius.Lib.Date
import Sintius.Lib.Agreement
import Sintius.Lib.Except
import Sintius.Lib.Programs
import Sintius.Lib.Transaction
import Sintius.Lib.Utf16
import Sintius.Spec.Problem
import Sintius.Spec.TenantContext
import Sintius.Spec.Canonical
import Sintius.Spec.Queue
import Sintius.Spec.EventEnvelope
import Sintius.Spec.AuditRecorder
import Sintius.Spec.Idempotency
import Sintius.Spec.Tenant
import Sintius.Spec.FoundationProof
import Sintius.Sanity.Identity
import Sintius.Proofs.Canonical
import Sintius.Proofs.Evidence
import Sintius.Proofs.Idempotency
import Sintius.Proofs.Isolation
import Sintius.Proofs.Lifecycle

/-! The foundation proof command end to end: whatever calls run, in whatever order their
statements do, the records, the evidence and the events are those of the calls that
executed, one of each, and every call that returns was given the result of one of them. -/

namespace Sintius.FoundationProof

open Js Js.Date Sintius.Canonical Sintius.Tenancy Sintius.Outbox Sintius.Audit
  Sintius.Idempotency Sintius.Identity Sql

abbrev ProofHistory := List (ProofCall × IdempotentResult)

/-- The calls that executed, in the order they committed. -/
def executed (history : ProofHistory) : List ProofCall :=
  (history.filter fun entry => !entry.2.replayed).map Prod.fst

/-- What a caller reads of a record. -/
def resultOf (record : FoundationProofRecord) : FoundationProofResult where
  proofRecordId := units record.proofRecordId
  label := units record.label
  recordedAt := units (toISOString record.recordedAt)

/-- The entry of a call's event, as its transaction left it. -/
def Announces (c : ProofCall) (entry : OutboxEntry ProofEventData) : Prop :=
  ∃ n, entry = newEntry n none c.prepared.envelope c.prepared.envelope.recorded_at

/-- The tables are those that these calls leave. -/
structure Ledger (recorder : AuditRecorder) (calls : List ProofCall) (d : ProofDb) : Prop where
  records : d.foundation_proof_record = calls.map fun c => c.prepared.record
  audits : List.Forall₂ (fun c row => c.evidence recorder = .ok row) calls d.audit_event
  events : List.Forall₂ Announces calls d.outbox_event

/-- A call was given the result of this one. -/
structure AnsweredBy (entry : ProofCall × IdempotentResult) (source : ProofCall) : Prop where
  tenant : source.context.tenantId = entry.1.context.tenantId
  result : ∀ correlationId,
    resultFrom entry.2.response correlationId = .ok (resultOf source.prepared.record)

def noProofs : ProofDb := ⟨[], [], []⟩

/-- The tables hold as many rows of a tenant each. -/
structure Balanced (d : ProofDb) (t : TenantId) : Prop where
  audits : d.audit_event.countP (fun row => row.tenantId == units t) =
    d.foundation_proof_record.countP fun record => record.tenantId == t
  events : d.outbox_event.countP (fun entry => entry.envelope.tenant_id == t) =
    d.foundation_proof_record.countP fun record => record.tenantId == t

theorem executed_append (history : ProofHistory) (entry : ProofCall × IdempotentResult) :
    executed (history ++ [entry]) =
      executed history ++ if entry.2.replayed then [] else [entry.1] := by
  cases hreplayed : entry.2.replayed <;> simp [executed, hreplayed]

section UnitOfWork

variable {t : TenantId} {change : ProofDb → ProofDb}

theorem produces_insertRecord {record : FoundationProofRecord}
    (h : (insertRecord t record).Produces () change) : change = ProofDb.addRecord record := by
  obtain ⟨_, _, h⟩ := Tx.produces_lift_bind h
  obtain ⟨n, d, r, hrun, -, rfl⟩ := Tx.produces_statement h
  unfold insertRecordRow at hrun
  split_ifs at hrun
  cases hrun
  rfl

theorem produces_appendAudit {event : AuditEvent}
    (h : (appendAudit t event).Produces () change) : change = ProofDb.addAudit event := by
  obtain ⟨_, _, h⟩ := Tx.produces_lift_bind h
  obtain ⟨n, d, r, hrun, -, rfl⟩ := Tx.produces_statement h
  unfold insertAuditRow at hrun
  split_ifs at hrun
  cases hrun
  rfl

theorem produces_appendOutbox {envelope : EventEnvelope ProofEventData}
    (h : (appendOutbox t envelope).Produces () change) :
    ∃ n, change = ProofDb.addEvent (newEntry n none envelope envelope.recorded_at) := by
  obtain ⟨_, _, h⟩ := Tx.produces_lift_bind h
  obtain ⟨n, d, r, hrun, -, rfl⟩ := Tx.produces_statement h
  unfold insertOutboxRow at hrun
  split at hrun
  · cases hrun
  · cases hrun
    exact ⟨n, rfl⟩

end UnitOfWork

/-- A call that executes adds one row to each table. -/
theorem produces_work {recorder : AuditRecorder} {c : ProofCall} {response : WorkResponse Empty}
    {change : ProofDb → ProofDb} (h : (c.work recorder).Produces response change) :
    response = c.response ∧ ∃ event entry, c.evidence recorder = .ok event ∧
      Announces c entry ∧ change = ProofDb.addEvent entry ∘ ProofDb.addAudit event ∘
        ProofDb.addRecord c.prepared.record := by
  unfold ProofCall.work at h
  obtain ⟨_, first, rest, hrecord, hafter, rfl⟩ := Tx.produces_bind h
  obtain ⟨event, hevent, hafter⟩ := Tx.produces_lift_bind hafter
  obtain ⟨_, second, rest', haudit, hlast, rfl⟩ := Tx.produces_bind hafter
  obtain ⟨_, third, last, hevents, hdone, rfl⟩ := Tx.produces_bind hlast
  obtain ⟨rfl, rfl⟩ := Tx.produces_done hdone
  obtain ⟨n, rfl⟩ := produces_appendOutbox hevents
  rw [produces_insertRecord hrecord, produces_appendAudit haudit]
  exact ⟨rfl, event, _, hevent, ⟨n, rfl⟩, rfl⟩

theorem Ledger.append {recorder : AuditRecorder} {calls : List ProofCall} {d : ProofDb}
    {c : ProofCall} {response : WorkResponse Empty} {change : ProofDb → ProofDb}
    (h : Ledger recorder calls d) (hwork : (c.work recorder).Produces response change) :
    Ledger recorder (calls ++ [c]) (change d) := by
  obtain ⟨-, event, entry, hevent, hentry, rfl⟩ := produces_work hwork
  constructor
  · simp [ProofDb.addEvent, ProofDb.addAudit, ProofDb.addRecord, h.records]
  · exact List.rel_append h.audits (.cons hevent .nil)
  · exact List.rel_append h.events (.cons hentry .nil)

theorem denotesAt_response (c : ProofCall) : DenotesAt c.response.heap 2 c.response.body
    (document [
      (ascii "proof_record_id", some (.string (units c.prepared.record.proofRecordId))),
      (ascii "label", some (.string (units c.prepared.record.label))),
      (ascii "recorded_at", some (.string (units (toISOString c.prepared.record.recordedAt))))]) :=
  denotesAt_literal <|
    .cons ⟨rfl, denotesProperty_string _⟩ <|
    .cons ⟨rfl, denotesProperty_string _⟩ <|
    .cons ⟨rfl, denotesProperty_string _⟩ .nil

/-- What is stored for a call decodes to its own result. -/
theorem resultFrom_response {recorder : AuditRecorder} {c : ProofCall} {stored : StoredResponse}
    (h : storedResponse (c.call recorder).context c.response = .ok stored)
    (correlationId : String) :
    resultFrom stored correlationId = .ok (resultOf c.prepared.record) := by
  have hresponse := responseOf_storedResponse h
  have hstatus : stored.status = 201 := by
    have hinteger := hresponse.status
    simpa [ProofCall.response] using hinteger.symm
  have hbody : stored.body = _ := hresponse.body _ ⟨2, denotesAt_response c⟩
  have hkeys : (ascii "label" == ascii "proof_record_id") = false ∧
      (ascii "recorded_at" == ascii "proof_record_id") = false ∧
      (ascii "recorded_at" == ascii "label") = false := by
    decide
  unfold resultFrom
  rw [hstatus, hbody]
  simp [document, List.lookup_cons, hkeys, stringOf, resultOf]

/-- What a call's context and input make of its record and its event. -/
structure Stamped (c : ProofCall) : Prop where
  tenant : c.prepared.record.tenantId = c.context.tenantId
  actor : c.prepared.record.actorId = c.context.actorId
  correlation : c.prepared.record.correlationId = c.context.correlationId
  label : c.prepared.record.label = trim c.label
  event : c.prepared.envelope.tenant_id = c.context.tenantId

theorem stamped_call (c : ProofCall) : Stamped c := by
  obtain ⟨label, hlabel, h⟩ := Except.bind_eq_ok_iff.mp c.prepares
  obtain ⟨_, -, hlabel⟩ := Except.bind_eq_ok_iff.mp hlabel
  cases hlabel
  cases hnow : c.env.now with
  | none =>
    rw [hnow] at h
    cases h
  | some now =>
    rw [hnow] at h
    obtain ⟨envelope, henvelope, h⟩ := Except.bind_eq_ok_iff.mp h
    have hprepared := Except.ok.inj h
    have hevent : envelope.tenant_id = c.context.tenantId :=
      (buildEventEnvelopeFor_eq_ok henvelope).1
    constructor <;> rw [← hprepared]
    exact hevent

/-- Rows that belong to the same tenants are as many. -/
theorem countP_eq_of_forall₂ {α β : Type} {R : α → β → Prop} {p : α → Bool} {q : β → Bool}
    {as : List α} {bs : List β} (h : List.Forall₂ R as bs)
    (hsame : ∀ a b, R a b → q b = p a) : bs.countP q = as.countP p := by
  induction h with
  | nil => rfl
  | cons hab _ ih => simp [List.countP_cons, ih, hsame _ _ hab]

theorem Ledger.balanced {recorder : AuditRecorder} {calls : List ProofCall} {d : ProofDb}
    (h : Ledger recorder calls d) (t : TenantId) : Balanced d t := by
  have hrecords : d.foundation_proof_record.countP (fun record => record.tenantId == t) =
      calls.countP fun c => c.context.tenantId == t := by
    rw [h.records, List.countP_map]
    exact List.countP_congr fun c _ => by simp [(stamped_call c).tenant]
  constructor
  · rw [hrecords]
    refine countP_eq_of_forall₂ h.audits fun c row hrow => ?_
    rw [(recordForScope_eq_ok hrow).1]
    simp [eventScopeFromContext, units_injective.eq_iff]
  · rw [hrecords]
    refine countP_eq_of_forall₂ h.events fun c entry hentry => ?_
    obtain ⟨n, rfl⟩ := hentry
    simp [newEntry, (stamped_call c).event]

/-- What holds whenever anybody looks. -/
structure Aligned (recorder : AuditRecorder) (history : ProofHistory) (d : ProofDb) : Prop where
  /-- One record, one evidence row and one event for each call that executed, in turn. -/
  ledger : Ledger recorder (executed history) d
  /-- Such a call was given its own result, -/
  own : ∀ entry ∈ history, entry.2.replayed = false → AnsweredBy entry entry.1
  /-- and every other that of one of its tenant that executed. -/
  answered : ∀ entry ∈ history, ∃ source ∈ executed history, AnsweredBy entry source

/-- The executor's history of these calls. -/
def calls (recorder : AuditRecorder) (history : ProofHistory) :
    List (Entry ProofDb Empty Empty) :=
  history.map fun entry => (entry.1.call recorder, entry.2)

theorem exists_of_calls_eq_append {recorder : AuditRecorder} {history : ProofHistory}
    {before : List (Entry ProofDb Empty Empty)} {last : Entry ProofDb Empty Empty}
    (h : before ++ [last] = calls recorder history) : ∃ history' c,
      history = history' ++ [(c, last.2)] ∧ before = calls recorder history' ∧
      last.1 = c.call recorder := by
  obtain ⟨history', rest, rfl, hbefore, hlast⟩ := List.map_eq_append_iff.mp h.symm
  obtain ⟨entry, rfl, rfl⟩ := List.map_eq_singleton_iff.mp hlast
  exact ⟨history', entry.1, rfl, hbefore.symm, rfl⟩

theorem aligned_of_serial {dependencies : ExecutorDependencies} {recorder : AuditRecorder}
    {entries : List (Entry ProofDb Empty Empty)} {d : ProofDb}
    (h : Serial dependencies noProofs entries d) {history : ProofHistory}
    (hcalls : entries = calls recorder history) : Aligned recorder history d := by
  induction h generalizing history with
  | nil =>
    obtain rfl := List.map_eq_nil_iff.mp hcalls.symm
    exact ⟨⟨rfl, .nil, .nil⟩, fun _ h => absurd h List.not_mem_nil,
      fun _ h => absurd h List.not_mem_nil⟩
  | @execute entries effects call input response stored change _ hprepare _ _ hwork hstored ih =>
    obtain ⟨history, c, rfl, hbefore, hcall⟩ := exists_of_calls_eq_append hcalls
    have hearlier := ih hbefore
    dsimp only at hcall
    subst hcall
    obtain ⟨rfl, -⟩ := produces_work hwork
    have hself : AnsweredBy (c, ⟨stored, false⟩) c := ⟨rfl, resultFrom_response hstored⟩
    have hexecuted : executed (history ++ [(c, ⟨stored, false⟩)]) = executed history ++ [c] :=
      executed_append history _
    refine ⟨?_, ?_, ?_⟩
    · rw [hexecuted]
      exact hearlier.ledger.append hwork
    · intro entry hmem hreplayed
      rcases List.mem_append.mp hmem with hmem | hmem
      · exact hearlier.own entry hmem hreplayed
      · cases List.mem_singleton.mp hmem
        exact hself
    · intro entry hmem
      rw [hexecuted]
      rcases List.mem_append.mp hmem with hmem | hmem
      · obtain ⟨source, hsource, hanswered⟩ := hearlier.answered entry hmem
        exact ⟨source, List.mem_append_left _ hsource, hanswered⟩
      · cases List.mem_singleton.mp hmem
        exact ⟨c, by simp, hself⟩
  | @replay entries effects call input input₀ source _ hprepare hmem hentry hkey _ _ ih =>
    obtain ⟨history, c, rfl, rfl, hcall⟩ := exists_of_calls_eq_append hcalls
    have hearlier := ih rfl
    dsimp only at hcall
    subst hcall
    obtain ⟨first, hfirst, rfl⟩ := List.mem_map.mp hmem
    have hexecuted : executed (history ++ [(c, ⟨first.2.response, true⟩)]) = executed history := by
      rw [executed_append]
      simp
    have hmemExecuted : first.1 ∈ executed history :=
      List.mem_map_of_mem (List.mem_filter.mpr ⟨hfirst, by simpa using hentry.executed⟩)
    -- the key that both claimed names the tenant
    have htenant : first.1.context.tenantId = c.context.tenantId := by
      have hinput := tenantId_of_prepare hprepare
      have hinput₀ := tenantId_of_prepare hentry.prepared
      exact hinput₀.symm.trans ((congrArg RecordKey.tenant_id hkey).trans hinput)
    have hanswer : AnsweredBy (c, ⟨first.2.response, true⟩) first.1 :=
      ⟨htenant, (hearlier.own first hfirst hentry.executed).result⟩
    refine ⟨?_, ?_, ?_⟩
    · rw [hexecuted]
      exact hearlier.ledger
    · intro entry hmem hreplayed
      rcases List.mem_append.mp hmem with hmem | hmem
      · exact hearlier.own entry hmem hreplayed
      · cases List.mem_singleton.mp hmem
        cases hreplayed
    · intro entry hmem
      rw [hexecuted]
      rcases List.mem_append.mp hmem with hmem | hmem
      · exact hearlier.answered entry hmem
      · cases List.mem_singleton.mp hmem
        exact ⟨first.1, hmemExecuted, hanswer⟩

abbrev ProofState := State Failure (Store ProofDb) (RecordKey ⊕ Empty) ProofCall IdempotentResult

/-- No call has run yet. -/
def noCalls (seq : ℕ) : World (Store ProofDb) ProofCall IdempotentResult where
  db := ⟨fun _ => none, noProofs⟩
  seq := seq
  history := []

theorem aligned {dependencies : CommandDependencies} {seq : ℕ} {st : ProofState}
    (h : Reachable (recordProof dependencies) (noCalls seq) st) :
    Aligned dependencies.recorder st.world.history st.world.db.effects := by
  have hname : ∀ c : ProofCall, executeUntraced dependencies.executor
      (c.call dependencies.recorder) = recordProof dependencies c := fun _ => rfl
  have hreach : Reachable (executeUntraced dependencies.executor) (emptyWorld noProofs seq)
      (st.relabel fun c => c.call dependencies.recorder) := h.relabel hname
  have hsound := (verified dependencies.executor noProofs).sound
    (serialized_emptyWorld noProofs seq) hreach
  have hserialized : Serialized dependencies.executor noProofs
    (st.relabel fun c => c.call dependencies.recorder).world := hsound.inv
  exact aligned_of_serial hserialized.serial rfl

/-- The tables stay aligned, for each tenant as well, and every call that returns is answered by
a record of its tenant. -/
theorem proofs_aligned {dependencies : CommandDependencies} {seq : ℕ} {st : ProofState}
    (h : Reachable (recordProof dependencies) (noCalls seq) st) :
    Aligned dependencies.recorder st.world.history st.world.db.effects ∧
      ∀ t, Balanced st.world.db.effects t :=
  ⟨aligned h, (aligned h).ledger.balanced⟩

section Sample

def proofContext : TenantContext where
  tenantId := "tenant_a"
  actorId := "user"
  principalKind := .interactive
  assurance := .mfa
  correlationId := "corr-1"
  causationId := none
  credentialId := "credential-1"
  audiences := ["sintius-api"]
  scopes := []
  issued := true

def proofDependencies : CommandDependencies where
  executor := sampleDependencies
  recorder := tenantRecorder

/-- A first call and its retry, which is given other identifiers. -/
def proofEnvironment (retry : Bool) : ProofEnvironment where
  permitted := .ok ()
  now := timeClip 1790244245000
  executorNow := timeClip 0
  recordedAt := timeClip 1790244245000
  newProofRecordId := if retry then "proof_2" else "proof_1"
  newEventId := if retry then "evt_2" else "evt_1"
  newAuditId := if retry then "aud_2" else "aud_1"

theorem proofInstant_clipped : |(1790244245000 : ℤ)| ≤ maxTime := by decide

def sampleProof (retry : Bool) : PreparedProof where
  record :=
    { tenantId := "tenant_a"
      proofRecordId := if retry then "proof_2" else "proof_1"
      label := "gate"
      actorId := "user"
      correlationId := "corr-1"
      recordedAt := ⟨1790244245000, proofInstant_clipped⟩ }
  envelope :=
    { id := if retry then "evt_2" else "evt_1"
      type := "com.subrevos.foundation.proof_recorded.v1"
      tenant_id := "tenant_a"
      aggregate_type := "FoundationProofRecord"
      aggregate_id := if retry then "proof_2" else "proof_1"
      aggregate_version := 1
      correlation_id := "corr-1"
      causation_id := none
      recorded_at := 1790244245000000
      data := ⟨if retry then "proof_2" else "proof_1", "gate"⟩ }

theorem prepareProof_sample : ∀ retry, prepareProof proofContext " gate " (proofEnvironment retry) =
    .ok (sampleProof retry) := by
  decide +kernel

def sampleCallOf (retry : Bool) : ProofCall where
  context := proofContext
  label := " gate "
  idempotencyKey := sampleKey
  env := proofEnvironment retry
  prepared := sampleProof retry
  prepares := prepareProof_sample retry

def proofInput : ClaimInput :=
  { sampleInput with tenantId := "tenant_a", scope := ascii "foundation.proof.record" }

theorem prepare_sampleCallOf (retry : Bool) :
    prepare proofDependencies.executor ((sampleCallOf retry).call proofDependencies.recorder) =
      .ok proofInput := by
  have hkey : requireKey sampleKey "corr-1" = .ok proofInput.key ∧
      KEY_PATTERN proofInput.key = true ∧ toLowerCase proofInput.key = proofInput.key := by
    decide +kernel
  have hidentity : assertNoTenantIdentity (Empty.elim : Heap Empty)
      (literal [(ascii "label", .string (units "gate"))]) "corr-1" = .ok () := by
    decide +kernel
  have hpayload : DenotesAt (Empty.elim : Heap Empty) 2
      (literal [(ascii "label", .string (units "gate"))])
      (document [(ascii "label", some (.string (units "gate")))]) :=
    denotesAt_literal (.cons ⟨rfl, denotesProperty_string _⟩ .nil)
  obtain ⟨text, htext⟩ := exists_canonicalJson_of_denotesAt
    (denotesAt_requestDocument hpayload) (by decide)
  unfold prepare
  simp only [Except.bind_eq_ok_iff]
  refine ⟨(), rfl, _, hkey.1, (), ?_, (), hidentity, List.replicate 64 0x30,
    Except.bind_eq_ok_iff.mpr ⟨text, htext, rfl⟩, (), rfl, ?_⟩
  · simp [hkey.2.1, refuseIf]
  · rw [hkey.2.2]
    rfl

theorem exists_stored (c : ProofCall) (context : TrustedExecutionScope) :
    ∃ stored, storedResponse context c.response = .ok stored := by
  have hstatus : checkStatus c.response.status context.correlationId = .ok 201 := by
    simp [checkStatus, ProofCall.response]
  obtain ⟨text, htext⟩ := exists_canonicalJson_of_denotesAt
    (denotesAt_response c) (by decide)
  exact ⟨_, Except.bind_eq_ok_iff.mpr
    ⟨201, hstatus, Except.bind_eq_ok_iff.mpr ⟨text, htext, rfl⟩⟩⟩

/-- The first call writes its rows into empty tables. -/
theorem exists_run_work (committed : ProofDb) : ∃ d,
    ((sampleCallOf false).work proofDependencies.recorder).run committed 1 noProofs =
      ⟨.ok (sampleCallOf false).response, 4, d⟩ := by
  have hid : (units "aud_1").any (· != 0x20) = true := by decide
  have hcorrelation : (units "corr-1").any (· != 0x20) = true := by decide
  obtain ⟨event, hevent, htenant, -, hchecks⟩ :=
    exists_checkedEvent tenantRecorder (eventScopeFromContext proofContext)
      (sampleCallOf false).auditInput "aud_1" (timeClip 1790244245000) rfl (fun _ => rfl)
      (by decide +kernel) (by decide +kernel) rfl hid hcorrelation
  have hrecord : insertRecordRow (sampleProof false).record 1 noProofs =
      .ok ⟨(), ProofDb.addRecord (sampleProof false).record, none⟩ := by
    unfold insertRecordRow
    rw [if_neg (by decide +kernel), if_neg (by decide +kernel)]
  have haudit : insertAuditRow event 2 (noProofs.addRecord (sampleProof false).record) =
      .ok ⟨(), ProofDb.addAudit event, none⟩ := by
    unfold insertAuditRow
    rw [if_neg (by simp [hchecks]), if_neg (by simp [ProofDb.addRecord, noProofs])]
  have hbound : throwIf (event.tenantId ≠ units "tenant_a") .tenant_context_mismatch
      "The proof transaction is bound to another tenant." = .ok () := by
    rw [htenant]
    simp [throwIf, eventScopeFromContext, proofContext]
  refine ⟨((noProofs.addRecord (sampleProof false).record).addAudit event).addEvent
    (newEntry 3 none (sampleProof false).envelope (sampleProof false).envelope.recorded_at), ?_⟩
  unfold ProofCall.work
  refine (Tx.run_bind (Tx.run_checked rfl hrecord)).trans ?_
  refine (Tx.run_bind (Tx.run_lift hevent)).trans ?_
  refine (Tx.run_bind (Tx.run_checked hbound haudit)).trans ?_
  exact (Tx.run_bind (Tx.run_checked rfl rfl)).trans rfl

/-- The first call, on its own. -/
theorem transaction_sample : ∃ d stored,
    (recordProof proofDependencies (sampleCallOf false)).transaction 0 (noCalls 0).db =
      ⟨.ok ⟨stored, false⟩, 5,
        ⟨Function.update (Function.update (fun _ => none) proofInput.recordKey
          (some proofInput.processing)) proofInput.recordKey (some (proofInput.completed stored)),
          d⟩⟩ := by
  obtain ⟨d, hwork⟩ := exists_run_work noProofs
  obtain ⟨stored, hstored⟩ := exists_stored (sampleCallOf false) ⟨"tenant_a", "corr-1"⟩
  have hchecks : recordChecks proofInput.recordKey proofInput.processing = true := by
    decide +kernel
  exact ⟨d, stored, (congrArg (Tx.run · (noCalls 0).db 0 (noCalls 0).db)
    (executeUntraced_eq (prepare_sampleCallOf false))).trans
      (run_executeClaimed rfl rfl hchecks hwork hstored)⟩

/-- A call and its retry, which is answered by the record of the first. -/
theorem proofs_aligned_retry : ∃ st : ProofState,
    Reachable (recordProof proofDependencies) (noCalls 0) st ∧
      st.world.history.map (fun entry => entry.2.replayed) = [false, true] ∧
      Aligned proofDependencies.recorder st.world.history st.world.db.effects ∧
      ∀ t, Balanced st.world.db.effects t := by
  obtain ⟨d, stored, hfirst⟩ := transaction_sample
  have hstart : Reachable (recordProof proofDependencies) (noCalls 0) ⟨noCalls 0, []⟩ := .init
  have hreached := hstart.transaction hfirst
  have hsecond : (recordProof proofDependencies (sampleCallOf true)).alone
      ⟨Function.update (Function.update (fun _ => none) proofInput.recordKey
        (some proofInput.processing)) proofInput.recordKey (some (proofInput.completed stored)), d⟩
      5 id = some (⟨stored, true⟩, id, 8) :=
    (congrArg (Tx.alone · _ 5 id) (executeUntraced_eq (prepare_sampleCallOf true))).trans
      (alone_replay rfl (by simp) (by decide))
  have hreplayed := hreached.alone hsecond
  exact ⟨_, hreplayed, rfl, proofs_aligned hreplayed⟩

end Sample

end Sintius.FoundationProof
