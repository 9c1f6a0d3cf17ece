import Mathlib
import Sintius.Lib.Table
import Sintius.Spec.Queue
import Sintius.Sanity.Queue
import Sintius.Proofs.Queue

/-! The evidence on a dead letter. No statement but a resolution touches it; a
resolution writes its own over whatever is there, so the evidence of a first
resolution is lost when the entry dies again and is resolved again. -/

namespace Sintius.Outbox

open QueueOperation

variable {Data : Type} {table : QueueTable} {rows : Table Data}
  {operation : QueueOperation Data} {operations : List (QueueOperation Data)}

theorem runAll_append (operations more : List (QueueOperation Data)) :
    runAll (operations ++ more) =
      more.foldl (fun rows operation => operation.run rows) (runAll operations) :=
  List.foldl_append

theorem runAll_concat (operations : List (QueueOperation Data)) (operation : QueueOperation Data) :
    runAll (operations ++ [operation]) = operation.run (runAll operations) :=
  runAll_append operations [operation]

/-- A statement is a step of the queue, or changes nothing. -/
theorem queueStep_of_admissible (h : operation.Admissible table rows) (granted : List ℕ) :
    (∃ granted', QueueStep table ⟨rows, granted⟩ ⟨operation.run rows, granted'⟩) ∨
      operation.run rows = rows := by
  cases operation with
  | append entryId envelope =>
    cases happend : appendOutboxEvent entryId envelope rows with
    | none =>
      right
      simp only [QueueOperation.run, happend, Option.getD_none]
    | some rows' =>
      left
      simp only [QueueOperation.run, happend, Option.getD_some]
      exact ⟨granted, .append entryId envelope h.1 h.2 happend⟩
  | insertDelivery entryId consumer envelope now =>
    exact .inl ⟨granted, .insertDelivery entryId consumer envelope now h.1 h.2⟩
  | leaseBatch queue locked request => exact .inl ⟨_, .leaseBatch queue locked request h⟩
  | markPublished queue entryId workerId now =>
    exact .inl ⟨granted, .markPublished queue entryId workerId now h⟩
  | recordFailure queue entryId workerId error retryAt =>
    exact .inl ⟨granted, .recordFailure queue entryId workerId error retryAt h⟩
  | resolveDeadLetter queue entryId resolution =>
    exact .inl ⟨granted, .resolveDeadLetter queue entryId resolution h⟩

theorem admissible_front {front back : List (QueueOperation Data)}
    (h : AllAdmissible table (front ++ back)) : AllAdmissible table front := by
  intro front' operation back' heq
  exact h front' operation (back' ++ back) (by simp [heq])

/-- A sequence of statements is a run of the queue. -/
theorem queueRun_runAll (h : AllAdmissible table operations) :
    ∃ granted, QueueRun table (.empty : QueueState Data) ⟨runAll operations, granted⟩ := by
  induction operations using List.reverseRecOn with
  | nil => exact ⟨[], .refl⟩
  | append_singleton operations operation ih =>
    obtain ⟨granted, hrun⟩ := ih (admissible_front h)
    rw [runAll_concat]
    rcases queueStep_of_admissible (h operations operation [] rfl) granted with
      ⟨granted', hstep⟩ | heq
    · exact ⟨granted', hrun.tail hstep⟩
    · rw [heq]
      exact ⟨granted, hrun⟩

theorem ids_runAll (h : AllAdmissible table operations) :
    (runAll operations).Pairwise fun a b => a.entryId ≠ b.entryId := by
  obtain ⟨granted, hrun⟩ := queueRun_runAll h
  exact (QueueInvariant.empty.run hrun).1.rows.ids

/-- The entry carries the evidence. -/
def Evidence (id : ℕ) (resolution : DeadLetterResolution) (rows : Table Data) : Prop :=
  ∃ e ∈ rows, e.entryId = id ∧ e.resolution = some resolution

/-- What has been recorded is there ever after. -/
def EvidenceKept (operations : List (QueueOperation Data)) : Prop :=
  ∀ front middle back, operations = front ++ middle ++ back → ∀ id resolution,
    Evidence id resolution (runAll front) → Evidence id resolution (runAll (front ++ middle))

/-- A statement writes no other evidence over an entry's. -/
def Preserves (rows : Table Data) : QueueOperation Data → Prop
  | .resolveDeadLetter queue entryId resolution =>
    ∀ e ∈ rows, deadLetter queue (entryIdOf entryId) e →
      e.resolution = none ∨ e.resolution = some resolution
  | _ => True

/-- No dead letter is resolved that carries the evidence of another resolution. -/
def ResolvedOnce (operations : List (QueueOperation Data)) : Prop :=
  ∀ front operation back, operations = front ++ operation :: back →
    Preserves (runAll front) operation

theorem evidence_update {selects : OutboxEntry Data → Bool}
    {set : OutboxEntry Data → OutboxEntry Data} {id : ℕ} {resolution : DeadLetterResolution}
    (hid : ∀ e, (set e).identity = e.identity)
    (hset : ∀ e ∈ rows, selects e → e.resolution = some resolution →
      (set e).resolution = some resolution)
    (h : Evidence id resolution rows) : Evidence id resolution (Sql.update selects set rows) := by
  obtain ⟨e, he, rfl, hresolution⟩ := h
  refine ⟨_, Sql.mem_update.mpr ⟨e, he, rfl⟩, ?_, ?_⟩
  · split_ifs
    · exact entryId_of_identity (hid e)
    · rfl
  · split_ifs with hselects
    · exact hset e he hselects hresolution
    · exact hresolution

@[simp] theorem resolveEntry_resolution (resolution : DeadLetterResolution)
    (e : OutboxEntry Data) : (resolveEntry resolution e).resolution = some resolution := by
  unfold resolveEntry
  split <;> rfl

/-- One statement. -/
theorem Preserves.evidence (hpreserves : Preserves rows operation) {id : ℕ}
    {resolution : DeadLetterResolution} (h : Evidence id resolution rows) :
    Evidence id resolution (operation.run rows) := by
  cases operation with
  | append entryId envelope =>
    cases happend : appendOutboxEvent entryId envelope rows with
    | none => simpa only [QueueOperation.run, happend, Option.getD_none] using h
    | some rows' =>
      simp only [QueueOperation.run, happend, Option.getD_some]
      obtain ⟨rfl, -⟩ := appendOutboxEvent_spec happend
      obtain ⟨e, he, hid, hresolution⟩ := h
      exact ⟨e, List.mem_append_left _ he, hid, hresolution⟩
  | insertDelivery entryId consumer envelope now =>
    simp only [QueueOperation.run]
    obtain ⟨e, he, hid, hresolution⟩ := h
    rcases insertDelivery_spec rows entryId consumer envelope now with ⟨-, heq⟩ | ⟨-, heq⟩
    · rw [heq]
      exact ⟨e, he, hid, hresolution⟩
    · rw [heq]
      exact ⟨e, List.mem_append_left _ he, hid, hresolution⟩
  | leaseBatch queue locked request =>
    obtain ⟨ids, hrows, -⟩ := leaseBatch_spec queue locked request rows
    simp only [QueueOperation.run, hrows]
    exact evidence_update (grantLease_identity request) (fun _ _ _ hresolution => hresolution) h
  | markPublished queue entryId workerId now =>
    exact evidence_update (finishEntry_identity now) (fun _ _ _ hresolution => hresolution) h
  | recordFailure queue entryId workerId error retryAt =>
    exact evidence_update (failEntry_identity error retryAt)
      (fun _ _ _ hresolution => hresolution) h
  | resolveDeadLetter queue entryId resolution' =>
    refine evidence_update (resolveEntry_identity resolution') ?_ h
    intro e he hdead hresolution
    rw [resolveEntry_resolution, ← hresolution]
    rcases hpreserves e he hdead with hnone | hsame
    · rw [hnone] at hresolution
      cases hresolution
    · exact hsame.symm

/-- A resolution that finds other evidence destroys it. -/
theorem preserves_of_evidence {front : List (QueueOperation Data)}
    (hadmissible : AllAdmissible table (front ++ [operation]))
    (h : ∀ id resolution, Evidence id resolution (runAll front) →
      Evidence id resolution (runAll (front ++ [operation]))) :
    Preserves (runAll front) operation := by
  cases operation with
  | resolveDeadLetter queue entryId resolution =>
    intro e he hdead
    cases hresolution : e.resolution with
    | none => exact .inl rfl
    | some resolution' =>
      right
      obtain ⟨e', he', hid, hkept⟩ := h e.entryId resolution' ⟨e, he, rfl, hresolution⟩
      have hresolved : resolveEntry resolution e ∈
          runAll (front ++ [.resolveDeadLetter queue entryId resolution]) := by
        rw [runAll_concat]
        exact Sql.mem_update.mpr ⟨e, he, (if_pos hdead).symm⟩
      have hsame := Sql.eq_of_key_eq (ids_runAll hadmissible) he' hresolved
        (hid.trans (entryId_of_identity (resolveEntry_identity resolution e)).symm)
      rw [hsame, resolveEntry_resolution] at hkept
      exact hkept.symm
  | _ => trivial

/-- Evidence is permanent exactly where no resolution finds other evidence. -/
theorem evidence_kept_iff (hadmissible : AllAdmissible table operations) :
    EvidenceKept operations ↔ ResolvedOnce operations := by
  constructor
  · intro h front operation back heq
    have hfront : AllAdmissible table ((front ++ [operation]) ++ back) := by
      simpa [← heq] using hadmissible
    exact preserves_of_evidence (admissible_front hfront)
      (h front [operation] back (by simp [heq]))
  · intro h front middle back heq id resolution hevidence
    induction middle using List.reverseRecOn generalizing back with
    | nil => simpa using hevidence
    | append_singleton middle operation ih =>
      rw [← List.append_assoc, runAll_concat]
      have hpreserves := h (front ++ middle) operation back (by simp [heq])
      exact hpreserves.evidence (ih (operation :: back) (by simp [heq]))

section ResolvedTwice

theorem allAdmissible_concat (h : AllAdmissible table operations)
    (hlast : operation.Admissible table (runAll operations)) :
    AllAdmissible table (operations ++ [operation]) := by
  intro front operation' back heq
  rcases List.eq_nil_or_concat back with rfl | ⟨back, last, rfl⟩
  · obtain ⟨rfl, hsingle⟩ := List.append_inj' heq rfl
    cases hsingle
    exact hlast
  · have hsplit : operations ++ [operation] = (front ++ operation' :: back) ++ [last] := by
      simpa using heq
    obtain ⟨rfl, -⟩ := List.append_inj' hsplit rfl
    exact h front operation' back rfl

def firstResolution : DeadLetterResolution := ⟨.requeue, "operator-1", "Broker fixed.", 0⟩

def secondResolution : DeadLetterResolution :=
  ⟨.skip, "operator-2", "Corrected downstream.", 0⟩

/-- An entry that is leased and dead-lettered. -/
def died (e : OutboxEntry Unit) : OutboxEntry Unit :=
  failEntry "Error: down" none (grantLease sampleRequest e)

def deadOnce : OutboxEntry Unit := died (newEntry 1 none sampleEnvelope 0)

def deadTwice : OutboxEntry Unit := died (resolveEntry firstResolution deadOnce)

/-- It is leased and dead-lettered, requeued, leased and dead-lettered again. -/
def beforeSecond : List (QueueOperation Unit) :=
  [.append 1 sampleEnvelope,
    .leaseBatch .outbox (fun _ => false) sampleRequest,
    .recordFailure .outbox "1" "worker-a" "Error: down" none,
    .resolveDeadLetter .outbox "1" firstResolution,
    .leaseBatch .outbox (fun _ => false) sampleRequest,
    .recordFailure .outbox "1" "worker-a" "Error: down" none]

theorem recordFailure_leased (e : OutboxEntry Unit) (hid : e.entryId = 1) :
    (recordFailure .outbox "1" "worker-a" "Error: down" none [grantLease sampleRequest e]).1 =
      [died e] := by
  have hheld : heldBy .outbox (entryIdOf "1") "worker-a" (grantLease sampleRequest e) = true := by
    rw [entryIdOf_one]
    simp [heldBy, grantLease, hid, sampleRequest, consumerScope]
  unfold recordFailure Sql.update
  simp only [List.map_cons, List.map_nil, if_pos hheld]
  rfl

theorem resolveDeadLetter_died (resolution : DeadLetterResolution) {e : OutboxEntry Unit}
    (hid : e.entryId = 1) :
    (resolveDeadLetter .outbox "1" resolution [died e]).1 = [resolveEntry resolution (died e)] := by
  have hdead : deadLetter .outbox (entryIdOf "1") (died e) = true := by
    rw [entryIdOf_one]
    simp [deadLetter, died, failEntry, grantLease, hid, consumerScope]
  unfold resolveDeadLetter Sql.update
  simp only [List.map_cons, List.map_nil, if_pos hdead]

theorem leaseBatch_new : (leaseBatch .outbox (fun _ => false) sampleRequest
    [newEntry 1 none sampleEnvelope 0]).1 =
      [grantLease sampleRequest (newEntry 1 none sampleEnvelope 0)] := by
  decide +kernel

theorem leaseBatch_requeued : (leaseBatch .outbox (fun _ => false) sampleRequest
    [resolveEntry firstResolution deadOnce]).1 =
      [grantLease sampleRequest (resolveEntry firstResolution deadOnce)] := by
  decide +kernel

theorem runAll_beforeSecond : runAll beforeSecond = [deadTwice] := by
  unfold runAll beforeSecond
  simp only [List.foldl_cons, List.foldl_nil, QueueOperation.run]
  rw [show (appendOutboxEvent 1 sampleEnvelope ([] : Table Unit)).getD [] =
    [newEntry 1 none sampleEnvelope 0] from rfl, leaseBatch_new,
    recordFailure_leased _ rfl, resolveDeadLetter_died firstResolution rfl]
  change (recordFailure _ _ _ _ _
    (leaseBatch _ _ _ [resolveEntry firstResolution deadOnce]).1).1 = _
  rw [leaseBatch_requeued]
  exact recordFailure_leased _ rfl

theorem allAdmissible_beforeSecond : AllAdmissible .outbox_event beforeSecond := by
  intro front operation back heq
  cases front with
  | nil =>
    cases heq
    exact ⟨rfl, by simp [FreshEntry, runAll]⟩
  | cons first front =>
    have hmem : operation ∈ beforeSecond.tail := by
      rw [heq]
      simp
    simp only [beforeSecond, List.tail_cons, List.mem_cons, List.not_mem_nil, or_false] at hmem
    rcases hmem with rfl | rfl | rfl | rfl | rfl <;> rfl

/-- The second resolution of the entry replaces the evidence of the first. -/
theorem evidence_not_kept : ∃ operations : List (QueueOperation Unit),
    AllAdmissible .outbox_event operations ∧ ¬ EvidenceKept operations := by
  have hadmissible : AllAdmissible .outbox_event
      (beforeSecond ++ [.resolveDeadLetter .outbox "1" secondResolution]) :=
    allAdmissible_concat allAdmissible_beforeSecond rfl
  refine ⟨_, hadmissible, ?_⟩
  intro hkept
  have hpreserves := preserves_of_evidence hadmissible
    (hkept beforeSecond [.resolveDeadLetter .outbox "1" secondResolution] [] (by simp))
  have hdead : deadLetter .outbox (entryIdOf "1") deadTwice = true := by
    rw [entryIdOf_one]
    decide
  rw [Preserves, runAll_beforeSecond] at hpreserves
  have hcarried : deadTwice.resolution = some firstResolution := rfl
  rcases hpreserves deadTwice (by simp) hdead with hnone | hsame
  · rw [hcarried] at hnone
    cases hnone
  · rw [hcarried] at hsame
    cases hsame

/-- Up to the second resolution the evidence of the first is kept. -/
theorem evidence_kept_iff_first : EvidenceKept beforeSecond ↔ ResolvedOnce beforeSecond :=
  evidence_kept_iff allAdmissible_beforeSecond

end ResolvedTwice

end Sintius.Outbox
