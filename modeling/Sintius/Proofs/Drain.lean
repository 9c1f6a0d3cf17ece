import Mathlib
import Sintius.Lib.Table
import Sintius.Lib.Progress
import Sintius.Spec.Queue
import Sintius.Spec.Dispatch
import Sintius.Spec.Pass
import Sintius.Sanity.Queue
import Sintius.Proofs.Queue
import Sintius.Proofs.Pass

/-! A dispatcher left alone. Every lease finishes its row, kills it or uses up an
attempt, so the queue comes to rest, whatever the publisher does; what is handed over
by then depends on the events it refuses, stream by stream. -/

namespace Sintius.Outbox

variable {Data : Type} {rows : Table Data} {granted : List ℕ} {d : Dispatcher}
  {w : Surroundings Data}

/-- How many leases a row can still have, and one more while it is open. -/
def weight (d : Dispatcher) (e : OutboxEntry Data) : ℕ :=
  if e.finished || e.status == .dead then 0 else d.maxAttempts + 1 - e.attempts + 1

def work (d : Dispatcher) (rows : Table Data) : ℕ := (rows.map (weight d)).sum

theorem weight_settle {request : LeaseRequest} {e : OutboxEntry Data}
    (hopen : e.status = .pending ∨ e.status = .leased) :
    weight d (settle d w (grantLease request e)) < weight d e := by
  have he : weight d e = d.maxAttempts + 1 - e.attempts + 1 := by
    unfold weight OutboxEntry.finished
    rcases hopen with hs | hs <;> simp [hs]
  rw [he]
  unfold weight OutboxEntry.finished
  rcases settle_cases d w request e with ⟨hs, -⟩ | ⟨hs, -⟩ | ⟨hs, hattempts, hless, -⟩
  · simp [hs]
  · simp [hs]
  · rw [hs, hattempts]
    simp
    omega

theorem weight_passed {ids : List ℕ}
    (hel : ∀ e ∈ rows, e.entryId ∈ ids → eligible d.queue w.leaseNow rows e)
    {e : OutboxEntry Data} (he : e ∈ rows) : weight d (passed d w ids e) ≤ weight d e := by
  unfold passed
  split_ifs with hin
  · exact (weight_settle (eligible_spec (hel e he hin)).1).le
  · exact le_rfl

/-- A pass that leases anything leaves less work. -/
theorem work_passed {ids : List ℕ}
    (hel : ∀ e ∈ rows, e.entryId ∈ ids → eligible d.queue w.leaseNow rows e)
    {e : OutboxEntry Data} (he : e ∈ rows) (hin : e.entryId ∈ ids) :
    work d (rows.map (passed d w ids)) < work d rows := by
  unfold work
  rw [List.map_map]
  apply List.sum_lt_sum
  · intro x hx
    exact weight_passed hel hx
  · refine ⟨e, he, ?_⟩
    rw [Function.comp_apply, passed, if_pos hin]
    exact weight_settle (eligible_spec (hel e he hin)).1

/-- What a pass keeps. -/
structure Drainable (rows : Table Data) : Prop where
  invariant : ∃ granted, TableInvariant granted rows
  column : IdentityColumn rows

theorem Drainable.runOnce (h : Drainable rows) : Drainable (d.runOnce w rows).1 := by
  obtain ⟨granted, hinv⟩ := h.invariant
  refine ⟨hinv.runOnce, ?_⟩
  obtain ⟨ids, hrows, -⟩ := runOnce_spec (d := d) (w := w) hinv h.column
  rw [hrows]
  intro e he
  obtain ⟨old, hold, rfl⟩ := List.mem_map.mp he
  rw [entryId_of_identity (passed_identity ids old)]
  exact h.column old hold

theorem consumerScope_of_stream {queue : QueueSelector} {a b : OutboxEntry Data}
    (hs : a.stream = b.stream) : consumerScope queue a = consumerScope queue b := by
  have hconsumer : a.consumer = b.consumer := congrArg Stream.consumer hs
  unfold consumerScope
  rw [hconsumer]

/-- The first unfinished row of a stream. -/
theorem exists_head {e : OutboxEntry Data} (he : e ∈ rows) (hopen : ¬ e.finished) :
    ∃ f ∈ rows, f.stream = e.stream ∧ f.entryId ≤ e.entryId ∧ ¬ f.finished ∧ isHead rows f := by
  obtain ⟨f, ⟨hf, hs, hle, hfopen⟩, hmin⟩ := (measure OutboxEntry.entryId).wf.has_min
    {f | f ∈ rows ∧ f.stream = e.stream ∧ f.entryId ≤ e.entryId ∧ ¬ f.finished}
    ⟨e, he, rfl, le_rfl, hopen⟩
  refine ⟨f, hf, hs, hle, hfopen, isHead_iff.mpr ?_⟩
  intro earlier hearlier hs' hlt
  by_contra hopen'
  exact hmin earlier ⟨hearlier, hs'.trans hs, hlt.le.trans hle, hopen'⟩ hlt

/-- A queue that is not at rest has a row that can be leased from some time on. -/
theorem Drainable.exists_eligible (h : Drainable rows) {queue : QueueSelector}
    (hrest : ¬ AtRest queue rows) :
    ∃ e ∈ rows, ∃ due, ∀ now, due ≤ now → eligible queue now rows e := by
  unfold AtRest at hrest
  push Not at hrest
  obtain ⟨e, he, hscope, hopen, hnodead⟩ := hrest
  obtain ⟨f, hf, hs, hle, hfopen, hhead⟩ := exists_head he hopen
  have hfscope : consumerScope queue f := by rwa [consumerScope_of_stream hs]
  obtain ⟨granted, hinv⟩ := h.invariant
  have hlease := (hinv.checks f hf).lease_consistency
  refine ⟨f, hf, ?_⟩
  cases hstatus : f.status with
  | pending =>
    refine ⟨f.nextAttemptAt, ?_⟩
    intro now hnow
    simp [eligible, hstatus, hnow, hfscope, hhead]
  | leased =>
    obtain ⟨-, hexpires⟩ := hlease.mp hstatus
    obtain ⟨expires, hexpires⟩ := Option.isSome_iff_exists.mp hexpires
    refine ⟨expires, ?_⟩
    intro now hnow
    simp [eligible, hstatus, hexpires, hnow, hfscope, hhead]
  | done => exact absurd (finished_iff.mpr (.inl hstatus)) hfopen
  | skipped => exact absurd (finished_iff.mpr (.inr hstatus)) hfopen
  | dead => exact absurd hstatus (hnodead f hf hs hle)

/-- Nothing can be leased from a queue at rest. -/
theorem AtRest.not_eligible {queue : QueueSelector} (h : AtRest queue rows) {now : Time}
    {e : OutboxEntry Data} (he : e ∈ rows)
    (hids : rows.Pairwise fun a b => a.entryId ≠ b.entryId) : ¬ eligible queue now rows e := by
  intro hel
  obtain ⟨hstatus, hscope, hhead⟩ := eligible_spec hel
  have hopen : ¬ e.finished := by
    rw [finished_iff]
    rcases hstatus with hs | hs <;> simp [hs]
  obtain ⟨f, hf, hs, hle, hdead⟩ := h e he hscope hopen
  rcases hle.lt_or_eq with hlt | heq
  · have := isHead_iff.mp hhead f hf hs hlt
    rw [finished_iff] at this
    simp [hdead] at this
  · rw [Sql.eq_of_key_eq hids hf he heq] at hdead
    rcases hstatus with hs | hs <;> simp [hs] at hdead

theorem map_passed_of_none {ids : List ℕ} (h : ∀ e ∈ rows, e.entryId ∉ ids) :
    rows.map (passed d w ids) = rows := by
  conv_rhs => rw [← List.map_id rows]
  apply List.map_congr_left
  intro e he
  rw [passed, if_neg (h e he), id_eq]

/-- Whatever a lone dispatcher meets, its queue comes to rest. -/
theorem Drainable.comes_to_rest (h : Drainable rows) (hd : d.Leases)
    {surroundings : ℕ → Surroundings Data} (hclock : ClockAdvances surroundings) :
    ∃ n, AtRest d.queue (d.afterPasses surroundings rows n) ∧
      ∀ m, n ≤ m → d.afterPasses surroundings rows m = d.afterPasses surroundings rows n := by
  have hkeeps : ∀ n rows, Drainable rows → Drainable (d.runOnce (surroundings n) rows).1 :=
    fun n rows h => h.runOnce
  have hmoves : ∀ n rows, Drainable rows → (d.runOnce (surroundings n) rows).1 = rows ∨
      work d (d.runOnce (surroundings n) rows).1 < work d rows := by
    intro n rows h
    obtain ⟨granted, hinv⟩ := h.invariant
    obtain ⟨ids, hrows, -, hel, -⟩ := runOnce_spec (d := d) (w := surroundings n) hinv h.column
    rw [hrows]
    by_cases hsome : ∃ e ∈ rows, e.entryId ∈ ids
    · obtain ⟨e, he, hin⟩ := hsome
      exact .inr (work_passed hel he hin)
    · push Not at hsome
      exact .inl (map_passed_of_none hsome)
  refine Progress.comes_to_rest hkeeps hmoves ?_ ?_ h
  · intro rows h hrest
    obtain ⟨granted, hinv⟩ := h.invariant
    obtain ⟨e, he, due, hdue⟩ := h.exists_eligible hrest
    obtain ⟨N, hN⟩ := hclock due
    refine ⟨N, ?_⟩
    intro n hn hsame
    obtain ⟨ids, hrows, -, hel, hsome⟩ := runOnce_spec (d := d) (w := surroundings n) hinv h.column
    obtain ⟨e', he', hin⟩ := hsome hd ⟨e, he, hdue _ (hN n hn)⟩
    have hless := work_passed hel he' hin
    rw [← hrows, hsame] at hless
    exact lt_irrefl _ hless
  · intro n rows h hrest
    obtain ⟨granted, hinv⟩ := h.invariant
    obtain ⟨ids, hrows, -, hel, -⟩ := runOnce_spec (d := d) (w := surroundings n) hinv h.column
    rw [hrows]
    exact map_passed_of_none fun e he hin => hrest.not_eligible he hinv.ids (hel e he hin)

section Delivery

variable {takes : EventEnvelope Data → Bool} {ids : List ℕ}

theorem passed_of_deliverable (hpublish : ∀ envelope, w.publish envelope = none ↔ takes envelope)
    {e : OutboxEntry Data} (hin : e.entryId ∈ ids) (hattempts : e.attempts < d.maxAttempts)
    (htakes : takes e.envelope) : (passed d w ids e).status = .done := by
  unfold passed
  rw [if_pos hin]
  have hnone := (hpublish e.envelope).mpr htakes
  rcases settle_cases d w (d.leaseRequest w.leaseNow) e with
    ⟨hs, -⟩ | ⟨-, hless | hsome⟩ | ⟨-, -, -, hsome⟩
  · exact hs
  · omega
  · simp [hnone] at hsome
  · simp [hnone] at hsome

theorem not_deliverable_of_passed (hpublish : ∀ envelope, w.publish envelope = none ↔ takes envelope)
    {e : OutboxEntry Data} (hin : e.entryId ∈ ids) (hfailed : (passed d w ids e).status ≠ .done) :
    ¬ (passed d w ids e).finished ∧
      ((passed d w ids e).status = .dead ∨ ¬ takes (passed d w ids e).envelope) := by
  have henvelope := envelope_of_identity (passed_identity (d := d) (w := w) ids e)
  rw [henvelope, finished_iff]
  unfold passed at hfailed ⊢
  rw [if_pos hin] at hfailed ⊢
  rcases settle_cases d w (d.leaseRequest w.leaseNow) e with ⟨hs, -⟩ | ⟨hs, -⟩ | ⟨hs, -, -, hsome⟩
  · exact absurd hs hfailed
  · exact ⟨by simp [hs], .inl hs⟩
  · refine ⟨by simp [hs], .inr ?_⟩
    rw [← hpublish]
    intro hnone
    simp [hnone] at hsome

theorem takes_of_passed (hpublish : ∀ envelope, w.publish envelope = none ↔ takes envelope)
    {e : OutboxEntry Data} (hin : e.entryId ∈ ids) (hdone : (passed d w ids e).status = .done) :
    e.attempts < d.maxAttempts ∧ takes e.envelope := by
  unfold passed at hdone
  rw [if_pos hin] at hdone
  rcases settle_cases d w (d.leaseRequest w.leaseNow) e with ⟨-, hless, hnone⟩ | ⟨hs, -⟩ | ⟨hs, -⟩
  · exact ⟨hless, (hpublish e.envelope).mp hnone⟩
  · simp [hs] at hdone
  · simp [hs] at hdone

/-- Whether an entry is handed over in the end does not change with a pass. -/
theorem deliverable_passed (hpublish : ∀ envelope, w.publish envelope = none ↔ takes envelope)
    (hids : rows.Pairwise fun a b => a.entryId ≠ b.entryId)
    (hel : ∀ e ∈ rows, e.entryId ∈ ids → eligible d.queue w.leaseNow rows e)
    {e : OutboxEntry Data} (he : e ∈ rows) :
    ((passed d w ids e).status = .done ∨
        Deliverable d takes (rows.map (passed d w ids)) (passed d w ids e)) ↔
      (e.status = .done ∨ Deliverable d takes rows e) := by
  have hid : ∀ f : OutboxEntry Data, (passed d w ids f).entryId = f.entryId :=
    fun f => entryId_of_identity (passed_identity ids f)
  have hstream : ∀ f : OutboxEntry Data, (passed d w ids f).stream = f.stream :=
    fun f => stream_of_identity (passed_identity ids f)
  have hkept : ∀ f : OutboxEntry Data, f.entryId ∉ ids → passed d w ids f = f :=
    fun f hnot => by rw [passed, if_neg hnot]
  have hstatus : ∀ f ∈ rows, f.entryId ∈ ids → f.status ≠ .dead ∧ ¬ f.finished := by
    intro f hf hin
    rw [finished_iff]
    rcases (eligible_spec (hel f hf hin)).1 with hs | hs <;> simp [hs]
  constructor
  · rintro (hdone | ⟨hopen, hall⟩)
    · by_cases hin : e.entryId ∈ ids
      · obtain ⟨hless, htakes⟩ := takes_of_passed hpublish hin hdone
        refine .inr ⟨(hstatus e he hin).2, ?_⟩
        intro f hf hs hle hfopen
        -- a leased row is the first unfinished one of its stream
        have hsame : f = e := by
          rcases hle.lt_or_eq with hlt | heq
          · exact absurd (isHead_iff.mp (eligible_spec (hel e he hin)).2.2 f hf hs hlt) hfopen
          · exact Sql.eq_of_key_eq hids hf he heq
        rw [hsame]
        exact ⟨(hstatus e he hin).1, hless, htakes⟩
      · exact .inl (hkept e hin ▸ hdone)
    · right
      by_cases hin : e.entryId ∈ ids
      · have hfailed : (passed d w ids e).status ≠ .done := fun hs => hopen (finished_iff.mpr (.inl hs))
        obtain ⟨hlive, -, htakes⟩ := hall _ (List.mem_map_of_mem he) rfl le_rfl hopen
        rcases (not_deliverable_of_passed hpublish hin hfailed).2 with hdead | hnot
        · exact absurd hdead hlive
        · exact absurd htakes hnot
      · rw [hkept e hin] at hopen hall
        refine ⟨hopen, ?_⟩
        intro f hf hs hle hfopen
        have hpassed := hall _ (List.mem_map_of_mem hf) ((hstream f).trans hs) ((hid f).trans_le hle)
        by_cases hfin : f.entryId ∈ ids
        · by_cases hdone : (passed d w ids f).status = .done
          · exact ⟨(hstatus f hf hfin).1, takes_of_passed hpublish hfin hdone⟩
          · obtain ⟨hpopen, hor⟩ := not_deliverable_of_passed hpublish hfin hdone
            obtain ⟨hlive, -, htakes⟩ := hpassed hpopen
            exact (hor.elim hlive fun hnot => hnot htakes).elim
        · rw [hkept f hfin] at hpassed
          exact hpassed hfopen
  · rintro (hdone | ⟨hopen, hall⟩)
    · have hnot : e.entryId ∉ ids := fun hin => (hstatus e he hin).2 (finished_iff.mpr (.inl hdone))
      rw [hkept e hnot]
      exact .inl hdone
    · by_cases hin : e.entryId ∈ ids
      · obtain ⟨-, hless, htakes⟩ := hall e he rfl le_rfl hopen
        exact .inl (passed_of_deliverable hpublish hin hless htakes)
      · rw [hkept e hin]
        refine .inr ⟨hopen, ?_⟩
        intro g hg hs hle hgopen
        obtain ⟨f, hf, rfl⟩ := List.mem_map.mp hg
        rw [hstream] at hs
        rw [hid] at hle
        by_cases hfin : f.entryId ∈ ids
        · obtain ⟨-, hless, htakes⟩ := hall f hf hs hle (hstatus f hf hfin).2
          have hdone := passed_of_deliverable (w := w) hpublish hfin hless htakes
          exact absurd (finished_iff.mpr (.inl hdone)) hgopen
        · rw [hkept f hfin] at hgopen ⊢
          exact hall f hf hs hle hgopen

/-- What a row has become after some passes, with the question still the same. -/
structure Passed (d : Dispatcher) (takes : EventEnvelope Data → Bool) (rows rows' : Table Data)
    (e e' : OutboxEntry Data) : Prop where
  keeps : Keeps e e'
  same : (e'.status = .done ∨ Deliverable d takes rows' e') ↔
    (e.status = .done ∨ Deliverable d takes rows e)

theorem keeps_passed (hel : ∀ e ∈ rows, e.entryId ∈ ids → eligible d.queue w.leaseNow rows e)
    {e : OutboxEntry Data} (he : e ∈ rows) : Keeps e (passed d w ids e) := by
  refine ⟨passed_identity ids e, ?_⟩
  intro hf
  unfold passed
  split_ifs with hin
  · rw [finished_iff] at hf
    rcases (eligible_spec (hel e he hin)).1 with hs | hs <;> simp [hs] at hf
  · rfl

theorem Drainable.afterPasses (h : Drainable rows) (surroundings : ℕ → Surroundings Data) (n : ℕ) :
    Drainable (d.afterPasses surroundings rows n) :=
  Progress.after_keeps (fun _ _ h => h.runOnce) h n

theorem Drainable.passed (h : Drainable rows) {surroundings : ℕ → Surroundings Data}
    (hpublish : ∀ n envelope, (surroundings n).publish envelope = none ↔ takes envelope) (n : ℕ) :
    ∃ f, d.afterPasses surroundings rows n = rows.map f ∧
      ∀ e ∈ rows, Passed d takes rows (d.afterPasses surroundings rows n) e (f e) := by
  induction n with
  | zero =>
    refine ⟨id, by rw [List.map_id]; rfl, ?_⟩
    intro e _
    exact ⟨.refl e, Iff.rfl⟩
  | succ n ih =>
    obtain ⟨f, hrows, hf⟩ := ih
    have hafter : Drainable (d.afterPasses surroundings rows n) := h.afterPasses surroundings n
    obtain ⟨granted, hinv⟩ := hafter.invariant
    obtain ⟨ids, hnext, -, hel, -⟩ := runOnce_spec (d := d) (w := surroundings n) hinv hafter.column
    have hsucc : d.afterPasses surroundings rows (n + 1) =
        (d.afterPasses surroundings rows n).map (Outbox.passed d (surroundings n) ids) := hnext
    refine ⟨Outbox.passed d (surroundings n) ids ∘ f, ?_, ?_⟩
    · rw [hsucc, hrows, List.map_map]
    · intro e he
      have hmem : f e ∈ d.afterPasses surroundings rows n := by
        rw [hrows]
        exact List.mem_map_of_mem he
      refine ⟨(hf e he).keeps.trans (keeps_passed hel hmem), ?_⟩
      rw [hsucc]
      exact (deliverable_passed (hpublish n) hinv.ids hel hmem).trans (hf e he).same

end Delivery

theorem QueueRun.drainable {table : QueueTable} {s : QueueState Data}
    (hrun : QueueRun table .empty s) (hcolumn : IdentityColumn s.rows) : Drainable s.rows :=
  ⟨⟨s.granted, (QueueInvariant.empty.run hrun).1.rows⟩, hcolumn⟩

/-- Whatever state the queue was left in and whatever the publisher does, a dispatcher that keeps
running comes to a point after which it finds nothing to do: each entry of its queue is handed
over, skipped, dead, or behind a dead one. -/
theorem queue_comes_to_rest {table : QueueTable} {s : QueueState Data}
    (hrun : QueueRun table .empty s) (hcolumn : IdentityColumn s.rows) (hd : d.Leases)
    {surroundings : ℕ → Surroundings Data} (hclock : ClockAdvances surroundings) :
    ∃ n, AtRest d.queue (d.afterPasses surroundings s.rows n) ∧
      ∀ m, n ≤ m → d.afterPasses surroundings s.rows m = d.afterPasses surroundings s.rows n :=
  (QueueRun.drainable hrun hcolumn).comes_to_rest hd hclock

theorem steady_clock : ClockAdvances steadySurroundings := by
  intro t
  refine ⟨t.toNat, ?_⟩
  intro n hn
  have hle : (t.toNat : ℤ) ≤ n := by exact_mod_cast hn
  calc t ≤ (t.toNat : ℤ) := Int.self_le_toNat t
    _ ≤ (n : ℤ) := hle
    _ ≤ (n : ℤ) * 1000000 := by omega

theorem queue_comes_to_rest_refused :
    ∃ n, AtRest .outbox (steadyDispatcher.afterPasses steadySurroundings sampleQueue.rows n) := by
  obtain ⟨n, hrest, -⟩ := queue_comes_to_rest sample_run sampleColumn steady_leases steady_clock
  exact ⟨n, hrest⟩

end Sintius.Outbox
