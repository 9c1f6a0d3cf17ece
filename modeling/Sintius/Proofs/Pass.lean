import Mathlib
import Sintius.Lib.Counting
import Sintius.Lib.Digits
import Sintius.Lib.Table
import Sintius.Spec.Queue
import Sintius.Spec.Dispatch
import Sintius.Spec.Pass
import Sintius.Sanity.Queue
import Sintius.Proofs.Queue

/-! A pass that nobody comes between. It rewrites the rows it has leased one by one,
each by itself, so what it makes of the table can be read off row by row; its report
counts just that. As a run of statements it is one of those of `Spec.Dispatch`. -/

namespace Sintius.Outbox

variable {Data : Type} {rows : Table Data} {granted : List ℕ} {d : Dispatcher}
  {w : Surroundings Data}

/-- Identity columns count from 1 and are 64 bits wide. -/
def IdentityColumn (rows : Table Data) : Prop :=
  ∀ e ∈ rows, 1 ≤ e.entryId ∧ e.entryId < 2 ^ 63

theorem entryIdOf_identity {n : ℕ} (h : 1 ≤ n ∧ n < 2 ^ 63) : entryIdOf (toString n) = some n := by
  have htext : (toString n).toList = Nat.toDigits 10 n := Nat.toList_repr
  have hlength : (Nat.toDigits 10 n).length ≤ 19 := by
    rw [Nat.length_toDigits_le_iff (by decide) (by decide)]
    omega
  obtain ⟨hdigit, hhead⟩ := Digits.canonical_toDigits n
  unfold entryIdOf
  rw [htext]
  rcases hhead with hzero | ⟨c, cs, hcs, hne⟩
  · have hvalue := Nat.ofDigitChars_ten_toDigits (n := n)
    rw [hzero] at hvalue
    have : (0 : ℕ) = n := hvalue
    omega
  · rw [hcs] at hdigit hlength ⊢
    have hc : c.isDigit = true := hdigit c (by simp)
    have hrange : 48 ≤ c.toNat ∧ c.toNat ≤ 57 := Char.isDigit_iff_toNat.mp hc
    have hfirst : '1' ≤ c ∧ c ≤ '9' := by
      have hne48 : c.toNat ≠ 48 := by
        intro h48
        apply hne
        rw [← Char.ofNat_toNat c, h48]
      refine ⟨?_, ?_⟩ <;> rw [Char.le_def, UInt32.le_iff_toNat_le]
      · change 49 ≤ c.toNat
        omega
      · exact hrange.2
    have hrest : cs.all Char.isDigit = true :=
      List.all_eq_true.mpr fun x hx => hdigit x (List.mem_cons_of_mem _ hx)
    dsimp only
    rw [if_pos ⟨hfirst.1, hfirst.2, Nat.le_of_lt_succ (by simpa using hlength), hrest⟩]
    exact Nat.toNat?_repr n

/-- What a pass makes of a row it has leased. -/
def settle (d : Dispatcher) (w : Surroundings Data) (leased : OutboxEntry Data) :
    OutboxEntry Data :=
  if d.maxAttempts < leased.attempts then
    failEntry "Exceeded maximum delivery attempts." none leased
  else
    match w.publish leased.envelope with
    | some error =>
      failEntry (Js.decode (safeError error)) (d.retryAt leased.attempts (w.now leased)) leased
    | none => finishEntry (w.now leased) leased

/-- What a pass counts for it. -/
def tally (d : Dispatcher) (w : Surroundings Data) (report : DispatchReport)
    (leased : OutboxEntry Data) : DispatchReport :=
  if d.maxAttempts < leased.attempts then
    { report with deadLettered := report.deadLettered + 1 }
  else
    match w.publish leased.envelope with
    | some _ =>
      if d.maxAttempts ≤ leased.attempts then
        { report with deadLettered := report.deadLettered + 1 }
      else { report with retried := report.retried + 1 }
    | none => { report with published := report.published + 1 }

@[simp] theorem settle_identity (e : OutboxEntry Data) : (settle d w e).identity = e.identity := by
  unfold settle
  split
  · rfl
  · split <;> rfl

/-- The row is leased by the worker of the pass. -/
def HeldFor (d : Dispatcher) (e : OutboxEntry Data) : Prop :=
  e.status = .leased ∧ e.leasedBy = some d.workerId ∧ consumerScope d.queue e

/-- A statement about a lease that is held selects the row and no other. -/
theorem heldBy_eq (hids : rows.Pairwise fun a b => a.entryId ≠ b.entryId)
    (hcolumn : IdentityColumn rows) {leased : OutboxEntry Data} (hmem : leased ∈ rows)
    (hheld : HeldFor d leased) {e : OutboxEntry Data} (he : e ∈ rows) :
    heldBy d.queue (entryIdOf (toString leased.entryId)) d.workerId e =
      decide (e.entryId = leased.entryId) := by
  rw [entryIdOf_identity (hcolumn leased hmem)]
  by_cases hid : e.entryId = leased.entryId
  · rw [Sql.eq_of_key_eq hids he hmem hid]
    obtain ⟨hstatus, hby, hscope⟩ := hheld
    simp [heldBy, hstatus, hby, hscope]
  · simp [heldBy, hid]

theorem update_held (hids : rows.Pairwise fun a b => a.entryId ≠ b.entryId)
    (hcolumn : IdentityColumn rows) {leased : OutboxEntry Data} (hmem : leased ∈ rows)
    (hheld : HeldFor d leased) (set : OutboxEntry Data → OutboxEntry Data) :
    let selects := heldBy d.queue (entryIdOf (toString leased.entryId)) d.workerId
    Sql.update selects set rows =
        rows.map (fun e => if e.entryId = leased.entryId then set e else e) ∧
      (Sql.rowCount selects rows == 1) = true := by
  intro selects
  have hselects : ∀ e ∈ rows, selects e = decide (e.entryId = leased.entryId) := fun e he =>
    heldBy_eq hids hcolumn hmem hheld he
  refine ⟨?_, ?_⟩
  · apply List.map_congr_left
    intro e he
    rw [hselects e he]
    simp
  · have hone : Sql.rowCount selects rows ≤ 1 := by
      apply Sql.rowCount_le_one (k := leased.entryId) hids
      intro row hrow
      have := (heldBy_spec hrow).1
      rw [entryIdOf_identity (hcolumn leased hmem)] at this
      exact Option.some.inj this
    have hpos : 0 < Sql.rowCount selects rows :=
      List.countP_pos_iff.mpr ⟨leased, hmem, by rw [hselects leased hmem]; simp⟩
    rw [beq_iff_eq]
    omega

/-- The loop body on a lease that is held: one row changes, and its outcome is counted. -/
theorem dispatch_held (hids : rows.Pairwise fun a b => a.entryId ≠ b.entryId)
    (hcolumn : IdentityColumn rows) {leased : OutboxEntry Data} (hmem : leased ∈ rows)
    (hheld : HeldFor d leased) (report : DispatchReport) :
    d.dispatch w (rows, report) leased =
      (rows.map (fun e => if e.entryId = leased.entryId then settle d w e else e),
        tally d w report leased) := by
  have hset : ∀ set : OutboxEntry Data → OutboxEntry Data, set leased = settle d w leased →
      rows.map (fun e => if e.entryId = leased.entryId then set e else e) =
        rows.map (fun e => if e.entryId = leased.entryId then settle d w e else e) := by
    intro set hsame
    apply List.map_congr_left
    intro e he
    split_ifs with hid
    · rw [Sql.eq_of_key_eq hids he hmem hid, hsame]
    · rfl
  unfold Dispatcher.dispatch tally
  dsimp only
  by_cases hexceeded : d.maxAttempts < leased.attempts
  · rw [if_pos hexceeded, if_pos hexceeded]
    obtain ⟨hrows, hcount⟩ := update_held hids hcolumn hmem hheld
      (failEntry "Exceeded maximum delivery attempts." none)
    simp only [count, recordFailure, hrows, hcount, if_true]
    rw [hset _ (by simp [settle, hexceeded])]
  · rw [if_neg hexceeded, if_neg hexceeded]
    cases hpublish : w.publish leased.envelope with
    | some error =>
      obtain ⟨hrows, hcount⟩ := update_held hids hcolumn hmem hheld
        (failEntry (Js.decode (safeError error)) (d.retryAt leased.attempts (w.now leased)))
      simp only [count, recordFailure, hrows, hcount, if_true]
      rw [hset _ (by simp [settle, hexceeded, hpublish])]
    | none =>
      obtain ⟨hrows, hcount⟩ := update_held hids hcolumn hmem hheld (finishEntry (w.now leased))
      simp only [count, markPublished, hrows, hcount, if_true]
      rw [hset _ (by simp [settle, hexceeded, hpublish])]

theorem settle_entryId (e : OutboxEntry Data) : (settle d w e).entryId = e.entryId :=
  entryId_of_identity (settle_identity e)

/-- A batch of held leases is settled row by row. -/
theorem foldl_dispatch (leased : List (OutboxEntry Data)) :
    ∀ {rows : Table Data} (report : DispatchReport),
      rows.Pairwise (fun a b => a.entryId ≠ b.entryId) → IdentityColumn rows →
      leased.Pairwise (fun a b => a.entryId ≠ b.entryId) →
      (∀ l ∈ leased, l ∈ rows ∧ HeldFor d l) →
      leased.foldl (d.dispatch w) (rows, report) =
        (rows.map (fun e => if e.entryId ∈ leased.map OutboxEntry.entryId then settle d w e else e),
          leased.foldl (tally d w) report) := by
  induction leased with
  | nil =>
    intro rows report _ _ _ _
    simp
  | cons l leased ih =>
    intro rows report hids hcolumn hdistinct hheld
    rw [List.pairwise_cons] at hdistinct
    obtain ⟨hmem, hl⟩ := hheld l (List.mem_cons_self ..)
    rw [List.foldl_cons, List.foldl_cons, dispatch_held hids hcolumn hmem hl]
    have hentry : ∀ e : OutboxEntry Data,
        (if e.entryId = l.entryId then settle d w e else e).entryId = e.entryId := by
      intro e
      split_ifs
      · exact settle_entryId e
      · rfl
    rw [ih]
    · congr 1
      rw [List.map_map]
      apply List.map_congr_left
      intro e _
      rw [Function.comp_apply, hentry]
      by_cases hid : e.entryId = l.entryId
      · -- the ids of a batch differ, so the row is not settled twice
        have hnot : e.entryId ∉ leased.map OutboxEntry.entryId := by
          intro hmem'
          obtain ⟨l', hl', hid'⟩ := List.mem_map.mp hmem'
          exact hdistinct.1 l' hl' (hid.symm.trans hid'.symm)
        rw [if_neg hnot, if_pos hid, if_pos (by rw [List.map_cons, hid]; exact List.mem_cons_self ..)]
      · simp [hid]
    · rw [List.pairwise_map]
      exact hids.imp fun h => by rwa [hentry, hentry]
    · intro e he
      obtain ⟨old, hold, rfl⟩ := List.mem_map.mp he
      rw [hentry]
      exact hcolumn old hold
    · exact hdistinct.2
    · intro l' hl'
      obtain ⟨hmem', hheld'⟩ := hheld l' (List.mem_cons_of_mem _ hl')
      refine ⟨List.mem_map.mpr ⟨l', hmem', ?_⟩, hheld'⟩
      rw [if_neg (Ne.symm (hdistinct.1 l' hl'))]

/-- What a pass makes of a row, given the ids it leases. -/
def passed (d : Dispatcher) (w : Surroundings Data) (ids : List ℕ) (e : OutboxEntry Data) :
    OutboxEntry Data :=
  if e.entryId ∈ ids then settle d w (grantLease (d.leaseRequest w.leaseNow) e) else e

/-- The rows of a lease, as the batch has them. -/
def batchOf (request : LeaseRequest) (ids : List ℕ) (rows : Table Data) : List (OutboxEntry Data) :=
  (rows.filter fun e => decide (e.entryId ∈ ids)).map (grantLease request)

/-- `d` takes at least one entry in a batch. -/
def Dispatcher.Leases (d : Dispatcher) : Prop := ∃ limit, d.batchSize.integer? = some limit ∧ 1 ≤ limit

/-- A lease takes rows that are eligible, and some row if there is one and room in the batch. -/
theorem leaseBatch_batch (hids : rows.Pairwise fun a b => a.entryId ≠ b.entryId)
    (queue : QueueSelector) (request : LeaseRequest) :
    ∃ ids : List ℕ,
      (leaseBatch queue (fun _ => false) request rows).1 =
        rows.map (fun e => if e.entryId ∈ ids then grantLease request e else e) ∧
      (leaseBatch queue (fun _ => false) request rows).2.Perm (batchOf request ids rows) ∧
      (∀ e ∈ rows, e.entryId ∈ ids → eligible queue request.now rows e) ∧
      ((∃ limit, request.limit.integer? = some limit ∧ 1 ≤ limit) →
        (∃ e ∈ rows, eligible queue request.now rows e) → ∃ e ∈ rows, e.entryId ∈ ids) := by
  by_cases hroom : ∃ limit, request.limit.integer? = some limit ∧ 1 ≤ limit
  swap
  · -- a batch of no entries
    have hnone : leaseBatch queue (fun _ => false) request rows = (rows, []) := by
      unfold leaseBatch
      split
      · rfl
      · next limit hlimit =>
        rw [if_pos (not_le.mp fun hpos => hroom ⟨limit, hlimit, hpos⟩)]
    refine ⟨[], ?_, ?_, ?_, fun h => absurd h hroom⟩
    · simp [hnone]
    · simp [hnone, batchOf]
    · exact fun _ _ h => absurd h List.not_mem_nil
  obtain ⟨limit, hlimit, hpos⟩ := hroom
  unfold leaseBatch
  rw [hlimit]
  dsimp only
  rw [if_neg (by omega)]
  refine ⟨candidates queue (fun _ => false) request.now limit.toNat rows, ?_, ?_, ?_, fun _ => ?_⟩
  · simp [Sql.update]
  · exact List.mergeSort_perm _ _
  · intro e he hmem
    obtain ⟨e', he', hid, hel⟩ := mem_candidates hmem
    rwa [← Sql.eq_of_key_eq hids he' he hid]
  · rintro ⟨e, he, hel⟩
    have hsome : 0 < (candidates queue (fun _ => false) request.now limit.toNat rows).length := by
      unfold candidates
      rw [List.length_take, List.length_mergeSort, List.length_map]
      exact lt_min (by omega) (List.length_pos_of_mem (List.mem_filter.mpr ⟨he, by simp [hel]⟩))
    obtain ⟨id, hid⟩ := List.exists_mem_of_length_pos hsome
    obtain ⟨e', he', rfl, -⟩ := mem_candidates hid
    exact ⟨e', he', hid⟩

theorem mem_batchOf {request : LeaseRequest} {ids : List ℕ} {l : OutboxEntry Data} :
    l ∈ batchOf request ids rows ↔ ∃ e ∈ rows, e.entryId ∈ ids ∧ grantLease request e = l := by
  simp [batchOf, and_assoc]

theorem batchOf_distinct (hids : rows.Pairwise fun a b => a.entryId ≠ b.entryId)
    (request : LeaseRequest) (ids : List ℕ) :
    (batchOf request ids rows).Pairwise fun a b => a.entryId ≠ b.entryId := by
  unfold batchOf
  rw [List.pairwise_map]
  exact hids.filter _

theorem grantLease_held {e : OutboxEntry Data} (now : Time) (hscope : consumerScope d.queue e) :
    HeldFor d (grantLease (d.leaseRequest now) e) :=
  ⟨rfl, rfl, hscope⟩

/-- A pass, row by row, and the batch it counts. -/
theorem runOnce_spec (h : TableInvariant granted rows) (hcolumn : IdentityColumn rows) :
    ∃ ids : List ℕ,
      (d.runOnce w rows).1 = rows.map (passed d w ids) ∧
      (∃ batch : List (OutboxEntry Data), batch.Perm (batchOf (d.leaseRequest w.leaseNow) ids rows) ∧
        (d.runOnce w rows).2 = batch.foldl (tally d w) { leased := batch.length }) ∧
      (∀ e ∈ rows, e.entryId ∈ ids → eligible d.queue w.leaseNow rows e) ∧
      (d.Leases → (∃ e ∈ rows, eligible d.queue w.leaseNow rows e) →
        ∃ e ∈ rows, e.entryId ∈ ids) := by
  obtain ⟨ids, hrows, hbatch, hel, hsome⟩ :=
    leaseBatch_batch h.ids d.queue (d.leaseRequest w.leaseNow)
  have hleased := h.leaseBatch d.queue (fun _ => false) (d.leaseRequest w.leaseNow)
  have hgranted : ∀ e : OutboxEntry Data,
      (if e.entryId ∈ ids then grantLease (d.leaseRequest w.leaseNow) e else e).entryId =
        e.entryId := by
    intro e
    split_ifs <;> rfl
  have hdistinct : (leaseBatch d.queue (fun _ => false) (d.leaseRequest w.leaseNow) rows).2.Pairwise
      fun a b => a.entryId ≠ b.entryId :=
    (hbatch.pairwise_iff fun h => Ne.symm h).mpr (batchOf_distinct h.ids _ ids)
  have hcolumn' : IdentityColumn
      (leaseBatch d.queue (fun _ => false) (d.leaseRequest w.leaseNow) rows).1 := by
    rw [hrows]
    intro e he
    obtain ⟨old, hold, rfl⟩ := List.mem_map.mp he
    rw [hgranted]
    exact hcolumn old hold
  have hheld : ∀ l ∈ (leaseBatch d.queue (fun _ => false) (d.leaseRequest w.leaseNow) rows).2,
      l ∈ (leaseBatch d.queue (fun _ => false) (d.leaseRequest w.leaseNow) rows).1 ∧
        HeldFor d l := by
    intro l hl
    obtain ⟨e, he, hin, rfl⟩ := mem_batchOf.mp (hbatch.mem_iff.mp hl)
    refine ⟨?_, grantLease_held _ (eligible_spec (hel e he hin)).2.1⟩
    rw [hrows]
    exact List.mem_map.mpr ⟨e, he, if_pos hin⟩
  have hpass := foldl_dispatch (w := w) _
    { leased := (leaseBatch d.queue (fun _ => false) (d.leaseRequest w.leaseNow) rows).2.length }
    hleased.ids hcolumn' hdistinct hheld
  refine ⟨ids, ?_, ⟨_, hbatch, congrArg Prod.snd hpass⟩, hel, hsome⟩
  refine (congrArg Prod.fst hpass).trans ?_
  dsimp only
  rw [hrows, List.map_map]
  apply List.map_congr_left
  intro e he
  rw [Function.comp_apply, hgranted]
  have hmem : e.entryId ∈ (leaseBatch d.queue (fun _ => false) (d.leaseRequest w.leaseNow)
      rows).2.map OutboxEntry.entryId ↔ e.entryId ∈ ids := by
    rw [List.mem_map]
    constructor
    · rintro ⟨l, hl, hid⟩
      obtain ⟨e', -, hmem, rfl⟩ := mem_batchOf.mp (hbatch.mem_iff.mp hl)
      rwa [← hid]
    · intro hmem
      exact ⟨_, hbatch.mem_iff.mpr (mem_batchOf.mpr ⟨e, he, hmem, rfl⟩), rfl⟩
  unfold passed
  by_cases hin : e.entryId ∈ ids
  · rw [if_pos (hmem.mpr hin), if_pos hin, if_pos hin]
  · rw [if_neg (mt hmem.mp hin), if_neg hin, if_neg hin]

theorem passed_identity (ids : List ℕ) (e : OutboxEntry Data) :
    (passed d w ids e).identity = e.identity := by
  unfold passed
  split_ifs
  · rw [settle_identity, grantLease_identity]
  · rfl

/-- What a lease can come to: the event is handed over, the row dies, or it waits for another
attempt. -/
theorem settle_cases (d : Dispatcher) (w : Surroundings Data) (request : LeaseRequest)
    (e : OutboxEntry Data) :
    ((settle d w (grantLease request e)).status = .done ∧ e.attempts < d.maxAttempts ∧
      w.publish e.envelope = none) ∨
    ((settle d w (grantLease request e)).status = .dead ∧
      (d.maxAttempts ≤ e.attempts ∨ (w.publish e.envelope).isSome)) ∨
    ((settle d w (grantLease request e)).status = .pending ∧
      (settle d w (grantLease request e)).attempts = e.attempts + 1 ∧
      e.attempts + 1 < d.maxAttempts ∧ (w.publish e.envelope).isSome) := by
  have hattempts : (grantLease request e).attempts = e.attempts + 1 := rfl
  have henvelope : (grantLease request e).envelope = e.envelope := rfl
  unfold settle
  rw [hattempts, henvelope]
  by_cases hexceeded : d.maxAttempts < e.attempts + 1
  · rw [if_pos hexceeded]
    exact .inr (.inl ⟨rfl, .inl (by omega)⟩)
  rw [if_neg hexceeded]
  cases hpublish : w.publish e.envelope with
  | none => exact .inl ⟨rfl, by omega, rfl⟩
  | some error =>
    by_cases hexhausted : d.maxAttempts ≤ e.attempts + 1
    · refine .inr (.inl ⟨?_, .inr rfl⟩)
      simp [failEntry, Dispatcher.retryAt, hexhausted]
    · refine .inr (.inr ⟨?_, rfl, by omega, rfl⟩)
      simp [failEntry, Dispatcher.retryAt, hexhausted]

theorem TableInvariant.dispatch {report : DispatchReport} (h : TableInvariant granted rows)
    (entry : OutboxEntry Data) : TableInvariant granted (d.dispatch w (rows, report) entry).1 := by
  unfold Dispatcher.dispatch
  dsimp only
  split
  · exact h.recordFailure _ _ _ _ _
  · split
    · exact h.recordFailure _ _ _ _ _
    · exact h.markPublished _ _ _ _

theorem TableInvariant.foldl_dispatch (entries : List (OutboxEntry Data)) :
    ∀ s : Dispatched Data, TableInvariant granted s.1 →
      TableInvariant granted (entries.foldl (d.dispatch w) s).1 := by
  induction entries with
  | nil => exact fun _ h => h
  | cons entry entries ih => exact fun s h => ih _ (h.dispatch entry)

theorem TableInvariant.runOnce (h : TableInvariant granted rows) :
    ∃ granted', TableInvariant granted' (d.runOnce w rows).1 :=
  ⟨_, TableInvariant.foldl_dispatch _ _ (h.leaseBatch d.queue _ (d.leaseRequest w.leaseNow))⟩

/-- The steps of a pass over its leases, with nobody else's in between. -/
theorem dispatch_run (grants : List (Grant Data)) (before : List (RunOnce Data)) :
    ∀ (rows : Table Data) (granted : ℕ) (log : List (DispatchEvent Data)) (report : DispatchReport),
      ∃ log', log <+: log' ∧ DispatchRun d.queue.table d.maxAttempts
        ⟨rows, before ++ [⟨d, grants, .next, report⟩], granted, log⟩
        ⟨((grants.map Grant.entry).foldl (d.dispatch w) (rows, report)).1,
          before ++ [⟨d, [], .next, ((grants.map Grant.entry).foldl (d.dispatch w) (rows, report)).2⟩],
          granted, log'⟩ := by
  induction grants with
  | nil =>
    intro rows granted log report
    exact ⟨log, List.prefix_rfl, .refl⟩
  | cons g grants ih =>
    intro rows granted log report
    have hpass : ∀ progress log, (Dispatch.mk rows
        (before ++ [⟨d, g :: grants, progress, report⟩]) granted log).passes =
          before ++ ⟨d, g :: grants, progress, report⟩ :: [] := fun _ _ => rfl
    have hnext : ∃ log', log <+: log' ∧ DispatchRun d.queue.table d.maxAttempts
        ⟨rows, before ++ [⟨d, g :: grants, .next, report⟩], granted, log⟩
        ⟨(d.dispatch w (rows, report) g.entry).1,
          before ++ [⟨d, grants, .next, (d.dispatch w (rows, report) g.entry).2⟩], granted,
          log'⟩ := by
      unfold Dispatcher.dispatch
      dsimp only
      by_cases hexceeded : d.maxAttempts < g.entry.attempts
      · rw [if_pos hexceeded]
        exact ⟨_, List.prefix_append log _, .single (.exceed (hpass .next log) rfl rfl hexceeded)⟩
      · rw [if_neg hexceeded]
        have hcall : DispatchRun d.queue.table d.maxAttempts _ _ :=
          .single (.call (hpass .next log) rfl rfl (not_lt.mp hexceeded))
        have hlog : ∀ a b c : DispatchEvent Data, log <+: ((log ++ [a]) ++ [b]) ++ [c] := by
          intro a b c
          rw [List.append_assoc, List.append_assoc]
          exact List.prefix_append log _
        cases w.publish g.entry.envelope with
        | some error =>
          have hthrows := hcall.tail (.callThrows (hpass .handingOver _) rfl rfl)
          have hretries := hthrows.tail
            (.retry (Js.decode (safeError error)) (w.now g.entry) (hpass .threw _) rfl rfl)
          exact ⟨_, hlog _ _ _, hretries⟩
        | none =>
          have hreturns := hcall.tail (.callReturns (hpass .handingOver _) rfl rfl)
          exact ⟨_, hlog _ _ _, hreturns.tail (.mark (w.now g.entry) (hpass .returned _) rfl rfl)⟩
    obtain ⟨log₁, hlog₁, hnext⟩ := hnext
    obtain ⟨log₂, hlog₂, hrest⟩ := ih (d.dispatch w (rows, report) g.entry).1 granted log₁
      (d.dispatch w (rows, report) g.entry).2
    exact ⟨log₂, hlog₁.trans hlog₂, hnext.trans hrest⟩

theorem grantsFrom_entry (workerId : WorkerId) (entries : List (OutboxEntry Data)) :
    ∀ first, (grantsFrom workerId first entries).map Grant.entry = entries := by
  induction entries with
  | nil => exact fun _ => rfl
  | cons e entries ih =>
    intro first
    rw [grantsFrom, List.map_cons, ih]

/-- `runOnce` as one function is a run of its statements, whatever other passes stand still. -/
theorem runOnce_run (s : Dispatch Data) :
    ∃ t, DispatchRun d.queue.table d.maxAttempts s t ∧ t.rows = (d.runOnce w s.rows).1 ∧
      t.passes = s.passes ∧
      ∃ log, s.log <+: log ∧ t.log = log ++ [.completed (d.runOnce w s.rows).2] := by
  have hlease : DispatchRun d.queue.table d.maxAttempts s (s.lease d (fun _ => false) w.leaseNow) :=
    .single (.lease d (fun _ => false) w.leaseNow rfl rfl)
  have hlog : s.log <+: (s.lease d (fun _ => false) w.leaseNow).log := List.prefix_append _ _
  unfold Dispatch.lease at hlease hlog
  dsimp only at hlease hlog
  obtain ⟨log, hprefix, hrun⟩ := dispatch_run (d := d) (w := w) _ _ _ _ _ _
  refine ⟨_, (hlease.trans hrun).tail (.complete rfl rfl), ?_, ?_, log, hlog.trans hprefix, ?_⟩
  · rw [grantsFrom_entry]
    rfl
  · rw [List.append_nil]
  · rw [grantsFrom_entry]
    rfl

/-- What a pass counts, over its whole batch. -/
theorem foldl_tally (leased : List (OutboxEntry Data)) :
    ∀ report : DispatchReport, leased.foldl (tally d w) report =
      { leased := report.leased
        published := report.published + leased.countP fun l => (settle d w l).status == .done
        retried := report.retried + leased.countP fun l => (settle d w l).status == .pending
        deadLettered := report.deadLettered + leased.countP fun l => (settle d w l).status == .dead
        leaseLost := report.leaseLost } := by
  induction leased with
  | nil => exact fun _ => rfl
  | cons l leased ih =>
    intro report
    rw [List.foldl_cons, ih]
    simp only [List.countP_cons]
    unfold tally settle
    by_cases hexceeded : d.maxAttempts < l.attempts
    · simp [hexceeded, failEntry]
      omega
    · cases hpublish : w.publish l.envelope with
      | none =>
        simp [hexceeded, finishEntry]
        omega
      | some error =>
        by_cases hexhausted : d.maxAttempts ≤ l.attempts
        · simp [hexceeded, hexhausted, failEntry, Dispatcher.retryAt]
          omega
        · simp [hexceeded, hexhausted, failEntry, Dispatcher.retryAt]
          omega

theorem countP_add {α : Type} {p q r : α → Bool} {l : List α}
    (h : ∀ a ∈ l, (p a).toNat = (q a).toNat + (r a).toNat) :
    l.countP p = l.countP q + l.countP r := by
  induction l with
  | nil => rfl
  | cons a l ih =>
    have ha := h a (List.mem_cons_self ..)
    have ih' := ih fun b hb => h b (List.mem_cons_of_mem _ hb)
    simp only [List.countP_cons, ih']
    cases hp : p a <;> cases hq : q a <;> cases hr : r a <;> simp_all <;> omega

theorem countP_batchOf (request : LeaseRequest) (ids : List ℕ) (p : OutboxEntry Data → Bool) :
    (batchOf request ids rows).countP p =
      rows.countP fun e => decide (e.entryId ∈ ids) && p (grantLease request e) := by
  unfold batchOf
  rw [List.countP_map, List.countP_filter]
  apply List.countP_congr
  intro e _
  simp [and_comm]

/-- The rows with a status that a leased row cannot have: those there were, and those the batch
came to. -/
theorem countP_passed {ids : List ℕ}
    (hel : ∀ e ∈ rows, e.entryId ∈ ids → eligible d.queue w.leaseNow rows e) {status : OutboxStatus}
    (hstatus : status ≠ .pending ∧ status ≠ .leased) :
    (rows.map (passed d w ids)).countP (fun e => e.status == status) =
      rows.countP (fun e => e.status == status) +
        (batchOf (d.leaseRequest w.leaseNow) ids rows).countP
          fun l => (settle d w l).status == status := by
  rw [countP_batchOf, List.countP_map]
  apply countP_add
  intro e he
  rw [Function.comp_apply, passed]
  by_cases hin : e.entryId ∈ ids
  · have hne : (e.status == status) = false := by
      rw [beq_eq_false_iff_ne]
      rcases (eligible_spec (hel e he hin)).1 with hs | hs <;> rw [hs]
      · exact hstatus.1.symm
      · exact hstatus.2.symm
    simp [hin, hne]
  · simp [hin]

theorem settle_attempts (e : OutboxEntry Data) : (settle d w e).attempts = e.attempts := by
  unfold settle
  split
  · rfl
  · split <;> rfl

theorem attempts_passed (ids : List ℕ) (rows : Table Data) :
    ((rows.map (passed d w ids)).map OutboxEntry.attempts).sum =
      (rows.map OutboxEntry.attempts).sum + (batchOf (d.leaseRequest w.leaseNow) ids rows).length := by
  unfold batchOf
  rw [List.length_map]
  induction rows with
  | nil => rfl
  | cons e rows ih =>
    simp only [List.map_cons, List.sum_cons, ih, List.filter_cons]
    by_cases hin : e.entryId ∈ ids
    · have hattempts : (passed d w ids e).attempts = e.attempts + 1 := by
        rw [passed, if_pos hin, settle_attempts]
        rfl
      simp only [hin, hattempts, decide_true, if_true, List.length_cons]
      omega
    · have hattempts : (passed d w ids e).attempts = e.attempts := by rw [passed, if_neg hin]
      simp only [hin, hattempts, decide_false, Bool.false_eq_true, if_false]
      omega

/-- Each lease of a pass is settled in one of three ways. -/
theorem length_batchOf (request : LeaseRequest) (ids : List ℕ) (rows : Table Data) :
    (batchOf request ids rows).length =
      ((batchOf request ids rows).countP fun l => (settle d w l).status == .done) +
      ((batchOf request ids rows).countP fun l => (settle d w l).status == .pending) +
      ((batchOf request ids rows).countP fun l => (settle d w l).status == .dead) := by
  have hdistinct : [OutboxStatus.done, .pending, .dead].Nodup := by decide
  have hsum := Counting.length_eq_sum_countP (fun l => (settle d w l).status) hdistinct
    (batchOf request ids rows) (by
      intro l hl
      obtain ⟨e, -, -, rfl⟩ := mem_batchOf.mp hl
      rcases settle_cases d w request e with ⟨hs, -⟩ | ⟨hs, -⟩ | ⟨hs, -⟩ <;> simp [hs])
  simpa [beq_eq_decide, add_assoc] using hsum

/-- The report of a pass nobody comes between tells exactly what the pass did to the table, and
the pass is one of the runs of its statements. -/
theorem report_exact {table : QueueTable} {s : QueueState Data} (hrun : QueueRun table .empty s)
    (hcolumn : IdentityColumn s.rows) (w : Surroundings Data) :
    let after := (d.runOnce w s.rows).1
    let report := (d.runOnce w s.rows).2
    report.leased = report.published + report.retried + report.deadLettered ∧
      report.leaseLost = 0 ∧
      (after.countP fun e => e.status == .done) =
        (s.rows.countP fun e => e.status == .done) + report.published ∧
      (after.countP fun e => e.status == .dead) =
        (s.rows.countP fun e => e.status == .dead) + report.deadLettered ∧
      (after.map OutboxEntry.attempts).sum =
        (s.rows.map OutboxEntry.attempts).sum + report.leased ∧
      ∃ t, DispatchRun d.queue.table d.maxAttempts ⟨s.rows, [], 0, []⟩ t ∧ t.rows = after ∧
        ∃ log, t.log = log ++ [.completed report] := by
  intro after report
  obtain ⟨ids, hrows, ⟨batch, hbatch, hreport⟩, hel, -⟩ :=
    runOnce_spec (d := d) (w := w) (QueueInvariant.empty.run hrun).1.rows hcolumn
  have hafter : after = s.rows.map (passed d w ids) := hrows
  have hreport' : report = _ := hreport.trans (foldl_tally batch _)
  obtain ⟨t, ht, htrows, -, log, -, htlog⟩ := runOnce_run (d := d) (w := w) ⟨s.rows, [], 0, []⟩
  refine ⟨?_, ?_, ?_, ?_, ?_, t, ht, htrows, log, htlog⟩
  all_goals simp only [hreport', hafter, hbatch.countP_eq, hbatch.length_eq, zero_add]
  · exact length_batchOf (d := d) (w := w) _ ids s.rows
  · exact countP_passed hel (by decide)
  · exact countP_passed hel (by decide)
  · exact attempts_passed ids s.rows

/-- An event of the stream. -/
def sampleEvent (id aggregate : String) : EventEnvelope Unit :=
  { sampleEnvelope with id := id, aggregate_id := aggregate }

/-- A refused event, one behind it, and one of another stream. -/
def sampleQueue : QueueState Unit :=
  ⟨[newEntry 1 none (sampleEvent "evt_1" "tenant-a") 0,
    newEntry 2 none (sampleEvent "evt_2" "tenant-a") 0,
    newEntry 3 none (sampleEvent "evt_3" "tenant-b") 0], []⟩

def takesOthers (envelope : EventEnvelope Unit) : Bool := envelope.id != "evt_1"

/-- One pass a second, and a publisher that always refuses the first event. -/
def steadySurroundings (n : ℕ) : Surroundings Unit where
  leaseNow := n * 1000000
  publish envelope :=
    if takesOthers envelope then none else some (.error (Js.ascii "Error") (Js.ascii "no route"))
  now _ := n * 1000000

theorem sample_run : QueueRun .outbox_event .empty sampleQueue := by
  have h₁ : QueueRun .outbox_event .empty
      (⟨[newEntry 1 none (sampleEvent "evt_1" "tenant-a") 0], []⟩ : QueueState Unit) :=
    .single (.append 1 (sampleEvent "evt_1" "tenant-a") rfl
      (by simp [FreshEntry, QueueState.empty]) (by decide))
  have h₂ : QueueRun .outbox_event .empty
      (⟨[newEntry 1 none (sampleEvent "evt_1" "tenant-a") 0,
        newEntry 2 none (sampleEvent "evt_2" "tenant-a") 0], []⟩ : QueueState Unit) :=
    h₁.tail (.append 2 (sampleEvent "evt_2" "tenant-a") rfl (by simp [FreshEntry, newEntry])
      (by decide))
  exact h₂.tail (.append 3 (sampleEvent "evt_3" "tenant-b") rfl (by simp [FreshEntry, newEntry])
    (by decide))

theorem sampleColumn : IdentityColumn sampleQueue.rows := by
  unfold IdentityColumn sampleQueue
  simp [newEntry]

def steadyDispatcher : Dispatcher where
  queue := .outbox
  workerId := "worker-a"

theorem steady_leases : steadyDispatcher.Leases :=
  ⟨50, Js.Number.integer?_ofNat fifty_safe, by norm_num⟩

/-- The heads of the two streams, as the first pass leases them. -/
def sampleGrants : List (OutboxEntry Unit) :=
  [newEntry 1 none (sampleEvent "evt_1" "tenant-a") 0,
    newEntry 3 none (sampleEvent "evt_3" "tenant-b") 0].map
      (grantLease (steadyDispatcher.leaseRequest 0))

def leasedHeads : Table Unit :=
  sampleQueue.rows.map fun e =>
    if e.entryId ∈ [1, 3] then grantLease (steadyDispatcher.leaseRequest 0) e else e

theorem sample_lease : leaseBatch .outbox (fun _ => false) (steadyDispatcher.leaseRequest 0)
    sampleQueue.rows = (leasedHeads, sampleGrants) := by
  have hlimit : (steadyDispatcher.leaseRequest 0).limit.integer? = some 50 :=
    Js.Number.integer?_ofNat fifty_safe
  have hheads : (sampleQueue.rows.filter fun e =>
      eligible .outbox 0 sampleQueue.rows e && !false) =
      [newEntry 1 none (sampleEvent "evt_1" "tenant-a") 0,
        newEntry 3 none (sampleEvent "evt_3" "tenant-b") 0] := by decide
  have hcandidates : candidates .outbox (fun _ => false) (steadyDispatcher.leaseRequest 0).now
      (50 : ℤ).toNat sampleQueue.rows = [1, 3] := by
    unfold candidates
    change (((sampleQueue.rows.filter fun e => eligible .outbox 0 sampleQueue.rows e && !false).map
      OutboxEntry.entryId).mergeSort (· ≤ ·)).take 50 = _
    rw [hheads, List.mergeSort_of_pairwise (by decide)]
    rfl
  unfold leaseBatch
  rw [hlimit]
  dsimp only
  rw [if_neg (by decide), hcandidates]
  refine Prod.ext ?_ ?_
  · simp [Sql.update, leasedHeads]
  · exact List.mergeSort_of_pairwise (by decide)

theorem sample_report : (steadyDispatcher.runOnce (steadySurroundings 0) sampleQueue.rows).2 =
    { leased := 2, published := 1, retried := 1 } := by
  have hpaired : IdentityColumn leasedHeads := by
    unfold IdentityColumn
    decide
  have hheld : ∀ e ∈ sampleGrants, e ∈ leasedHeads ∧ HeldFor steadyDispatcher e := by
    unfold HeldFor
    decide
  have hpass := foldl_dispatch (d := steadyDispatcher) (w := steadySurroundings 0)
    sampleGrants { leased := 2 } (by decide) hpaired (by decide) hheld
  have hlease : leaseBatch steadyDispatcher.queue (fun _ => false)
      (steadyDispatcher.leaseRequest (steadySurroundings 0).leaseNow) sampleQueue.rows =
        (leasedHeads, sampleGrants) := sample_lease
  unfold Dispatcher.runOnce
  rw [hlease]
  exact (congrArg Prod.snd hpass).trans (by decide)

/-- One event is handed over, one refused, and the one behind it is not leased. -/
theorem report_exact_refused :
    let after := (steadyDispatcher.runOnce (steadySurroundings 0) sampleQueue.rows).1
    (steadyDispatcher.runOnce (steadySurroundings 0) sampleQueue.rows).2 =
        { leased := 2, published := 1, retried := 1 } ∧
      (after.countP fun e => e.status == .done) = 1 ∧
      (after.countP fun e => e.status == .dead) = 0 ∧
      (after.map OutboxEntry.attempts).sum = 2 := by
  obtain ⟨-, -, hdone, hdead, hattempts, -⟩ :=
    report_exact (d := steadyDispatcher) sample_run sampleColumn (steadySurroundings 0)
  rw [sample_report] at hdone hdead hattempts
  exact ⟨sample_report, hdone.trans (by decide), hdead.trans (by decide),
    hattempts.trans (by decide)⟩

end Sintius.Outbox
