import Mathlib
import Sintius.Lib.Log
import Sintius.Lib.Table
import Sintius.Spec.Queue
import Sintius.Spec.Relay
import Sintius.Spec.Dispatch
import Sintius.Sanity.Queue
import Sintius.Sanity.Dispatch
import Sintius.Proofs.Queue
import Sintius.Proofs.Dispatch

/-! Who may record an outcome. A row knows the worker that holds it, not the lease; but
a worker with one pass at a time has forgotten every lease but those of its last
batch, so a statement that finds the row held by its worker is for the lease that was
granted last. -/

namespace Sintius.Outbox

open Log

variable {Data : Type} {s t : Dispatch Data} {table : QueueTable} {maxAttempts : ℕ}

/-- A lease on the entry is granted, or an outcome recorded. -/
def Touches (id : ℕ) : DispatchEvent Data → Prop
  | .granted g => g.entry.entryId = id
  | .recorded g true => g.entry.entryId = id
  | _ => False

def GrantedTo (workerId : WorkerId) (id : ℕ) : DispatchEvent Data → Prop
  | .granted g => g.workerId = workerId ∧ g.entry.entryId = id
  | _ => False

theorem touches_of_grantedTo (workerId : WorkerId) (id : ℕ) (event : DispatchEvent Data)
    (h : GrantedTo workerId id event) : Touches id event := by
  cases event with
  | granted g => exact h.2
  | _ => exact h.elim

structure LeaseInvariant (s : Dispatch Data) : Prop where
  /-- Numbers of leases are used once. -/
  numbered : ∀ g, .granted g ∈ s.log → g.number < s.grants
  unique : ∀ front back g, s.log = front ++ .granted g :: back → .granted g ∉ front
  /-- A pass works on the last leases of its worker. -/
  latest : ∀ p ∈ s.passes, ∀ g ∈ p.grants, g.workerId = p.dispatcher.workerId ∧
    IsLast (GrantedTo g.workerId g.entry.entryId) (.granted g) s.log
  /-- A leased row is held by the worker of the last lease, which has no outcome. -/
  held : ∀ e ∈ s.rows, e.status = .leased → ∃ g, g.entry.entryId = e.entryId ∧
    e.leasedBy = some g.workerId ∧ IsLast (Touches e.entryId) (.granted g) s.log
  /-- An outcome was recorded for the last lease. -/
  accepted : ∀ front back g, s.log = front ++ .recorded g true :: back →
    IsLast (Touches g.entry.entryId) (.granted g) front
  counted : ∀ p ∈ s.passes, p.report.leased = p.report.total + p.grants.length
  completed : ∀ report, .completed report ∈ s.log → report.leased = report.total

/-- A statement of a pass that finds its row is for the last lease on it. -/
theorem LeaseInvariant.isLast_of_holds (h : LeaseInvariant s) {p : RunOnce Data} {g : Grant Data}
    {e : OutboxEntry Data} (hp : p ∈ s.passes) (hg : g ∈ p.grants) (he : e ∈ s.rows)
    (hholds : p.holds g e) : IsLast (Touches g.entry.entryId) (.granted g) s.log := by
  obtain ⟨hid, hstatus, hworker⟩ := holds_spec hholds
  obtain ⟨hown, hlatest⟩ := h.latest p hp g hg
  obtain ⟨g', hid', hworker', hlast⟩ := h.held e he hstatus
  have hsame : g'.workerId = g.workerId := by
    rw [hown]
    exact Option.some.inj (hworker'.symm.trans hworker)
  rw [hid] at hid' hlast
  have hgranted : GrantedTo g.workerId g.entry.entryId (.granted g') := ⟨hsame, hid'⟩
  have hgranted' : GrantedTo g.workerId g.entry.entryId (.granted g) := ⟨rfl, rfl⟩
  have heq := IsLast.unique hgranted hgranted'
    (hlast.mono (touches_of_grantedTo g.workerId g.entry.entryId)) hlatest
  cases heq
  exact hlast

/-- A step that grants nothing and records nothing. -/
theorem LeaseInvariant.of_quiet (h : LeaseInvariant s) {events : List (DispatchEvent Data)}
    (hlog : t.log = s.log ++ events) (hquiet : ∀ event ∈ events, ∀ id, ¬ Touches id event)
    (hgrants : t.grants = s.grants)
    (hrows : ∀ e ∈ t.rows, e.status = .leased → ∃ old ∈ s.rows, old.status = .leased ∧
      old.entryId = e.entryId ∧ old.leasedBy = e.leasedBy)
    (hpasses : ∀ q ∈ t.passes, ∃ p ∈ s.passes, Continues p q)
    (hcounted : ∀ q ∈ t.passes, q.report.leased = q.report.total + q.grants.length)
    (hcompleted : ∀ report, .completed report ∈ events → report.leased = report.total) :
    LeaseInvariant t where
  numbered := by
    intro g hg
    rw [hlog, List.mem_append] at hg
    rcases hg with hg | hg
    · rw [hgrants]
      exact h.numbered g hg
    · exact absurd rfl (hquiet _ hg g.entry.entryId)
  unique := by
    intro front back g heq
    rw [hlog] at heq
    rcases split_append heq with ⟨back', heq⟩ | ⟨front', -, heq⟩
    · exact h.unique front back' g heq
    · exact absurd rfl (hquiet (.granted g) (by simp [heq]) g.entry.entryId)
  latest := by
    intro q hq g hg
    obtain ⟨p, hp, hcontinues⟩ := hpasses q hq
    obtain ⟨hown, hlatest⟩ := h.latest p hp g (hcontinues.grants hg)
    refine ⟨hown.trans (congrArg _ hcontinues.dispatcher.symm), ?_⟩
    rw [hlog]
    exact hlatest.append fun event hevent hgranted =>
      hquiet event hevent _ (touches_of_grantedTo _ _ event hgranted)
  held := by
    intro e he hstatus
    obtain ⟨old, hold, hstatus', hid, hworker⟩ := hrows e he hstatus
    obtain ⟨g, hg, hleased, hlast⟩ := h.held old hold hstatus'
    rw [← hid, ← hworker, hlog]
    exact ⟨g, hg, hleased, hlast.append fun event hevent => hquiet event hevent _⟩
  accepted := by
    intro front back g heq
    rw [hlog] at heq
    rcases split_append heq with ⟨back', heq⟩ | ⟨front', -, heq⟩
    · exact h.accepted front back' g heq
    · exact absurd rfl (hquiet (.recorded g true) (by simp [heq]) g.entry.entryId)
  counted := hcounted
  completed := by
    intro report hreport
    rw [hlog, List.mem_append] at hreport
    rcases hreport with hreport | hreport
    · exact h.completed report hreport
    · exact hcompleted report hreport

/-- The row is held, and the outcome is recorded. -/
theorem LeaseInvariant.of_accepted (h : LeaseInvariant s) {g : Grant Data}
    (hlog : t.log = s.log ++ [.recorded g true])
    (hlast : IsLast (Touches g.entry.entryId) (.granted g) s.log) (hgrants : t.grants = s.grants)
    (hrows : ∀ e ∈ t.rows, e.status = .leased → e ∈ s.rows ∧ e.entryId ≠ g.entry.entryId)
    (hpasses : ∀ q ∈ t.passes, ∃ p ∈ s.passes, Continues p q)
    (hcounted : ∀ q ∈ t.passes, q.report.leased = q.report.total + q.grants.length) :
    LeaseInvariant t where
  numbered := by
    intro g' hg'
    simp only [hlog, List.mem_append, List.mem_singleton, reduceCtorEq, or_false] at hg'
    rw [hgrants]
    exact h.numbered g' hg'
  unique := by
    intro front back g' heq
    rw [hlog] at heq
    rcases split_append heq with ⟨back', heq⟩ | ⟨front', -, heq⟩
    · exact h.unique front back' g' heq
    · have hmem : DispatchEvent.granted g' ∈ [DispatchEvent.recorded g true] := by simp [heq]
      simp at hmem
  latest := by
    intro q hq g' hg'
    obtain ⟨p, hp, hcontinues⟩ := hpasses q hq
    obtain ⟨hown, hlatest⟩ := h.latest p hp g' (hcontinues.grants hg')
    refine ⟨hown.trans (congrArg _ hcontinues.dispatcher.symm), ?_⟩
    rw [hlog]
    refine hlatest.append ?_
    intro event hevent
    rw [List.mem_singleton.mp hevent]
    exact not_false
  held := by
    intro e he hstatus
    obtain ⟨hmem, hne⟩ := hrows e he hstatus
    obtain ⟨g', hid, hleased, hlast'⟩ := h.held e hmem hstatus
    refine ⟨g', hid, hleased, ?_⟩
    rw [hlog]
    refine hlast'.append ?_
    intro event hevent
    rw [List.mem_singleton.mp hevent]
    exact Ne.symm hne
  accepted := by
    intro front back g' hsplit
    rw [hlog] at hsplit
    rcases split_append hsplit with ⟨back', heq⟩ | ⟨front', rfl, heq⟩
    · exact h.accepted front back' g' heq
    · cases front' with
      | nil =>
        cases heq
        rwa [List.append_nil]
      | cons _ front' =>
        have hlength := congrArg List.length heq
        simp at hlength
  counted := hcounted
  completed := by
    intro report hreport
    simp only [hlog, List.mem_append, List.mem_singleton, reduceCtorEq, or_false] at hreport
    exact h.completed report hreport

/-- A lease is granted to a worker that runs no pass. -/
theorem LeaseInvariant.lease (h : LeaseInvariant s) {granted : List ℕ}
    (hrows : TableInvariant granted s.rows) (d : Dispatcher) (locked : ℕ → Bool) (now : Time)
    (hworker : ∀ p ∈ s.passes, p.dispatcher.workerId ≠ d.workerId) :
    LeaseInvariant (s.lease d locked now) := by
  have hlog : (s.lease d locked now).log =
      s.log ++ (s.opened d locked now).grants.map .granted := rfl
  have hmem : ∀ g ∈ (s.opened d locked now).grants, g.workerId = d.workerId ∧
      s.grants ≤ g.number ∧ g.number < s.grants + (s.batch d locked now).length ∧
      g.entry ∈ s.batch d locked now := fun g => mem_grantsFrom
  have hnodup : ((s.opened d locked now).grants.map fun g => g.entry.entryId).Nodup := by
    have heq : ((s.opened d locked now).grants.map fun g => g.entry.entryId) =
        (s.batch d locked now).map OutboxEntry.entryId := by
      conv_rhs => rw [← map_entry_grantsFrom d.workerId s.grants (s.batch d locked now),
        List.map_map]
      rfl
    rw [heq]
    exact hrows.nodup_leased d.queue locked (d.leaseRequest now)
  refine ⟨?_, ?_, ?_, ?_, ?_, ?_, ?_⟩
  · intro g hg
    rw [hlog, List.mem_append] at hg
    rcases hg with hg | hg
    · exact lt_of_lt_of_le (h.numbered g hg) (Nat.le_add_right _ _)
    · obtain ⟨g', hg', heq⟩ := List.mem_map.mp hg
      cases heq
      exact (hmem g hg').2.2.1
  · intro front back g hsplit
    rw [hlog] at hsplit
    rcases split_append hsplit with ⟨back', heq⟩ | ⟨front', rfl, heq⟩
    · exact h.unique front back' g heq
    · obtain ⟨grants, grants', hgrants, hfront, hback⟩ := List.map_eq_append_iff.mp heq
      obtain ⟨g', rest, rfl, heq', -⟩ := List.map_eq_cons_iff.mp hback
      cases heq'
      have hnumber := nodup_number_grantsFrom d.workerId s.grants (s.batch d locked now)
      change ((s.opened d locked now).grants.map Grant.number).Nodup at hnumber
      rw [hgrants, List.map_append, List.nodup_append] at hnumber
      rw [← hfront, List.mem_append, not_or]
      refine ⟨?_, ?_⟩
      · intro hold
        have hlt := h.numbered g hold
        have hle := (hmem g (by simp [hgrants])).2.1
        omega
      · intro hnew
        obtain ⟨g', hg', heq'⟩ := List.mem_map.mp hnew
        cases heq'
        exact hnumber.2.2 _ (List.mem_map_of_mem hg') _ (by simp) rfl
  · intro q hq g hg
    rw [hlog]
    rcases List.mem_append.mp hq with hq | hq
    · obtain ⟨hown, hlatest⟩ := h.latest q hq g hg
      refine ⟨hown, hlatest.append ?_⟩
      intro event hevent hgranted
      obtain ⟨g', hg', rfl⟩ := List.mem_map.mp hevent
      exact hworker q hq (hown.symm.trans (hgranted.1.symm.trans (hmem g' hg').1))
    · cases List.mem_singleton.mp hq
      refine ⟨(hmem g hg).1, IsLast.append_left ?_⟩
      exact isLast_map hnodup hg fun g' _ hgranted => hgranted.2
  · intro e he hstatus
    rw [hlog]
    obtain ⟨ids, hupdate, -, hbatch⟩ := leaseBatch_spec d.queue locked (d.leaseRequest now) s.rows
    change e ∈ (leaseBatch d.queue locked (d.leaseRequest now) s.rows).1 at he
    rw [hupdate, Sql.mem_update] at he
    obtain ⟨old, hold, rfl⟩ := he
    split_ifs at hstatus ⊢ with hid
    · -- the row has just been leased
      have hentry : grantLease (d.leaseRequest now) old ∈ s.batch d locked now :=
        (hbatch _).mpr ⟨old, hold, of_decide_eq_true hid, rfl⟩
      rw [← map_entry_grantsFrom d.workerId s.grants (s.batch d locked now)] at hentry
      obtain ⟨g, hg, hentry⟩ := List.mem_map.mp hentry
      have hgid : g.entry.entryId = (grantLease (d.leaseRequest now) old).entryId :=
        congrArg OutboxEntry.entryId hentry
      refine ⟨g, hgid, ?_, IsLast.append_left ?_⟩
      · rw [(hmem g hg).1]
        rfl
      · exact isLast_map hnodup hg fun g' _ htouches => htouches.trans hgid.symm
    · obtain ⟨g, hgid, hleased, hlast⟩ := h.held old hold hstatus
      refine ⟨g, hgid, hleased, hlast.append ?_⟩
      intro event hevent htouches
      obtain ⟨g', hg', rfl⟩ := List.mem_map.mp hevent
      obtain ⟨r, hr, hrid, heq⟩ := (hbatch g'.entry).mp (hmem g' hg').2.2.2
      have hsame : r.entryId = old.entryId := by
        rw [← htouches, ← heq]
        rfl
      exact hid (decide_eq_true (hsame ▸ hrid))
  · intro front back g hsplit
    rw [hlog] at hsplit
    rcases split_append hsplit with ⟨back', heq⟩ | ⟨front', -, heq⟩
    · exact h.accepted front back' g heq
    · have hrecorded : DispatchEvent.recorded g true ∈
          (s.opened d locked now).grants.map DispatchEvent.granted := by
        rw [heq]
        simp
      obtain ⟨g', -, hne⟩ := List.mem_map.mp hrecorded
      cases hne
  · intro q hq
    rcases List.mem_append.mp hq with hq | hq
    · exact h.counted q hq
    · cases List.mem_singleton.mp hq
      simp only [DispatchReport.total, length_grantsFrom]
      omega
  · intro report hreport
    rw [hlog, List.mem_append] at hreport
    rcases hreport with hreport | hreport
    · exact h.completed report hreport
    · obtain ⟨g, -, hne⟩ := List.mem_map.mp hreport
      cases hne

/-- A statement of a pass changes one row or none. -/
theorem rowCount_holds {granted : List ℕ} (hrows : TableInvariant granted s.rows)
    (p : RunOnce Data) (g : Grant Data) : Sql.rowCount (p.holds g) s.rows ≤ 1 :=
  Sql.rowCount_le_one hrows.ids fun _ hrow => (holds_spec hrow).1

theorem LeaseInvariant.settle (h : LeaseInvariant s) {granted : List ℕ}
    (hrows : TableInvariant granted s.rows) {before after : List (RunOnce Data)}
    {p : RunOnce Data} {g : Grant Data} {rest : List (Grant Data)}
    {set : OutboxEntry Data → OutboxEntry Data} {counted : DispatchReport}
    (hpass : s.passes = before ++ p :: after) (hgrants : p.grants = g :: rest)
    (hsettles : Settles p set counted) :
    LeaseInvariant (s.settle before after p g set counted) := by
  have hp := mem_of_split hpass
  have hpasses : ∀ q ∈ (s.settle before after p g set counted).passes,
      ∃ p ∈ s.passes, Continues p q := by
    intro q hq
    rcases mem_of_replace hpass hq with rfl | hq
    · exact ⟨p, hp, continues_tail p _⟩
    · exact ⟨q, hq, .refl q⟩
  have hcounted : ∀ q ∈ (s.settle before after p g set counted).passes,
      q.report.leased = q.report.total + q.grants.length := by
    intro q hq
    rcases mem_of_replace hpass hq with rfl | hq
    · have hreport := h.counted p hp
      rw [hgrants, List.length_cons] at hreport
      dsimp only
      rw [hgrants, List.tail_cons]
      split_ifs
      · rw [hsettles.leased, hsettles.total, hreport]
        omega
      · unfold DispatchReport.total at hreport ⊢
        dsimp only
        omega
    · exact h.counted q hq
  by_cases hone : Sql.rowCount (p.holds g) s.rows = 1
  · have hlog : (s.settle before after p g set counted).log = s.log ++ [.recorded g true] := by
      unfold Dispatch.settle Dispatch.record
      rw [hone]
      rfl
    obtain ⟨row, hrow, hholds⟩ := Sql.exists_of_rowCount_eq_one hone
    refine h.of_accepted hlog (h.isLast_of_holds hp (by simp [hgrants]) hrow hholds) rfl ?_ hpasses
      hcounted
    intro e he hstatus
    obtain ⟨old, hold, rfl⟩ := Sql.mem_update.mp he
    split_ifs at hstatus ⊢ with hheld
    · exact absurd hstatus (hsettles.released old)
    · refine ⟨hold, fun hid => hheld ?_⟩
      rwa [Sql.eq_of_key_eq hrows.ids hold hrow (hid.trans (holds_spec hholds).1.symm)]
  · have hzero : Sql.rowCount (p.holds g) s.rows = 0 := by
      have hle := rowCount_holds hrows p g
      omega
    have hlog : (s.settle before after p g set counted).log = s.log ++ [.recorded g false] := by
      unfold Dispatch.settle Dispatch.record
      rw [hzero]
      rfl
    refine h.of_quiet hlog (by simp [Touches]) rfl ?_ hpasses hcounted (by simp)
    intro e he hstatus
    change e ∈ Sql.update (p.holds g) set s.rows at he
    rw [Sql.update_of_rowCount_eq_zero hzero] at he
    exact ⟨e, he, hstatus, rfl, rfl⟩

theorem LeaseInvariant.setProgress (h : LeaseInvariant s) {before after : List (RunOnce Data)}
    {p : RunOnce Data} {progress : Progress} {event : DispatchEvent Data}
    (hpass : s.passes = before ++ p :: after) (hprogress : progress ≠ .next)
    (hquiet : ∀ id, ¬ Touches id event) (hcompleted : ∀ report, event ≠ .completed report) :
    LeaseInvariant (s.setProgress before after p progress event) := by
  have hp := mem_of_split hpass
  refine h.of_quiet rfl ?_ rfl (fun e he hstatus => ⟨e, he, hstatus, rfl, rfl⟩) ?_ ?_ ?_
  · intro event' hevent
    rwa [List.mem_singleton.mp hevent]
  · intro q hq
    rcases mem_of_replace hpass hq with rfl | hq
    · exact ⟨p, hp, continues_setProgress hprogress⟩
    · exact ⟨q, hq, .refl q⟩
  · intro q hq
    rcases mem_of_replace hpass hq with rfl | hq
    · exact h.counted p hp
    · exact h.counted q hq
  · intro report hreport
    exact absurd (List.mem_singleton.mp hreport).symm (hcompleted report)

theorem LeaseInvariant.step (h : LeaseInvariant s) (hshaped : s.Shaped)
    (hstep : StepKind table maxAttempts s t) (hone : OnePassEach t) : LeaseInvariant t := by
  obtain ⟨granted, hrows⟩ := hshaped
  have hsame : ∀ q ∈ s.passes, ∃ p ∈ s.passes, Continues p q := fun q hq => ⟨q, hq, .refl q⟩
  cases hstep with
  | enqueue entryId consumer envelope at_ hfresh =>
    refine h.of_quiet (List.append_nil _).symm (by simp) rfl ?_ hsame h.counted (by simp)
    intro e he hstatus
    rcases List.mem_append.mp he with he | he
    · exact ⟨e, he, hstatus, rfl, rfl⟩
    · rw [List.mem_singleton.mp he] at hstatus
      cases hstatus
  | idle => exact h
  | lease d locked now htable hshared =>
    refine h.lease hrows d locked now ?_
    intro p hp
    change (s.passes ++ [s.opened d locked now]).Pairwise _ at hone
    rw [List.pairwise_append] at hone
    exact hone.2.2 p hp _ (List.mem_singleton.mpr rfl)
  | call hpass hprogress hgrants hattempts =>
    exact h.setProgress hpass (by simp) (by simp [Touches]) (by simp)
  | answer hpass hprogress hgrants hanswer =>
    rcases hanswer with ⟨rfl, rfl⟩ | ⟨rfl, rfl⟩
    · exact h.setProgress hpass (by simp) (by simp [Touches]) (by simp)
    · exact h.setProgress hpass (by simp) (by simp [Touches]) (by simp)
  | settle hpass hgrants hcalled hsettles => exact h.settle hrows hpass hgrants hsettles
  | leave events hpass hevents =>
    refine h.of_quiet rfl ?_ rfl (fun e he hstatus => ⟨e, he, hstatus, rfl, rfl⟩) ?_ ?_ ?_
    · rcases hevents with rfl | ⟨-, rfl⟩
      · simp
      · simp [Touches]
    · exact fun q hq => hsame q (mem_of_remove hpass hq)
    · exact fun q hq => h.counted q (mem_of_remove hpass hq)
    · intro report hreport
      rcases hevents with rfl | ⟨hgrants, rfl⟩
      · cases hreport
      · cases List.mem_singleton.mp hreport
        have hcounted := h.counted _ (mem_of_split hpass)
        rwa [hgrants, List.length_nil, Nat.add_zero] at hcounted
  | resolve queue entryId resolution htable =>
    have hleased : ∀ e ∈ (s.resolve queue entryId resolution).rows, e.status = .leased →
        ∃ old ∈ s.rows, old.status = .leased ∧ old.entryId = e.entryId ∧
          old.leasedBy = e.leasedBy := by
      intro e he hstatus
      obtain ⟨old, hold, rfl⟩ := Sql.mem_update.mp he
      split_ifs at hstatus ⊢
      · exact absurd hstatus (resolveEntry_status_ne resolution old).2
      · exact ⟨old, hold, hstatus, rfl, rfl⟩
    rcases resolve_log s queue entryId resolution with heq | ⟨e, -, -, heq⟩
    · exact h.of_quiet (heq.trans (List.append_nil _).symm) (by simp) rfl hleased hsame h.counted
        (by simp)
    · exact h.of_quiet heq (by simp [Touches]) rfl hleased hsame h.counted (by simp)

theorem LeaseInvariant.empty : LeaseInvariant (Dispatch.empty : Dispatch Data) := by
  refine ⟨?_, ?_, ?_, ?_, ?_, ?_, ?_⟩ <;> simp [Dispatch.empty]

theorem LeaseInvariant.run (hrun : OnePassRun table maxAttempts (.empty : Dispatch Data) s) :
    LeaseInvariant s ∧ DispatchInvariant maxAttempts s := by
  induction hrun with
  | refl => exact ⟨.empty, .empty⟩
  | tail _ hstep ih =>
    exact ⟨ih.1.step ih.2.shaped hstep.1.kind hstep.2, ih.2.step hstep.1⟩

/-- The statement behind a recorded outcome. -/
theorem StepKind.recorded {g : Grant Data} {accepted : Bool}
    (hstep : StepKind table maxAttempts s t) (hlog : t.log = s.log ++ [.recorded g accepted]) :
    ∃ p ∈ s.passes, g ∈ p.grants ∧ ∃ set : OutboxEntry Data → OutboxEntry Data,
      t.rows = Sql.update (p.holds g) set s.rows ∧
      (Sql.rowCount (p.holds g) s.rows == 1) = accepted := by
  cases hstep with
  | enqueue => simp at hlog
  | idle => simp at hlog
  | lease d locked now htable hshared =>
    have hgrants := List.append_cancel_left hlog
    have hmem : DispatchEvent.recorded g accepted ∈
        (s.opened d locked now).grants.map DispatchEvent.granted := by
      rw [show (s.opened d locked now).grants.map DispatchEvent.granted = _ from hgrants]
      simp
    obtain ⟨g', -, hne⟩ := List.mem_map.mp hmem
    cases hne
  | call hpass hprogress hgrants hattempts =>
    have hevent := List.append_cancel_left hlog
    cases hevent
  | answer hpass hprogress hgrants hanswer =>
    have hevent := List.append_cancel_left hlog
    rcases hanswer with ⟨-, rfl⟩ | ⟨-, rfl⟩
    · cases hevent
    · cases hevent
  | settle hpass hgrants hcalled hsettles =>
    have hevent := List.append_cancel_left hlog
    simp only [List.cons.injEq, DispatchEvent.recorded.injEq, and_true] at hevent
    obtain ⟨rfl, haccepted⟩ := hevent
    exact ⟨_, mem_of_split hpass, by simp [hgrants], _, rfl, haccepted⟩
  | leave events hpass hevents =>
    have hevent := List.append_cancel_left hlog
    rcases hevents with rfl | ⟨-, rfl⟩
    · cases hevent
    · cases hevent
  | resolve queue entryId resolution htable =>
    rcases resolve_log s queue entryId resolution with heq | ⟨e, -, -, heq⟩
    · simp [heq] at hlog
    · simp [heq] at hlog

end Sintius.Outbox
