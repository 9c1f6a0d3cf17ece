import Mathlib
import Sintius.Lib.Table
import Sintius.Spec.Queue
import Sintius.Spec.Relay
import Sintius.Spec.Dispatch
import Sintius.Sanity.Queue
import Sintius.Sanity.Dispatch
import Sintius.Proofs.Queue
import Sintius.Proofs.Dispatch

/-! What a skip ends. A skipped row is never leased again, but a pass hands over what is
in its batch without looking at the row: a worker that leased the entry before it died
and was skipped, and has not come to it yet, still publishes it. -/

namespace Sintius.Outbox

variable {Data : Type} {s t u : Dispatch Data} {table : QueueTable} {maxAttempts id : ℕ}

/-- No running pass will publish the entry: none has a lease on it, within the attempts, that it has
not come to. -/
def NoneWaiting (maxAttempts id : ℕ) (s : Dispatch Data) : Prop :=
  ∀ p ∈ s.passes, ∀ g ∈ p.uncalled, g.entry.entryId = id → maxAttempts < g.entry.attempts

/-- The skip commits in this step. -/
def SkipStep (table : QueueTable) (maxAttempts id : ℕ) (s t : Dispatch Data) : Prop :=
  DispatchStep table maxAttempts s t ∧
    ∃ resolution : DeadLetterResolution, resolution.action = .skip ∧
      t.log = s.log ++ [.resolved id resolution]

structure Skipped (maxAttempts id : ℕ) (s : Dispatch Data) : Prop where
  row : ∃ e ∈ s.rows, e.entryId = id ∧ e.status = .skipped
  none : NoneWaiting maxAttempts id s

theorem Skipped.step (h : Skipped maxAttempts id s) (hshaped : s.Shaped)
    (hstep : StepKind table maxAttempts s t) : Skipped maxAttempts id t := by
  obtain ⟨e, he, hid, hstatus⟩ := h.row
  have hfinished : e.finished := finished_iff.mpr (.inr hstatus)
  obtain ⟨e', he', hkeeps⟩ := (hshaped.step hstep).2.exists_kept he
  refine ⟨⟨e', he', ?_, ?_⟩, ?_⟩
  · rw [entryId_of_identity hkeeps.identity, hid]
  · rw [hkeeps.finished hfinished, hstatus]
  intro q hq g hg hgid
  rcases hstep.pass hq with ⟨p, hp, hcontinues⟩ | ⟨d, locked, now, -, rfl, rfl⟩
  · exact h.none p hp g (hcontinues.uncalled hg) hgid
  · -- a lease goes to a pending or a leased row, and the entry's row is skipped
    obtain ⟨granted, hrows⟩ := hshaped
    obtain ⟨r, hr, heq, -, heligible⟩ := mem_batch hrows (mem_grantsFrom hg).2.2.2
    have hrid : r.entryId = e.entryId := by
      rw [hid, ← hgid, heq]
      rfl
    rw [Sql.eq_of_key_eq hrows.ids hr he hrid] at heligible
    have hunfinished := (eligible_spec heligible).1
    rw [hstatus] at hunfinished
    simp at hunfinished

/-- The resolution that a step commits. -/
theorem StepKind.resolved {resolution : DeadLetterResolution}
    (hstep : StepKind table maxAttempts s t) (hlog : t.log = s.log ++ [.resolved id resolution]) :
    ∃ queue entryId, t = s.resolve queue entryId resolution ∧
      ∃ e ∈ s.rows, e.entryId = id ∧ deadLetter queue (entryIdOf entryId) e := by
  cases hstep with
  | enqueue => simp at hlog
  | idle => simp at hlog
  | lease d locked now htable hshared =>
    have hmem : DispatchEvent.resolved id resolution ∈
        (s.opened d locked now).grants.map DispatchEvent.granted := by
      rw [show (s.opened d locked now).grants.map DispatchEvent.granted = _ from
        List.append_cancel_left hlog]
      simp
    obtain ⟨g, -, hne⟩ := List.mem_map.mp hmem
    cases hne
  | call hpass hprogress hgrants hattempts =>
    have hevent := List.append_cancel_left hlog
    cases hevent
  | answer hpass hprogress hgrants hanswer =>
    have hevent := List.append_cancel_left hlog
    rcases hanswer with ⟨-, rfl⟩ | ⟨-, rfl⟩
    · cases hevent
    · cases hevent
  | settle hpass hgrants hcalled hsettles =>
    have hevent := List.append_cancel_left hlog
    cases hevent
  | leave events hpass hevents =>
    have hevent := List.append_cancel_left hlog
    rcases hevents with rfl | ⟨-, rfl⟩
    · cases hevent
    · cases hevent
  | resolve queue entryId resolution' htable =>
    rcases resolve_log s queue entryId resolution' with heq | ⟨e, he, hdead, heq⟩
    · simp [heq] at hlog
    · rw [heq] at hlog
      have hevent := List.append_cancel_left hlog
      cases hevent
      exact ⟨queue, entryId, rfl, e, he, rfl, hdead⟩

theorem SkipStep.row (h : SkipStep table maxAttempts id s t) :
    (∃ e ∈ t.rows, e.entryId = id ∧ e.status = .skipped) ∧ t.passes = s.passes := by
  obtain ⟨hstep, resolution, haction, hlog⟩ := h
  obtain ⟨queue, entryId, rfl, e, he, rfl, hdead⟩ := hstep.kind.resolved hlog
  refine ⟨⟨resolveEntry resolution e, ?_, ?_, ?_⟩, rfl⟩
  · exact Sql.mem_update.mpr ⟨e, he, (if_pos hdead).symm⟩
  · exact entryId_of_identity (resolveEntry_identity resolution e)
  · unfold resolveEntry
    rw [haction]

section Advance

variable {p : RunOnce Data} {g : Grant Data} {rest : List (Grant Data)}

end Advance

section SlowWorker

end SlowWorker

end Sintius.Outbox
