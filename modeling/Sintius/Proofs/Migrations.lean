import Mathlib
import Sintius.Lib.Utf16
import Sintius.Spec.Problem
import Sintius.Spec.Canonical
import Sintius.Spec.Migrations

/-! Any number of migration runners, of any releases, lost at any time: each migration is
applied once, what is recorded is what the schema was made of, and a runner that ends
well has left all of its own migrations behind. -/

namespace Sintius.Migrations

open Js Sintius.Canonical

variable {S : Type} {exec : Text → S → Except Failure S} {sha256 : Sha256}
  {localeCompare : String → String → Bool}

section Record

variable {d : Database S} {applied : List Migration} {migration : Migration}

/-- The row of a migration. -/
def row (sha256 : Sha256) (migration : Migration) : String × Text :=
  (migration.migrationName, sha256 migration.sql)

/-- The schema that a list of migrations makes of another. -/
def migrate (exec : Text → S → Except Failure S) (migrations : List Migration) (schema : S) :
    Except Failure S :=
  migrations.foldlM (fun s migration => exec migration.sql s) schema

theorem migrate_snoc (migrations : List Migration) (migration : Migration) (schema : S) :
    migrate exec (migrations ++ [migration]) schema =
      migrate exec migrations schema >>= exec migration.sql := by
  simp [migrate, List.foldlM_append]

theorem apply_eq_ok_iff {schema : S} :
    apply exec d migration = .ok schema ↔ exec migration.sql d.schema = .ok schema ∧
      d.schema_migration.lookup migration.migrationName = none := by
  unfold apply
  cases exec migration.sql d.schema with
  | error e => simp [bind, Except.bind]
  | ok s =>
    cases d.schema_migration.lookup migration.migrationName with
    | none => simp [bind, Except.bind]
    | some checksum => simp [bind, Except.bind]

theorem not_mem_names_iff_lookup {rows : List (String × Text)} {name : String} :
    rows.lookup name = none ↔ name ∉ rows.map Prod.fst := by
  simp only [List.lookup_eq_none_iff, bne_iff_ne, ne_eq, List.mem_map, not_exists, not_and]
  exact ⟨fun h r hr heq => h r hr heq.symm, fun h r hr heq => h r hr heq.symm⟩

theorem mem_of_lookup {rows : List (String × Text)} {name : String} {checksum : Text}
    (h : rows.lookup name = some checksum) : (name, checksum) ∈ rows := by
  obtain ⟨before, after, rfl, -⟩ := List.lookup_eq_some_iff.mp h
  simp

theorem mem_files {files migrations : List Migration}
    (h : plan localeCompare files = .ok migrations) : migration ∈ files ↔ migration ∈ migrations := by
  simp only [plan] at h
  split at h
  · obtain rfl := Except.ok.inj h
    rw [List.mem_mergeSort]
  · cases h

end Record

/-- What a runner has behind it: a part of its plan, which is recorded. -/
def Behind (sha256 : Sha256) (localeCompare : String → String → Bool) (d : Database S)
    (files rest : List Migration) : Prop :=
  ∃ passed, plan localeCompare files = .ok (passed ++ rest) ∧
    ∀ migration ∈ passed, row sha256 migration ∈ d.schema_migration

/-- What a runner knows, where it is. -/
def Known (sha256 : Sha256) (localeCompare : String → String → Bool) (d : Database S)
    (r : Runner) : Prop :=
  match r.phase with
  | .running rest => Behind sha256 localeCompare d r.files rest
  | .inTransaction migration rest => Behind sha256 localeCompare d r.files (migration :: rest)
  | .ended (.ok ()) => Behind sha256 localeCompare d r.files []
  | _ => True

/-- One runner at a time is past the lock. -/
def Exclusive (runners : List Runner) : Prop :=
  runners.Pairwise fun r r' => r.phase.holds = false ∨ r'.phase.holds = false

structure Migrated (exec : Text → S → Except Failure S) (sha256 : Sha256)
    (localeCompare : String → String → Bool) (schema : S) (st : System S) : Prop where
  /-- The schema is what the migrations made of it, in the order they were applied in. -/
  schema : migrate exec st.applied schema = .ok st.db.schema
  /-- They are on record, each name once. -/
  recorded : st.db.schema_migration = st.applied.map (row sha256)
  once : (st.db.schema_migration.map Prod.fst).Nodup
  exclusive : Exclusive st.runners
  known : ∀ r ∈ st.runners, Known sha256 localeCompare st.db r

section Runners

variable {runners before after : List Runner} {r r' : Runner}

theorem exclusive_middle : Exclusive (before ++ r :: after) ↔
    Exclusive (before ++ after) ∧
      ∀ r' ∈ before ++ after, r.phase.holds = false ∨ r'.phase.holds = false := by
  unfold Exclusive
  rw [List.pairwise_middle fun h => h.symm, List.pairwise_cons, and_comm]

/-- A runner that does not take the lock leaves the others where they are. -/
theorem Exclusive.move (h : Exclusive (before ++ r :: after))
    (hholds : r'.phase.holds = true → r.phase.holds = true) :
    Exclusive (before ++ r' :: after) := by
  rw [exclusive_middle] at h ⊢
  refine ⟨h.1, fun other hmem => ?_⟩
  rcases h.2 other hmem with hfree | hfree
  · exact .inl (Bool.eq_false_iff.mpr fun hr' => by simp [hholds hr'] at hfree)
  · exact .inr hfree

theorem Exclusive.leave (h : Exclusive (before ++ r :: after)) (hfree : r'.phase.holds = false) :
    Exclusive (before ++ r' :: after) :=
  h.move fun hholds => absurd hholds (by simp [hfree])

theorem Exclusive.acquire (h : Exclusive (before ++ r :: after))
    (hfree : ∀ other ∈ before ++ after, other.phase.holds = false) :
    Exclusive (before ++ r' :: after) :=
  exclusive_middle.mpr ⟨(exclusive_middle.mp h).1, fun other hmem => .inr (hfree other hmem)⟩

theorem Exclusive.start (h : Exclusive runners) (hfree : r.phase.holds = false) :
    Exclusive (runners ++ [r]) := by
  rw [exclusive_middle, List.append_nil]
  exact ⟨h, fun _ _ => .inl hfree⟩

theorem Exclusive.others (h : Exclusive (before ++ r :: after)) (hholds : r.phase.holds = true) :
    ∀ other ∈ before ++ after, other.phase.holds = false := fun other hmem =>
  ((exclusive_middle.mp h).2 other hmem).resolve_left (by simp [hholds])

end Runners

section Steps

variable {schema₀ : S} {d d' : Database S} {applied : List Migration}
  {before after : List Runner} {files rest : List Migration} {migration : Migration}
  {r r' : Runner} {st st' : System S}

theorem Behind.mono (h : Behind sha256 localeCompare d files rest)
    (hrows : d.schema_migration ⊆ d'.schema_migration) :
    Behind sha256 localeCompare d' files rest := by
  obtain ⟨passed, hplan, hpassed⟩ := h
  exact ⟨passed, hplan, fun migration hmem => hrows (hpassed migration hmem)⟩

theorem Behind.pass (h : Behind sha256 localeCompare d files (migration :: rest))
    (hrow : row sha256 migration ∈ d.schema_migration) :
    Behind sha256 localeCompare d files rest := by
  obtain ⟨passed, hplan, hpassed⟩ := h
  refine ⟨passed ++ [migration], by simpa using hplan, fun other hmem => ?_⟩
  rcases List.mem_append.mp hmem with hmem | hmem
  · exact hpassed other hmem
  · rw [List.mem_singleton.mp hmem]
    exact hrow

theorem Known.mono (h : Known sha256 localeCompare d r)
    (hrows : d.schema_migration ⊆ d'.schema_migration) : Known sha256 localeCompare d' r := by
  obtain ⟨files, phase⟩ := r
  cases phase with
  | running rest => exact Behind.mono h hrows
  | inTransaction migration rest => exact Behind.mono h hrows
  | ended result =>
    cases result with
    | ok _ => exact Behind.mono h hrows
    | error _ => trivial
  | waiting => trivial
  | locked => trivial
  | crashed => trivial

theorem known_middle : (∀ other ∈ before ++ r :: after, Known sha256 localeCompare d other) ↔
    Known sha256 localeCompare d r ∧
      ∀ other ∈ before ++ after, Known sha256 localeCompare d other := by
  simp only [List.mem_append, List.mem_cons]
  grind

/-- A `SELECT` passes over a migration whose checksum is on record. -/
theorem known_select (h : Known sha256 localeCompare d ⟨files, .running (migration :: rest)⟩) :
    Known sha256 localeCompare d ⟨files, select sha256 d migration rest⟩ := by
  unfold select
  cases hlookup : d.schema_migration.lookup migration.migrationName with
  | none => exact h
  | some checksum =>
    dsimp only
    by_cases hsame : checksum = sha256 migration.sql
    · rw [if_neg (not_not.mpr hsame)]
      subst hsame
      exact Behind.pass h (mem_of_lookup hlookup)
    · rw [if_pos hsame]
      trivial

/-- A runner moves, and nothing is committed. -/
theorem Migrated.move
    (h : Migrated exec sha256 localeCompare schema₀ ⟨d, before ++ r :: after, applied⟩)
    (hexclusive : Exclusive (before ++ r' :: after))
    (hknown : Known sha256 localeCompare d r → Known sha256 localeCompare d r') :
    Migrated exec sha256 localeCompare schema₀ ⟨d, before ++ r' :: after, applied⟩ := by
  refine ⟨h.schema, h.recorded, h.once, hexclusive, ?_⟩
  obtain ⟨hr, hothers⟩ := known_middle.mp h.known
  exact known_middle.mpr ⟨hknown hr, hothers⟩

/-- A migration is committed with its row. -/
theorem Migrated.commit {schema : S}
    (h : Migrated exec sha256 localeCompare schema₀
      ⟨d, before ++ ⟨files, .inTransaction migration rest⟩ :: after, applied⟩)
    (happly : apply exec d migration = .ok schema) :
    Migrated exec sha256 localeCompare schema₀
      ⟨d.record sha256 migration schema, before ++ ⟨files, .running rest⟩ :: after,
        applied ++ [migration]⟩ := by
  obtain ⟨hexec, hlookup⟩ := apply_eq_ok_iff.mp happly
  have hgrows : d.schema_migration ⊆ (d.record sha256 migration schema).schema_migration :=
    List.subset_append_left _ _
  have hrow : row sha256 migration ∈ (d.record sha256 migration schema).schema_migration :=
    List.mem_append_right _ (List.mem_singleton.mpr rfl)
  obtain ⟨hr, hothers⟩ := known_middle.mp h.known
  refine ⟨?_, ?_, ?_, h.exclusive.move fun _ => rfl, known_middle.mpr ⟨?_, ?_⟩⟩
  · have hschema : migrate exec applied schema₀ = .ok d.schema := h.schema
    simp only [migrate_snoc, hschema]
    exact hexec
  · have hrecorded : d.schema_migration = applied.map (row sha256) := h.recorded
    simp [Database.record, hrecorded, row]
  · have honce : (d.schema_migration.map Prod.fst).Nodup := h.once
    simp only [Database.record, List.map_append, List.map_cons, List.map_nil]
    rw [List.nodup_append]
    refine ⟨honce, List.nodup_singleton _, fun name hname other hother => ?_⟩
    rw [List.mem_singleton.mp hother]
    rintro rfl
    exact not_mem_names_iff_lookup.mp hlookup hname
  · exact Behind.pass (Behind.mono hr hgrows) hrow
  · exact fun other hmem => (hothers other hmem).mono hgrows

theorem Migrated.step (h : Migrated exec sha256 localeCompare schema₀ st)
    (hstep : Step exec sha256 localeCompare st st') :
    Migrated exec sha256 localeCompare schema₀ st' := by
  cases hstep with
  | start files =>
    refine ⟨h.schema, h.recorded, h.once, h.exclusive.start rfl, fun r hr => ?_⟩
    rcases List.mem_append.mp hr with hr | hr
    · exact h.known r hr
    · rw [List.mem_singleton.mp hr]
      trivial
  | acquire hfree => exact h.move (h.exclusive.acquire hfree) fun _ => trivial
  | read hplan =>
    refine h.move (h.exclusive.move fun _ => rfl) fun _ => ?_
    exact ⟨[], by simpa using hplan, by simp⟩
  | refuse _ => exact h.move (h.exclusive.leave rfl) fun _ => trivial
  | select => exact h.move (h.exclusive.move fun _ => rfl) known_select
  | commit happly => exact h.commit happly
  | rollback _ => exact h.move (h.exclusive.leave rfl) fun _ => trivial
  | finish => exact h.move (h.exclusive.leave rfl) fun hknown => hknown
  | crash _ => exact h.move (h.exclusive.leave rfl) fun _ => trivial

theorem migrated_empty (schema : S) :
    Migrated exec sha256 localeCompare schema (System.empty schema) where
  schema := rfl
  recorded := rfl
  once := List.nodup_nil
  exclusive := List.Pairwise.nil
  known := nofun

theorem migrated (h : Reachable exec sha256 localeCompare schema₀ st) :
    Migrated exec sha256 localeCompare schema₀ st := by
  induction h with
  | refl => exact migrated_empty schema₀
  | tail _ hstep ih => exact ih.step hstep

theorem Step.grows (h : Step exec sha256 localeCompare st st') : st.applied <+: st'.applied := by
  cases h with
  | commit _ => exact List.prefix_append _ _
  | start _ => exact List.prefix_rfl
  | acquire _ => exact List.prefix_rfl
  | read _ => exact List.prefix_rfl
  | refuse _ => exact List.prefix_rfl
  | select => exact List.prefix_rfl
  | rollback _ => exact List.prefix_rfl
  | finish => exact List.prefix_rfl
  | crash _ => exact List.prefix_rfl

/-- Two rows of one name are one row. -/
theorem Migrated.checksum_eq (h : Migrated exec sha256 localeCompare schema₀ st)
    {name : String} {checksum checksum' : Text} (hrow : (name, checksum) ∈ st.db.schema_migration)
    (hrow' : (name, checksum') ∈ st.db.schema_migration) : checksum = checksum' :=
  (Prod.mk.inj (List.inj_on_of_nodup_map h.once hrow hrow' rfl)).2

/-- Whatever releases the runners are of and wherever they are lost, each migration is applied
once, and a runner that ends well leaves every migration of its release on record, none of them
changed. -/
theorem applied_once (h : Reachable exec sha256 localeCompare schema₀ st) :
    Migrated exec sha256 localeCompare schema₀ st ∧
      (∀ st', Step exec sha256 localeCompare st st' → st.applied <+: st'.applied) ∧
      ∀ r ∈ st.runners, r.phase = .ended (.ok ()) → ∀ migration ∈ r.files,
        row sha256 migration ∈ st.db.schema_migration ∧
          ∀ other ∈ st.applied, other.migrationName = migration.migrationName →
            sha256 other.sql = sha256 migration.sql := by
  have hmigrated := migrated h
  refine ⟨hmigrated, fun _ hstep => hstep.grows, fun r hr hphase migration hfile => ?_⟩
  have hknown := hmigrated.known r hr
  simp only [Known, hphase] at hknown
  obtain ⟨passed, hplan, hpassed⟩ := hknown
  rw [List.append_nil] at hplan
  have hrow := hpassed migration ((mem_files hplan).mp hfile)
  refine ⟨hrow, fun other hother hname => ?_⟩
  have hother' : (migration.migrationName, sha256 other.sql) ∈ st.db.schema_migration := by
    rw [hmigrated.recorded, ← hname]
    exact List.mem_map_of_mem hother
  exact hmigrated.checksum_eq hother' hrow

end Steps

section Releases

variable {schema₀ : S} {d : Database S} {applied migrations passed rest : List Migration}
  {before after : List Runner} {files : List Migration} {migration : Migration}
  {r r' : Runner} {st st' : System S}

/-- Where a runner is among the migrations that are applied. -/
def Placed (exec : Text → S → Except Failure S) (localeCompare : String → String → Bool)
    (schema : S) (applied : List Migration) (r : Runner) : Prop :=
  match r.phase with
  | .running rest => ∃ passed, plan localeCompare r.files = .ok (passed ++ rest) ∧
      passed <+: applied
  | .inTransaction migration rest => plan localeCompare r.files = .ok (applied ++ migration :: rest)
  | .ended (.ok ()) => ∃ release, plan localeCompare r.files = .ok release ∧ release <+: applied
  | .ended (.error e) => ∃ passed migration rest s,
      plan localeCompare r.files = .ok (passed ++ migration :: rest) ∧
        migrate exec passed schema = .ok s ∧ exec migration.sql s = .error e
  | _ => True

/-- The releases of the runners append to one another. -/
def Appending (localeCompare : String → String → Bool) (migrations : List Migration)
    (runners : List Runner) : Prop :=
  ∀ r ∈ runners, ∃ release, plan localeCompare r.files = .ok release ∧ release <+: migrations

structure Ordered (exec : Text → S → Except Failure S) (localeCompare : String → String → Bool)
    (migrations : List Migration) (schema : S) (st : System S) : Prop where
  applied : st.applied <+: migrations
  placed : ∀ r ∈ st.runners, Placed exec localeCompare schema st.applied r

/-- The next migration of a plan is the next one to apply, or it is applied already. -/
theorem applied_or_next (happlied : applied <+: migrations)
    (hplan : passed ++ migration :: rest <+: migrations) (hpassed : passed <+: applied) :
    applied = passed ∨ passed ++ [migration] <+: applied := by
  obtain ⟨tail, rfl⟩ := hpassed
  cases tail with
  | nil => exact .inl (List.append_nil _)
  | cons first tail =>
    obtain ⟨left, hleft⟩ := happlied
    obtain ⟨right, hright⟩ := hplan
    rw [← hright, List.append_assoc, List.append_assoc, List.append_cancel_left_eq] at hleft
    obtain ⟨rfl, -⟩ := List.cons.inj hleft
    exact .inr ⟨tail, by simp⟩

/-- A migration that follows others in a plan has a name of its own. -/
theorem name_not_mem (hnames : (migrations.map Migration.migrationName).Nodup)
    (hplan : passed ++ migration :: rest <+: migrations) :
    migration.migrationName ∉ passed.map Migration.migrationName := by
  have hnodup := hnames.sublist (hplan.sublist.map Migration.migrationName)
  rw [List.map_append, List.map_cons, List.nodup_append] at hnodup
  exact fun hmem => hnodup.2.2 _ hmem _ List.mem_cons_self rfl

theorem Migrated.names (h : Migrated exec sha256 localeCompare schema₀ st) :
    st.db.schema_migration.map Prod.fst = st.applied.map Migration.migrationName := by
  rw [h.recorded, List.map_map]
  rfl

theorem placed_middle : (∀ other ∈ before ++ r :: after,
      Placed exec localeCompare schema₀ applied other) ↔
    Placed exec localeCompare schema₀ applied r ∧
      ∀ other ∈ before ++ after, Placed exec localeCompare schema₀ applied other := by
  simp only [List.mem_append, List.mem_cons]
  grind

theorem Ordered.move
    (h : Ordered exec localeCompare migrations schema₀ ⟨d, before ++ r :: after, applied⟩)
    (hplaced : Placed exec localeCompare schema₀ applied r →
      Placed exec localeCompare schema₀ applied r') :
    Ordered exec localeCompare migrations schema₀ ⟨d, before ++ r' :: after, applied⟩ := by
  obtain ⟨hr, hothers⟩ := placed_middle.mp h.placed
  exact ⟨h.applied, placed_middle.mpr ⟨hplaced hr, hothers⟩⟩

/-- A runner that does not hold the lock stays where it is. -/
theorem Placed.append (h : Placed exec localeCompare schema₀ applied r)
    (hfree : r.phase.holds = false) :
    Placed exec localeCompare schema₀ (applied ++ [migration]) r := by
  obtain ⟨files, phase⟩ := r
  cases phase with
  | running rest => simp [Phase.holds] at hfree
  | inTransaction migration rest => simp [Phase.holds] at hfree
  | ended result =>
    cases result with
    | ok _ =>
      obtain ⟨release, hplan, hrelease⟩ := h
      exact ⟨release, hplan, hrelease.trans (List.prefix_append _ _)⟩
    | error _ => exact h
  | waiting => trivial
  | locked => trivial
  | crashed => trivial

/-- A `SELECT` finds what the plan says: the migration is applied already, or it is the next. -/
theorem placed_select
    (hmigrated : Migrated exec sha256 localeCompare schema₀
      ⟨d, before ++ ⟨files, .running (migration :: rest)⟩ :: after, applied⟩)
    (hnames : (migrations.map Migration.migrationName).Nodup) (happlied : applied <+: migrations)
    (hrelease : ∃ release, plan localeCompare files = .ok release ∧ release <+: migrations)
    (h : Placed exec localeCompare schema₀ applied ⟨files, .running (migration :: rest)⟩) :
    Placed exec localeCompare schema₀ applied ⟨files, select sha256 d migration rest⟩ := by
  obtain ⟨passed, hplan, hpassed⟩ := h
  have hprefix : passed ++ migration :: rest <+: migrations := by
    obtain ⟨release, hrelease, hle⟩ := hrelease
    rwa [← Except.ok.inj (hplan.symm.trans hrelease)] at hle
  have hrows : d.schema_migration.map Prod.fst = applied.map Migration.migrationName :=
    hmigrated.names
  unfold select
  cases hlookup : d.schema_migration.lookup migration.migrationName with
  | none =>
    have hnew := not_mem_names_iff_lookup.mp hlookup
    rw [hrows] at hnew
    rcases applied_or_next happlied hprefix hpassed with rfl | hnext
    · exact hplan
    · exact absurd (List.mem_map_of_mem (hnext.subset (by simp))) hnew
  | some checksum =>
    have hold : migration.migrationName ∈ applied.map Migration.migrationName :=
      hrows ▸ List.mem_map_of_mem (mem_of_lookup hlookup)
    rcases applied_or_next happlied hprefix hpassed with rfl | hnext
    · exact absurd hold (name_not_mem hnames hprefix)
    · have hrow : row sha256 migration ∈ d.schema_migration := by
        have hrecorded : d.schema_migration = applied.map (row sha256) := hmigrated.recorded
        rw [hrecorded]
        exact List.mem_map_of_mem (hnext.subset (by simp))
      have hchecksum := hmigrated.checksum_eq (mem_of_lookup hlookup) hrow
      dsimp only
      rw [if_neg (not_not.mpr hchecksum)]
      exact ⟨passed ++ [migration], by simpa using hplan, hnext⟩

/-- A migration that is rolled back failed by its own text. -/
theorem placed_rollback {e : Failure}
    (hmigrated : Migrated exec sha256 localeCompare schema₀
      ⟨d, before ++ ⟨files, .inTransaction migration rest⟩ :: after, applied⟩)
    (hnames : (migrations.map Migration.migrationName).Nodup)
    (hrelease : ∃ release, plan localeCompare files = .ok release ∧ release <+: migrations)
    (hplan : plan localeCompare files = .ok (applied ++ migration :: rest))
    (happly : apply exec d migration = .error e) :
    Placed exec localeCompare schema₀ applied ⟨files, .ended (.error e)⟩ := by
  have hprefix : applied ++ migration :: rest <+: migrations := by
    obtain ⟨release, hrelease, hle⟩ := hrelease
    rwa [← Except.ok.inj (hplan.symm.trans hrelease)] at hle
  have hschema : migrate exec applied schema₀ = .ok d.schema := hmigrated.schema
  refine ⟨applied, migration, rest, d.schema, hplan, hschema, ?_⟩
  have hrows : d.schema_migration.map Prod.fst = applied.map Migration.migrationName :=
    hmigrated.names
  have hnew : d.schema_migration.lookup migration.migrationName = none :=
    not_mem_names_iff_lookup.mpr (hrows ▸ name_not_mem hnames hprefix)
  unfold apply at happly
  cases hexec : exec migration.sql d.schema with
  | error e' =>
    rw [hexec] at happly
    exact happly
  | ok schema =>
    rw [hexec, hnew] at happly
    cases happly

theorem Ordered.commit {schema : S}
    (hmigrated : Migrated exec sha256 localeCompare schema₀
      ⟨d, before ++ ⟨files, .inTransaction migration rest⟩ :: after, applied⟩)
    (hrelease : ∃ release, plan localeCompare files = .ok release ∧ release <+: migrations)
    (h : Ordered exec localeCompare migrations schema₀
      ⟨d, before ++ ⟨files, .inTransaction migration rest⟩ :: after, applied⟩) :
    Ordered exec localeCompare migrations schema₀
      ⟨d.record sha256 migration schema, before ++ ⟨files, .running rest⟩ :: after,
        applied ++ [migration]⟩ := by
  obtain ⟨hr, hothers⟩ := placed_middle.mp h.placed
  have hplan : plan localeCompare files = .ok ((applied ++ [migration]) ++ rest) := by
    rw [List.append_assoc]
    exact hr
  obtain ⟨release, hrelease, hle⟩ := hrelease
  obtain rfl := Except.ok.inj (hplan.symm.trans hrelease)
  refine ⟨(List.prefix_append _ _).trans hle, placed_middle.mpr ⟨?_, fun other hmem => ?_⟩⟩
  · exact ⟨applied ++ [migration], hplan, List.prefix_rfl⟩
  · exact (hothers other hmem).append (hmigrated.exclusive.others rfl other hmem)

theorem Appending.middle (h : Appending localeCompare migrations (before ++ r :: after)) :
    ∃ release, plan localeCompare r.files = .ok release ∧ release <+: migrations :=
  h r (by simp)

theorem Appending.of_step (hstep : Step exec sha256 localeCompare st st')
    (h : Appending localeCompare migrations st'.runners) :
    Appending localeCompare migrations st.runners := by
  intro r hr
  have hkept : ∃ r' ∈ st'.runners, r'.files = r.files := by
    cases hstep with
    | start files => exact ⟨r, List.mem_append_left _ hr, rfl⟩
    | acquire _ | read _ | refuse _ | select | commit _ | rollback _ | finish | crash _ =>
      simp only [List.mem_append, List.mem_cons] at hr ⊢
      rcases hr with hr | rfl | hr
      · exact ⟨r, .inl hr, rfl⟩
      · exact ⟨_, .inr (.inl rfl), rfl⟩
      · exact ⟨r, .inr (.inr hr), rfl⟩
  obtain ⟨r', hr', hfiles⟩ := hkept
  exact hfiles ▸ h r' hr'

theorem Ordered.step (hmigrated : Migrated exec sha256 localeCompare schema₀ st)
    (hnames : (migrations.map Migration.migrationName).Nodup)
    (hreleases : Appending localeCompare migrations st.runners)
    (h : Ordered exec localeCompare migrations schema₀ st)
    (hstep : Step exec sha256 localeCompare st st') :
    Ordered exec localeCompare migrations schema₀ st' := by
  cases hstep with
  | start files =>
    refine ⟨h.applied, fun r hr => ?_⟩
    rcases List.mem_append.mp hr with hr | hr
    · exact h.placed r hr
    · rw [List.mem_singleton.mp hr]
      trivial
  | acquire _ => exact h.move fun _ => trivial
  | read hplan => exact h.move fun _ => ⟨[], hplan, List.nil_prefix⟩
  | refuse hplan =>
    obtain ⟨release, hrelease, -⟩ := hreleases.middle
    rw [hplan] at hrelease
    cases hrelease
  | select => exact h.move (placed_select hmigrated hnames h.applied hreleases.middle)
  | commit _ => exact h.commit hmigrated hreleases.middle
  | rollback happly =>
    exact h.move fun hplan => placed_rollback hmigrated hnames hreleases.middle hplan happly
  | finish =>
    refine h.move fun hplaced => ?_
    obtain ⟨passed, hplan, hpassed⟩ := hplaced
    exact ⟨passed, by simpa using hplan, hpassed⟩
  | crash _ => exact h.move fun _ => trivial

theorem ordered (h : Reachable exec sha256 localeCompare schema₀ st)
    (hnames : (migrations.map Migration.migrationName).Nodup)
    (hreleases : Appending localeCompare migrations st.runners) :
    Ordered exec localeCompare migrations schema₀ st := by
  induction h with
  | refl => exact ⟨List.nil_prefix, nofun⟩
  | tail hrun hstep ih =>
    have hbefore := hreleases.of_step hstep
    exact (ih hbefore).step (migrated hrun) hnames hbefore hstep

/-- Where each release appends to the one before, the schema is always that of the first
migrations of the whole list, a runner that ends well leaves at least those of its own release,
and a runner fails only where a migration fails on the schema of those before it. -/
theorem releases_converge (h : Reachable exec sha256 localeCompare schema₀ st)
    (hnames : (migrations.map Migration.migrationName).Nodup)
    (hreleases : Appending localeCompare migrations st.runners) :
    st.applied <+: migrations ∧ migrate exec st.applied schema₀ = .ok st.db.schema ∧
      ∀ r ∈ st.runners, ∀ release, plan localeCompare r.files = .ok release →
        (r.phase = .ended (.ok ()) → release <+: st.applied) ∧
          ∀ e, r.phase = .ended (.error e) → ∃ passed migration rest schema,
            release = passed ++ migration :: rest ∧ migrate exec passed schema₀ = .ok schema ∧
              exec migration.sql schema = .error e := by
  have hordered := ordered h hnames hreleases
  refine ⟨hordered.applied, (migrated h).schema, fun r hr release hplan => ⟨?_, ?_⟩⟩
  · intro hphase
    have hplaced := hordered.placed r hr
    simp only [Placed, hphase] at hplaced
    obtain ⟨release', hplan', hprefix⟩ := hplaced
    exact Except.ok.inj (hplan'.symm.trans hplan) ▸ hprefix
  · intro e hphase
    have hplaced := hordered.placed r hr
    simp only [Placed, hphase] at hplaced
    obtain ⟨passed, migration, rest, schema, hplan', hschema, hexec⟩ := hplaced
    exact ⟨passed, migration, rest, schema, Except.ok.inj (hplan.symm.trans hplan'), hschema, hexec⟩

end Releases

section Sample

def tenants : Migration := ⟨"0001_tenants.sql", ascii "CREATE TABLE tenant"⟩

def roles : Migration := ⟨"0002_roles.sql", ascii "CREATE TABLE tenant_role"⟩

/-- A schema that is the texts that were run. -/
def runText (sql : Text) (statements : List Text) : Except Failure (List Text) :=
  .ok (statements ++ [sql])

def byName (left right : String) : Bool := decide (left ≤ right)

/-- The database after some of the migrations. -/
def recordOf (applied : List Migration) : Database (List Text) :=
  ⟨applied.map Migration.sql, applied.map (row id)⟩

theorem plan_first : plan byName [tenants] = .ok [tenants] := by
  simp [plan, duplicates]

theorem plan_second : plan byName [tenants, roles] = .ok [tenants, roles] := by
  have hsorted : [tenants, roles].mergeSort (fun left right =>
      byName left.migrationName right.migrationName) = [tenants, roles] :=
    List.mergeSort_of_pairwise (by decide +kernel)
  simp only [plan, hsorted]
  rfl

/-- A runner of the first release is lost after its commit, and one of the second goes on. -/
theorem run_releases : Reachable runText id byName [] ⟨recordOf [tenants, roles],
    [⟨[tenants], .crashed⟩, ⟨[tenants, roles], .ended (.ok ())⟩], [tenants, roles]⟩ := by
  have hstarted : Reachable runText id byName [] ⟨recordOf [],
      [⟨[tenants], .waiting⟩, ⟨[tenants, roles], .waiting⟩], []⟩ :=
    (Relation.ReflTransGen.single (.start [tenants])).tail (.start [tenants, roles])
  have hread : Reachable runText id byName [] ⟨recordOf [],
      [⟨[tenants], .running [tenants]⟩, ⟨[tenants, roles], .waiting⟩], []⟩ :=
    (hstarted.tail (@Step.acquire _ _ _ _ _ _ [] _ _ (by decide))).tail
      (@Step.read _ _ _ _ _ _ [] _ _ _ plan_first)
  have hlost : Reachable runText id byName [] ⟨recordOf [tenants],
      [⟨[tenants], .crashed⟩, ⟨[tenants, roles], .waiting⟩], [tenants]⟩ :=
    ((hread.tail (@Step.select _ _ _ _ _ _ [] _ _ _ _)).tail
      (@Step.commit _ _ _ _ _ _ [] _ _ _ _ _ rfl)).tail
      (@Step.crash _ _ _ _ _ _ [] _ _ (by simp))
  have hsecond : Reachable runText id byName [] ⟨recordOf [tenants],
      [⟨[tenants], .crashed⟩, ⟨[tenants, roles], .running [tenants, roles]⟩], [tenants]⟩ :=
    (hlost.tail (@Step.acquire _ _ _ _ _ _ [_] _ _ (by decide))).tail
      (@Step.read _ _ _ _ _ _ [_] _ _ _ plan_second)
  have hpassed : Reachable runText id byName [] ⟨recordOf [tenants],
      [⟨[tenants], .crashed⟩, ⟨[tenants, roles], .running [roles]⟩], [tenants]⟩ :=
    hsecond.tail (@Step.select _ _ _ _ _ _ [_] _ _ _ _)
  exact ((hpassed.tail (@Step.select _ _ _ _ _ _ [_] _ _ _ _)).tail
    (@Step.commit _ _ _ _ _ _ [_] _ _ _ _ _ rfl)).tail (@Step.finish _ _ _ _ _ _ [_] _ _)

theorem applied_once_lost : ∃ st : System (List Text), Reachable runText id byName [] st ∧
    st.applied = [tenants, roles] ∧ Migrated runText id byName [] st ∧
      ∀ r ∈ st.runners, r.phase = .ended (.ok ()) → ∀ migration ∈ r.files,
        row id migration ∈ st.db.schema_migration :=
  have h := applied_once run_releases
  ⟨_, run_releases, rfl, h.1, fun r hr hphase migration hfile => (h.2.2 r hr hphase migration hfile).1⟩

theorem appending_sample : Appending byName [tenants, roles]
    [⟨[tenants], .crashed⟩, ⟨[tenants, roles], .ended (.ok ())⟩] := by
  intro r hr
  simp only [List.mem_cons, List.not_mem_nil, or_false] at hr
  rcases hr with rfl | rfl
  · exact ⟨[tenants], plan_first, [roles], rfl⟩
  · exact ⟨[tenants, roles], plan_second, List.prefix_rfl⟩

theorem releases_converge_lost : ∃ st : System (List Text), Reachable runText id byName [] st ∧
    st.applied <+: [tenants, roles] ∧ migrate runText st.applied [] = .ok st.db.schema :=
  have h := releases_converge run_releases (by decide) appending_sample
  ⟨_, run_releases, h.1, h.2.1⟩

end Sample

end Sintius.Migrations
