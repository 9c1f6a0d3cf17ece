import Mathlib
import Sintius.Lib.Utf16
import Sintius.Spec.Problem
import Sintius.Spec.Canonical

/-! `tools/database/migrate-postgres.mjs`: runners that apply the migrations of their
release, one runner at a time. What PostgreSQL makes of a migration's text, and the
order of names in the locale, are parameters. -/

namespace Sintius.Migrations

open Js Sintius.Canonical

structure Migration where
  migrationName : String
  sql : Text
deriving DecidableEq

/-- The schema that migrations work on, and the rows of `schema_migration`. -/
structure Database (S : Type) where
  schema : S
  schema_migration : List (String × Text)

/-- `migrations.filter(…)`: those with the name of the one before. -/
def duplicates : List Migration → List Migration
  | first :: second :: rest =>
    if first.migrationName = second.migrationName then second :: duplicates (second :: rest)
    else duplicates (second :: rest)
  | _ => []

/-- The migrations of a release in the order of their names. -/
def plan (localeCompare : String → String → Bool) (files : List Migration) :
    Except Failure (List Migration) :=
  let migrations := files.mergeSort fun left right =>
    localeCompare left.migrationName right.migrationName
  match duplicates migrations with
  | [] => .ok migrations
  | first :: _ => .error (.error s!"Duplicate migration name: {first.migrationName}")

/-- Where a runner is. -/
inductive Phase where
  /-- `pg_advisory_lock` has not returned -/
  | waiting
  | locked
  | running (rest : List Migration)
  /-- between `BEGIN` and `COMMIT` -/
  | inTransaction (migration : Migration) (rest : List Migration)
  /-- The lock is released, and the runner has ended. -/
  | ended (result : Except Failure Unit)
  /-- The connection was lost. -/
  | crashed

/-- The lock is held. -/
def Phase.holds : Phase → Bool
  | .locked => true
  | .running _ => true
  | .inTransaction _ _ => true
  | _ => false

/-- A process, with the files of its release. -/
structure Runner where
  files : List Migration
  phase : Phase

/-- The database, the processes that were started, and what they have committed, oldest first. -/
structure System (S : Type) where
  db : Database S
  runners : List Runner
  applied : List Migration

section Steps

variable {S : Type} (exec : Text → S → Except Failure S) (sha256 : Sha256)
  (localeCompare : String → String → Bool)

/-- The `SELECT` before a migration. -/
def select (d : Database S) (migration : Migration) (rest : List Migration) : Phase :=
  match d.schema_migration.lookup migration.migrationName with
  | some checksum =>
    if checksum ≠ sha256 migration.sql then
      .ended (.error (.error s!"Applied migration changed: {migration.migrationName}"))
    else .running rest
  | none => .inTransaction migration rest

def Database.record (migration : Migration) (schema : S) (d : Database S) : Database S where
  schema := schema
  schema_migration := d.schema_migration ++ [(migration.migrationName, sha256 migration.sql)]

/-- The transaction of a migration: the schema that it commits. -/
def apply (d : Database S) (migration : Migration) : Except Failure S := do
  let schema ← exec migration.sql d.schema
  if (d.schema_migration.lookup migration.migrationName).isSome then
    .error (.error "duplicate key value violates unique constraint")
  else .ok schema

/-- Runners start, take the lock, work and end, in any order; each may be lost at any time. -/
inductive Step : System S → System S → Prop
  | start {st : System S} (files : List Migration) :
      Step st { st with runners := st.runners ++ [⟨files, .waiting⟩] }
  | acquire {d : Database S} {applied : List Migration} {before after : List Runner}
      {files : List Migration} (hfree : ∀ r ∈ before ++ after, r.phase.holds = false) :
      Step ⟨d, before ++ ⟨files, .waiting⟩ :: after, applied⟩
        ⟨d, before ++ ⟨files, .locked⟩ :: after, applied⟩
  | read {d : Database S} {applied : List Migration} {before after : List Runner}
      {files migrations : List Migration} (hplan : plan localeCompare files = .ok migrations) :
      Step ⟨d, before ++ ⟨files, .locked⟩ :: after, applied⟩
        ⟨d, before ++ ⟨files, .running migrations⟩ :: after, applied⟩
  | refuse {d : Database S} {applied : List Migration} {before after : List Runner}
      {files : List Migration} {e : Failure} (hplan : plan localeCompare files = .error e) :
      Step ⟨d, before ++ ⟨files, .locked⟩ :: after, applied⟩
        ⟨d, before ++ ⟨files, .ended (.error e)⟩ :: after, applied⟩
  | select {d : Database S} {applied : List Migration} {before after : List Runner}
      {files rest : List Migration} {migration : Migration} :
      Step ⟨d, before ++ ⟨files, .running (migration :: rest)⟩ :: after, applied⟩
        ⟨d, before ++ ⟨files, select sha256 d migration rest⟩ :: after, applied⟩
  | commit {d : Database S} {applied : List Migration} {before after : List Runner}
      {files rest : List Migration} {migration : Migration} {schema : S}
      (happly : apply exec d migration = .ok schema) :
      Step ⟨d, before ++ ⟨files, .inTransaction migration rest⟩ :: after, applied⟩
        ⟨d.record sha256 migration schema, before ++ ⟨files, .running rest⟩ :: after,
          applied ++ [migration]⟩
  | rollback {d : Database S} {applied : List Migration} {before after : List Runner}
      {files rest : List Migration} {migration : Migration} {e : Failure}
      (happly : apply exec d migration = .error e) :
      Step ⟨d, before ++ ⟨files, .inTransaction migration rest⟩ :: after, applied⟩
        ⟨d, before ++ ⟨files, .ended (.error e)⟩ :: after, applied⟩
  | finish {d : Database S} {applied : List Migration} {before after : List Runner}
      {files : List Migration} :
      Step ⟨d, before ++ ⟨files, .running []⟩ :: after, applied⟩
        ⟨d, before ++ ⟨files, .ended (.ok ())⟩ :: after, applied⟩
  | crash {d : Database S} {applied : List Migration} {before after : List Runner}
      {r : Runner} (hrunning : ∀ result, r.phase ≠ .ended result) :
      Step ⟨d, before ++ r :: after, applied⟩
        ⟨d, before ++ ⟨r.files, .crashed⟩ :: after, applied⟩

/-- A database that no migration has been applied to. -/
def System.empty (schema : S) : System S := ⟨⟨schema, []⟩, [], []⟩

/-- What a run of any number of runners reaches. -/
def Reachable (schema : S) : System S → Prop :=
  Relation.ReflTransGen (Step exec sha256 localeCompare) (System.empty schema)

end Steps

end Sintius.Migrations
