/-
**Bringing a database up to date.**

The schema has two versions so far.  Version 1 has the table of documents and its index, version 2
also the table of profiles.  A database of an earlier version is brought up to date in one
transaction, step by step; a statement that the engine refuses undoes all of it.  A database of a
later version is not touched, and there is no way up from a negative version.

Main definitions:

* `Statement`, `Statement.apply` — the statements that a migration issues;
* `script` — the statements of one step;
* `Tables.migrate` — the migration, for an engine that refuses some of the statements;
* `Tables.migrated` — the migration when none is refused.
-/

import StudyTime.Database

set_option relaxedAutoImplicit false
set_option autoImplicit false

namespace StudyTime

/-- The statements that a migration issues. -/
inductive Statement where
  | readVersion
  | begin
  /-- Creating the table of documents, unless it is there. -/
  | createEntries
  /-- Creating the index on it, unless it is there. -/
  | createIndex
  /-- Creating the table of profiles, unless it is there. -/
  | createProfiles
  | writeVersion
  | commit
  deriving DecidableEq, Repr

/-- The version that migrations lead to. -/
def currentVersion : Int := 2

/-- The content after a statement. -/
def Statement.apply (s : Statement) (t : Tables) : Tables :=
  match s with
  | .createEntries => { t with entries := some (t.entries.getD ∅) }
  | .createIndex => { t with indexed := true }
  | .createProfiles => { t with profiles := some (t.profiles.getD ∅) }
  | .writeVersion => { t with version := currentVersion }
  | _ => t

/-- The statements of the step to a version, if there is one. -/
def script (version : Int) : Option (List Statement) :=
  if version = 1 then some [.createEntries, .createIndex]
  else if version = 2 then some [.createProfiles]
  else none

namespace Tables

/-- Issues statements in order; nothing is left of them if one is refused. -/
def execute (refuses : Statement → Bool) : List Statement → Tables → Option Tables
  | [], t => some t
  | s :: ss, t => if refuses s then none else execute refuses ss (s.apply t)

/-- Takes the steps that lead up from this version. -/
def upgrade (refuses : Statement → Bool) (version : Int) (t : Tables) : Except Failure Tables :=
  if version < currentVersion then
    let next := version + 1
    match script next with
    | none => .error (.inside (.migration next) (.unknownVersion next))
    | some statements =>
      match execute refuses statements t with
      | none => .error (.inside (.migration next) (.inside (.script next) .engine))
      | some t => upgrade refuses next t
  else .ok t
termination_by (currentVersion - version).toNat
decreasing_by
  simp only [currentVersion] at *
  omega

/-- The content after the migration.  An engine that refuses one of the statements leaves it as it
was. -/
def migrate (refuses : Statement → Bool) (t : Tables) : Except Failure Tables :=
  if refuses .readVersion then .error (.inside .readVersion .engine)
  else if currentVersion < t.version then .error (.laterVersion t.version currentVersion)
  else if t.version = currentVersion then .ok t
  else if refuses .begin then .error (.inside .openTransaction .engine)
  else
    match upgrade refuses t.version t with
    | .error f => .error f
    | .ok t =>
      if refuses .writeVersion then .error (.inside .writeVersion .engine)
      else if refuses .commit then .error (.inside .commit .engine)
      else .ok (Statement.writeVersion.apply t)

/-- The content after a migration of which no statement is refused. -/
def migrated (t : Tables) : Except Failure Tables := t.migrate fun _ => false

end Tables

/-- Opens the database with this content. -/
def Database.open? (t : Tables) : Except Failure Database :=
  match t.migrated with
  | .error f => .error (.inside .migrate f)
  | .ok t => .ok ⟨t, true⟩

/-- A new database that is kept nowhere. -/
def Database.fresh : Database :=
  match Database.open? .blank with
  | .error _ => ⟨.blank, true⟩
  | .ok db => db

end StudyTime
