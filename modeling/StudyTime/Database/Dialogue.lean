/-
**A migration, statement by statement.**

Bringing a database up to date is a dialogue with the engine: each statement is issued on the connection
and is carried out or refused, and the first refusal is the last statement.  The version is read first.
All that follows stands in one transaction, which comes to its end when the dialogue does, whether it was
committed or not.

Main definitions:

* `Statement.perform` — what a statement does to the connection;
* `Dialogue` — the connection, with the statements that were issued on it so far;
* `Dialogue.issue`, `Dialogue.issueAll` — one statement, and a script;
* `Dialogue.climb`, `Dialogue.ascend` — the steps up from a version, and the transaction around them;
* `Dialogue.migrate` — the migration.
-/

import StudyTime.Database.Connection
import StudyTime.Database.Migration

set_option relaxedAutoImplicit false
set_option autoImplicit false

namespace StudyTime

/-- The connection after a statement. -/
def Statement.perform (s : Statement) (c : Connection Tables) : Connection Tables :=
  match s with
  | .begin => c.begin
  | .commit => c.commit
  | s => c.setContent (s.apply c.content)

/-- A connection, and the statements that were issued on it so far. -/
@[ext] structure Dialogue where
  connection : Connection Tables
  issued : List Statement

namespace Dialogue

/-- Nothing was issued yet. -/
def start (t : Tables) : Dialogue := ⟨.idle t, []⟩

/-- The transaction comes to its end: if it was not committed, it is rolled back. -/
def close (r : Except Failure Unit × Dialogue) : Except Failure Unit × Dialogue :=
  (r.1, { r.2 with connection := r.2.connection.rollback })

variable (refuses : Statement → Bool)

/-- Issues a statement. -/
def issue (s : Statement) (d : Dialogue) : Except Failure Unit × Dialogue :=
  if refuses s then (.error .engine, { d with issued := d.issued ++ [s] })
  else (.ok (), ⟨s.perform d.connection, d.issued ++ [s]⟩)

/-- Issues the statements of a script in order. -/
def issueAll : List Statement → Dialogue → Except Failure Unit × Dialogue
  | [], d => (.ok (), d)
  | s :: ss, d => proceed (issue refuses s d) (issueAll ss)

/-- Takes the step to a version. -/
def stepTo (version : Int) (d : Dialogue) : Except Failure Unit × Dialogue :=
  match script version with
  | none => (.error (.unknownVersion version), d)
  | some ss => attempting (.script version) (issueAll refuses ss d)

/-- Takes the steps that lead up from this version. -/
def climb (version : Int) (d : Dialogue) : Except Failure Unit × Dialogue :=
  if version < currentVersion then
    proceed (attempting (.migration (version + 1)) (stepTo refuses (version + 1) d)) fun d =>
      climb (version + 1) d
  else (.ok (), d)
termination_by (currentVersion - version).toNat
decreasing_by
  simp only [currentVersion] at *
  omega

/-- Takes the steps up from a version and commits them with the current version, in a transaction that
comes to its end here. -/
def ascend (version : Int) (d : Dialogue) : Except Failure Unit × Dialogue :=
  close <| proceed (climb refuses version d) fun d =>
    proceed (attempting .writeVersion (issue refuses .writeVersion d)) fun d =>
      attempting .commit (issue refuses .commit d)

/-- Brings a database of this version up to date. -/
def migrateFrom (version : Int) (d : Dialogue) : Except Failure Unit × Dialogue :=
  if currentVersion < version then (.error (.laterVersion version currentVersion), d)
  else if version = currentVersion then (.ok (), d)
  else proceed (attempting .openTransaction (issue refuses .begin d)) (ascend refuses version)

/-- Brings the database up to date. -/
def migrate (d : Dialogue) : Except Failure Unit × Dialogue :=
  proceed (attempting .readVersion (issue refuses .readVersion d)) fun d =>
    migrateFrom refuses d.connection.content.version d

end Dialogue

end StudyTime
