/-
**The database: two tables behind a worker.**

One table keeps the documents by cache and profile, the other the instants at which surveys were
shown by profile.  Either table may have been dropped, and a statement on a table that is not there
is refused.  All statements go through a worker; once it is gone every call fails.

Main definitions:

* `Tables` — the content of a database;
* `Tables.entry`, `Tables.putEntry`, `Tables.deleteEntry`, `Tables.lastShown`,
  `Tables.setLastShown`, `Tables.deleteProfile` — the statements that are in use;
* `Database`, `Database.query`, `Database.update` — the worker, and its instance of `Backend`.
-/

import StudyTime.Cache

set_option relaxedAutoImplicit false
set_option autoImplicit false

namespace StudyTime

/-- What the payload column of an entry holds. -/
inductive PayloadCell where
  | text (s : String)
  | other
  deriving DecidableEq, Repr

/-- What the column with the last survey of a profile holds. -/
inductive ShownCell where
  | null
  | instant (n : Int64)
  | text (s : String)
  deriving DecidableEq, Repr

/-- The two tables. -/
inductive TableName where
  | entries
  | profiles
  deriving DecidableEq, Repr

/-- The content of a database. -/
@[ext] structure Tables where
  version : Int
  /-- The table of documents, if it is there. -/
  entries : Option (SortedMap DocumentKey PayloadCell)
  /-- Whether the index on the table of documents is there. -/
  indexed : Bool
  /-- The table of profiles, if it is there. -/
  profiles : Option (SortedMap String ShownCell)

namespace Tables

/-- A database that was just created. -/
def blank : Tables := ⟨0, none, false, none⟩

instance : Inhabited Tables := ⟨blank⟩

/-- The names of all tables and indexes in order. -/
def names (t : Tables) : List String :=
  (if t.entries.isSome then ["cache_entries"] else []) ++
    (if t.indexed then ["idx_cache_entries_profile"] else []) ++
    (if t.profiles.isSome then ["profiles"] else [])

/-! ### Documents -/

/-- The payload under a key. -/
def entry (t : Tables) (key : DocumentKey) : Except Failure (Option String) :=
  match t.entries with
  | none => .error (.inside (.readEntry key.cache) .engine)
  | some m =>
    match m.get? key with
    | none => .ok none
    | some (.text s) => .ok (some s)
    | some .other => .error (.inside (.readEntry key.cache) .engine)

/-- Keeps a payload under a key, in place of the one that is there. -/
def putEntry (t : Tables) (key : DocumentKey) (text : String) : Except Failure Tables :=
  match t.entries with
  | none => .error (.inside (.writeEntry key.cache) .engine)
  | some m => .ok { t with entries := some (m.insert key (.text text)) }

/-- Drops the payload under a key. -/
def deleteEntry (t : Tables) (key : DocumentKey) : Except Failure Tables :=
  match t.entries with
  | none => .error .engine
  | some m => .ok { t with entries := some (m.erase key) }

/-! ### Profiles -/

/-- When a survey was last shown to a profile. -/
def lastShown (t : Tables) (profile : String) : Except Failure (Option Int64) :=
  match t.profiles with
  | none => .error (.inside (.readProfile profile) .engine)
  | some m =>
    match m.get? profile with
    | none => .ok none
    | some .null => .ok none
    | some (.instant n) => .ok (some n)
    | some (.text _) => .error (.inside (.readProfile profile) .engine)

/-- Notes when a survey was shown to a profile. -/
def setLastShown (t : Tables) (profile : String) (n : Int64) : Except Failure Tables :=
  match t.profiles with
  | none => .error (.inside (.writeProfile profile) .engine)
  | some m => .ok { t with profiles := some (m.insert profile (.instant n)) }

/-- Drops all rows of a profile from both tables, or from none if either table is not there. -/
def deleteProfile (t : Tables) (profile : String) : Except Failure Tables :=
  match t.entries, t.profiles with
  | some es, some ps =>
    .ok { t with
      entries := some (es.filterKeys fun key => key.profile ≠ profile)
      profiles := some (ps.erase profile) }
  | _, _ => .error .engine

/-! ### Statements from outside -/

/-- Puts a row with any payload into the table of documents. -/
def putRawEntry (t : Tables) (key : DocumentKey) (cell : PayloadCell) : Except Failure Tables :=
  match t.entries with
  | none => .error .engine
  | some m => .ok { t with entries := some (m.insert key cell) }

/-- Puts a row with any content into the table of profiles. -/
def putRawProfile (t : Tables) (profile : String) (cell : ShownCell) : Except Failure Tables :=
  match t.profiles with
  | none => .error .engine
  | some m => .ok { t with profiles := some (m.insert profile cell) }

/-- All rows of both tables. -/
def rows (t : Tables) :
    Except Failure (List (DocumentKey × PayloadCell) × List (String × ShownCell)) :=
  match t.entries, t.profiles with
  | some es, some ps => .ok (es.toList, ps.toList)
  | _, _ => .error .engine

/-- Drops a table with its index, if it is there. -/
def dropTable (t : Tables) : TableName → Tables
  | .entries => { t with entries := none, indexed := false }
  | .profiles => { t with profiles := none }

/-- Writes the version.  It has thirty-two bits with a sign, and a number that does not fit into them
is written as zero. -/
def setVersion (t : Tables) (version : Int) : Tables :=
  { t with version := if -0x80000000 ≤ version ∧ version ≤ 0x7FFFFFFF then version else 0 }

end Tables

/-! ### The worker -/

/-- A database that is open. -/
@[ext] structure Database where
  tables : Tables
  /-- Whether the worker is there. -/
  working : Bool

namespace Database

/-- Asks the worker for something. -/
def query {β : Type} (db : Database) (ask : Tables → Except Failure β) : Except Failure β :=
  if db.working then ask db.tables else .error .workerGone

/-- Has the worker change the content.  A change that fails is not made. -/
def update (db : Database) (change : Tables → Except Failure Tables) :
    Except Failure Unit × Database :=
  if db.working then
    match change db.tables with
    | .error f => (.error f, db)
    | .ok t => (.ok (), { db with tables := t })
  else (.error .workerGone, db)

/-- Takes the worker down. -/
def crash (db : Database) : Database := { db with working := false }

instance : Backend Database where
  load key db := (db.query fun t => t.entry key, db)
  store key text db := db.update fun t => t.putEntry key text
  delete key db := db.update fun t => t.deleteEntry key
  lastShown profile db := (db.query fun t => t.lastShown profile, db)
  setLastShown profile n db := db.update fun t => t.setLastShown profile n
  eraseProfile profile db := db.update fun t => t.deleteProfile profile

end Database

end StudyTime
