/-
**Running a database.**

A database is kept in memory, and then it is gone when it is closed, or in a file, and then it is
brought up to date each time it is opened.  If that fails it stays closed.

Main definitions:

* `DatabaseStep`, `DatabaseAnswer` — what can be asked, and the answers;
* `DatabaseRun`, `DatabaseRun.step`, `DatabaseRun.run` — the course over a list of steps.
-/

import StudyTime.Database.Migration

set_option relaxedAutoImplicit false
set_option autoImplicit false

namespace StudyTime

/-- What can be asked of a database. -/
inductive DatabaseStep where
  | get (key : DocumentKey)
  | put (key : DocumentKey) (text : String)
  /-- Keeping a payload without waiting for the answer. -/
  | putUnawaited (key : DocumentKey) (text : String)
  | delete (key : DocumentKey)
  | lastShown (profile : String)
  | setLastShown (profile : String) (n : Int64)
  | deleteProfile (profile : String)
  | rawEntry (key : DocumentKey) (cell : PayloadCell)
  | rawProfile (profile : String) (cell : ShownCell)
  | rows
  | schema
  /-- Writing the version, also while the file is closed. -/
  | setVersion (version : Int)
  /-- Dropping a table, also while the file is closed. -/
  | dropTable (table : TableName)
  | reopen
  | hasPath
  /-- Taking the worker down. -/
  | crash
  deriving DecidableEq, Repr

/-- The answers. -/
inductive DatabaseAnswer where
  | done
  | failed (f : Failure)
  | text (s : Option String)
  | shown (n : Option Int64)
  | rows (entries : List (DocumentKey × PayloadCell)) (profiles : List (String × ShownCell))
  | schema (version : Int) (names : List String)
  | hasPath (yes : Bool)
  | notOpen
  deriving DecidableEq, Repr

/-- A database that is open, or a file that is closed. -/
inductive DatabaseState where
  | opened (db : Database)
  | closed (file : Tables)

/-- A database in memory or in a file. -/
structure DatabaseRun where
  /-- Whether it is in a file. -/
  inFile : Bool
  state : DatabaseState

namespace DatabaseRun

/-- Opens a file. -/
def openFile (file : Tables) : DatabaseAnswer × DatabaseState :=
  match Database.open? file with
  | .error f => (.failed f, .closed file)
  | .ok db => (.done, .opened db)

/-- A new database. -/
def start (inFile : Bool) : DatabaseRun :=
  ⟨inFile, if inFile then (openFile .blank).2 else .opened .fresh⟩

/-- The answer to a question. -/
def answer {β : Type} (f : β → DatabaseAnswer) : Except Failure β → DatabaseAnswer
  | .error e => .failed e
  | .ok b => f b

/-- A change of an open database. -/
def change (db : Database) (f : Tables → Except Failure Tables) : DatabaseAnswer × DatabaseState :=
  let (r, db) := db.update f
  (answer (fun _ => .done) r, .opened db)

/-- A question to an open database. -/
def ask {β : Type} (db : Database) (f : Tables → Except Failure β) (g : β → DatabaseAnswer) :
    DatabaseAnswer × DatabaseState :=
  (answer g (db.query f), .opened db)

/-- One step with an open database. -/
def openStep (inFile : Bool) (db : Database) : DatabaseStep → DatabaseAnswer × DatabaseState
  | .get key => ask db (fun t => t.entry key) .text
  | .put key text => change db fun t => t.putEntry key text
  | .putUnawaited key text => (.done, (change db fun t => t.putEntry key text).2)
  | .delete key => change db fun t => t.deleteEntry key
  | .lastShown profile => ask db (fun t => t.lastShown profile) .shown
  | .setLastShown profile n => change db fun t => t.setLastShown profile n
  | .deleteProfile profile => change db fun t => t.deleteProfile profile
  | .rawEntry key cell => change db fun t => t.putRawEntry key cell
  | .rawProfile profile cell => change db fun t => t.putRawProfile profile cell
  | .rows => ask db Tables.rows fun r => .rows r.1 r.2
  | .schema => ask db (fun t => .ok (t.version, t.names)) fun r => .schema r.1 r.2
  | .setVersion version => change db fun t => .ok (t.setVersion version)
  | .dropTable table => change db fun t => .ok (t.dropTable table)
  | .reopen => if inFile then openFile db.tables else (.done, .opened .fresh)
  | .hasPath => (.hasPath inFile, .opened db)
  | .crash => (.done, .opened db.crash)

/-- One step with a closed file. -/
def closedStep (file : Tables) : DatabaseStep → DatabaseAnswer × DatabaseState
  | .setVersion version => (.done, .closed (file.setVersion version))
  | .dropTable table => (.done, .closed (file.dropTable table))
  | .reopen => openFile file
  | _ => (.notOpen, .closed file)

/-- One step. -/
def step (r : DatabaseRun) (s : DatabaseStep) : DatabaseAnswer × DatabaseRun :=
  let (a, state) :=
    match r.state with
    | .opened db => openStep r.inFile db s
    | .closed file => closedStep file s
  (a, { r with state := state })

/-- A list of steps, with the answers in order. -/
def run (r : DatabaseRun) : List DatabaseStep → List DatabaseAnswer × DatabaseRun
  | [] => ([], r)
  | s :: steps =>
    let (a, r) := r.step s
    let (as, r) := run r steps
    (a :: as, r)

end DatabaseRun

end StudyTime
