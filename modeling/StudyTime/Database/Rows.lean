/-
**The tables row by row.**

The engine keeps a table as rows in some order, and nothing in this form keeps two rows from having the
same key.  A statement picks rows by what is in them: it reads the first one with a key, it gives all that
have a key new content or else adds a row, or it deletes all that it picks.  Each edit of a database is one
statement, or two statements in a transaction.

Main definitions:

* `Rows.first`, `Rows.upsert`, `Rows.delete` — what statements do to the rows of a table;
* `RowStore`, `RowStore.entry`, `RowStore.lastShown` — both tables, and reading them;
* `Edit`, `Edit.perform`, `RowStore.run` — the edits of a database, on a connection;
* `Edit.step` — the same edits of a database that keeps its tables in the order of their keys.
-/

import StudyTime.Database.Connection
import StudyTime.Database.Run

set_option relaxedAutoImplicit false
set_option autoImplicit false

namespace StudyTime

/-! ### Rows -/

namespace Rows

variable {κ ν : Type} [DecidableEq κ]

/-- What is in the first row with a key. -/
def first (rows : List (κ × ν)) (k : κ) : Option ν :=
  (rows.find? fun row => row.1 = k).map Prod.snd

/-- A row with this key: where there are rows with the key they get the new content, and else one is
added. -/
def upsert (k : κ) (v : ν) (rows : List (κ × ν)) : List (κ × ν) :=
  if rows.any fun row => row.1 = k then rows.map fun row => if row.1 = k then (k, v) else row
  else rows ++ [(k, v)]

/-- All rows but those of which the key is picked. -/
def delete (picks : κ → Bool) (rows : List (κ × ν)) : List (κ × ν) :=
  rows.filter fun row => !picks row.1

end Rows

/-- Both tables, as far as they are there. -/
@[ext] structure RowStore where
  entries : Option (List (DocumentKey × PayloadCell))
  profiles : Option (List (String × ShownCell))

namespace RowStore

/-- The payload under a key. -/
def entry (s : RowStore) (key : DocumentKey) : Except Failure (Option String) :=
  match s.entries with
  | none => .error (.inside (.readEntry key.cache) .engine)
  | some rows =>
    match Rows.first rows key with
    | none => .ok none
    | some (.text text) => .ok (some text)
    | some .other => .error (.inside (.readEntry key.cache) .engine)

/-- When a survey was last shown to a profile. -/
def lastShown (s : RowStore) (profile : String) : Except Failure (Option Int64) :=
  match s.profiles with
  | none => .error (.inside (.readProfile profile) .engine)
  | some rows =>
    match Rows.first rows profile with
    | none => .ok none
    | some .null => .ok none
    | some (.instant n) => .ok (some n)
    | some (.text _) => .error (.inside (.readProfile profile) .engine)

/-- A statement on the table of documents; without the table it is refused. -/
def onEntries (change : List (DocumentKey × PayloadCell) → List (DocumentKey × PayloadCell))
    (s : RowStore) : Option RowStore :=
  s.entries.map fun rows => { s with entries := some (change rows) }

/-- A statement on the table of profiles; without the table it is refused. -/
def onProfiles (change : List (String × ShownCell) → List (String × ShownCell)) (s : RowStore) :
    Option RowStore :=
  s.profiles.map fun rows => { s with profiles := some (change rows) }

end RowStore

/-! ### Edits -/

/-- What can be done to the rows of a database. -/
inductive Edit where
  | put (key : DocumentKey) (text : String)
  | delete (key : DocumentKey)
  | setLastShown (profile : String) (n : Int64)
  | deleteProfile (profile : String)
  deriving DecidableEq, Repr

namespace Edit

/-- The edit, statement by statement. -/
def perform (c : Connection RowStore) : Edit → Except Failure Unit × Connection RowStore
  | .put key text =>
    attempting (.writeEntry key.cache) <|
      c.issue (RowStore.onEntries (Rows.upsert key (.text text)))
  | .delete key => c.issue (RowStore.onEntries (Rows.delete fun key' => key' = key))
  | .setLastShown profile n =>
    attempting (.writeProfile profile) <|
      c.issue (RowStore.onProfiles (Rows.upsert profile (.instant n)))
  | .deleteProfile profile =>
    c.transaction fun c =>
      proceed (c.issue (RowStore.onEntries (Rows.delete fun key => key.profile = profile))) fun c =>
        c.issue (RowStore.onProfiles (Rows.delete fun profile' => profile' = profile))

/-- The edit as a step of a database. -/
def step : Edit → DatabaseStep
  | .put key text => .put key text
  | .delete key => .delete key
  | .setLastShown profile n => .setLastShown profile n
  | .deleteProfile profile => .deleteProfile profile

/-- The edit as a change of tables in the order of their keys. -/
def change (t : Tables) : Edit → Except Failure Tables
  | .put key text => t.putEntry key text
  | .delete key => t.deleteEntry key
  | .setLastShown profile n => t.setLastShown profile n
  | .deleteProfile profile => t.deleteProfile profile

end Edit

/-- A list of edits, with their outcomes in order. -/
def RowStore.run (c : Connection RowStore) :
    List Edit → List (Except Failure Unit) × Connection RowStore
  | [] => ([], c)
  | e :: edits =>
    let (r, c) := e.perform c
    let (rs, c) := run c edits
    (r :: rs, c)

end StudyTime
