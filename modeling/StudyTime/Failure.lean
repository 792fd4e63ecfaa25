/-
**What can go wrong, and how it is said.**

A failure is a cause inside any number of contexts, each of which says what was being attempted.
Its message lists the contexts from the outside in and ends with the cause; its headline is the
outermost text alone.  Where the cause is a fault of the database engine, of the file system or of
a document, only its kind is named.

Main definitions:

* `Operation` — the operations of a store that can be made to fail;
* `Failure` — failures, with `Failure.headline` and `Failure.message`;
* `CacheError` — failures of a cached document, which name the document;
* `ServiceError` — either of them.
-/

import StudyTime.Document
import StudyTime.TimeOfDay.Text
import StudyTime.Json.Reader

set_option relaxedAutoImplicit false
set_option autoImplicit false

namespace StudyTime

/-- The operations of a store. -/
inductive Operation where
  | load
  | store
  | delete
  | read
  | write
  deriving DecidableEq, Repr

/-- The name of an operation. -/
def Operation.name : Operation → String
  | .load => "load"
  | .store => "store"
  | .delete => "delete"
  | .read => "read"
  | .write => "write"

/-- What was being attempted. -/
inductive Context where
  | readEntry (cache : String)
  | writeEntry (cache : String)
  | decode (cache : String)
  | encode (cache : String)
  | readProfile (profile : String)
  | writeProfile (profile : String)
  | markShown (profile : String)
  | databaseFolder (path : String)
  | dataFolder (path : String)
  | openDatabase
  | migrate
  | readVersion
  | openTransaction
  | migration (version : Int)
  | script (version : Int)
  | writeVersion
  | commit
  | readSettings (path : String)
  | writeSettings (path : String)
  deriving DecidableEq, Repr

/-- How an attempt is said. -/
def Context.text : Context → String
  | .readEntry cache => "failed to read cache entry " ++ cache
  | .writeEntry cache => "failed to write cache entry " ++ cache
  | .decode cache => "corrupt " ++ cache ++ " payload"
  | .encode cache => "failed to serialize " ++ cache
  | .readProfile profile => "failed to read profile " ++ profile
  | .writeProfile profile => "failed to update profile " ++ profile
  | .markShown profile => "failed to mark survey shown for profile " ++ profile
  | .databaseFolder path => "failed to create database directory " ++ path
  | .dataFolder path => "failed to create data dir " ++ path
  | .openDatabase => "failed to open SQLite database"
  | .migrate => "failed to run database migrations"
  | .readVersion => "failed to read user_version pragma"
  | .openTransaction => "failed to open migration transaction"
  | .migration version => "migration to version " ++ toString version ++ " failed"
  | .script version => "failed to execute schema_v" ++ toString version ++ ".sql"
  | .writeVersion => "failed to update user_version pragma"
  | .commit => "failed to commit migrations"
  | .readSettings path => "Failed to read settings from " ++ path
  | .writeSettings path => "Failed to write settings to " ++ path

/-- What went wrong. -/
inductive Failure where
  | window (start stop : TimeOfDay)
  | engine
  | file
  | document (e : Json.ReadError)
  | injected (op : Operation)
  | workerGone
  | laterVersion (found supported : Int)
  | unknownVersion (version : Int)
  | sessionActive
  | noSession
  | inside (context : Context) (cause : Failure)
  deriving DecidableEq, Repr

/-- The name of a fault of reading. -/
def faultName : Json.ReadError → String
  | .ended => "eof"
  | .malformed => "syntax"
  | .mismatch => "data"

namespace Failure

/-- The outermost text of a failure. -/
def headline : Failure → String
  | .window start stop =>
    "survey window start " ++ start.text ++ " must be before window end " ++ stop.text
  | .engine => "<sqlite>"
  | .file => "<io>"
  | .document e => "<json:" ++ faultName e ++ ">"
  | .injected op => "injected " ++ op.name ++ " failure"
  | .workerGone => "failed to send command to DB thread: sending on a closed channel"
  | .laterVersion found supported =>
    "database version (" ++ toString found ++ ") is newer than supported schema (" ++
      toString supported ++ ")"
  | .unknownVersion version => "unknown migration target version: " ++ toString version
  | .sessionActive => "learning session already active"
  | .noSession => "no active learning session to finish"
  | .inside context _ => context.text

/-- The texts of a failure from the outside in. -/
def message : Failure → String
  | .inside context cause => context.text ++ ": " ++ cause.message
  | f => f.headline

end Failure

/-- What went wrong with a cached document. -/
inductive CacheError where
  | load (key : DocumentKey) (cause : Failure)
  | persist (key : DocumentKey) (cause : Failure)
  | closed (key : DocumentKey)
  deriving DecidableEq, Repr

namespace CacheError

/-- The document that it is about. -/
def key : CacheError → DocumentKey
  | .load key _ => key
  | .persist key _ => key
  | .closed key => key

/-- The wording; of the cause only the outermost text is said. -/
def message : CacheError → String
  | .load key cause =>
    "failed to load " ++ key.cache ++ " for profile " ++ key.profile ++ ": " ++ cause.headline
  | .persist key cause =>
    "failed to persist " ++ key.cache ++ " for profile " ++ key.profile ++ ": " ++ cause.headline
  | .closed key => "cache store " ++ key.cache ++ " for profile " ++ key.profile ++ " is closed"

end CacheError

/-- What went wrong with a service. -/
inductive ServiceError where
  | failure (f : Failure)
  | cache (e : CacheError)
  deriving DecidableEq, Repr

end StudyTime
