/-
**A service over a database in a file.**

Such a service is started with settings that have to be valid, over the database that is in the
file.  When it is stopped, or could not be started, clock, settings and file remain, and it can be
started again from them.

Main definitions:

* `Installation`, `Installation.start`, `Installation.restart`, `Installation.step`,
  `Installation.run` — a service that is running or stopped;
* `FileTree.openService` — starting a service in a folder.
-/

import StudyTime.Service
import StudyTime.Database.Files

set_option relaxedAutoImplicit false
set_option autoImplicit false

namespace StudyTime

/-- A service over a database in a file. -/
inductive Installation where
  | running (s : Service Database)
  | stopped (clock : Clock) (settings : Settings) (file : Tables)

namespace Installation

/-- Starts a service, if the settings are valid and the database can be opened. -/
def start (clock : Clock) (settings : Settings) (file : Tables) :
    Except Failure Unit × Installation :=
  match settings.validate with
  | .error f => (.error f, .stopped clock settings file)
  | .ok () =>
    match Database.open? file with
    | .error f => (.error f, .stopped clock settings file)
    | .ok db => (.ok (), .running (Service.start clock settings db))

/-- Stops the service and starts it again, with other settings if some are given. -/
def restart (i : Installation) (settings : Option Settings) : Except Failure Unit × Installation :=
  match i with
  | .running s => start s.clock (settings.getD s.settings) s.store.tables
  | .stopped clock old file => start clock (settings.getD old) file

/-- One step of the service, if it is running. -/
def step (i : Installation) (st : Step) : Option Answer × Installation :=
  match i with
  | .running s =>
    let (a, s) := s.step st
    (some a, .running s)
  | .stopped clock settings file => (none, .stopped clock settings file)

/-- A list of steps, with the answers in order. -/
def run (i : Installation) : List Step → List (Option Answer) × Installation
  | [] => ([], i)
  | st :: steps =>
    let (a, i) := i.step st
    let (as, i) := run i steps
    (a :: as, i)

end Installation

namespace FileTree

/-- The file of the database in the folder of a service. -/
def databaseFile : String := "topictime.sqlite3"

/-- Starts a service in a folder, which is created if need be. -/
def openService (root : String) (path : List String) (settings : Settings) (tree : FileTree) :
    Except Failure Database × FileTree :=
  match settings.validate with
  | .error f => (.error f, tree)
  | .ok () =>
    match makeFolders path tree with
    | none => (.error (.inside (.dataFolder (showPath root path)) .file), tree)
    | some tree => openDatabase root (path ++ [databaseFile]) tree

end FileTree

end StudyTime
