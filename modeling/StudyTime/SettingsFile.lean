/-
**Settings kept in a file.**

Settings are opened from a file and then held in memory.  Opening is forgiving: where there is no
file, or its text is not that of valid settings, the usual settings are held.  Reading the file
again later is strict: anything but valid settings is refused, and the settings held stay as they
are.  New settings are written to the file before they are held.

Main definitions:

* `FileState` — what is found at the path;
* `SettingsFile` — the file with the settings held;
* `SettingsFile.openStore`, `SettingsFile.update`, `SettingsFile.reload` — what is done with it;
* `SettingsStep`, `SettingsFile.step`, `SettingsFile.run` — the course over a list of steps.
-/

import StudyTime.Settings

set_option relaxedAutoImplicit false
set_option autoImplicit false

namespace StudyTime

/-- What is found at a path. -/
inductive FileState where
  | missing
  | folder
  | bytes (content : ByteArray)

/-- The text of a file that holds UTF-8. -/
def FileState.text? : FileState → Option String
  | .bytes content => String.fromUTF8? content
  | _ => none

/-- The file of the settings, and the settings held. -/
structure SettingsFile where
  /-- The path, as it is said in messages. -/
  path : String
  /-- Whether the folder of the path is there. -/
  reachable : Bool
  /-- What is found at the path. -/
  state : FileState
  /-- The settings held, once they were opened. -/
  held : Option Settings

namespace SettingsFile

/-- Nothing at the path, and nothing held. -/
def blank (path : String) (reachable : Bool) : SettingsFile := ⟨path, reachable, .missing, none⟩

/-- The settings that opening the file gives. -/
def opened (f : SettingsFile) : Except Failure Settings :=
  match f.state with
  | .missing => .ok .usual
  | state =>
    match state.text? with
    | none => .error (.inside (.readSettings f.path) .file)
    | some text =>
      match Settings.codec.parse text with
      | .error _ => .ok .usual
      | .ok s => .ok (if s.isValid then s else .usual)

/-- The settings that reading the file again gives. -/
def reread (f : SettingsFile) : Except Failure Settings :=
  match f.state.text? with
  | none => .error .file
  | some text =>
    match Settings.codec.parse text with
    | .error e => .error (.document e)
    | .ok s =>
      match s.validate with
      | .error e => .error e
      | .ok () => .ok s

/-- Puts bytes at the path, in place of what is there, if its folder is there. -/
def replace (f : SettingsFile) (state : FileState) : SettingsFile :=
  if f.reachable then { f with state := state } else f

/-- Writes settings to the file, which must not be a folder. -/
def save (f : SettingsFile) (s : Settings) : Except Failure SettingsFile :=
  match f.reachable, f.state with
  | false, _ => .error (.inside (.writeSettings f.path) .file)
  | true, .folder => .error (.inside (.writeSettings f.path) .file)
  | true, _ => .ok { f with state := .bytes (Settings.codec.spread s).toUTF8 }

/-- Opens the file anew.  If that fails the settings held before stay. -/
def openStore (f : SettingsFile) : Except Failure Unit × SettingsFile :=
  match f.opened with
  | .error e => (.error e, f)
  | .ok s => (.ok (), { f with held := some s })

/-- Writes and holds new settings, if they are valid. -/
def update (f : SettingsFile) (s : Settings) : Except Failure Unit × SettingsFile :=
  match s.validate with
  | .error e => (.error e, f)
  | .ok () =>
    match f.save s with
    | .error e => (.error e, f)
    | .ok f => (.ok (), { f with held := some s })

/-- Holds the settings that the file has now. -/
def reload (f : SettingsFile) : Except Failure Unit × SettingsFile :=
  match f.reread with
  | .error e => (.error e, f)
  | .ok s => (.ok (), { f with held := some s })

end SettingsFile

/-! ### Steps -/

/-- What can happen to the file and to the settings. -/
inductive SettingsStep where
  | replace (state : FileState)
  | contents
  | openStore
  | get
  | update (s : Settings)
  | reload

/-- The answers. -/
inductive SettingsAnswer where
  | done
  | failed (f : Failure)
  | settings (s : Settings)
  | contents (text : Option String)
  | notOpen

namespace SettingsFile

/-- The answer to a deed. -/
def outcome (r : Except Failure Unit × SettingsFile) : SettingsAnswer × SettingsFile :=
  match r with
  | (.error e, f) => (.failed e, f)
  | (.ok (), f) => (.done, f)

/-- One step. -/
def step (f : SettingsFile) : SettingsStep → SettingsAnswer × SettingsFile
  | .replace state => (.done, f.replace state)
  | .contents => (.contents f.state.text?, f)
  | .openStore => outcome f.openStore
  | .get =>
    match f.held with
    | none => (.notOpen, f)
    | some s => (.settings s, f)
  | .update s => if f.held.isSome then outcome (f.update s) else (.notOpen, f)
  | .reload => if f.held.isSome then outcome f.reload else (.notOpen, f)

/-- A list of steps, with the answers in order. -/
def run (f : SettingsFile) : List SettingsStep → List SettingsAnswer × SettingsFile
  | [] => ([], f)
  | s :: steps =>
    let (a, f) := f.step s
    let (as, f) := run f steps
    (a :: as, f)

end SettingsFile

end StudyTime
