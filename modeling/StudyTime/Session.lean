/-
**Profiles and finished learning sessions.**

Main definitions:

* `Session` — a finished session of a profile with a topic;
* `Session.duration` — its length from start to stop, time in the background included;
* `Session.codec`, `Profile.codec` — the written forms.
-/

import StudyTime.Saturating
import StudyTime.SessionId
import StudyTime.Json.Schema

set_option relaxedAutoImplicit false
set_option autoImplicit false

namespace StudyTime

/-- One of the users of a device, known by name. -/
abbrev Profile : Type := String

/-- The written form of profiles. -/
def Profile.codec : Json.Codec Profile := .text

/-- The written form of session identifiers. -/
def SessionId.codec : Json.Codec SessionId := Json.Codec.text.refine SessionId.text SessionId.ofText?

/-- A finished session. -/
@[ext] structure Session where
  id : SessionId
  profile : Profile
  topic : String
  started : Int64
  stopped : Int64
  /-- The time spent in the foreground, in milliseconds. -/
  active : UInt64
  deriving DecidableEq, Repr

namespace Session

/-- The time from start to stop, or nothing if the clock went back. -/
def duration (s : Session) : UInt64 := Saturating.elapsed s.stopped s.started

/-- The fields of a session. -/
inductive Field where
  | id
  | profile
  | topic
  | started
  | stopped
  | active
  deriving DecidableEq, Repr

/-- The types of the fields. -/
abbrev Field.Value : Field → Type
  | .id => SessionId
  | .profile => Profile
  | .topic => String
  | .started => Int64
  | .stopped => Int64
  | .active => UInt64

/-- The names of the fields. -/
def Field.name : Field → String
  | .id => "id"
  | .profile => "profileId"
  | .topic => "topicId"
  | .started => "startedAtMs"
  | .stopped => "stoppedAtMs"
  | .active => "activeMs"

/-- The fields with their names and types; none may be left out. -/
def schema : Json.Schema Session where
  Field := Field
  order := [.id, .profile, .topic, .started, .stopped, .active]
  mem_order f := by cases f <;> decide
  nodup_order := by decide
  Value := Field.Value
  name := Field.name
  name_injective {f g} h := by cases f <;> cases g <;> first | rfl | exact absurd h (by decide)
  codec
    | .id => SessionId.codec
    | .profile => Profile.codec
    | .topic => .text
    | .started => .int64
    | .stopped => .int64
    | .active => .uint64
  default _ := none
  get s
    | .id => s.id
    | .profile => s.profile
    | .topic => s.topic
    | .started => s.started
    | .stopped => s.stopped
    | .active => s.active
  make v := ⟨v .id, v .profile, v .topic, v .started, v .stopped, v .active⟩
  make_get _ := rfl
  get_make v := by
    funext f
    cases f <;> rfl

/-- The written form of sessions. -/
def codec : Json.Codec Session := schema.codecOf

end Session

end StudyTime
