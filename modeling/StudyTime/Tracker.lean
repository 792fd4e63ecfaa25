/-
**Tracking a session while it runs.**

A tracker follows one session at a time.  The session runs while the application is in the
foreground and is paused while it is in the background; only the time in the foreground counts.  A
running session has an anchor, the instant at which it last came to the foreground; the time before
that is its baseline.

Main definitions:

* `Tracker` — idle, running or paused;
* `Tracker.begin?`, `Tracker.foreground`, `Tracker.background`, `Tracker.finish?` — what can happen
  to it, at an instant;
* `Tracker.active` — the time in the foreground so far;
* `Status` — the state of a tracker without its data.
-/

import StudyTime.Session
import StudyTime.Json.Choice

set_option relaxedAutoImplicit false
set_option autoImplicit false

namespace StudyTime

/-- The state of a tracker without its data. -/
inductive Status where
  | idle
  | running
  | paused
  deriving DecidableEq, Repr

instance : Inhabited Status := ⟨.idle⟩

/-- The name of a status. -/
def Status.name : Status → String
  | .idle => "idle"
  | .running => "running"
  | .paused => "paused"

/-- The written form of a status. -/
def Status.codec : Json.Codec Status := .choice Status.name [.idle, .running, .paused]

/-- What is known of a session from its beginning. -/
@[ext] structure OpenSession where
  id : SessionId
  profile : Profile
  topic : String
  started : Int64
  deriving DecidableEq, Repr

/-- A tracker. -/
inductive Tracker where
  | idle
  /-- It follows a session in the foreground: the time before the anchor, and the anchor. -/
  | running (session : OpenSession) (baseline : UInt64) (anchor : Int64)
  /-- It follows a session in the background: the time so far. -/
  | paused (session : OpenSession) (baseline : UInt64)
  deriving DecidableEq, Repr

namespace Tracker

instance : Inhabited Tracker := ⟨.idle⟩

/-- The state without the data. -/
def status : Tracker → Status
  | .idle => .idle
  | .running _ _ _ => .running
  | .paused _ _ => .paused

/-- The session that is followed. -/
def session? : Tracker → Option OpenSession
  | .idle => none
  | .running s _ _ => some s
  | .paused s _ => some s

/-- The time counted before the anchor. -/
def baseline : Tracker → UInt64
  | .idle => 0
  | .running _ b _ => b
  | .paused _ b => b

/-- The instant at which the running session last came to the foreground. -/
def anchor? : Tracker → Option Int64
  | .running _ _ a => some a
  | _ => none

/-- The time in the foreground so far. -/
def active (t : Tracker) (now : Int64) : UInt64 :=
  match t with
  | .running _ b a => Saturating.add b (Saturating.elapsed now a)
  | t => t.baseline

/-- Begins a session, unless one is followed. -/
def begin? (t : Tracker) (id : SessionId) (profile : Profile) (topic : String) (now : Int64) :
    Option Tracker :=
  match t with
  | .idle => some (.running ⟨id, profile, topic, now⟩ 0 now)
  | _ => none

/-- The application comes to the foreground: a paused session runs again. -/
def foreground (t : Tracker) (now : Int64) : Tracker :=
  match t with
  | .paused s b => .running s b now
  | t => t

/-- The application goes to the background: a running session is paused. -/
def background (t : Tracker) (now : Int64) : Tracker :=
  match t with
  | .running s _ _ => .paused s (t.active now)
  | t => t

/-- The session that ends now, if one is followed. -/
def finish? (t : Tracker) (now : Int64) : Option Session :=
  t.session?.map fun s => ⟨s.id, s.profile, s.topic, s.started, now, t.active now⟩

end Tracker

end StudyTime
