/-
**A tracker kept in fields.**

A tracker can be kept in a record whose fields are set and reset one by one: a status, what is known of
the session as far as there is one, the time before the anchor, and the anchor.  Nothing in the form of
the record keeps the fields in line.  A session that ends is put together from fields that could be
missing, and the time in the foreground is read off the status and the anchor.

Main definitions:

* `TrackerEvent`, `TrackerAnswer` — what is asked of one tracker, and the answers;
* `TrackerFields` — the record, with `TrackerFields.step` and `TrackerFields.run`;
* `Tracker.step`, `Tracker.run` — the same for a tracker that cannot get out of line.
-/

import StudyTime.Tracker

set_option relaxedAutoImplicit false
set_option autoImplicit false

namespace StudyTime

/-- What is asked of a tracker, and at which instant. -/
inductive TrackerEvent where
  | begin (id : SessionId) (profile : Profile) (topic : String) (now : Int64)
  | foreground (now : Int64)
  | background (now : Int64)
  | active (now : Int64)
  | status
  | finish (now : Int64)
  | cancel
  deriving DecidableEq, Repr

/-- Why a session cannot be finished: there is none, or a field of it is missing. -/
inductive EndError where
  | noSession
  | noId
  | noProfile
  | noTopic
  deriving DecidableEq, Repr

/-- How it is said. -/
def EndError.message : EndError → String
  | .noSession => "no active learning session to finish"
  | .noId => "missing session id"
  | .noProfile => "missing profile id"
  | .noTopic => "missing topic id"

/-- The answers. -/
inductive TrackerAnswer where
  | done
  | begun (id : SessionId)
  /-- A session is followed already. -/
  | busy
  | duration (n : UInt64)
  | status (s : Status)
  | finished (s : Session)
  | unfinished (e : EndError)
  deriving DecidableEq, Repr

/-- A tracker as a record. -/
@[ext] structure TrackerFields where
  status : Status
  id : Option SessionId
  profile : Option Profile
  topic : Option String
  started : Int64
  /-- The time before the anchor. -/
  baseline : UInt64
  anchor : Option Int64
  deriving DecidableEq, Repr

namespace TrackerFields

/-- All fields at their defaults. -/
def blank : TrackerFields := ⟨.idle, none, none, none, 0, 0, none⟩

instance : Inhabited TrackerFields := ⟨blank⟩

/-- The time in the foreground so far. -/
def active (f : TrackerFields) (now : Int64) : UInt64 :=
  match f.status, f.anchor with
  | .running, some anchor => Saturating.add f.baseline (Saturating.elapsed now anchor)
  | _, _ => f.baseline

/-- The time so far becomes the baseline. -/
def pause (f : TrackerFields) (now : Int64) : TrackerFields :=
  { f with baseline := f.active now, anchor := none, status := .paused }

/-- The anchor is set. -/
def resume (f : TrackerFields) (now : Int64) : TrackerFields :=
  { f with anchor := some now, status := .running }

/-- The session, put together from the fields. -/
def session (f : TrackerFields) (now : Int64) : Except EndError Session :=
  match f.id with
  | none => .error .noId
  | some id =>
    match f.profile with
    | none => .error .noProfile
    | some profile =>
      match f.topic with
      | none => .error .noTopic
      | some topic => .ok ⟨id, profile, topic, f.started, now, f.active now⟩

/-- What is answered, and the record after that.  The record is blank again before it is known whether
the session that ends can be put together. -/
def step (f : TrackerFields) : TrackerEvent → TrackerAnswer × TrackerFields
  | .begin id profile topic now =>
    if f.status ≠ .idle then (.busy, f)
    else (.begun id, ⟨.running, some id, some profile, some topic, now, 0, some now⟩)
  | .foreground now => (.done, if f.status = .paused then f.resume now else f)
  | .background now =>
    let f := if f.status = .running then f.pause now else f
    (.duration f.baseline, f)
  | .active now => (.duration (f.active now), f)
  | .status => (.status f.status, f)
  | .finish now =>
    if f.status = .idle then (.unfinished .noSession, f)
    else
      match f.session now with
      | .error e => (.unfinished e, blank)
      | .ok s => (.finished s, blank)
  | .cancel => (.done, blank)

/-- A list of events, with the answers in order. -/
def run (f : TrackerFields) : List TrackerEvent → List TrackerAnswer × TrackerFields
  | [] => ([], f)
  | e :: es =>
    let (a, f) := f.step e
    let (as, f) := run f es
    (a :: as, f)

theorem run_cons (f : TrackerFields) (e : TrackerEvent) (es : List TrackerEvent) :
    f.run (e :: es) = ((f.step e).1 :: ((f.step e).2.run es).1, ((f.step e).2.run es).2) := rfl

end TrackerFields

namespace Tracker

/-- What is answered, and the tracker after that. -/
def step (t : Tracker) : TrackerEvent → TrackerAnswer × Tracker
  | .begin id profile topic now =>
    match t.begin? id profile topic now with
    | none => (.busy, t)
    | some t => (.begun id, t)
  | .foreground now => (.done, t.foreground now)
  | .background now => (.duration (t.background now).baseline, t.background now)
  | .active now => (.duration (t.active now), t)
  | .status => (.status t.status, t)
  | .finish now =>
    match t.finish? now with
    | none => (.unfinished .noSession, t)
    | some s => (.finished s, .idle)
  | .cancel => (.done, .idle)

/-- A list of events, with the answers in order. -/
def run (t : Tracker) : List TrackerEvent → List TrackerAnswer × Tracker
  | [] => ([], t)
  | e :: es =>
    let (a, t) := t.step e
    let (as, t) := run t es
    (a :: as, t)

theorem run_cons (t : Tracker) (e : TrackerEvent) (es : List TrackerEvent) :
    t.run (e :: es) = ((t.step e).1 :: ((t.step e).2.run es).1, ((t.step e).2.run es).2) := rfl

/-- The record of a tracker. -/
def fields : Tracker → TrackerFields
  | .idle => .blank
  | .running s baseline anchor =>
    ⟨.running, some s.id, some s.profile, some s.topic, s.started, baseline, some anchor⟩
  | .paused s baseline =>
    ⟨.paused, some s.id, some s.profile, some s.topic, s.started, baseline, none⟩

end Tracker

end StudyTime
