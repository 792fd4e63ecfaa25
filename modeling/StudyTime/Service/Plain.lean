/-
**The service with plain subtractions.**

Most computations with instants and durations are held at the bounds.  Two are not: the difference that
somebody asks for, and the time since the last survey, for which the bounds are thought not to matter once
the instant is known to lie between zero and now.  Here both are plain subtractions, which abort where the
result is no instant.  And where an instant is taken for a duration because it is known not to be negative,
its bits are taken.

Main definitions:

* `Saturating.elapsedBits`, `TopicRecord.staleBits` — elapsed time and staleness by the bits of instants;
* `Survey.cooledDown?` — the cooldown by a plain subtraction;
* `Service.shouldShow?`, `Service.plainStep`, `Service.plainRun` — steps that compute in this way.
-/

import StudyTime.Service

set_option relaxedAutoImplicit false
set_option autoImplicit false

namespace StudyTime

/-- The time from `start` to `stop`, or nothing if `stop` is the earlier one, by the bits of an instant. -/
def Saturating.elapsedBits (stop start : Int64) : UInt64 := (max (sub stop start) 0).toUInt64

/-- Whether a record is stale, by the bits of an age that is positive. -/
def TopicRecord.staleBits (r : TopicRecord) (now : Int64) (staleness : UInt64) : Bool :=
  let age := Saturating.sub now r.updated
  0 < age && staleness < age.toUInt64

/-- Whether more than `cooldown` milliseconds have passed since the last survey, by a plain subtraction
and the bits of its result. -/
def Survey.cooledDown? (now : Int64) (lastShown : Option Int64) (cooldown : UInt64) :
    Except Abort Bool :=
  match lastShown with
  | none => .ok true
  | some shown =>
    if shown ≤ 0 then .ok true
    else if now < shown then .ok false
    else
      match Saturating.sub? now shown with
      | none => .error .subtraction
      | some d => .ok (cooldown < d.toUInt64)

namespace Service

variable {σ : Type} [Backend σ]

/-- Whether the last survey is long enough ago; not if that cannot be read. -/
def cooledDown? (s : Service σ) (profile : Profile) : Except Abort Bool × Service σ :=
  match s.lastShown profile with
  | (.error _, s) => (.ok false, s)
  | (.ok shown, s) => (Survey.cooledDown? s.clock.now shown s.settings.survey.cooldown, s)

/-- Whether a survey on a topic is to be shown to a profile now. -/
def shouldShow? (s : Service σ) (profile : Profile) (topic : String) :
    Except Abort Bool × Service σ :=
  match s.clock.local? with
  | .error a => (.error a, s)
  | .ok d =>
    if Survey.inWindow d.time s.settings.survey.windowStart s.settings.survey.windowEnd then
      match s.cooledDown? profile with
      | (.error a, s) => (.error a, s)
      | (.ok false, s) => (.ok false, s)
      | (.ok true, s) =>
        let (enough, s) := s.studiedEnough profile topic
        (.ok enough, s)
    else (.ok false, s)

/-- One step. -/
def plainStep (s : Service σ) : Step → Answer × Service σ
  | .shouldShow profile topic =>
    let (r, s) := s.shouldShow? profile topic
    (.ofAbort .decision r, s)
  | st => s.step st

/-- A list of steps, with the answers in order. -/
def plainRun (s : Service σ) : List Step → List Answer × Service σ
  | [] => ([], s)
  | st :: steps =>
    let (a, s) := s.plainStep st
    let (as, s) := plainRun s steps
    (a :: as, s)

end Service

end StudyTime
