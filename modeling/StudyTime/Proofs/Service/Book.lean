/-
**A book of what a service is about.**

Seen from outside a service keeps a book: a clock, the ledger of every profile, the instant at which a
survey was last shown to it, and its trackers.  The book has no caches, no texts and no tables, and no
operation on it fails.  Sessions in it are all known by the same identifier, since nothing else depends
on the identifiers.

Main definitions:

* `Book`, `Book.record`, `Book.erase`, `Book.setShown`, `Book.eraseProfile` — the book and its changes;
* `Book.shouldShow` — what it has to say about surveys;
* `Answer.anonymous` — an answer, whichever session it names;
* `Book.step`, `Book.run` — its course over a list of steps.
-/

import StudyTime.Service

set_option relaxedAutoImplicit false
set_option autoImplicit false

namespace StudyTime

/-! ### Sessions without identifiers -/

/-- The identifier that stands for all others. -/
def SessionId.any : SessionId := .ofNat 0

/-- An open session, whichever it is. -/
def OpenSession.anonymous (s : OpenSession) : OpenSession := { s with id := .any }

/-- A finished session, whichever it is. -/
def Session.anonymous (s : Session) : Session := { s with id := .any }

namespace Tracker

/-- A tracker, whichever session it follows. -/
def anonymous : Tracker → Tracker
  | .idle => .idle
  | .running s baseline anchor => .running s.anonymous baseline anchor
  | .paused s baseline => .paused s.anonymous baseline

variable (t : Tracker) (now : Int64)

@[simp] theorem status_anonymous : t.anonymous.status = t.status := by
  cases t <;> rfl

@[simp] theorem baseline_anonymous : t.anonymous.baseline = t.baseline := by
  cases t <;> rfl

@[simp] theorem active_anonymous : t.anonymous.active now = t.active now := by
  cases t <;> rfl

@[simp] theorem foreground_anonymous :
    t.anonymous.foreground now = (t.foreground now).anonymous := by
  cases t <;> rfl

@[simp] theorem background_anonymous :
    t.anonymous.background now = (t.background now).anonymous := by
  cases t <;> rfl

@[simp] theorem begin?_anonymous (id : SessionId) (profile : Profile) (topic : String) :
    t.anonymous.begin? .any profile topic now = (t.begin? id profile topic now).map anonymous := by
  cases t <;> rfl

@[simp] theorem finish?_anonymous :
    t.anonymous.finish? now = (t.finish? now).map Session.anonymous := by
  cases t <;> rfl

end Tracker

/-- An answer, whichever session it names. -/
def Answer.anonymous : Answer → Answer
  | .begun _ => .begun .any
  | .finished s => .finished s.anonymous
  | a => a

/-! ### The book -/

/-- What a service is about. -/
structure Book where
  clock : Clock
  /-- The records of each profile by topic. -/
  ledgers : Profile → Ledger
  /-- When a survey was last shown to each profile. -/
  shown : Profile → Option Int64
  trackers : Nat → Tracker

namespace Book

/-- The book of a service that was not used yet. -/
def blank (clock : Clock) : Book := ⟨clock, fun _ => .blank, fun _ => none, fun _ => .idle⟩

/-- Another ledger of a profile. -/
def setLedger (b : Book) (profile : Profile) (l : Ledger) : Book :=
  { b with ledgers := fun profile' => if profile' = profile then l else b.ledgers profile' }

/-- Another tracker under a number. -/
def setTracker (b : Book) (n : Nat) (t : Tracker) : Book :=
  { b with trackers := fun n' => if n' = n then t else b.trackers n' }

/-- Another instant at which a survey was last shown to a profile. -/
def setShown (b : Book) (profile : Profile) (n : Int64) : Book :=
  { b with shown := fun profile' => if profile' = profile then some n else b.shown profile' }

@[simp] theorem ledgers_setLedger_self (b : Book) (profile : Profile) (l : Ledger) :
    (b.setLedger profile l).ledgers profile = l := by
  simp [setLedger]

theorem ledgers_setLedger_of_ne (b : Book) {profile profile' : Profile} (l : Ledger)
    (h : profile' ≠ profile) : (b.setLedger profile l).ledgers profile' = b.ledgers profile' := by
  simp [setLedger, h]

@[simp] theorem setLedger_self (b : Book) (profile : Profile) :
    b.setLedger profile (b.ledgers profile) = b := by
  have h : (fun profile' => if profile' = profile then b.ledgers profile else b.ledgers profile') =
      b.ledgers := by
    funext profile'
    split
    next h => rw [h]
    next => rfl
  rw [setLedger, h]

/-- Merges a session into the ledger of a profile. -/
def record (settings : Settings) (b : Book) (profile : Profile) (topic : String)
    (duration : UInt64) : Book :=
  b.setLedger profile ((b.ledgers profile).recordSession topic duration b.clock.now
    settings.learning.staleness)

/-- Merges sessions in order. -/
def recordAll (settings : Settings) (b : Book) (items : List (Profile × String × UInt64)) : Book :=
  items.foldl (fun b item => b.record settings item.1 item.2.1 item.2.2) b

/-- Drops the ledger of a profile. -/
def erase (b : Book) (profile : Profile) : Book := b.setLedger profile .blank

/-- Drops the ledger of a profile and the instant at which a survey was last shown to it. -/
def eraseProfile (b : Book) (profile : Profile) : Book :=
  { b.erase profile with
    shown := fun profile' => if profile' = profile then none else b.shown profile' }

/-- The record of a topic, zero if it was never studied. -/
def topicRecord (b : Book) (profile : Profile) (topic : String) : TopicRecord :=
  ((b.ledgers profile).get? topic).getD .zero

/-- Whether the last survey is long enough ago. -/
def cooledDown (settings : Settings) (b : Book) (profile : Profile) : Bool :=
  Survey.cooledDown b.clock.now (b.shown profile) settings.survey.cooldown

/-- Whether a topic was studied long enough. -/
def studiedEnough (settings : Settings) (b : Book) (profile : Profile) (topic : String) : Bool :=
  Survey.studiedEnough (b.topicRecord profile topic).total settings.survey.threshold

/-- Whether a survey on a topic is to be shown to a profile now. -/
def shouldShow (settings : Settings) (b : Book) (profile : Profile) (topic : String) :
    Except Abort Bool :=
  b.clock.local?.map fun d =>
    Survey.inWindow d.time settings.survey.windowStart settings.survey.windowEnd &&
      b.cooledDown settings profile && b.studiedEnough settings profile topic

/-- One step. -/
def step (settings : Settings) (b : Book) : Step → Answer × Book
  | .setClock now => (.instant now, { b with clock := b.clock.set now })
  | .advanceClock delta => (.instant (b.clock.now + delta), { b with clock := b.clock.advance delta })
  | .now => (.instant b.clock.now, b)
  | .localTime => (.ofAbort .dateTime b.clock.local?, b)
  | .difference start stop =>
    (match Saturating.sub? stop start with
      | none => .aborted .subtraction
      | some n => .instant n, b)
  | .staleness => (.duration settings.learning.staleness, b)
  | .record profile topic duration => (.done, b.record settings profile topic duration)
  | .recordBatch items awaited =>
    (.many (items.mapIdx fun n _ => if awaited.contains n then some (.ok ()) else none),
      b.recordAll settings items)
  | .get profile topic => (.record (b.topicRecord profile topic), b)
  | .getAll profile => (.records (b.ledgers profile).toList, b)
  | .remove profile => (.done, b.erase profile)
  | .deleteProfile profile => (.done, b.eraseProfile profile)
  | .shouldShow profile topic => (.ofAbort .decision (b.shouldShow settings profile topic), b)
  | .markShown profile => (.done, b.setShown profile b.clock.now)
  | .lastShown profile => (.shown (b.shown profile), b)
  | .setLastShown profile n => (.done, b.setShown profile n)
  | .begin n profile topic =>
    match (b.trackers n).begin? .any profile topic b.clock.now with
    | none => (.failed (.failure .sessionActive), b)
    | some t => (.begun .any, b.setTracker n t)
  | .finish n =>
    match (b.trackers n).finish? b.clock.now with
    | none => (.failed (.failure .noSession), b)
    | some session =>
      (.finished session,
        (b.setTracker n .idle).record settings session.profile session.topic session.active)
  | .cancel n => (.done, b.setTracker n .idle)
  | .foreground n => (.done, b.setTracker n ((b.trackers n).foreground b.clock.now))
  | .background n =>
    let t := (b.trackers n).background b.clock.now
    (.duration t.baseline, b.setTracker n t)
  | .status n => (.status (b.trackers n).status, b)
  | .active n => (.duration ((b.trackers n).active b.clock.now), b)

/-- A list of steps, with the answers in order. -/
def run (settings : Settings) (b : Book) : List Step → List Answer × Book
  | [] => ([], b)
  | st :: steps =>
    let (a, b) := b.step settings st
    let (as, b) := run settings b steps
    (a :: as, b)

theorem run_cons (settings : Settings) (b : Book) (st : Step) (steps : List Step) :
    b.run settings (st :: steps) =
      ((b.step settings st).1 :: ((b.step settings st).2.run settings steps).1,
        ((b.step settings st).2.run settings steps).2) := rfl

end Book

end StudyTime
