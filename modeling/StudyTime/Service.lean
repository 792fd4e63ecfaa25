/-
**The service: records, surveys and trackers of all profiles.**

The service keeps the ledger of each profile in a cache of its own, which is created by the first
call that needs it, and forgets the cache when the profile is removed.  Trackers are known by
number.  Everything that depends on the time reads it from one clock.

Main definitions:

* `Service` — the state;
* `Service.record`, `Service.ledger`, `Service.remove`, `Service.deleteProfile` — study time;
* `Service.shouldShow`, `Service.markShown` — surveys;
* `Service.begin`, `Service.finish` — sessions;
* `Step`, `Answer`, `Service.step`, `Service.run` — the course over a list of steps.
-/

import StudyTime.Cache
import StudyTime.Ledger
import StudyTime.Settings
import StudyTime.Survey
import StudyTime.Tracker

set_option relaxedAutoImplicit false
set_option autoImplicit false

namespace StudyTime

/-- The name of the caches that hold ledgers. -/
def ledgerCache : String := "topic_learning_time_database"

/-- Where the ledger of a profile is kept. -/
def ledgerKey (profile : Profile) : DocumentKey := ⟨ledgerCache, profile⟩

/-- Ledgers are kept in their written form. -/
def Ledger.document : DocumentType Ledger := Ledger.codec.documentType Ledger.lawful_codec .blank

/-- A service over a store. -/
structure Service (σ : Type) where
  clock : Clock
  settings : Settings
  /-- The caches of the profiles that were asked about. -/
  caches : SortedMap Profile (Cache Ledger)
  trackers : SortedMap Nat Tracker
  /-- The number of the next session. -/
  nextSession : Nat
  store : σ

namespace Service

variable {σ : Type}

/-- A service that was not used yet. -/
def start (clock : Clock) (settings : Settings) (store : σ) : Service σ :=
  ⟨clock, settings, ∅, ∅, 0, store⟩

/-- A new service with this clock and store; caches and trackers are gone. -/
def restart (s : Service σ) (settings : Settings) : Service σ :=
  { start s.clock settings s.store with nextSession := s.nextSession }

section Store

variable [Backend σ]

/-! ### Study time -/

/-- The cache of a profile with the store, the cache created if need be. -/
def cacheOf (s : Service σ) (profile : Profile) : Cache Ledger × σ :=
  match s.caches.get? profile with
  | some c => (c, s.store)
  | none => Cache.create Ledger.document (ledgerKey profile) s.store

/-- Keeps the cache of a profile and the store. -/
def keep (s : Service σ) (profile : Profile) (c : Cache Ledger) (store : σ) : Service σ :=
  { s with caches := s.caches.insert profile c, store := store }

/-- Merges a session into the ledger of a profile. -/
def record (s : Service σ) (profile : Profile) (topic : String) (duration : UInt64) :
    Except CacheError Unit × Service σ :=
  let (c, store) := s.cacheOf profile
  let change (l : Ledger) : Option Ledger :=
    some (l.recordSession topic duration s.clock.now s.settings.learning.staleness)
  let (r, c, store) := c.write Ledger.document (ledgerKey profile) (.update change) store
  (r.map fun _ => (), s.keep profile c store)

/-- The ledger of a profile. -/
def ledger (s : Service σ) (profile : Profile) : Except CacheError Ledger × Service σ :=
  let (c, store) := s.cacheOf profile
  let (r, c, store) := c.fetch Ledger.document (ledgerKey profile) store
  (r, s.keep profile c store)

/-- The record of a topic, zero if it was never studied. -/
def topicRecord (s : Service σ) (profile : Profile) (topic : String) :
    Except CacheError TopicRecord × Service σ :=
  let (r, s) := s.ledger profile
  (r.map fun l => (l.get? topic).getD .zero, s)

/-- Removes the ledger of a profile and forgets its cache. -/
def remove (s : Service σ) (profile : Profile) : Except CacheError Unit × Service σ :=
  let (c, store) := s.cacheOf profile
  match c.write Ledger.document (ledgerKey profile) .clear store with
  | (.error e, c, store) => (.error e, s.keep profile c store)
  | (.ok _, _, store) => (.ok (), { s with caches := s.caches.erase profile, store := store })

/-- Removes the ledger of a profile, and then everything that is kept of the profile. -/
def deleteProfile (s : Service σ) (profile : Profile) : Except ServiceError Unit × Service σ :=
  match s.remove profile with
  | (.error e, s) => (.error (.cache e), s)
  | (.ok (), s) =>
    match Backend.eraseProfile profile s.store with
    | (.error f, store) => (.error (.failure f), { s with store := store })
    | (.ok (), store) => (.ok (), { s with store := store })

/-- Merges sessions in order. -/
def recordAll (s : Service σ) :
    List (Profile × String × UInt64) → List (Except CacheError Unit) × Service σ
  | [] => ([], s)
  | (profile, topic, duration) :: items =>
    let (r, s) := s.record profile topic duration
    let (rs, s) := recordAll s items
    (r :: rs, s)

/-- Merges sessions in order and waits for some of the answers. -/
def recordBatch (s : Service σ) (items : List (Profile × String × UInt64)) (awaited : List Nat) :
    List (Option (Except CacheError Unit)) × Service σ :=
  let (rs, s) := s.recordAll items
  (rs.mapIdx fun n r => if awaited.contains n then some r else none, s)

/-! ### Surveys -/

/-- When a survey was last shown to a profile. -/
def lastShown (s : Service σ) (profile : Profile) : Except Failure (Option Int64) × Service σ :=
  let (r, store) := Backend.lastShown profile s.store
  (r, { s with store := store })

/-- Notes when a survey was shown to a profile. -/
def setLastShown (s : Service σ) (profile : Profile) (n : Int64) :
    Except Failure Unit × Service σ :=
  let (r, store) := Backend.setLastShown profile n s.store
  (r, { s with store := store })

/-- Notes that a survey is shown to a profile now. -/
def markShown (s : Service σ) (profile : Profile) : Except Failure Unit × Service σ :=
  match s.setLastShown profile s.clock.now with
  | (.error f, s) => (.error (.inside (.markShown profile) f), s)
  | (.ok (), s) => (.ok (), s)

/-- Whether the topic was studied long enough; not if its record cannot be read. -/
def studiedEnough (s : Service σ) (profile : Profile) (topic : String) : Bool × Service σ :=
  match s.topicRecord profile topic with
  | (.error _, s) => (false, s)
  | (.ok r, s) => (Survey.studiedEnough r.total s.settings.survey.threshold, s)

/-- Whether the last survey is long enough ago; not if that cannot be read. -/
def cooledDown (s : Service σ) (profile : Profile) : Bool × Service σ :=
  match s.lastShown profile with
  | (.error _, s) => (false, s)
  | (.ok shown, s) => (Survey.cooledDown s.clock.now shown s.settings.survey.cooldown, s)

/-- Whether a survey on a topic is to be shown to a profile now.  The conditions are looked at in
order, and the first one that does not hold decides. -/
def shouldShow (s : Service σ) (profile : Profile) (topic : String) :
    Except Abort Bool × Service σ :=
  match s.clock.local? with
  | .error a => (.error a, s)
  | .ok d =>
    if Survey.inWindow d.time s.settings.survey.windowStart s.settings.survey.windowEnd then
      match s.cooledDown profile with
      | (false, s) => (.ok false, s)
      | (true, s) =>
        let (enough, s) := s.studiedEnough profile topic
        (.ok enough, s)
    else (.ok false, s)

end Store

/-! ### Sessions -/

/-- The tracker with a number. -/
def tracker (s : Service σ) (n : Nat) : Tracker := (s.trackers.get? n).getD .idle

/-- Keeps a tracker. -/
def keepTracker (s : Service σ) (n : Nat) (t : Tracker) : Service σ :=
  { s with trackers := s.trackers.insert n t }

/-- Begins a session. -/
def begin (s : Service σ) (n : Nat) (profile : Profile) (topic : String) :
    Except Failure SessionId × Service σ :=
  let id := SessionId.ofNat s.nextSession
  match (s.tracker n).begin? id profile topic s.clock.now with
  | none => (.error .sessionActive, s)
  | some t => (.ok id, { s.keepTracker n t with nextSession := s.nextSession + 1 })

/-- Finishes a session: the tracker is idle from then on, and the time in the foreground is
merged into the ledger. -/
def finish [Backend σ] (s : Service σ) (n : Nat) : Except ServiceError Session × Service σ :=
  match (s.tracker n).finish? s.clock.now with
  | none => (.error (.failure .noSession), s)
  | some session =>
    match (s.keepTracker n .idle).record session.profile session.topic session.active with
    | (.error e, s) => (.error (.cache e), s)
    | (.ok (), s) => (.ok session, s)

/-- The application comes to the foreground. -/
def foreground (s : Service σ) (n : Nat) : Service σ :=
  s.keepTracker n ((s.tracker n).foreground s.clock.now)

/-- The application goes to the background; the answer is the time counted so far. -/
def background (s : Service σ) (n : Nat) : UInt64 × Service σ :=
  let t := (s.tracker n).background s.clock.now
  (t.baseline, s.keepTracker n t)

/-- Drops a session. -/
def cancel (s : Service σ) (n : Nat) : Service σ := s.keepTracker n .idle

end Service

/-! ### Steps -/

/-- What can be asked of a service. -/
inductive Step where
  | setClock (now : Int64)
  | advanceClock (delta : Int64)
  | now
  | localTime
  | difference (start stop : Int64)
  | staleness
  | record (profile : Profile) (topic : String) (duration : UInt64)
  /-- Merging sessions, and the numbers of those that are waited for. -/
  | recordBatch (items : List (Profile × String × UInt64)) (awaited : List Nat)
  | get (profile : Profile) (topic : String)
  | getAll (profile : Profile)
  | remove (profile : Profile)
  | deleteProfile (profile : Profile)
  | shouldShow (profile : Profile) (topic : String)
  | markShown (profile : Profile)
  | lastShown (profile : Profile)
  | setLastShown (profile : Profile) (n : Int64)
  | begin (tracker : Nat) (profile : Profile) (topic : String)
  | finish (tracker : Nat)
  | cancel (tracker : Nat)
  | foreground (tracker : Nat)
  | background (tracker : Nat)
  | status (tracker : Nat)
  | active (tracker : Nat)
  deriving DecidableEq, Repr

/-- The answers. -/
inductive Answer where
  | done
  | failed (e : ServiceError)
  | aborted (a : Abort)
  | instant (n : Int64)
  | duration (n : UInt64)
  | dateTime (d : DateTime)
  | record (r : TopicRecord)
  | records (rs : List (String × TopicRecord))
  | many (rs : List (Option (Except CacheError Unit)))
  | decision (yes : Bool)
  | shown (n : Option Int64)
  | begun (id : SessionId)
  | finished (s : Session)
  | status (s : Status)

namespace Answer

/-- The answer to what can fail with a cached document. -/
def ofCache {β : Type} (f : β → Answer) : Except CacheError β → Answer
  | .error e => .failed (.cache e)
  | .ok b => f b

/-- The answer to what can fail otherwise. -/
def ofFailure {β : Type} (f : β → Answer) : Except Failure β → Answer
  | .error e => .failed (.failure e)
  | .ok b => f b

/-- The answer to what can fail either way. -/
def ofService {β : Type} (f : β → Answer) : Except ServiceError β → Answer
  | .error e => .failed e
  | .ok b => f b

/-- The answer to what can abort. -/
def ofAbort {β : Type} (f : β → Answer) : Except Abort β → Answer
  | .error a => .aborted a
  | .ok b => f b

end Answer

namespace Service

variable {σ : Type} [Backend σ]

/-- One step. -/
def step (s : Service σ) : Step → Answer × Service σ
  | .setClock now =>
    let s := { s with clock := s.clock.set now }
    (.instant s.clock.now, s)
  | .advanceClock delta =>
    let s := { s with clock := s.clock.advance delta }
    (.instant s.clock.now, s)
  | .now => (.instant s.clock.now, s)
  | .localTime => (.ofAbort .dateTime s.clock.local?, s)
  | .difference start stop =>
    (match Saturating.sub? stop start with
      | none => .aborted .subtraction
      | some n => .instant n, s)
  | .staleness => (.duration s.settings.learning.staleness, s)
  | .record profile topic duration =>
    let (r, s) := s.record profile topic duration
    (.ofCache (fun _ => .done) r, s)
  | .recordBatch items awaited =>
    let (rs, s) := s.recordBatch items awaited
    (.many rs, s)
  | .get profile topic =>
    let (r, s) := s.topicRecord profile topic
    (.ofCache .record r, s)
  | .getAll profile =>
    let (r, s) := s.ledger profile
    (.ofCache (fun l => .records l.toList) r, s)
  | .remove profile =>
    let (r, s) := s.remove profile
    (.ofCache (fun _ => .done) r, s)
  | .deleteProfile profile =>
    let (r, s) := s.deleteProfile profile
    (.ofService (fun _ => .done) r, s)
  | .shouldShow profile topic =>
    let (r, s) := s.shouldShow profile topic
    (.ofAbort .decision r, s)
  | .markShown profile =>
    let (r, s) := s.markShown profile
    (.ofFailure (fun _ => .done) r, s)
  | .lastShown profile =>
    let (r, s) := s.lastShown profile
    (.ofFailure .shown r, s)
  | .setLastShown profile n =>
    let (r, s) := s.setLastShown profile n
    (.ofFailure (fun _ => .done) r, s)
  | .begin n profile topic =>
    let (r, s) := s.begin n profile topic
    (.ofFailure .begun r, s)
  | .finish n =>
    let (r, s) := s.finish n
    (.ofService .finished r, s)
  | .cancel n => (.done, s.cancel n)
  | .foreground n => (.done, s.foreground n)
  | .background n =>
    let (b, s) := s.background n
    (.duration b, s)
  | .status n => (.status (s.tracker n).status, s)
  | .active n => (.duration ((s.tracker n).active s.clock.now), s)

/-- A list of steps, with the answers in order. -/
def run (s : Service σ) : List Step → List Answer × Service σ
  | [] => ([], s)
  | st :: steps =>
    let (a, s) := s.step st
    let (as, s) := run s steps
    (a :: as, s)

theorem run_cons (s : Service σ) (st : Step) (steps : List Step) :
    s.run (st :: steps) =
      ((s.step st).1 :: ((s.step st).2.run steps).1, ((s.step st).2.run steps).2) := rfl

end Service

end StudyTime
