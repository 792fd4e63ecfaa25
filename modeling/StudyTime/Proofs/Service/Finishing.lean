/-
**A session is finished once, and recorded at most once.**

A tracker is idle before it is known whether the session that it followed can be recorded.  So a session
whose ledger cannot be loaded or stored is lost: what there is of every profile, in memory and in the store,
is what there was, and to finish the tracker again is to fail again, until another session begins on it.  A
session that is recorded changes the record of its own topic, as recording its time directly would, and
nothing else.  Other trackers are not touched either way.  In any course of events, whatever is refused and
however often the service is started anew, every session that is recorded was begun, and no two recordings
go back to the same beginning.

Main definitions:

* `Service.Credited`, `Service.Unchanged` — what a session on record has changed, and that nothing has;
* `Service.Finishes`, `Service.Ends` — what it comes to that a tracker finishes a session;
* `Exchange.Begins`, `Exchange.Records` — exchanges in which sessions begin and are recorded;
* `RecordsOnce`, `System.FinishesOnce` — sessions are recorded at most once.

Main results:

* `Service.finish_of_session` — to finish a session is to record it and to make the tracker idle;
* `Service.ends` — **finishing a session**, in every state of a service;
* `System.session?_happen` — the session of a tracker after an event;
* `System.begun_of_records` — **a session that is recorded was begun**, and not finished since;
* `System.sessions_recorded_once` — **sessions are recorded at most once**, by every service.
-/

import Mathlib.Data.Set.Function
import StudyTime.Proofs.Service.Aggregates
import StudyTime.Proofs.Service.Systems
import StudyTime.Proofs.Tracker.Windows

set_option relaxedAutoImplicit false
set_option autoImplicit false

namespace StudyTime

/-! ### Finishing a session -/

/-- The session that a tracker finishes at an instant. -/
def OpenSession.close (o : OpenSession) (stop : Int64) (active : UInt64) : Session :=
  ⟨o.id, o.profile, o.topic, o.started, stop, active⟩

/-- What was known of a session from its beginning. -/
def Session.opening (session : Session) : OpenSession :=
  ⟨session.id, session.profile, session.topic, session.started⟩

namespace Service

variable {σ : Type} [Backend σ] [LawfulStore σ]

/-- What there is of every profile, and what is kept, is what it was. -/
structure Unchanged (s s' : Service σ) : Prop where
  kept_eq : kept s'.store = kept s.store
  aggregate_eq : ∀ q, s'.aggregate q = s.aggregate q

/-- The second service has one session more on record. -/
structure Credited (session : Session) (s s' : Service σ) : Prop where
  /-- It is what comes of recording the time directly. -/
  recorded : ∃ s₁, s.record session.profile session.topic session.active = (.ok (), s₁) ∧
    s'.caches = s₁.caches ∧ s'.store = s₁.store
  /-- The session is merged into the record of its topic. -/
  merged : ∃ l l', s.aggregate session.profile = .ok l ∧ s'.aggregate session.profile = .ok l' ∧
    l'.get? session.topic = some (l.sessionRecord session.topic session.active s.clock.now
      s.settings.learning.staleness) ∧
    ∀ topic, topic ≠ session.topic → l'.get? topic = l.get? topic
  /-- What there is now can be read. -/
  readable : ∀ l, s'.aggregate session.profile = .ok l → (s'.ledger session.profile).1 = .ok l
  others : ∀ q, q ≠ session.profile → s'.aggregate q = s.aggregate q
  /-- All that is new in the store is the text of the ledger. -/
  kept_eq : ∃ text, kept s'.store = (kept s.store).setPayload (ledgerKey session.profile) (some text) ∧
    ledgerOf (kept s'.store) session.profile = s'.aggregate session.profile

/-- What comes of finishing a session. -/
structure Finishes (s : Service σ) (n : Nat) (session : Session)
    (out : Except ServiceError Session × Service σ) : Prop where
  /-- The tracker is idle, and its fields are blank. -/
  tracker_eq : out.2.tracker n = .idle ∧ (out.2.tracker n).fields = .blank
  others_eq : ∀ m, m ≠ n → out.2.tracker m = s.tracker m
  clock_eq : out.2.clock = s.clock
  settings_eq : out.2.settings = s.settings
  /-- It is the session with the time so far that is recorded. -/
  of_ok : ∀ session', out.1 = .ok session' → session' = session ∧ s.Credited session out.2
  /-- It is the ledger of its profile that cannot be loaded or stored. -/
  of_error : ∀ e, out.1 = .error e → (∃ c, e = .cache c ∧ c.key = ledgerKey session.profile) ∧
    s.Unchanged out.2

/-- What it comes to that a tracker is to finish. -/
structure Ends (s : Service σ) (n : Nat) : Prop where
  of_idle : s.tracker n = .idle → s.finish n = (.error (.failure .noSession), s)
  of_session : ∀ o, (s.tracker n).session? = some o →
    s.Finishes n (o.close s.clock.now ((s.tracker n).active s.clock.now)) (s.finish n)

variable {s : Service σ} {n : Nat} {session : Session}

/-- Where a session can be recorded it is on record then, and nothing else is different. -/
theorem credited_of_record (h : (s.record session.profile session.topic session.active).1 = .ok ()) :
    s.Credited session (s.record session.profile session.topic session.active).2 := by
  have hmerges := s.merges_record session.profile session.topic session.active
  generalize hout : s.record session.profile session.topic session.active = out at hmerges h
  cases hmerges with
  | failed => cases h
  | @merged l l' text s₁ hl hl' htext hkept hread hothers =>
      have haggregate := aggregate_of_ledger hread
      refine ⟨⟨s₁, hout, rfl, rfl⟩, ⟨l, l', hl, haggregate, ?_, ?_⟩, ?_, hothers, text, hkept, ?_⟩
      · rw [← hl']
        exact l.topics.get?_insert_self session.topic _
      · intro topic htopic
        rw [← hl']
        exact l.topics.get?_insert_of_ne _ htopic
      · intro l₁ hl₁
        cases haggregate.symm.trans hl₁
        exact hread
      · rw [hkept, ledgerOf_setPayload_self, haggregate]
        exact Cache.decode_encode htext

/-- Where it cannot be recorded nothing has changed. -/
theorem unchanged_of_record {profile : Profile} {topic : String} {duration : UInt64} {e : CacheError}
    (h : (s.record profile topic duration).1 = .error e) :
    e.key = ledgerKey profile ∧ s.Unchanged (s.record profile topic duration).2 := by
  have hmerges := s.merges_record profile topic duration
  generalize s.record profile topic duration = out at hmerges h
  cases hmerges with
  | failed hkey hkept haggregate =>
      cases h
      exact ⟨hkey, hkept, haggregate⟩
  | merged => cases h

/-- Trackers are nothing to what is on record. -/
theorem Credited.keepTracker {s' : Service σ} (h : Credited session s s') (n : Nat) (t : Tracker) :
    Credited session s (s'.keepTracker n t) :=
  ⟨h.recorded, h.merged, h.readable, h.others, h.kept_eq⟩

theorem Unchanged.keepTracker {s' : Service σ} (h : Unchanged s s') (n : Nat) (t : Tracker) :
    Unchanged s (s'.keepTracker n t) :=
  ⟨h.kept_eq, h.aggregate_eq⟩

omit [LawfulStore σ] in
/-- A tracker that was to finish is idle, and the other ones are as they were. -/
theorem tracker_finish (s : Service σ) (n m : Nat) :
    (s.finish n).2.tracker m = if m = n then .idle else s.tracker m := by
  obtain ⟨e, he, -, htracker⟩ := s.step_of_tracker (rfl : (Step.finish n).tracker? = some n)
  cases he
  have hidle : ((s.tracker n).step (.finish s.clock.now)).2 = .idle := by
    cases s.tracker n <;> rfl
  rw [hidle] at htracker
  exact htracker m

omit [LawfulStore σ] in
/-- To finish a session is to record it and to make the tracker idle.  It makes no difference which of these
comes first, since recording does not look at trackers. -/
theorem finish_of_session {o : OpenSession} (ho : (s.tracker n).session? = some o)
    (hsession : o.close s.clock.now ((s.tracker n).active s.clock.now) = session) :
    s.finish n =
      (((s.record session.profile session.topic session.active).1.map fun _ => session).mapError .cache,
        (s.record session.profile session.topic session.active).2.keepTracker n .idle) := by
  have hfinish : (s.tracker n).finish? s.clock.now = some session := by
    rw [Tracker.finish?, ho, ← hsession]
    rfl
  have hrecord : (s.keepTracker n .idle).record session.profile session.topic session.active =
      ((s.record session.profile session.topic session.active).1,
        (s.record session.profile session.topic session.active).2.keepTracker n .idle) := rfl
  simp only [finish, hfinish, hrecord]
  generalize s.record session.profile session.topic session.active = out
  obtain ⟨r, s₁⟩ := out
  cases r <;> rfl

/-- **Finishing a session** makes the tracker idle, and records the session or changes nothing. -/
theorem ends (s : Service σ) (n : Nat) : s.Ends n := by
  constructor
  · intro hidle
    simp only [finish, hidle, Tracker.finish?, Tracker.session?, Option.map_none]
  · intro o ho
    generalize hsession : o.close s.clock.now ((s.tracker n).active s.clock.now) = session
    have hidle : (s.finish n).2.tracker n = .idle := (s.tracker_finish n n).trans (if_pos rfl)
    have hfinish := finish_of_session ho hsession
    refine ⟨⟨hidle, congrArg Tracker.fields hidle⟩, fun m hm => (s.tracker_finish n m).trans (if_neg hm),
      ?_, ?_, ?_, ?_⟩
    · rw [hfinish]
      rfl
    · rw [hfinish]
      rfl
    · intro session' hok
      rw [hfinish] at hok ⊢
      cases hr : (s.record session.profile session.topic session.active).1 with
      | error e =>
          rw [hr] at hok
          cases hok
      | ok =>
          rw [hr] at hok
          cases hok
          exact ⟨rfl, (credited_of_record hr).keepTracker n .idle⟩
    · intro e he
      rw [hfinish] at he ⊢
      cases hr : (s.record session.profile session.topic session.active).1 with
      | error c =>
          rw [hr] at he
          cases he
          obtain ⟨hkey, hunchanged⟩ := unchanged_of_record hr
          exact ⟨⟨c, rfl, hkey⟩, hunchanged.keepTracker n .idle⟩
      | ok =>
          rw [hr] at he
          cases he

end Service

/-! ### Exchanges -/

namespace Exchange

variable {τ : Type}

/-- A session begins on a tracker. -/
structure Begins (e : Exchange τ) (n : Nat) (o : OpenSession) : Prop where
  event_eq : e.event = .ask (.begin n o.profile o.topic)
  answer_eq : e.answer = some (.begun o.id)
  now_eq : e.now = some o.started

/-- A tracker finishes a session, and it is recorded. -/
structure Records (e : Exchange τ) (n : Nat) (session : Session) : Prop where
  event_eq : e.event = .ask (.finish n)
  answer_eq : e.answer = some (.finished session)

end Exchange

/-- No tracker with this number is to finish from one exchange on until another one. -/
def Unfinished {τ : Type} (es : List (Exchange τ)) (n i j : Nat) : Prop :=
  ∀ k, i ≤ k → k < j → ∀ e, es[k]? = some e → e.event ≠ .ask (.finish n)

/-- An exchange more in front. -/
theorem Unfinished.cons {τ : Type} {es : List (Exchange τ)} {n i j : Nat} (h : Unfinished es n i j)
    {e : Exchange τ} : Unfinished (e :: es) n (i + 1) (j + 1) := by
  intro k hik hkj e' he'
  cases k with
  | zero => cases hik
  | succ k => exact h k (Nat.le_of_succ_le_succ hik) (Nat.lt_of_succ_lt_succ hkj) e' he'

/-- An exchange more in front in which the tracker is not to finish. -/
theorem Unfinished.cons_zero {τ : Type} {es : List (Exchange τ)} {n j : Nat} (h : Unfinished es n 0 j)
    {e : Exchange τ} (he : e.event ≠ .ask (.finish n)) : Unfinished (e :: es) n 0 (j + 1) := by
  intro k _ hkj e' he'
  cases k with
  | zero =>
      cases he'
      exact he
  | succ k => exact h k (Nat.zero_le k) (Nat.lt_of_succ_lt_succ hkj) e' he'

/-- Every session that is recorded was begun on the same tracker, and no two of them at once: the exchange in
which it began is told by the one in which it is recorded. -/
structure RecordsOnce {τ : Type} (es : List (Exchange τ)) (origin : Nat → Nat) : Prop where
  begun : ∀ j r n session, es[j]? = some r → r.Records n session →
    origin j < j ∧ Unfinished es n (origin j) j ∧
    ∃ b, es[origin j]? = some b ∧ b.Begins n session.opening
  injOn : Set.InjOn origin {j | ∃ r n session, es[j]? = some r ∧ Exchange.Records r n session}

/-- The exchange in which a session began is passed by the first exchange in which its tracker is to finish,
so it is not the beginning of what is recorded later. -/
theorem RecordsOnce.of_begun {τ : Type} {es : List (Exchange τ)} {origin : Nat → Nat}
    (h : ∀ j r n session, es[j]? = some r → r.Records n session →
      origin j < j ∧ Unfinished es n (origin j) j ∧
      ∃ b, es[origin j]? = some b ∧ b.Begins n session.opening) : RecordsOnce es origin := by
  have hlater : ∀ {j j' : Nat}, j < j' → (∃ r n session, es[j]? = some r ∧ Exchange.Records r n session) →
      (∃ r n session, es[j']? = some r ∧ Exchange.Records r n session) → origin j ≠ origin j' := by
    rintro j j' hjj' ⟨r, n, session, hj, hrecords⟩ ⟨r', n', session', hj', hrecords'⟩ horigin
    obtain ⟨hij, -, b, hb, hbegins⟩ := h j r n session hj hrecords
    obtain ⟨-, hunfinished, b', hb', hbegins'⟩ := h j' r' n' session' hj' hrecords'
    rw [horigin] at hij hb
    cases hb.symm.trans hb'
    have hsame := hbegins.event_eq.symm.trans hbegins'.event_eq
    simp only [Event.ask.injEq, Step.begin.injEq] at hsame
    obtain ⟨rfl, -⟩ := hsame
    exact hunfinished j (Nat.le_of_lt hij) hjj' r hj hrecords.event_eq
  refine ⟨h, fun j hj j' hj' horigin => ?_⟩
  obtain hlt | heq | hgt := Nat.lt_trichotomy j j'
  · exact absurd horigin (hlater hlt hj hj')
  · exact heq
  · exact absurd horigin.symm (hlater hgt hj' hj)

/-! ### Courses -/

namespace System

variable {μ σ : Type} [Backend σ] [TroubledStore σ] [PartitionedSystem μ σ]

/-- The session that a tracker of the system follows. -/
def session? (x : μ) (n : Nat) : Option OpenSession :=
  (service? x).bind fun s => (s.tracker n).session?

theorem session?_of_service {x : μ} {s : Service σ} (h : service? x = some s) (n : Nat) :
    session? x n = (s.tracker n).session? := by
  rw [session?, h, Option.bind_some]

/-- **The session of a tracker after an event**: there is none, or it is the one that was there and the
tracker was not to finish, or it has just begun. -/
theorem session?_happen (x : μ) (n : Nat) (e : Event (TroubledStore.Trouble σ)) :
    session? (happen x e).2 n = none ∨
    (session? (happen x e).2 n = session? x n ∧ e ≠ .ask (.finish n)) ∨
    ∃ o, session? (happen x e).2 n = some o ∧ (exchange x e).Begins n o := by
  cases e with
  | restart settings =>
      left
      simp only [happen, session?]
      cases hs : service? (restart settings x).2 with
      | none => rfl
      | some s => simp [Service.tracker, PartitionedSystem.restart_trackers hs, Tracker.session?]
  | befall t =>
      refine .inr (.inl ⟨?_, fun h => by cases h⟩)
      simp only [happen]
      split
      next => rfl
      next s hs =>
        rw [session?_of_service hs, session?_of_service (service?_running _)]
        rfl
  | ask st =>
      cases hs : service? x with
      | none =>
          left
          simp only [happen, hs, session?, Option.bind_none]
      | some s =>
          have hafter : (happen x (.ask st)).2 = running (s.step st).2 := by simp only [happen, hs]
          have hexchange : exchange x (.ask st) = ⟨some s.clock.now, .ask st, some (s.step st).1⟩ := by
            simp only [exchange, happen, hs, Option.map_some]
          rw [hafter, hexchange, session?_of_service hs, session?_of_service (service?_running _)]
          obtain hnone | ⟨hsame, hst⟩ | ⟨o, ho, hst, hanswer, hnow⟩ := s.session?_step st n
          · exact .inl hnone
          · exact .inr (.inl ⟨hsame, fun h => hst (by cases h; rfl)⟩)
          · exact .inr (.inr ⟨o, ho, by rw [hst], by rw [hanswer], by rw [hnow]⟩)

/-- A session that is recorded is the one that the tracker follows. -/
theorem session?_of_records {x : μ} {n : Nat} {e : Event (TroubledStore.Trouble σ)} {session : Session}
    (h : (exchange x e).Records n session) : session? x n = some session.opening := by
  obtain ⟨hevent, hanswer⟩ := h
  have hevent : e = .ask (.finish n) := hevent
  subst hevent
  have hanswer : (happen x (.ask (.finish n))).1 = some (.finished session) := hanswer
  simp only [happen] at hanswer
  split at hanswer
  next => cases hanswer
  next s hs =>
    have hfinish := Service.session_of_finished (Option.some.inj hanswer)
    rw [Tracker.finish?, Option.map_eq_some_iff] at hfinish
    obtain ⟨o, ho, rfl⟩ := hfinish
    rw [session?_of_service hs, ho]
    rfl

/-! ### Sessions that are recorded were begun -/

/-- **A session that is recorded was begun** in the course and not finished since, or the tracker followed it
in the beginning. -/
theorem begun_of_records {n : Nat} {session : Session} (events : List (Event (TroubledStore.Trouble σ))) :
    ∀ {x : μ} {j : Nat} {r : Exchange (TroubledStore.Trouble σ)}, (course x events).1[j]? = some r →
      r.Records n session →
      (∃ i b, (course x events).1[i]? = some b ∧ b.Begins n session.opening ∧ i < j ∧
        Unfinished (course x events).1 n i j) ∨
      session? x n = some session.opening ∧ Unfinished (course x events).1 n 0 j := by
  induction events with
  | nil =>
      intro x j r hj
      cases hj
  | cons e events ih =>
      intro x j r hj hrecords
      rw [course_cons] at hj ⊢
      cases j with
      | zero =>
          cases hj
          exact .inr ⟨session?_of_records hrecords, fun k _ hk => absurd hk (Nat.not_lt_zero k)⟩
      | succ j =>
          obtain ⟨i, b, hb, hbegins, hij, hunfinished⟩ | ⟨hsession, hunfinished⟩ := ih hj hrecords
          · exact .inl ⟨i + 1, b, hb, hbegins, Nat.succ_lt_succ hij, hunfinished.cons⟩
          · obtain hnone | ⟨hsame, hevent⟩ | ⟨o, ho, hbegins⟩ := session?_happen x n e
            · cases hnone.symm.trans hsession
            · exact .inr ⟨hsame.symm.trans hsession, hunfinished.cons_zero hevent⟩
            · -- it has just begun, and to begin is not to finish
              cases ho.symm.trans hsession
              refine .inl ⟨0, exchange x e, rfl, hbegins, Nat.succ_pos j, hunfinished.cons_zero ?_⟩
              rw [hbegins.event_eq]
              exact fun h => by cases h

/-- No session begins on a tracker by itself. -/
theorem session?_course {n : Nat} {events : List (Event (TroubledStore.Trouble σ))}
    (hevents : ∀ profile topic, .ask (.begin n profile topic) ∉ events) :
    ∀ {x : μ}, session? x n = none → session? (course x events).2 n = none := by
  induction events with
  | nil => exact fun h => h
  | cons e events ih =>
      intro x h
      refine ih (fun profile topic hmem => hevents profile topic (List.mem_cons_of_mem _ hmem)) ?_
      obtain hnone | ⟨hsame, -⟩ | ⟨o, -, hbegins⟩ := session?_happen x n e
      · exact hnone
      · exact hsame.trans h
      · exact absurd (hbegins.event_eq ▸ List.mem_cons_self) (hevents o.profile o.topic)

/-- A tracker without a session fails to finish, and nothing happens. -/
theorem happen_finish_of_none [LawfulStore σ] {x : μ} {s : Service σ} {n : Nat} (hs : service? x = some s)
    (h : session? x n = none) :
    happen x (.ask (.finish n)) = (some (.failed (.failure .noSession)), running s) := by
  have hidle : s.tracker n = .idle := by
    rw [session?_of_service hs] at h
    cases htracker : s.tracker n with
    | idle => rfl
    | running | paused =>
        rw [htracker] at h
        cases h
  simp only [happen, hs, Service.step, (s.ends n).of_idle hidle]
  rfl

/-- A tracker that was to finish follows no session. -/
theorem session?_of_finish (x : μ) (n : Nat) : session? (happen x (.ask (.finish n))).2 n = none := by
  obtain hnone | ⟨-, hfinish⟩ | ⟨o, -, hbegins⟩ := session?_happen x n (.ask (.finish n))
  · exact hnone
  · exact absurd rfl hfinish
  · cases hbegins.event_eq

/-- Sessions are recorded at most once by this system, from here on. -/
structure FinishesOnce [LawfulStore σ] (x : μ) : Prop where
  /-- Whatever a tracker follows, it is idle after it was to finish, and its session is on record or nothing
  has changed. -/
  ends : ∀ s, service? x = some s → ∀ n, s.Ends n
  /-- To finish again is to fail, and nothing happens, until another session begins. -/
  again : ∀ (n : Nat) (events : List (Event (TroubledStore.Trouble σ))),
    (∀ profile topic, .ask (.begin n profile topic) ∉ events) →
    ∀ s, service? (course (happen x (.ask (.finish n))).2 events).2 = some s →
      happen (course (happen x (.ask (.finish n))).2 events).2 (.ask (.finish n)) =
        (some (.failed (.failure .noSession)), running s)
  /-- If no tracker follows a session yet, every session that is recorded goes back to a beginning of its
  own. -/
  once : (∀ n, session? x n = none) → ∀ events, ∃ origin, RecordsOnce (course x events).1 origin

/-- **Every session that is recorded was begun**, and no two of them at once. -/
theorem recordsOnce {x : μ} (hx : ∀ n, session? x n = none)
    (events : List (Event (TroubledStore.Trouble σ))) : ∃ origin, RecordsOnce (course x events).1 origin := by
  have hbegun : ∀ j, ∃ i, ∀ r n session, (course x events).1[j]? = some r → r.Records n session →
      i < j ∧ Unfinished (course x events).1 n i j ∧
      ∃ b, (course x events).1[i]? = some b ∧ b.Begins n session.opening := by
    intro j
    by_cases hrecorded : ∃ r n session, (course x events).1[j]? = some r ∧ r.Records n session
    · obtain ⟨r, n, session, hj, hrecords⟩ := hrecorded
      obtain ⟨i, b, hb, hbegins, hij, hunfinished⟩ | ⟨hsession, -⟩ := begun_of_records events hj hrecords
      · refine ⟨i, fun r' n' session' hj' hrecords' => ?_⟩
        -- there is one exchange, and it tells the tracker and the session
        cases hj.symm.trans hj'
        cases hrecords.event_eq.symm.trans hrecords'.event_eq
        cases hrecords.answer_eq.symm.trans hrecords'.answer_eq
        exact ⟨hij, hunfinished, b, hb, hbegins⟩
      · cases (hx n).symm.trans hsession
    · exact ⟨0, fun r n session hj hrecords => absurd ⟨r, n, session, hj, hrecords⟩ hrecorded⟩
  choose origin horigin using hbegun
  exact ⟨origin, .of_begun horigin⟩

theorem finishesOnce [LawfulStore σ] (x : μ) : FinishesOnce x := by
  refine ⟨fun s _ n => s.ends n, ?_, recordsOnce⟩
  intro n events hevents s hs
  exact happen_finish_of_none hs (session?_course hevents (session?_of_finish x n))

/-- **Sessions are finished once and recorded at most once**, by every service over a store in memory or over
a database, and by every installation, whatever befalls their stores and however often they are started
anew. -/
theorem sessions_recorded_once :
    (∀ s : Service Memory, FinishesOnce s) ∧ (∀ s : Service Database, FinishesOnce s) ∧
    ∀ i : Installation, FinishesOnce i :=
  ⟨finishesOnce, finishesOnce, finishesOnce⟩

/-- Two sessions with one topic, of which the first one cannot be stored: the other one goes on, and of the
first one nothing is left. -/
theorem sessions_recorded_once_of_refusal :
    let start : Service Memory := .start ⟨0, .zero⟩ .usual .blank
    let begun : List (Event (Operation × Bool)) := [.ask (.begin 1 "p" "t"), .ask (.begin 2 "p" "t"),
      .ask (.advanceClock 5), .befall (.store, true)]
    let s : Service Memory := (course start begun).2
    let s' : Service Memory := (course (happen s (.ask (.finish 1))).2 [.befall (.store, false)]).2
    s.Unchanged (s.finish 1).2 ∧ (s.finish 1).2.tracker 2 = .running ⟨.ofNat 1, "p", "t", 0⟩ 0 0 ∧
    happen s' (.ask (.finish 1)) = (some (.failed (.failure .noSession)), s') ∧
    (∃ session, (s'.finish 2).1 = .ok session ∧ s'.Credited session (s'.finish 2).2) ∧
    ∃ origin, RecordsOnce (course start (begun ++ [.ask (.finish 1), .ask (.finish 2)])).1 origin := by
  intro start begun s s'
  obtain ⟨hends, hagain, -⟩ := sessions_recorded_once.1 s
  have hfinishes := (hends s rfl 1).of_session ⟨.ofNat 0, "p", "t", 0⟩ rfl
  have hfailed : (s.finish 1).1 =
      .error (.cache (.persist (ledgerKey "p") (.injected .store))) := by
    simp only [s, start, begun]
    rfl
  have hfinishes' := (sessions_recorded_once.1 s').ends s' rfl 2 |>.of_session ⟨.ofNat 1, "p", "t", 0⟩ rfl
  have hfinished : (s'.finish 2).1 = .ok ⟨.ofNat 1, "p", "t", 0, 5, 5⟩ := by
    simp only [s', s, start, begun]
    rfl
  refine ⟨(hfinishes.of_error _ hfailed).2, hfinishes.others_eq 2 (by decide), ?_, ?_, ?_⟩
  · exact hagain 1 [.befall (.store, false)] (fun _ _ h => by simp at h) s' rfl
  · obtain ⟨hsession, hcredited⟩ := hfinishes'.of_ok _ hfinished
    exact ⟨_, hfinished, hsession ▸ hcredited⟩
  · exact (sessions_recorded_once.1 start).once (fun n => rfl) _

end System

end StudyTime
