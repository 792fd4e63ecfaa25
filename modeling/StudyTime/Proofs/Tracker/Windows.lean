/-
**The time of a session is the time of its windows.**

Whatever is asked of a tracker, at whichever instants, its fields stay in line: there is an anchor as long
as it runs, there is a session as long as it is not idle, and nothing is left over when it is.  So a session
that ends can always be put together.  While a session is followed its time is that of the windows in which
it was in the foreground.  A window opens when the session begins and whenever the application comes to the
foreground while none is open, and it closes when the application goes to the background, or now.  Clocks
that go back make a window worth nothing, and only the sum of all is held at the largest duration.

Main definitions:

* `inProgress` — the session that a history leaves in progress, with the events since it began;
* `windows`, `total` — the windows of these events, and how long they are together;
* `TrackerFields.InLine`, `TrackerFields.Measures` — what can be said of the fields;
* `Service.asked` — what a service asks of one of its trackers.

Main results:

* `TrackerFields.run_fields` — **the fields are those of a tracker that cannot get out of line**;
* `Tracker.active_run` — the time after a list of events;
* `Service.fields_run` — the trackers of a service are asked and answer in the same way;
* `fields_measure_windows` — all of this about every history.
-/

import StudyTime.Tracker.Fields
import StudyTime.Proofs.Service.Views

set_option relaxedAutoImplicit false
set_option autoImplicit false

namespace StudyTime

/-! ### Histories -/

/-- Whether a session that is in progress ends. -/
def TrackerEvent.ends : TrackerEvent → Bool
  | .finish _ | .cancel => true
  | _ => false

/-- The session in progress after an event, with the events since it began. -/
def follow : Option (OpenSession × List TrackerEvent) → TrackerEvent →
    Option (OpenSession × List TrackerEvent)
  | none, .begin id profile topic now => some (⟨id, profile, topic, now⟩, [])
  | none, _ => none
  | some (s, es), e => if e.ends then none else some (s, es ++ [e])

/-- The session that a history leaves in progress, with the events since it began. -/
def inProgress (history : List TrackerEvent) : Option (OpenSession × List TrackerEvent) :=
  history.foldl follow none

/-- When the window was opened that is open after an event, given the one that was open before. -/
def nextOpen : Option Int64 → TrackerEvent → Option Int64
  | none, .foreground now => some now
  | some _, .background _ => none
  | opened, _ => opened

/-- The windows of the events, given the one that is open before them; one that is open in the end closes
now. -/
def windows (now : Int64) : Option Int64 → List TrackerEvent → List (Int64 × Int64)
  | none, [] => []
  | some opened, [] => [(opened, now)]
  | some opened, .background closed :: es => (opened, closed) :: windows now none es
  | opened, e :: es => windows now (nextOpen opened e) es

/-- How long the windows are together, where a window that closes before it opens is worth nothing, and none
is worth more than the last instant. -/
def total : List (Int64 × Int64) → Nat
  | [] => 0
  | (opened, closed) :: ws =>
    (max 0 (min (closed.toInt - opened.toInt) 0x7FFFFFFFFFFFFFFF)).toNat + total ws

/-! ### Fields in line -/

namespace TrackerFields

/-- The fields agree with the status. -/
structure InLine (f : TrackerFields) : Prop where
  id_eq_none_iff : f.id = none ↔ f.status = .idle
  profile_eq_none_iff : f.profile = none ↔ f.status = .idle
  topic_eq_none_iff : f.topic = none ↔ f.status = .idle
  /-- Nothing is left over. -/
  eq_blank_of_idle : f.status = .idle → f = blank
  anchor_isSome_iff : f.anchor.isSome ↔ f.status = .running
  of_paused : f.status = .paused →
    f.id.isSome ∧ f.profile.isSome ∧ f.topic.isSome ∧ f.anchor = none

end TrackerFields

namespace Tracker

theorem inLine_fields (t : Tracker) : t.fields.InLine := by
  cases t <;> constructor <;> simp [fields, TrackerFields.blank]

/-- **The fields answer what the tracker answers**, and go where it goes. -/
theorem step_fields (t : Tracker) (e : TrackerEvent) :
    t.fields.step e = ((t.step e).1, (t.step e).2.fields) := by
  cases t <;> cases e <;> rfl

theorem run_fields (es : List TrackerEvent) :
    ∀ t : Tracker, t.fields.run es = ((t.run es).1, (t.run es).2.fields) := by
  induction es with
  | nil =>
      intro t
      rfl
  | cons e es ih =>
      intro t
      rw [TrackerFields.run_cons, run_cons, step_fields, ih]

theorem run_concat (es : List TrackerEvent) (e : TrackerEvent) :
    ∀ t : Tracker, (t.run (es ++ [e])).2 = ((t.run es).2.step e).2 := by
  induction es with
  | nil =>
      intro t
      rfl
  | cons e' es ih =>
      intro t
      exact ih (t.step e').2

/-! ### A session in progress -/

/-- A tracker that follows a session goes on with it, unless it ends.  The anchor is the opening of the
window that is open, and the time is taken to the baseline when this window closes. -/
theorem step_of_session {t : Tracker} {s : OpenSession} (h : t.session? = some s) {e : TrackerEvent}
    (he : e.ends = false) :
    (t.step e).2.session? = some s ∧ (t.step e).2.anchor? = nextOpen t.anchor? e ∧
      ∀ now es, min ((t.step e).2.baseline.toNat + total (windows now (nextOpen t.anchor? e) es))
          Saturating.longest =
        min (t.baseline.toNat + total (windows now t.anchor? (e :: es))) Saturating.longest := by
  cases t with
  | idle => cases h
  | running s' baseline anchor =>
      cases e with
      | finish | cancel => cases he
      | begin | foreground | active | status => exact ⟨h, rfl, fun _ _ => rfl⟩
      | background closed =>
          refine ⟨h, rfl, ?_⟩
          intro now es
          change min ((active (.running s' baseline anchor) closed).toNat + total (windows now none es)) _ = _
          rw [active, Saturating.toNat_add, Saturating.toNat_elapsed]
          simp only [Tracker.baseline, anchor?, windows, total, Saturating.latest]
          omega
  | paused s' baseline =>
      cases e with
      | finish | cancel => cases he
      | begin | foreground | background | active | status => exact ⟨h, rfl, fun _ _ => rfl⟩

/-- After an event there is no session, or the one that was there and the tracker was not to finish, or one
that has just begun. -/
theorem session?_step (t : Tracker) (e : TrackerEvent) :
    (t.step e).2.session? = none ∨
    ((t.step e).2.session? = t.session? ∧ ∀ now, e ≠ .finish now) ∨
    ∃ id profile topic now, e = .begin id profile topic now ∧
      (t.step e).2.session? = some ⟨id, profile, topic, now⟩ ∧ (t.step e).1 = .begun id := by
  cases t with
  | idle =>
      cases e with
      | begin id profile topic now => exact .inr (.inr ⟨id, profile, topic, now, rfl, rfl, rfl⟩)
      | foreground | background | active | status | finish | cancel => exact .inl rfl
  | running | paused =>
      cases e with
      | finish | cancel => exact .inl rfl
      | begin | foreground | background | active | status =>
          exact .inr (.inl ⟨rfl, fun _ h => by cases h⟩)

theorem toNat_active (t : Tracker) (now : Int64) :
    (t.active now).toNat =
      min (t.baseline.toNat + total (windows now t.anchor? [])) Saturating.longest := by
  have hbaseline := t.baseline.toNat_lt
  cases t with
  | idle => rfl
  | running s baseline anchor =>
      rw [active, Saturating.toNat_add, Saturating.toNat_elapsed]
      simp only [Tracker.baseline, anchor?, windows, total, Saturating.latest]
      omega
  | paused s baseline =>
      simp only [active, Tracker.baseline, anchor?, windows, total, Saturating.longest] at hbaseline ⊢
      omega

/-- **The time after events** that do not end the session is the time before them and that of their
windows. -/
theorem active_run {es : List TrackerEvent} :
    ∀ {t : Tracker} {s : OpenSession}, t.session? = some s → (∀ e ∈ es, e.ends = false) →
      (t.run es).2.session? = some s ∧ (t.run es).2.anchor? = es.foldl nextOpen t.anchor? ∧
      ∀ now, ((t.run es).2.active now).toNat =
        min (t.baseline.toNat + total (windows now t.anchor? es)) Saturating.longest := by
  induction es with
  | nil =>
      intro t s h _
      exact ⟨h, rfl, t.toNat_active⟩
  | cons e es ih =>
      intro t s h hes
      obtain ⟨he, hrest⟩ := List.forall_mem_cons.1 hes
      obtain ⟨hsession, hanchor, htime⟩ := step_of_session h he
      obtain ⟨hsession', hanchor', hactive⟩ := ih hsession hrest
      rw [hanchor] at hanchor' hactive
      exact ⟨hsession', hanchor', fun now => (hactive now).trans (htime now es)⟩

/-! ### Every history -/

theorem active_fields (t : Tracker) (now : Int64) : t.fields.active now = t.active now := by
  cases t <;> rfl

/-- The tracker is where it was left by what is in progress. -/
def Follows (t : Tracker) : Option (OpenSession × List TrackerEvent) → Prop
  | none => t = .idle
  | some (s, es) => (∀ e ∈ es, e.ends = false) ∧ t = ((running s 0 s.started).run es).2

theorem Follows.step {t : Tracker} {p : Option (OpenSession × List TrackerEvent)} (h : t.Follows p)
    (e : TrackerEvent) : (t.step e).2.Follows (follow p e) := by
  cases p with
  | none =>
      subst h
      cases e with
      | begin id profile topic now => exact ⟨fun e he => (by cases he), rfl⟩
      | foreground | background | active | status | finish | cancel => rfl
  | some p =>
      obtain ⟨s, es⟩ := p
      obtain ⟨hes, rfl⟩ := h
      cases he : e.ends with
      | true =>
          simp only [follow, he, if_true, Follows]
          generalize ((running s 0 s.started).run es).2 = t
          cases e with
          | finish now => cases t <;> rfl
          | cancel => rfl
          | begin | foreground | background | active | status => cases he
      | false =>
          simp only [follow, he, if_neg Bool.false_ne_true, Follows]
          refine ⟨?_, (run_concat es e _).symm⟩
          intro e' he'
          rcases List.mem_append.1 he' with he' | he'
          · exact hes e' he'
          · rw [List.mem_singleton.1 he', he]

theorem Follows.run {es : List TrackerEvent} :
    ∀ {t : Tracker} {p : Option (OpenSession × List TrackerEvent)}, t.Follows p →
      (t.run es).2.Follows (es.foldl follow p) := by
  induction es with
  | nil => exact fun h => h
  | cons e es ih => exact fun h => ih (h.step e)

end Tracker

namespace TrackerFields

/-- What the fields say of the session in progress, given the events since it began. -/
def Measures (f : TrackerFields) : Option (OpenSession × List TrackerEvent) → Prop
  | none => f = blank
  | some (s, es) =>
    (f.id = some s.id ∧ f.profile = some s.profile ∧ f.topic = some s.topic ∧ f.started = s.started) ∧
    f.anchor = es.foldl nextOpen (some s.started) ∧
    ∀ now, (f.active now).toNat = min (total (windows now (some s.started) es)) Saturating.longest

/-- What is answered to those events that end a window or the session, and which events change nothing. -/
structure Heeds (f : TrackerFields) (p : Option (OpenSession × List TrackerEvent)) (now : Int64) : Prop where
  /-- What is answered is the time so far, and it is the same afterwards. -/
  background : (f.step (.background now)).1 = .duration (f.active now) ∧
    ∀ later, f.status = .running → (f.step (.background now)).2.active later = f.active now
  foreground_of_running : f.status = .running → (f.step (.foreground now)).2 = f
  background_of_paused : f.status = .paused → (f.step (.background now)).2 = f
  finish_of_none : p = none → f.step (.finish now) = (.unfinished .noSession, blank)
  /-- The session that ends is the one in progress, with the time so far. -/
  finish_of_some : ∀ {s es}, p = some (s, es) → f.step (.finish now) =
    (.finished ⟨s.id, s.profile, s.topic, s.started, now, f.active now⟩, blank)

end TrackerFields

namespace Tracker

theorem anchor_fields (t : Tracker) : t.fields.anchor = t.anchor? := by
  cases t <;> rfl

/-- The fields of a tracker that follows a session are filled in. -/
theorem fields_of_session {t : Tracker} {s : OpenSession} (h : t.session? = some s) :
    t.fields.id = some s.id ∧ t.fields.profile = some s.profile ∧ t.fields.topic = some s.topic ∧
      t.fields.started = s.started := by
  cases t with
  | idle => cases h
  | running | paused =>
      cases h
      exact ⟨rfl, rfl, rfl, rfl⟩

/-- A session that ends can be put together from the fields. -/
theorem finish_fields {t : Tracker} {s : OpenSession} (h : t.session? = some s) (now : Int64) :
    t.fields.step (.finish now) =
      (.finished ⟨s.id, s.profile, s.topic, s.started, now, t.active now⟩, .blank) := by
  cases t with
  | idle => cases h
  | running | paused =>
      cases h
      rfl

theorem Follows.session? {t : Tracker} {s : OpenSession} {es : List TrackerEvent}
    (h : t.Follows (some (s, es))) : t.session? = some s := by
  obtain ⟨hes, rfl⟩ := h
  exact (active_run (t := running s 0 s.started) rfl hes).1

theorem Follows.measures {t : Tracker} {p : Option (OpenSession × List TrackerEvent)} (h : t.Follows p) :
    t.fields.Measures p := by
  cases p with
  | none => exact congrArg fields h
  | some p =>
      obtain ⟨s, es⟩ := p
      have hsession := h.session?
      obtain ⟨hes, rfl⟩ := h
      obtain ⟨-, hanchor, hactive⟩ := active_run (t := running s 0 s.started) rfl hes
      refine ⟨fields_of_session hsession, (anchor_fields _).trans hanchor, ?_⟩
      intro now
      rw [active_fields, hactive now, baseline, UInt64.toNat_zero, Nat.zero_add]
      rfl

theorem Follows.heeds {t : Tracker} {p : Option (OpenSession × List TrackerEvent)} (h : t.Follows p)
    (now : Int64) : t.fields.Heeds p now := by
  constructor
  · cases t with
    | idle => exact ⟨rfl, fun _ hrunning => by cases hrunning⟩
    | running => exact ⟨rfl, fun _ _ => rfl⟩
    | paused => exact ⟨rfl, fun _ hrunning => by cases hrunning⟩
  · cases t with
    | running => exact fun _ => rfl
    | idle | paused => exact fun hrunning => by cases hrunning
  · cases t with
    | paused => exact fun _ => rfl
    | idle | running => exact fun hpaused => by cases hpaused
  · rintro rfl
    rw [show t = .idle from h]
    rfl
  · rintro s es rfl
    rw [finish_fields h.session? now, active_fields]

end Tracker

/-! ### The trackers of a service -/

/-- The event of a step of a tracker, at an instant; a session that begins gets this identifier. -/
def Step.event (id : SessionId) (now : Int64) : Step → Option TrackerEvent
  | .begin _ profile topic => some (.begin id profile topic now)
  | .finish _ => some (.finish now)
  | .cancel _ => some .cancel
  | .foreground _ => some (.foreground now)
  | .background _ => some (.background now)
  | .status _ => some .status
  | .active _ => some (.active now)
  | _ => none

/-- A service says what its tracker answers, unless a session that was finished cannot be recorded. -/
def Answer.Says (a : Answer) : TrackerAnswer → Prop
  | .done => a = .done
  | .begun id => a = .begun id
  | .busy => a = .failed (.failure .sessionActive)
  | .duration n => a = .duration n
  | .status s => a = .status s
  | .finished s => a = .finished s ∨ ∃ e, a = .failed (.cache e)
  | .unfinished e => e = .noSession ∧ ∃ f : Failure, a = .failed (.failure f) ∧ f.message = e.message

namespace Service

variable {σ : Type}

/-- What a step asks of a tracker of the service. -/
def asks (s : Service σ) (n : Nat) (st : Step) : Option TrackerEvent :=
  if st.tracker? = some n then st.event (SessionId.ofNat s.nextSession) s.clock.now else none

theorem tracker_keepTracker (s : Service σ) (n m : Nat) (t : Tracker) :
    (s.keepTracker m t).tracker n = if n = m then t else s.tracker n := by
  simp only [tracker, keepTracker, SortedMap.get?_insert]
  split <;> rfl

theorem tracker_eq_of_trackers {s s' : Service σ} (h : s'.trackers = s.trackers) (n : Nat) :
    s'.tracker n = s.tracker n := by
  rw [tracker, tracker, h]

theorem tracker_eq_ite (s : Service σ) (n m : Nat) :
    s.tracker n = if n = m then s.tracker m else s.tracker n := by
  split
  next h => rw [h]
  next => rfl

variable [Backend σ]

/-- What is asked of a tracker in the course of the steps, and what the service answers. -/
def asked (n : Nat) : Service σ → List Step → List (TrackerEvent × Answer)
  | _, [] => []
  | s, st :: steps =>
    ((s.asks n st).map fun e => (e, (s.step st).1)).toList ++ asked n (s.step st).2 steps

/-- **A step of a tracker** is answered by this tracker, and no other one is changed. -/
theorem step_of_tracker (s : Service σ) {st : Step} {m : Nat} (hst : st.tracker? = some m) :
    ∃ e, st.event (SessionId.ofNat s.nextSession) s.clock.now = some e ∧
      (s.step st).1.Says ((s.tracker m).step e).1 ∧
      ∀ n, (s.step st).2.tracker n = if n = m then ((s.tracker m).step e).2 else s.tracker n := by
  cases st with
  | begin k profile topic =>
      cases hst
      refine ⟨_, rfl, ?_⟩
      simp only [step, begin, Tracker.step]
      cases (s.tracker m).begin? (SessionId.ofNat s.nextSession) profile topic s.clock.now with
      | none => exact ⟨rfl, fun n => s.tracker_eq_ite n m⟩
      | some t => exact ⟨rfl, fun n => s.tracker_keepTracker n m t⟩
  | finish k =>
      cases hst
      refine ⟨_, rfl, ?_⟩
      simp only [step, finish, Tracker.step]
      cases (s.tracker m).finish? s.clock.now with
      | none => exact ⟨⟨rfl, .noSession, rfl, rfl⟩, fun n => s.tracker_eq_ite n m⟩
      | some session =>
          -- the tracker is idle before the session is recorded, whether or not this succeeds
          have htrackers : ((s.keepTracker m .idle).record session.profile session.topic
              session.active).2.trackers = (s.keepTracker m .idle).trackers := rfl
          dsimp only
          generalize (s.keepTracker m .idle).record _ _ _ = out at htrackers
          obtain ⟨r, s'⟩ := out
          have htracker : ∀ n, s'.tracker n = if n = m then .idle else s.tracker n := fun n =>
            (tracker_eq_of_trackers htrackers n).trans (s.tracker_keepTracker n m .idle)
          cases r with
          | error e => exact ⟨.inr ⟨e, rfl⟩, htracker⟩
          | ok => exact ⟨.inl rfl, htracker⟩
  | cancel k =>
      cases hst
      exact ⟨_, rfl, rfl, fun n => s.tracker_keepTracker n m _⟩
  | foreground k =>
      cases hst
      exact ⟨_, rfl, rfl, fun n => s.tracker_keepTracker n m _⟩
  | background k =>
      cases hst
      exact ⟨_, rfl, rfl, fun n => s.tracker_keepTracker n m _⟩
  | status k =>
      cases hst
      exact ⟨_, rfl, rfl, fun n => s.tracker_eq_ite n m⟩
  | active k =>
      cases hst
      exact ⟨_, rfl, rfl, fun n => s.tracker_eq_ite n m⟩
  | _ => cases hst

/-- A tracker is not changed by the steps of other ones. -/
theorem tracker_step_of_ne (s : Service σ) {st : Step} {n : Nat} (hst : st.tracker? ≠ some n) :
    (s.step st).2.tracker n = s.tracker n := by
  cases htracker : st.tracker? with
  | none => exact tracker_eq_of_trackers (s.trackers_step htracker) n
  | some m =>
      obtain ⟨_, -, -, hothers⟩ := s.step_of_tracker htracker
      rw [hothers n, if_neg]
      rintro rfl
      exact hst htracker

/-- A session begins on a tracker that is idle, and the tracker follows it from now on. -/
theorem tracker_of_begun {s : Service σ} {n : Nat} {profile : Profile} {topic : String} {id : SessionId}
    (h : (s.step (.begin n profile topic)).1 = .begun id) :
    s.tracker n = .idle ∧
      (s.step (.begin n profile topic)).2.tracker n = .running ⟨id, profile, topic, s.clock.now⟩ 0 s.clock.now := by
  obtain ⟨e, he, hsays, htracker⟩ :=
    s.step_of_tracker (rfl : (Step.begin n profile topic).tracker? = some n)
  cases he
  rw [htracker n, if_pos rfl]
  rw [h] at hsays
  cases hbefore : s.tracker n with
  | idle =>
      rw [hbefore] at hsays
      cases hsays
      exact ⟨rfl, rfl⟩
  | running | paused =>
      rw [hbefore] at hsays
      cases hsays

/-- A session that was finished is the one that the tracker followed. -/
theorem session_of_finished {s : Service σ} {n : Nat} {session : Session}
    (h : (s.step (.finish n)).1 = .finished session) :
    (s.tracker n).finish? s.clock.now = some session := by
  simp only [step, finish] at h
  cases hfinish : (s.tracker n).finish? s.clock.now with
  | none =>
      rw [hfinish] at h
      cases h
  | some session' =>
      rw [hfinish] at h
      dsimp only at h
      generalize (s.keepTracker n .idle).record _ _ _ = out at h
      obtain ⟨r, s'⟩ := out
      cases r with
      | error e => cases h
      | ok =>
          cases h
          rfl

/-- After a step of a service a tracker follows no session, or the one that it followed and it was not to
finish, or one that has just begun. -/
theorem session?_step (s : Service σ) (st : Step) (n : Nat) :
    ((s.step st).2.tracker n).session? = none ∨
    (((s.step st).2.tracker n).session? = (s.tracker n).session? ∧ st ≠ .finish n) ∨
    ∃ o, ((s.step st).2.tracker n).session? = some o ∧ st = .begin n o.profile o.topic ∧
      (s.step st).1 = .begun o.id ∧ s.clock.now = o.started := by
  by_cases hst : st.tracker? = some n
  · obtain ⟨e, he, hsays, htracker⟩ := s.step_of_tracker hst
    rw [htracker n, if_pos rfl]
    obtain hnone | ⟨hsame, hfinish⟩ | ⟨id, profile, topic, now, rfl, hsession, hbegun⟩ :=
      (s.tracker n).session?_step e
    · exact .inl hnone
    · refine .inr (.inl ⟨hsame, ?_⟩)
      rintro rfl
      cases he
      exact hfinish _ rfl
    · rw [hbegun] at hsays
      cases st with
      | begin m profile topic =>
          cases hst
          cases he
          exact .inr (.inr ⟨_, hsession, rfl, hsays, rfl⟩)
      | _ => cases he
  · exact .inr (.inl ⟨congrArg Tracker.session? (s.tracker_step_of_ne hst), fun h => hst (by rw [h]; rfl)⟩)

/-- A tracker goes through what it is asked and through nothing else. -/
theorem tracker_run (n : Nat) (steps : List Step) :
    ∀ s : Service σ,
      (s.run steps).2.tracker n = ((s.tracker n).run ((asked n s steps).map Prod.fst)).2 ∧
      ∀ x ∈ (asked n s steps).zip ((s.tracker n).run ((asked n s steps).map Prod.fst)).1,
        x.1.2.Says x.2 := by
  induction steps with
  | nil =>
      intro s
      exact ⟨rfl, fun x hx => by cases hx⟩
  | cons st steps ih =>
      intro s
      obtain ⟨htracker, hsays⟩ := ih (s.step st).2
      by_cases hst : st.tracker? = some n
      · obtain ⟨e, he, hanswer, hothers⟩ := s.step_of_tracker hst
        have hasked : asked n s (st :: steps) = (e, (s.step st).1) :: asked n (s.step st).2 steps := by
          simp only [asked, asks, if_pos hst, he, Option.map_some, Option.toList_some, List.singleton_append]
        have hnext := hothers n
        rw [if_pos rfl] at hnext
        rw [hnext] at htracker hsays
        rw [hasked, List.map_cons, Tracker.run_cons, run_cons]
        refine ⟨htracker, ?_⟩
        intro x hx
        rcases List.mem_cons.1 hx with rfl | hx
        · exact hanswer
        · exact hsays x hx
      · have hasked : asked n s (st :: steps) = asked n (s.step st).2 steps := by
          simp only [asked, asks, if_neg hst, Option.map_none, Option.toList_none, List.nil_append]
        rw [s.tracker_step_of_ne hst] at htracker hsays
        rw [hasked, run_cons]
        exact ⟨htracker, hsays⟩

end Service

/-! ### Histories and windows -/

/-- **The time of a session is the time of its windows.**  After any history the fields are in line, they
measure the session in progress, and what ends a window or the session is answered by this time.  So a
session that ends is never found to be missing.  The trackers of a service are asked and answer in this
way, whatever its store does, except that a session that was finished may fail to be recorded. -/
theorem fields_measure_windows (history : List TrackerEvent) :
    let f := (TrackerFields.blank.run history).2
    f.InLine ∧ f.Measures (inProgress history) ∧ (∀ now, f.Heeds (inProgress history) now) ∧
    TrackerFields.blank.run history =
      ((Tracker.idle.run history).1, (Tracker.idle.run history).2.fields) ∧
    ∀ (σ : Type) [Backend σ] (s : Service σ) (n : Nat) (steps : List Step),
      let events := (s.asked n steps).map Prod.fst
      ((s.run steps).2.tracker n).fields = ((s.tracker n).fields.run events).2 ∧
      ∀ x ∈ (s.asked n steps).zip ((s.tracker n).fields.run events).1, x.1.2.Says x.2 := by
  have hfields := Tracker.run_fields history .idle
  have hfollows : (Tracker.idle.run history).2.Follows (inProgress history) :=
    Tracker.Follows.run (p := none) rfl
  change TrackerFields.blank.run history = _ at hfields
  rw [hfields]
  refine ⟨Tracker.inLine_fields _, hfollows.measures, hfollows.heeds, rfl, ?_⟩
  intro σ _ s n steps events
  rw [Tracker.run_fields]
  obtain ⟨htracker, hsays⟩ := Service.tracker_run n steps s
  exact ⟨congrArg Tracker.fields htracker, hsays⟩

/-- A clock that goes back while the first window is open, a session that is paused twice, and one that is
not followed. -/
theorem fields_measure_windows_back_in_time :
    let s : OpenSession := ⟨SessionId.ofNat 0, "p", "fractions", 100⟩
    let history : List TrackerEvent :=
      [.foreground 7, .begin s.id s.profile s.topic 100, .foreground 120, .background 90, .background 95,
        .foreground 200, .begin s.id "q" "ratios" 210]
    let f := (TrackerFields.blank.run history).2
    let service : Service Memory := Service.start ⟨0, .zero⟩ .usual Memory.blank
    (f.active 260).toNat = 60 ∧
    f.step (.finish 260) = (.finished ⟨s.id, "p", "fractions", 100, 260, f.active 260⟩, .blank) ∧
    (service.step (.finish 3)).1.Says (.unfinished .noSession) := by
  intro s history f service
  obtain ⟨-, hmeasures, hheeds, -, hservice⟩ := fields_measure_windows history
  refine ⟨(hmeasures.2.2 260).trans rfl, (hheeds 260).finish_of_some rfl, ?_⟩
  exact (hservice Memory service 3 [.finish 3]).2 ((.finish service.clock.now, _), _) List.mem_cons_self

end StudyTime
