/-
**Services answer what their book says.**

Over a sound store every step of a service is answered by its book, and afterwards the service
represents the book after the same step.  So a service answers a whole run as the book does.  The store
does not appear in the book: services over a store in memory, over a database and over a database in a
file, as long as they start with nothing kept, answer alike, except for the identifiers of sessions.

Main results:

* `Service.Represents.step_of_sound` — **one step**;
* `Service.Represents.run_of_sound` — a run, over any sound store;
* `Service.answers_eq_book` — services that start with nothing kept.
-/

import StudyTime.Proofs.Service.Operations
import StudyTime.Service.Installation

set_option relaxedAutoImplicit false
set_option autoImplicit false

namespace StudyTime

namespace Service

variable {σ : Type} [Backend σ] [LawfulStore σ]

variable {settings : Settings} {b : Book} {s : Service σ}

/-- Over a sound store sessions are merged one after the other. -/
theorem Represents.recordAll_of_sound (items : List (Profile × String × UInt64)) :
    ∀ {b : Book} {s : Service σ}, Represents settings b s → Sound s.store →
      (s.recordAll items).1 = items.map (fun _ => .ok ()) ∧
      Represents settings (b.recordAll settings items) (s.recordAll items).2 ∧
      Sound (s.recordAll items).2.store := by
  induction items with
  | nil =>
      intro b s h hs
      exact ⟨rfl, h, hs⟩
  | cons item items ih =>
      intro b s h hs
      obtain ⟨profile, topic, duration⟩ := item
      have hrecord := h.record profile topic duration
      simp only [Service.recordAll]
      generalize s.record profile topic duration = out at hrecord
      obtain ⟨r, s'⟩ := out
      obtain ⟨hr, hs'⟩ := hrecord.sound hs
      cases hr
      obtain ⟨hrest, hrepresents, hsound⟩ := ih (hrecord.represents_of_ok rfl) hs'
      dsimp only
      rw [hrest]
      exact ⟨rfl, hrepresents, hsound⟩

/-- A step that is answered like the book, and leaves the service with the book after it. -/
structure Agrees (settings : Settings) (a : Answer) (b : Book) (out : Answer × Service σ) :
    Prop where
  /-- The answer is the one of the book. -/
  answer_eq : out.1.anonymous = a
  represents : Represents settings b out.2
  sound : Sound out.2.store

/-- **One step** over a sound store is answered as the book answers it. -/
theorem Represents.step_of_sound (h : Represents settings b s) (hs : Sound s.store) (st : Step) :
    Agrees settings (b.step settings st).1 (b.step settings st).2 (s.step st) := by
  cases st with
  | setClock now =>
      refine ⟨rfl, ?_, hs⟩
      simp only [Service.step, Book.step]
      rw [h.clock_eq]
      exact h.setClock _
  | advanceClock delta =>
      refine ⟨?_, ?_, hs⟩
      · simp only [Service.step, Book.step]
        rw [h.clock_eq]
        rfl
      · simp only [Service.step, Book.step]
        rw [h.clock_eq]
        exact h.setClock _
  | now => exact ⟨by simp only [Service.step, Book.step, h.clock_eq]; rfl, h, hs⟩
  | localTime =>
      refine ⟨?_, h, hs⟩
      simp only [Service.step, Book.step, h.clock_eq]
      cases b.clock.local? <;> rfl
  | difference start stop =>
      refine ⟨?_, h, hs⟩
      simp only [Service.step, Book.step]
      cases Saturating.sub? stop start <;> rfl
  | staleness => exact ⟨by simp only [Service.step, Book.step, h.settings_eq]; rfl, h, hs⟩
  | record profile topic duration =>
      have hrecord := h.record profile topic duration
      obtain ⟨hr, hs'⟩ := hrecord.sound hs
      refine ⟨?_, hrecord.represents_of_ok hr, hs'⟩
      simp only [Service.step, hr]
      rfl
  | recordBatch items awaited =>
      obtain ⟨hr, hrepresents, hs'⟩ := h.recordAll_of_sound items hs
      refine ⟨?_, hrepresents, hs'⟩
      simp only [Service.step, Service.recordBatch, hr, Book.step, Answer.anonymous]
      refine congrArg Answer.many (List.ext_getElem? fun i => ?_)
      simp only [List.getElem?_mapIdx, List.getElem?_map, Option.map_map]
      rfl
  | get profile topic =>
      obtain ⟨hrecord, -⟩ := h.topicRecord profile topic
      obtain ⟨hr, hs'⟩ := hrecord.sound hs
      refine ⟨?_, hrecord.represents, hs'⟩
      simp only [Service.step, hr]
      rfl
  | getAll profile =>
      obtain ⟨hledger, -⟩ := h.ledger profile
      obtain ⟨hr, hs'⟩ := hledger.sound hs
      refine ⟨?_, hledger.represents, hs'⟩
      simp only [Service.step, hr]
      rfl
  | remove profile =>
      have hremove := h.remove profile
      obtain ⟨hr, hs'⟩ := hremove.sound hs
      refine ⟨?_, hremove.represents_of_ok hr, hs'⟩
      simp only [Service.step, hr]
      rfl
  | deleteProfile profile =>
      obtain ⟨-, -, hdelete⟩ := h.deleteProfile profile
      obtain ⟨hr, hrepresents, hs'⟩ := hdelete hs
      refine ⟨?_, hrepresents, hs'⟩
      simp only [Service.step, hr]
      rfl
  | shouldShow profile topic =>
      have hshow := h.shouldShow profile topic
      obtain ⟨hr, hs'⟩ := hshow.sound hs
      refine ⟨?_, hshow.represents, hs'⟩
      simp only [Service.step, Book.step, hr]
      cases b.shouldShow settings profile topic <;> rfl
  | markShown profile =>
      have hmark := h.markShown profile
      obtain ⟨hr, hs'⟩ := hmark.sound hs
      refine ⟨?_, hmark.represents_of_ok hr, hs'⟩
      simp only [Service.step, hr]
      rfl
  | lastShown profile =>
      have hshown := h.lastShown profile
      obtain ⟨hr, hs'⟩ := hshown.sound hs
      refine ⟨?_, hshown.represents, hs'⟩
      simp only [Service.step, hr]
      rfl
  | setLastShown profile n =>
      have hset := h.setLastShown profile n
      obtain ⟨hr, hs'⟩ := hset.sound hs
      refine ⟨?_, hset.represents_of_ok hr, hs'⟩
      simp only [Service.step, hr]
      rfl
  | begin n profile topic =>
      have hbegin := Represents.begin h n profile topic
      simp only [Service.step, Book.step]
      cases hb : (b.trackers n).begin? .any profile topic b.clock.now with
      | none =>
          rw [hb] at hbegin
          dsimp only at hbegin
          rw [hbegin]
          exact ⟨rfl, h, hs⟩
      | some t =>
          rw [hb] at hbegin
          obtain ⟨id, hr, hrepresents, hstore⟩ := hbegin
          refine ⟨by rw [hr]; rfl, hrepresents, ?_⟩
          dsimp only
          rw [hstore]
          exact hs
  | finish n =>
      have hfinish := Represents.finish h n
      simp only [Service.step, Book.step]
      cases hb : (b.trackers n).finish? b.clock.now with
      | none =>
          rw [hb] at hfinish
          dsimp only at hfinish
          rw [hfinish]
          exact ⟨rfl, h, hs⟩
      | some session =>
          rw [hb] at hfinish
          obtain ⟨hok, -, hsound⟩ := hfinish
          obtain ⟨⟨session', hr⟩, hs'⟩ := hsound hs
          obtain ⟨hsession, hrepresents⟩ := hok session' hr
          exact ⟨by rw [hr, ← hsession]; rfl, hrepresents, hs'⟩
  | cancel n => exact ⟨rfl, h.keepTracker n .idle, hs⟩
  | foreground n =>
      refine ⟨rfl, ?_, hs⟩
      simp only [Book.step]
      rw [← h.tracker_eq n, ← h.clock_eq, Tracker.foreground_anonymous]
      exact h.keepTracker n _
  | background n =>
      simp only [Book.step]
      rw [← h.tracker_eq n, ← h.clock_eq, Tracker.background_anonymous, Tracker.baseline_anonymous]
      exact ⟨rfl, h.keepTracker n _, hs⟩
  | status n =>
      refine ⟨?_, h, hs⟩
      simp only [Book.step]
      rw [← h.tracker_eq n, Tracker.status_anonymous]
      rfl
  | active n =>
      refine ⟨?_, h, hs⟩
      simp only [Book.step]
      rw [← h.tracker_eq n, ← h.clock_eq, Tracker.active_anonymous]
      rfl

/-- **A run** over a sound store is answered as the book answers it. -/
theorem Represents.run_of_sound (steps : List Step) :
    ∀ {b : Book} {s : Service σ}, Represents settings b s → Sound s.store →
      (s.run steps).1.map Answer.anonymous = (b.run settings steps).1 := by
  induction steps with
  | nil =>
      intro b s _ _
      rfl
  | cons st steps ih =>
      intro b s h hs
      have hstep := h.step_of_sound hs st
      rw [run_cons, Book.run_cons, List.map_cons, hstep.answer_eq, ih hstep.represents hstep.sound]

end Service

namespace Installation

/-- A service that is running answers as it would without its file. -/
theorem run_running (steps : List Step) :
    ∀ s : Service Database, (running s).run steps = ((s.run steps).1.map some, .running (s.run steps).2) := by
  induction steps with
  | nil =>
      intro s
      rfl
  | cons st steps ih =>
      intro s
      rw [run, step]
      simp only [ih]
      rfl

/-- With valid settings a service is started over a file that was just created. -/
theorem start_blank (clock : Clock) {settings : Settings} (h : settings.validate = .ok ()) :
    start clock settings .blank = (.ok (), .running (.start clock settings .fresh)) := by
  rw [start, h]
  simp only [Database.open?_blank]

end Installation

namespace Service

/-- **Services that start with nothing kept answer what the blank book says**, except for the
identifiers of sessions: over a store in memory, over a new database and, if the settings are valid,
over a database in a file that was just created. -/
theorem answers_eq_book (clock : Clock) (settings : Settings) (steps : List Step) :
    ((start clock settings Memory.blank).run steps).1.map Answer.anonymous =
      ((Book.blank clock).run settings steps).1 ∧
    ((start clock settings Database.fresh).run steps).1.map Answer.anonymous =
      ((Book.blank clock).run settings steps).1 ∧
    (settings.validate = .ok () →
      (Installation.start clock settings .blank).1 = .ok () ∧
      ((Installation.start clock settings .blank).2.run steps).1.map (Option.map Answer.anonymous) =
        ((Book.blank clock).run settings steps).1.map some) := by
  have hdatabase := Represents.run_of_sound steps
    (represents_start clock settings Database.kept_fresh) Database.sound_fresh
  refine ⟨?_, hdatabase, ?_⟩
  · exact Represents.run_of_sound steps (represents_start clock settings Memory.kept_blank)
      Memory.sound_blank
  · intro hsettings
    rw [Installation.start_blank clock hsettings]
    refine ⟨rfl, ?_⟩
    rw [Installation.run_running, ← hdatabase, List.map_map, List.map_map]
    rfl

/-- A session and the record of its topic, with the usual settings and a database in a file. -/
theorem answers_eq_book_usual :
    Settings.usual.validate = .ok () ∧
    ((Installation.start ⟨0, .zero⟩ .usual .blank).2.run
      [.record "p" "t" 5, .get "p" "t"]).1.map (Option.map Answer.anonymous) =
        [some .done, some (.record ⟨"t", 5, 0⟩)] := by
  have hvalid : Settings.usual.validate = .ok () := by rfl
  obtain ⟨-, -, hfile⟩ := answers_eq_book ⟨0, .zero⟩ .usual [.record "p" "t" 5, .get "p" "t"]
  exact ⟨hvalid, (hfile hvalid).2.trans rfl⟩

end Service

end StudyTime
