/-
**The survey window is open at the same times of every day.**

Whether the window is open is told by the milliseconds since local midnight: what is left of the instant and
the offset when whole days are taken off, before 1970 as well as after it.  The ends of the window are finer
than that; they are compared by the second and then by the nanosecond.  An end in a leap second lies after all
of the second that it prolongs and before the next one, so no millisecond falls on it.  Since whole days are
left out of account, a clock that is moved by whole days finds the window as it was.

Main definitions:

* `Clock.sinceMidnight` — the milliseconds since local midnight;
* `TimeOfDay.PassedAt`, `TimeOfDay.AheadAt` — whether a time has passed or lies ahead so many milliseconds
  after midnight, and `SurveySettings.OpenAt` — the window is open then;
* `Service.InWindow` — the window is open now;
* `Service.weigh` — what is asked for in the window;
* `Service.OpensDaily` — what is to be said of the window in one state.

Main results:

* `TimeOfDay.comparesAt` — what the comparison comes to in nanoseconds;
* `Service.shouldShow_of_local` — the window is what decides first;
* `Service.inWindow_iff` — **when the window is open**;
* `Service.windows_open_daily` — the window is open at the same times of every day.
-/

import StudyTime.Proofs.LocalTime
import StudyTime.Proofs.Service.Gating

set_option relaxedAutoImplicit false
set_option autoImplicit false

namespace StudyTime

/-! ### Milliseconds since midnight -/

/-- The milliseconds since local midnight. -/
def Clock.sinceMidnight (c : Clock) : Int := (c.now.toInt + 1000 * c.offset.seconds) % 86400000

theorem Clock.sinceMidnight_bounds (c : Clock) : 0 ≤ c.sinceMidnight ∧ c.sinceMidnight < 86400000 := by
  rw [sinceMidnight]
  omega

/-- Whole days make no difference. -/
theorem Clock.sinceMidnight_of_days {c c' : Clock} (hoffset : c'.offset = c.offset) {days : Int}
    (hnow : c'.now.toInt = c.now.toInt + days * 86400000) : c'.sinceMidnight = c.sinceMidnight := by
  rw [sinceMidnight, sinceMidnight, hoffset, hnow]
  omega

/-- An instant that is shown is reached by moving the clock. -/
theorem Clock.toInt_now_advance {c : Clock} {delta : Int64} (h : Shown (c.now.toInt + delta.toInt)) :
    (c.advance delta).now.toInt = c.now.toInt + delta.toInt := by
  rw [shown_iff] at h
  rw [advance, Int64.toInt_add]
  exact Int.bmod_eq_of_le (by omega) (by omega)

namespace TimeOfDay

/-- The time has passed so many milliseconds after midnight: by the second, and then by the nanosecond. -/
def PassedAt (t : TimeOfDay) (millis : Int) : Prop :=
  (t.second : Int) < millis / 1000 ∨
    (t.second : Int) = millis / 1000 ∧ (t.nano : Int) < millis % 1000 * 1000000

/-- The time lies ahead so many milliseconds after midnight. -/
def AheadAt (t : TimeOfDay) (millis : Int) : Prop :=
  millis / 1000 < (t.second : Int) ∨
    millis / 1000 = (t.second : Int) ∧ millis % 1000 * 1000000 < (t.nano : Int)

instance (t : TimeOfDay) (millis : Int) : Decidable (t.PassedAt millis) := by
  unfold PassedAt
  infer_instance

instance (t : TimeOfDay) (millis : Int) : Decidable (t.AheadAt millis) := by
  unfold AheadAt
  infer_instance

variable (t : TimeOfDay)

theorem before_ofMillis (n : Int) : t.before (ofMillis n) = true ↔ t.PassedAt (n % 86400000) := by
  rw [before_iff, PassedAt]
  simp only [ofMillis]
  omega

theorem ofMillis_before (n : Int) : (ofMillis n).before t = true ↔ t.AheadAt (n % 86400000) := by
  rw [before_iff, AheadAt]
  simp only [ofMillis]
  omega

/-- What it is to compare a time with so many milliseconds after midnight. -/
structure ComparesAt (millis : Int) : Prop where
  passed_iff : t.nano < 1000000000 →
    (t.PassedAt millis ↔ (t.second : Int) * 1000000000 + t.nano < millis * 1000000)
  ahead_iff : t.nano < 1000000000 →
    (t.AheadAt millis ↔ millis * 1000000 < (t.second : Int) * 1000000000 + t.nano)
  /-- A leap second has passed when the next second begins. -/
  leap_passed_iff : 1000000000 ≤ t.nano → (t.PassedAt millis ↔ ((t.second : Int) + 1) * 1000 ≤ millis)
  /-- Until then it lies ahead. -/
  leap_ahead_iff : 1000000000 ≤ t.nano → (t.AheadAt millis ↔ millis < ((t.second : Int) + 1) * 1000)

/-- Times outside of leap seconds compare by their nanoseconds, and leap seconds by the next second. -/
theorem comparesAt (millis : Int) : t.ComparesAt millis := by
  have := t.nano_lt
  constructor <;> simp only [PassedAt, AheadAt] <;> omega

end TimeOfDay

/-- The window is open so many milliseconds after midnight. -/
def SurveySettings.OpenAt (w : SurveySettings) (millis : Int) : Prop :=
  w.windowStart.PassedAt millis ∧ w.windowEnd.AheadAt millis

instance (w : SurveySettings) (millis : Int) : Decidable (w.OpenAt millis) := by
  unfold SurveySettings.OpenAt
  infer_instance

theorem SurveySettings.open_ofMillis (w : SurveySettings) (n : Int) :
    w.Open (.ofMillis n) ↔ w.OpenAt (n % 86400000) :=
  and_congr (w.windowStart.before_ofMillis n) (w.windowEnd.ofMillis_before n)

/-! ### When the window is open -/

namespace Service

variable {σ : Type} {s s' : Service σ}

/-- The window is open now. -/
def InWindow (s : Service σ) : Prop := ∃ d, s.clock.local? = .ok d ∧ s.settings.survey.Open d.time

/-- **When the window is open.** -/
theorem inWindow_iff (h : s.clock.now ∈ Clock.instants s.clock.offset) :
    s.InWindow ↔ s.settings.survey.OpenAt s.clock.sinceMidnight := by
  rw [InWindow, Clock.local?_of_shown h.1 h.2]
  simp only [Except.ok.injEq, exists_eq_left']
  exact s.settings.survey.open_ofMillis _

/-- Whole days make no difference to the window. -/
theorem inWindow_of_days (h : s.clock.now ∈ Clock.instants s.clock.offset)
    (h' : s'.clock.now ∈ Clock.instants s'.clock.offset) (hwindow : s'.settings.survey = s.settings.survey)
    (hoffset : s'.clock.offset = s.clock.offset) {days : Int}
    (hnow : s'.clock.now.toInt = s.clock.now.toInt + days * 86400000) : s'.InWindow ↔ s.InWindow := by
  rw [inWindow_iff h, inWindow_iff h', hwindow, Clock.sinceMidnight_of_days hoffset hnow]

/-! ### What the window decides -/

variable [Backend σ]

/-- Whether a survey is to be shown in the window: the last one is long enough ago, and the topic was
studied long enough. -/
def weigh (s : Service σ) (profile : Profile) (topic : String) : Except Abort Bool × Service σ :=
  match s.cooledDown profile with
  | (false, s) => (.ok false, s)
  | (true, s) =>
    let (enough, s) := s.studiedEnough profile topic
    (.ok enough, s)

/-- The window is what decides first. -/
theorem shouldShow_of_local {d : DateTime} (h : s.clock.local? = .ok d)
    (profile : Profile) (topic : String) :
    (s.InWindow → s.shouldShow profile topic = s.weigh profile topic) ∧
    (¬ s.InWindow → s.shouldShow profile topic = (.ok false, s)) := by
  have hopens : s.InWindow ↔
      Survey.inWindow d.time s.settings.survey.windowStart s.settings.survey.windowEnd = true := by
    rw [SurveySettings.inWindow_iff, InWindow, h]
    simp only [Except.ok.injEq, exists_eq_left']
  rw [hopens, shouldShow, h]
  constructor
  · intro hyes
    exact if_pos hyes
  · intro hno
    exact if_neg hno

/-- What is to be said of the window in one state. -/
structure OpensDaily (s : Service σ) : Prop where
  opens_iff : s.InWindow ↔ s.settings.survey.OpenAt s.clock.sinceMidnight
  /-- Before 1970 as well as after it. -/
  since_midnight : 0 ≤ s.clock.sinceMidnight ∧ s.clock.sinceMidnight < 86400000
  start_compares : s.settings.survey.windowStart.ComparesAt s.clock.sinceMidnight
  end_compares : s.settings.survey.windowEnd.ComparesAt s.clock.sinceMidnight
  /-- In the window the other conditions decide. -/
  inside : s.InWindow → ∀ profile topic, s.shouldShow profile topic = s.weigh profile topic
  /-- Outside the window nothing else is looked at. -/
  outside : ¬ s.InWindow → ∀ profile topic, s.shouldShow profile topic = (.ok false, s)
  /-- The window is as it was any number of days before, and as it will be any number of days later. -/
  days : ∀ (s' : Service σ) (days : Int), s'.settings.survey = s.settings.survey →
    s'.clock.offset = s.clock.offset → s'.clock.now.toInt = s.clock.now.toInt + days * 86400000 →
    s'.clock.now ∈ Clock.instants s.clock.offset → (s'.InWindow ↔ s.InWindow)
  /-- So it does not help to move the clock by whole days. -/
  moved : ∀ (delta : Int64) (days : Int), delta.toInt = days * 86400000 →
    Shown (s.clock.now.toInt + delta.toInt) →
    Shown (s.clock.now.toInt + delta.toInt + 1000 * s.clock.offset.seconds) →
    ((s.step (.advanceClock delta)).2.InWindow ↔ s.InWindow)

/-- **The window is open at the same times of every day**: when the milliseconds since local midnight lie
strictly between its ends. -/
theorem windows_open_daily (s : Service σ) (h : Shown s.clock.now.toInt)
    (hlocal : Shown (s.clock.now.toInt + 1000 * s.clock.offset.seconds)) : s.OpensDaily := by
  have hlasting : ∀ (s' : Service σ) (days : Int), s'.settings.survey = s.settings.survey →
      s'.clock.offset = s.clock.offset → s'.clock.now.toInt = s.clock.now.toInt + days * 86400000 →
      s'.clock.now ∈ Clock.instants s.clock.offset → (s'.InWindow ↔ s.InWindow) := by
    intro s' days hwindow hoffset hnow h'
    exact inWindow_of_days ⟨h, hlocal⟩ (by rwa [hoffset]) hwindow hoffset hnow
  have htime := Clock.local?_of_shown h hlocal
  refine ⟨inWindow_iff ⟨h, hlocal⟩, s.clock.sinceMidnight_bounds, TimeOfDay.comparesAt _ _,
    TimeOfDay.comparesAt _ _, ?_, ?_, hlasting, ?_⟩
  · intro hyes profile topic
    exact (shouldShow_of_local htime profile topic).1 hyes
  · intro hno profile topic
    exact (shouldShow_of_local htime profile topic).2 hno
  · intro delta days hdelta hmoved hmovedlocal
    have hnow : (s.step (.advanceClock delta)).2.clock.now.toInt = s.clock.now.toInt + delta.toInt :=
      Clock.toInt_now_advance hmoved
    refine hlasting _ days rfl rfl (hdelta ▸ hnow) ⟨?_, ?_⟩
    · rwa [hnow]
    · rwa [hnow]

/-- The last millisecond before 1970 in the west, in a window that ends in the leap second after it.  A day
earlier the window is open as well; a millisecond later it is not. -/
theorem windows_open_daily_before_leap_second :
    let canada : Offset := ⟨-12600, by decide, by decide⟩
    let w : SurveySettings := ⟨⟨73799, 998999999, by decide, by decide, by decide⟩,
      ⟨73799, 1000000000, by decide, by decide, by decide⟩, 0, 0⟩
    let s : Service Memory := .start ⟨-1, canada⟩ ⟨.usual, w⟩ .blank
    s.InWindow ∧ (s.step (.advanceClock (-86400000))).2.InWindow ∧
      ¬ (s.step (.setClock 0)).2.InWindow := by
  intro canada w s
  have hdaily : s.OpensDaily := windows_open_daily s (by decide +kernel) (by decide +kernel)
  have hopen : s.InWindow := hdaily.opens_iff.2 (by decide)
  refine ⟨hopen, (hdaily.moved (-86400000) (-1) rfl (by decide +kernel) (by decide +kernel)).2 hopen, ?_⟩
  have hlater : (s.step (.setClock 0)).2.OpensDaily :=
    windows_open_daily _ (by decide +kernel) (by decide +kernel)
  rw [hlater.opens_iff]
  decide

end Service

end StudyTime
