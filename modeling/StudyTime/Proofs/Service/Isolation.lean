/-
**Profiles are isolated from each other.**

Sessions do not change hands: a tracker follows a session of a profile only after one was begun with it for
this profile.  So if somebody watches all trackers that are ever used for his profile, no session of it is
finished behind his back, and what he hears of a course is what happens when all that does not concern him
is left out.  Nothing is assumed of the profiles but that they are different.

Main results:

* `Service.subject?_step` — sessions do not change hands;
* `System.isolated` — **a course without the steps of other profiles** is answered alike, over any store in
  memory, any database, and any database in a file.
-/

import StudyTime.Proofs.Service.Systems
import StudyTime.Proofs.Tracker.Windows

set_option relaxedAutoImplicit false
set_option autoImplicit false

namespace StudyTime

/-! ### Sessions do not change hands -/

/-- A tracker that follows a session of a profile followed it before, or one was just begun with it. -/
theorem Service.subject?_step {σ : Type} [Backend σ] {n : Nat} {profile : Profile} (s : Service σ) (st : Step)
    (h : (s.step st).2.subject? (.finish n) = some profile) :
    s.subject? (.finish n) = some profile ∨ ∃ topic, st = .begin n profile topic := by
  simp only [subject?] at h ⊢
  obtain hnone | ⟨hsame, -⟩ | ⟨o, ho, rfl, -⟩ := s.session?_step st n
  · rw [hnone] at h
    cases h
  · rw [hsame] at h
    exact .inl h
  · rw [ho] at h
    cases h
    exact .inr ⟨o.topic, rfl⟩

/-! ### Courses -/

namespace System

variable {μ σ : Type} [Backend σ] [TroubledStore σ] [PartitionedSystem μ σ] {o : Onlooker}

/-- No tracker follows a session of the onlooker's profile unless he watches it. -/
def Watched (o : Onlooker) (x : μ) : Prop :=
  ∀ s, service? x = some s → ∀ n, s.subject? (.finish n) = some o.profile → o.watches n = true

theorem watched_of_trackers {x : μ} (h : ∀ s, service? x = some s → s.trackers = ∅) : Watched o x := by
  intro s hs n hsubject
  simp only [Service.subject?, Service.tracker, h s hs] at hsubject
  cases hsubject

/-- The trackers stay watched while sessions of the profile are only begun with those that are. -/
theorem Watched.happen {x : μ} (h : Watched o x) {e : Event (TroubledStore.Trouble σ)}
    (he : ∀ n topic, e = .ask (.begin n o.profile topic) → o.watches n = true) :
    Watched o (happen x e).2 := by
  refine happen_keeps h (fun s st hs hst => ?_) (fun s t hs _ => ?_) fun settings =>
    watched_of_trackers fun s hs => PartitionedSystem.restart_trackers hs
  · intro s' hs' n hsubject
    cases (service?_running _).symm.trans hs'
    obtain hbefore | ⟨topic, rfl⟩ := Service.subject?_step s st hsubject
    · exact h s hs n hbefore
    · exact he n topic hst
  · intro s' hs' n hsubject
    cases (service?_running _).symm.trans hs'
    exact h s hs n hsubject

/-- Nothing is missed while the trackers are watched. -/
theorem Watched.not_misses {x : μ} (h : Watched o x) (e : Event (TroubledStore.Trouble σ)) :
    ¬ o.Misses (exchange x e) := by
  rintro ⟨n, a, he, hwatch, ha, hprofile⟩
  simp only [exchange] at he ha
  subst he
  simp only [System.happen] at ha
  split at ha
  next => cases ha
  next s hs =>
    cases ha
    rw [Service.profile?_finish] at hprofile
    rw [h s hs n hprofile] at hwatch
    cases hwatch

theorem Watched.course (events : List (Event (TroubledStore.Trouble σ))) :
    ∀ {x : μ}, Watched o x →
      (∀ n topic, .ask (.begin n o.profile topic) ∈ events → o.watches n = true) →
      ∀ e ∈ (course x events).1, ¬ o.Misses e := by
  induction events with
  | nil =>
      intro x _ _ e he
      cases he
  | cons e events ih =>
      intro x h hbegin
      rw [course_cons]
      have hnext := h.happen fun n topic he => hbegin n topic (he ▸ List.mem_cons_self ..)
      have hrest := ih hnext fun n topic he => hbegin n topic (List.mem_cons_of_mem _ he)
      intro e' he'
      obtain rfl | he' := List.mem_cons.1 he'
      · exact h.not_misses e
      · exact hrest e' he'

/-- The onlooker hears of any course what happens in it when everything is left out that does not concern
him.  The trackers that are not watched are only ever used for other profiles. -/
def Isolates (o : Onlooker) (x : μ) : Prop :=
  ∀ events : List (Event (TroubledStore.Trouble σ)),
    (∀ n topic, .ask (.begin n o.profile topic) ∈ events → o.watches n = true) →
    (course x events).1.filterMap o.hears = (course x (events.filterMap o.partOf)).1.map o.blurred

/-- Systems that were just started isolate the profiles. -/
theorem isolates_of_trackers (hregard : o.regard = .equal) {x : μ}
    (h : ∀ s, service? x = some s → s.trackers = ∅) : Isolates o x := by
  intro events hbegin
  have halike : PartitionedSystem.Alike o x x := by
    refine PartitionedSystem.refl fun s _ => ⟨rfl, rfl, .refl _ _, ?_, fun _ => rfl⟩
    rw [hregard]
    exact rfl
  exact (hears_course hregard events halike ((watched_of_trackers h).course events hbegin)).1

/-- **Profiles are isolated.**  Whoever follows a profile, and all trackers that are used for it, hears of
any course what happens in it without the steps that are for other profiles: over a store in memory of
which operations are refused now and then, over a database of which the worker may be taken down and tables
dropped, and over a database in a file, with restarts in between. -/
theorem isolated (clock : Clock) (settings : Settings) (profile : Profile) (watches : Nat → Bool) :
    (∀ m : Memory, Isolates ⟨profile, watches, .equal⟩ (Service.start clock settings m)) ∧
    (∀ db : Database, Isolates ⟨profile, watches, .equal⟩ (Service.start clock settings db)) ∧
    (∀ file : Tables, Isolates ⟨profile, watches, .equal⟩ (Installation.start clock settings file).2) := by
  refine ⟨fun m => ?_, fun db => ?_, fun file => ?_⟩
  · refine isolates_of_trackers rfl fun s hs => ?_
    cases hs
    rfl
  · refine isolates_of_trackers rfl fun s hs => ?_
    cases hs
    rfl
  · exact isolates_of_trackers rfl fun s hs => Installation.trackers_start hs

/-- Two sessions at once, of which one cannot be stored: the profile of the other one is not concerned. -/
theorem isolated_of_refusal :
    let o : Onlooker := ⟨"p", fun n => n == 0, .equal⟩
    let x : Service Memory := .start ⟨0, .zero⟩ .usual .blank
    let events : List (Event (Operation × Bool)) := [.ask (.begin 0 "p" "t"), .ask (.begin 1 "p\x00" "t"),
      .ask (.advanceClock 5), .befall (.store, true), .ask (.finish 1), .befall (.store, false),
      .ask (.finish 0), .ask (.get "p" "t")]
    let kept : List (Event (Operation × Bool)) := [.ask (.begin 0 "p" "t"), .ask (.advanceClock 5),
      .befall (.store, true), .befall (.store, false), .ask (.finish 0), .ask (.get "p" "t")]
    (∀ n topic, .ask (.begin n o.profile topic) ∈ events → o.watches n = true) ∧
    (course x events).1.filterMap o.hears = (course x kept).1.map o.blurred ∧
    answers (course x kept).1 = [some (.begun .any), some (.instant 5), none, none,
      some (.finished ⟨.any, "p", "t", 0, 5, 5⟩), some (.record ⟨"t", 5, 5⟩)] := by
  intro o x events kept
  have hbegin : ∀ n topic, .ask (.begin n o.profile topic) ∈ events → o.watches n = true := by
    intro n topic h
    simp only [events, List.mem_cons, Event.ask.injEq, Step.begin.injEq, reduceCtorEq, or_false,
      List.not_mem_nil] at h
    obtain ⟨rfl, -⟩ | ⟨-, hprofile, -⟩ := h
    · rfl
    · exact absurd hprofile (by decide)
  have hkept : events.filterMap o.partOf = kept := by rfl
  obtain ⟨hmemory, -⟩ := isolated ⟨0, .zero⟩ .usual "p" fun n => n == 0
  have hhears := hmemory .blank events hbegin
  rw [hkept] at hhears
  refine ⟨hbegin, hhears, ?_⟩
  simp only [x, kept]
  rfl

end System

end StudyTime
