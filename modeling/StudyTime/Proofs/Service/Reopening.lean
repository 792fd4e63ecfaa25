/-
**A service can be closed and opened again at any point.**

A service over a database in a file may be closed and opened again between any two steps.  The database has
the current version by then, so that opening it changes nothing, and every ledger in memory is the one that
is loaded from it.  All that is lost are the sessions that trackers follow.  So the answers are those of a
service that was never closed but dropped its sessions at the same points, and if no trackers are in use
they are those of a service that just ran on.

Main definitions:

* `Installation.runReopened` — running segments, with a reopening after each;
* `Service.runForgetting` — running the same segments, where only sessions are dropped.

Main results:

* `Installation.restart_running` — reopening leaves the store as it is;
* `Service.Twins.reopen` — what is opened is a twin of what was closed;
* `Installation.reopened` — **reopening at any points** changes no answers.
-/

import StudyTime.Proofs.Service.Reference
import StudyTime.Proofs.Service.Views

set_option relaxedAutoImplicit false
set_option autoImplicit false

namespace StudyTime

/-! ### Segments -/

/-- Runs segments of steps, and reopens after each of them. -/
def Installation.runReopened (i : Installation) : List (List Step) → List (Option Answer) × Installation
  | [] => ([], i)
  | steps :: segments =>
    let (as, i) := i.run steps
    let (as', i) := runReopened (i.restart none).2 segments
    (as ++ as', i)

namespace Service

section Segments

variable {σ : Type} [Backend σ]

/-- The service without its sessions. -/
def forget (s : Service σ) : Service σ := { s with trackers := ∅ }

/-- Runs segments of steps, and drops all sessions after each of them. -/
def runForgetting (s : Service σ) : List (List Step) → List Answer × Service σ
  | [] => ([], s)
  | steps :: segments =>
    let (as, s) := s.run steps
    let (as', s) := runForgetting s.forget segments
    (as ++ as', s)

theorem run_append (steps steps' : List Step) :
    ∀ s : Service σ, s.run (steps ++ steps') =
      ((s.run steps).1 ++ ((s.run steps).2.run steps').1, ((s.run steps).2.run steps').2) := by
  induction steps with
  | nil =>
      intro s
      rfl
  | cons st steps ih =>
      intro s
      rw [List.cons_append, run_cons, run_cons, ih]
      rfl

end Segments

variable {σ : Type} [Backend σ] [PartitionedStore σ] {s s' : Service σ}

theorem steady_run (steps : List Step) : ∀ s : Service σ, Steady s (s.run steps).2 := by
  induction steps with
  | nil =>
      intro s
      exact ⟨rfl, rfl⟩
  | cons st steps ih =>
      intro s
      have hstep := steady_step s st
      have hrest := ih (s.step st).2
      exact ⟨hrest.settings_eq.trans hstep.settings_eq, hrest.form_eq.trans hstep.form_eq⟩

omit [PartitionedStore σ] in
theorem trackers_run (steps : List Step) : ∀ s : Service σ, (∀ st ∈ steps, st.tracker? = none) →
    (s.run steps).2.trackers = s.trackers := by
  induction steps with
  | nil =>
      intro s _
      rfl
  | cons st steps ih =>
      intro s hsteps
      have hstep := trackers_step s (hsteps st (List.mem_cons_self ..))
      exact (ih (s.step st).2 fun st' hst' => hsteps st' (List.mem_cons_of_mem _ hst')).trans hstep

omit [PartitionedStore σ] in
/-- Only the answers of trackers name sessions. -/
theorem anonymous_step (s : Service σ) {st : Step} (hst : st.tracker? = none) :
    (s.step st).1.anonymous = (s.step st).1 := by
  have hcache : ∀ {β : Type} {f : β → Answer} (r : Except CacheError β),
      (∀ b, (f b).anonymous = f b) → (Answer.ofCache f r).anonymous = Answer.ofCache f r := by
    intro β f r hf
    cases r with
    | error e => rfl
    | ok b => exact hf b
  have hfailure : ∀ {β : Type} {f : β → Answer} (r : Except Failure β),
      (∀ b, (f b).anonymous = f b) → (Answer.ofFailure f r).anonymous = Answer.ofFailure f r := by
    intro β f r hf
    cases r with
    | error e => rfl
    | ok b => exact hf b
  cases st with
  | record profile topic duration => exact hcache (s.record profile topic duration).1 fun _ => rfl
  | get profile topic => exact hcache (s.topicRecord profile topic).1 fun _ => rfl
  | getAll profile => exact hcache (s.ledger profile).1 fun _ => rfl
  | remove profile => exact hcache (s.remove profile).1 fun _ => rfl
  | deleteProfile profile =>
      simp only [Service.step]
      cases (s.deleteProfile profile).1 <;> rfl
  | shouldShow profile topic =>
      simp only [Service.step]
      cases (s.shouldShow profile topic).1 <;> rfl
  | markShown profile => exact hfailure (s.markShown profile).1 fun _ => rfl
  | lastShown profile => exact hfailure (s.lastShown profile).1 fun _ => rfl
  | setLastShown profile n => exact hfailure (s.setLastShown profile n).1 fun _ => rfl
  | localTime =>
      simp only [Service.step]
      cases s.clock.local? <;> rfl
  | difference start stop =>
      simp only [Service.step]
      cases Saturating.sub? stop start <;> rfl
  | setClock | advanceClock | now | staleness | recordBatch => rfl
  | begin | finish | cancel | foreground | background | status | active => cases hst

omit [PartitionedStore σ] in
theorem anonymous_run (steps : List Step) : ∀ s : Service σ, (∀ st ∈ steps, st.tracker? = none) →
    (s.run steps).1.map Answer.anonymous = (s.run steps).1 := by
  induction steps with
  | nil =>
      intro s _
      rfl
  | cons st steps ih =>
      intro s hsteps
      rw [run_cons, List.map_cons, anonymous_step s (hsteps st (List.mem_cons_self ..)),
        ih (s.step st).2 fun st' hst' => hsteps st' (List.mem_cons_of_mem _ hst')]

omit [PartitionedStore σ] in
/-- Without steps of trackers there is nothing to drop. -/
theorem runForgetting_eq_run (segments : List (List Step)) :
    ∀ s : Service σ, s.trackers = ∅ → (∀ steps ∈ segments, ∀ st ∈ steps, st.tracker? = none) →
      s.runForgetting segments = s.run segments.flatten := by
  induction segments with
  | nil =>
      intro s _ _
      rfl
  | cons steps segments ih =>
      intro s htrackers hsteps
      have hrun := (trackers_run steps s (hsteps steps (List.mem_cons_self ..))).trans htrackers
      have hforget : (s.run steps).2.forget = (s.run steps).2 := by
        rw [forget, ← hrun]
      have hrest := ih (s.run steps).2 hrun fun steps' h => hsteps steps' (List.mem_cons_of_mem _ h)
      simp only [runForgetting, List.flatten_cons, run_append, hforget, hrest]

theorem Twins.self (h : Twins .faithful s s') : Twins .faithful s s :=
  fun q => ⟨rfl, rfl, .refl _ _, ⟨(h q).caches.1, (h q).caches.1⟩, fun _ => rfl⟩

/-- **What is opened is a twin of what was closed**, except for the sessions. -/
theorem Twins.reopen (h : Twins .faithful s s') :
    Twins .faithful (start s.clock s.settings s.store) s'.forget := by
  intro q
  have halike := h q
  refine ⟨halike.settings_eq, halike.clock_eq, halike.same, ?_, fun _ => rfl⟩
  exact ⟨fun c hc => (by cases hc), halike.caches.2⟩

end Service

namespace Installation

/-- The service can be opened again as it is. -/
structure Reopens (s : Service Database) : Prop where
  valid : s.settings.validate = .ok ()
  working : s.store.working = true
  version : s.store.tables.version = currentVersion

variable {s s' : Service Database}

theorem Reopens.of_steady (h : Reopens s) (hs : s.Steady s') : Reopens s' := by
  have hform := hs.form_eq
  refine ⟨hs.settings_eq ▸ h.valid, ?_, ?_⟩
  · exact (congrArg Prod.fst hform).trans h.working
  · exact (congrArg (fun form => form.2.1) hform).trans h.version

theorem Reopens.start (h : Reopens s) : Reopens (.start s.clock s.settings s.store) :=
  ⟨h.valid, h.working, h.version⟩

/-- The file is opened as it was closed. -/
theorem Reopens.open? (h : Reopens s) : Database.open? s.store.tables = .ok s.store := by
  rw [Database.open?_of_current h.version, ← h.working]

/-- **Reopening** leaves the store as it is. -/
theorem restart_running (h : Reopens s) :
    restart (.running s) none = (.ok (), .running (.start s.clock s.settings s.store)) := by
  simp only [restart, Installation.start, Option.getD_none, h.valid, h.open?]

theorem reopens_start {clock : Clock} {settings : Settings} {file : Tables}
    (h : start clock settings file = (.ok (), .running s)) :
    Reopens s ∧ s.trackers = ∅ ∧ s.Twins .faithful s := by
  unfold start at h
  split at h
  next => cases h
  next hvalid =>
    split at h
    next => cases h
    next db hdb =>
      cases h
      obtain ⟨hworking, hversion, -⟩ := Database.of_open? hdb
      refine ⟨⟨hvalid, hworking, hversion⟩, rfl, fun q => ⟨rfl, rfl, .refl _ _, ?_, fun _ => rfl⟩⟩
      exact ⟨fun c hc => (by cases hc), fun c hc => (by cases hc)⟩

/-- **Segments with reopenings** are answered like the segments where only sessions are dropped. -/
theorem runReopened_eq (segments : List (List Step)) :
    ∀ {s s' : Service Database}, Reopens s → s.Twins .faithful s' →
      (runReopened (.running s) segments).1.map (Option.map Answer.anonymous) =
        (s'.runForgetting segments).1.map (fun a => some a.anonymous) ∧
      ∃ s₁, (runReopened (.running s) segments).2 = .running s₁ ∧ Reopens s₁ ∧
        s₁.Twins .faithful (s'.runForgetting segments).2 := by
  induction segments with
  | nil =>
      intro s s' hs htwins
      exact ⟨rfl, s, rfl, hs, htwins⟩
  | cons steps segments ih =>
      intro s s' hs htwins
      obtain ⟨hanswers, hafter⟩ := htwins.run steps
      have hreopens : Reopens (s.run steps).2 := hs.of_steady (Service.steady_run steps s)
      obtain ⟨hrest, hend⟩ := ih hreopens.start hafter.reopen
      simp only [runReopened, Service.runForgetting, run_running, restart_running hreopens]
      refine ⟨?_, hend⟩
      have hfirst := congrArg (List.map some) hanswers
      rw [List.map_map, List.map_map] at hfirst
      rw [List.map_append, List.map_append, hrest, List.map_map]
      exact congrArg (· ++ _) hfirst

/-- Without steps of trackers no session is named. -/
theorem anonymous_runReopened (segments : List (List Step)) :
    ∀ {s : Service Database}, Reopens s → (∀ steps ∈ segments, ∀ st ∈ steps, st.tracker? = none) →
      (runReopened (.running s) segments).1.map (Option.map Answer.anonymous) =
        (runReopened (.running s) segments).1 := by
  induction segments with
  | nil =>
      intro s _ _
      rfl
  | cons steps segments ih =>
      intro s hs hsteps
      have hreopens : Reopens (s.run steps).2 := hs.of_steady (Service.steady_run steps s)
      have hrest := ih hreopens.start fun steps' h => hsteps steps' (List.mem_cons_of_mem _ h)
      have hfirst := congrArg (List.map some)
        (Service.anonymous_run steps s (hsteps steps (List.mem_cons_self ..)))
      rw [List.map_map] at hfirst
      simp only [runReopened, run_running, restart_running hreopens]
      rw [List.map_append, hrest, List.map_map]
      exact congrArg (· ++ _) hfirst

/-- **A service can be closed and opened again at any point.**  It answers as one that only drops its
sessions at these points; if no trackers are in use, as one that just ran on.  At any time opening its file
leaves the store as it is, and a ledger in memory is the one that is loaded then. -/
theorem reopened {clock : Clock} {settings : Settings} {file : Tables}
    (h : start clock settings file = (.ok (), .running s)) (segments : List (List Step)) :
    (runReopened (.running s) segments).1.map (Option.map Answer.anonymous) =
      (s.runForgetting segments).1.map (fun a => some a.anonymous) ∧
    ((∀ steps ∈ segments, ∀ st ∈ steps, st.tracker? = none) →
      (runReopened (.running s) segments).1 = (s.run segments.flatten).1.map some) ∧
    ∀ steps, ∃ s', ((runReopened (.running s) segments).2.run steps).2 = .running s' ∧
      Database.open? s'.store.tables = .ok s'.store ∧
      ∀ {profile c l}, s'.caches.get? profile = some c → c.held = some l →
        ((Service.start s'.clock s'.settings s'.store).ledger profile).1 = .ok l := by
  obtain ⟨hreopens, htrackers, htwins⟩ := reopens_start h
  obtain ⟨hanswers, s₁, hs₁, hreopens₁, htwins₁⟩ := runReopened_eq segments hreopens htwins
  refine ⟨hanswers, ?_, ?_⟩
  · intro hsteps
    have hrun := Service.anonymous_run segments.flatten s fun st hst => by
      obtain ⟨steps, hsegment, hmem⟩ := List.mem_flatten.1 hst
      exact hsteps steps hsegment st hmem
    rw [Service.runForgetting_eq_run segments s htrackers hsteps,
      anonymous_runReopened segments hreopens hsteps] at hanswers
    have hsome := congrArg (List.map some) hrun
    rw [List.map_map] at hsome
    exact hanswers.trans hsome
  · intro steps
    have hafter := (htwins₁.run steps).2.self
    refine ⟨(s₁.run steps).2, ?_, (hreopens₁.of_steady (Service.steady_run steps s₁)).open?, ?_⟩
    · rw [hs₁, run_running]
    · intro profile c l hc hl
      have hledger : ((s₁.run steps).2.forget.ledger profile).1 = .ok l := by
        simp only [Service.ledger, Service.cacheOf, Service.forget, hc, Cache.fetch, hl]
      exact ((Service.minds_ledger profile).alike rfl (hafter.reopen profile)).1.trans hledger

/-- A session that is lost when the service is closed, and records that are not. -/
theorem reopened_usual :
    start ⟨0, .zero⟩ .usual .blank = (.ok (), .running (.start ⟨0, .zero⟩ .usual .fresh)) ∧
    (runReopened (.running (.start ⟨0, .zero⟩ .usual .fresh)) [[.begin 0 "p" "t", .record "p" "t" 3],
      [.status 0, .record "p" "t" 4], [.get "p" "t"]]).1.map (Option.map Answer.anonymous) =
        [some (.begun .any), some .done, some (.status .idle), some .done,
          some (.record ⟨"t", 7, 0⟩)] := by
  have hvalid : Settings.usual.validate = .ok () := by rfl
  have hstart := start_blank ⟨0, .zero⟩ hvalid
  obtain ⟨hanswers, -⟩ := reopened hstart [[.begin 0 "p" "t", .record "p" "t" 3],
    [.status 0, .record "p" "t" 4], [.get "p" "t"]]
  refine ⟨hstart, hanswers.trans ?_⟩
  rw [Database.fresh_eq]
  rfl

end Installation

end StudyTime
