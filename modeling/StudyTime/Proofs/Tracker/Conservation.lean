/-
**No time of a session is lost.**

From its beginning to its end a session is in the foreground or paused.  A pause begins when the application
goes to the background while the session runs, and it ends when the application comes to the foreground
again, or with the session; what else happens in between begins and ends nothing.  As long as clocks do not
go back, the time that is counted and the time of the pauses add up to the time from the first instant to
the last one, and nothing on the way is held at a bound.  So a session is never longer in the foreground than
it lasts, and as long as it lasts only if the pauses took no time.

Main definitions:

* `TrackerEvent.turned`, `pauses`, `span` — the pauses of a session, and how long they are together;
* `InOrder` — clocks do not go back;
* `closing` — the window that an event closes;
* `Session.Conserves` — what is to be said of a session and its pauses.

Main results:

* `total_add_span` — the windows and the pauses of the same events;
* `Tracker.conserves_run` — **a tracker loses no time of the session that it follows**;
* `session_time_conserved` — nor does a tracker that is kept in fields, or a service.
-/

import StudyTime.Proofs.Tracker.Windows

set_option relaxedAutoImplicit false
set_option autoImplicit false

namespace StudyTime

/-! ### Pauses -/

/-- The event with the foreground for the background, and the other way around. -/
def TrackerEvent.turned : TrackerEvent → TrackerEvent
  | .foreground now => .background now
  | .background now => .foreground now
  | e => e

/-- The pauses of the events, given the beginning of the one that goes on before them: what would be windows
if the foreground were the background. -/
def pauses (now : Int64) (paused : Option Int64) (es : List TrackerEvent) : List (Int64 × Int64) :=
  windows now paused (es.map .turned)

/-- How long the pauses are together, exactly. -/
def span : List (Int64 × Int64) → Int
  | [] => 0
  | (start, stop) :: ps => stop.toInt - start.toInt + span ps

/-! ### Clocks that do not go back -/

/-- When the application comes to the foreground or goes to the background. -/
def TrackerEvent.moved? : TrackerEvent → Option Int64
  | .foreground now | .background now => some now
  | _ => none

/-- The instants from one to another one, with those of the events between them, do not go back. -/
def InOrder (start : Int64) (es : List TrackerEvent) (stop : Int64) : Prop :=
  (start :: es.filterMap TrackerEvent.moved? ++ [stop]).Pairwise (· ≤ ·)

instance (start : Int64) (es : List TrackerEvent) (stop : Int64) : Decidable (InOrder start es stop) := by
  unfold InOrder
  infer_instance

section InOrder

variable {start stop : Int64} {e : TrackerEvent} {es : List TrackerEvent}

theorem InOrder.le (h : InOrder start es stop) : start.toInt ≤ stop.toInt :=
  Int64.le_iff_toInt_le.1 ((List.pairwise_cons.1 h).1 stop (List.mem_append_right _ List.mem_cons_self))

theorem InOrder.of_moved (h : InOrder start (e :: es) stop) (now : Int64) (he : e.moved? = some now) :
    start.toInt ≤ now.toInt ∧ InOrder now es stop := by
  rw [InOrder, List.filterMap_cons_some he] at h
  obtain ⟨hstart, hrest⟩ := List.pairwise_cons.1 h
  exact ⟨Int64.le_iff_toInt_le.1 (hstart now List.mem_cons_self), hrest⟩

theorem InOrder.of_not_moved (h : InOrder start (e :: es) stop) (he : e.moved? = none) :
    InOrder start es stop := by
  rwa [InOrder, List.filterMap_cons_none he] at h

theorem filterMap_moved?_turned (es : List TrackerEvent) :
    (es.map TrackerEvent.turned).filterMap TrackerEvent.moved? = es.filterMap TrackerEvent.moved? := by
  have hevent : TrackerEvent.moved? ∘ TrackerEvent.turned = TrackerEvent.moved? := by
    funext e
    cases e <;> rfl
  rw [List.filterMap_map, hevent]

theorem InOrder.turned (h : InOrder start es stop) : InOrder start (es.map TrackerEvent.turned) stop := by
  rwa [InOrder, filterMap_moved?_turned]

/-- After an event the clock shows an instant that is not earlier, and it is the one of the event. -/
theorem InOrder.tail (h : InOrder start (e :: es) stop) :
    ∃ last : Int64, start.toInt ≤ last.toInt ∧ InOrder last es stop ∧
      ∀ now, e.moved? = some now → now = last := by
  cases he : e.moved? with
  | none => exact ⟨start, Int.le_refl _, h.of_not_moved he, fun _ hnow => by cases hnow⟩
  | some now =>
      obtain ⟨hstart, hrest⟩ := h.of_moved now he
      exact ⟨now, hstart, hrest, fun _ hnow => (Option.some.inj hnow).symm⟩

end InOrder

/-! ### Windows do not go back -/

/-- The window that an event closes, given the one that is open before it. -/
def closing : Option Int64 → TrackerEvent → Option (Int64 × Int64)
  | some opened, .background closed => some (opened, closed)
  | _, _ => none

theorem windows_cons (now : Int64) (opened : Option Int64) (e : TrackerEvent) (es : List TrackerEvent) :
    windows now opened (e :: es) = (closing opened e).toList ++ windows now (nextOpen opened e) es := by
  cases opened <;> cases e <;> rfl

section Windows

variable {opened : Option Int64} {e : TrackerEvent}

/-- A window that is closed was open, and it closes at the instant of the event. -/
theorem of_closing {w : Int64 × Int64} (h : closing opened e = some w) :
    opened = some w.1 ∧ e.moved? = some w.2 := by
  cases opened with
  | none => cases h
  | some since =>
      cases e with
      | background closed =>
          cases h
          exact ⟨rfl, rfl⟩
      | begin | foreground | active | status | finish | cancel => cases h

/-- A window that is open was open before, or it opens at the instant of the event. -/
theorem of_nextOpen {since : Int64} (h : nextOpen opened e = some since) :
    opened = some since ∨ e.moved? = some since := by
  cases opened with
  | none =>
      cases e with
      | foreground now => exact .inr h
      | begin | background | active | status | finish | cancel => cases h
  | some opened =>
      cases e with
      | background now => cases h
      | begin | foreground | active | status | finish | cancel => exact .inl h

/-- Windows do not go back. -/
theorem windows_le {stop : Int64} (es : List TrackerEvent) :
    ∀ {last : Int64} {opened : Option Int64}, InOrder last es stop →
      (∀ since, opened = some since → since.toInt ≤ last.toInt) →
      ∀ w ∈ windows stop opened es, w.1.toInt ≤ w.2.toInt := by
  induction es with
  | nil =>
      intro last opened horder hopened w hw
      cases opened with
      | none => cases hw
      | some since =>
          cases List.mem_singleton.1 hw
          exact Int.le_trans (hopened since rfl) horder.le
  | cons e es ih =>
      intro last opened horder hopened w hw
      obtain ⟨last', hlast, hrest, hmoved⟩ := horder.tail
      rw [windows_cons, List.mem_append, Option.mem_toList] at hw
      rcases hw with hw | hw
      · obtain ⟨hsince, hnow⟩ := of_closing hw
        rw [hmoved w.2 hnow]
        exact Int.le_trans (hopened w.1 hsince) hlast
      · refine ih hrest (fun since hsince => ?_) w hw
        rcases of_nextOpen hsince with hbefore | hnow
        · exact Int.le_trans (hopened since hbefore) hlast
        · exact Int.le_of_eq (congrArg Int64.toInt (hmoved since hnow))

end Windows

/-- Pauses do not go back. -/
theorem pauses_le {start stop : Int64} {es : List TrackerEvent} (h : InOrder start es stop) :
    ∀ p ∈ pauses stop none es, p.1.toInt ≤ p.2.toInt :=
  windows_le _ h.turned fun _ hnone => by cases hnone

/-! ### Windows and pauses together -/

/-- **The windows and the pauses of the same events** fill the time from the opening of the window, or from
the beginning of the pause, to the end. -/
theorem total_add_span {stop : Int64} (es : List TrackerEvent) :
    ∀ {last since : Int64}, InOrder last es stop → since.toInt ≤ last.toInt →
      stop.toInt - since.toInt ≤ 0x7FFFFFFFFFFFFFFF →
      total (windows stop (some since) es) + span (pauses stop none es) = stop.toInt - since.toInt ∧
      total (windows stop none es) + span (pauses stop (some since) es) = stop.toInt - since.toInt := by
  induction es with
  | nil =>
      intro last since horder hsince hspan
      have := horder.le
      simp only [pauses, List.map_nil, windows, total, span]
      omega
  | cons e es ih =>
      intro last since horder hsince hspan
      cases e with
      | background now =>
          obtain ⟨hlast, hrest⟩ := horder.of_moved now rfl
          have hend := hrest.le
          obtain ⟨-, hpaused⟩ := ih hrest (Int.le_refl _) (by omega)
          obtain ⟨-, hstill⟩ := ih hrest (Int.le_trans hsince hlast) hspan
          simp only [pauses, List.map_cons, TrackerEvent.turned, windows, nextOpen, total] at *
          omega
      | foreground now =>
          obtain ⟨hlast, hrest⟩ := horder.of_moved now rfl
          have hend := hrest.le
          obtain ⟨hresumed, -⟩ := ih hrest (Int.le_refl _) (by omega)
          obtain ⟨hstill, -⟩ := ih hrest (Int.le_trans hsince hlast) hspan
          simp only [pauses, List.map_cons, TrackerEvent.turned, windows, nextOpen, span] at *
          omega
      | begin | active | status | finish | cancel =>
          exact ih (horder.of_not_moved rfl) hsince hspan

/-- The pauses take no time exactly if none of them does. -/
theorem span_eq_zero_iff (ps : List (Int64 × Int64)) (h : ∀ p ∈ ps, p.1.toInt ≤ p.2.toInt) :
    0 ≤ span ps ∧ (span ps = 0 ↔ ∀ p ∈ ps, p.1 = p.2) := by
  induction ps with
  | nil => exact ⟨Int.le_refl _, fun _ p hp => (by cases hp), fun _ => rfl⟩
  | cons p ps ih =>
      obtain ⟨hp, hps⟩ := List.forall_mem_cons.1 h
      obtain ⟨hnonneg, hzero⟩ := ih hps
      rw [List.forall_mem_cons, ← hzero, ← Int64.toInt_inj, span]
      omega

/-! ### Sessions -/

/-- What is to be said of a session and its pauses. -/
structure Session.Conserves (session : Session) (ps : List (Int64 × Int64)) : Prop where
  active_add_span : session.active.toNat + span ps = session.duration.toNat
  duration_eq : (session.duration.toNat : Int) = session.stopped.toInt - session.started.toInt
  active_le : session.active ≤ session.duration
  /-- The whole session is in the foreground exactly if the pauses take no time. -/
  active_eq_iff : session.active = session.duration ↔ ∀ p ∈ ps, p.1 = p.2
  /-- No pause ends before it begins. -/
  pauses_le : ∀ p ∈ ps, p.1 ≤ p.2

/-- A session that was followed through events in order. -/
theorem Session.conserves_of_inOrder {session : Session} {es : List TrackerEvent}
    (horder : InOrder session.started es session.stopped)
    (hspan : session.stopped.toInt - session.started.toInt ≤ 0x7FFFFFFFFFFFFFFF)
    (hactive : session.active.toNat =
      min (total (windows session.stopped (some session.started) es)) Saturating.longest) :
    session.Conserves (pauses session.stopped none es) := by
  obtain ⟨hsum, -⟩ := total_add_span es horder (Int.le_refl _) hspan
  obtain ⟨hnonneg, hzero⟩ := span_eq_zero_iff _ (pauses_le horder)
  have hduration : session.duration.toNat = session.stopped.toInt - session.started.toInt := by
    have := horder.le
    rw [Session.duration, Saturating.toNat_elapsed, Saturating.latest]
    omega
  have hwhole : (session.active.toNat : Int) + span (pauses session.stopped none es) =
      session.duration.toNat := by
    simp only [Saturating.longest] at hactive
    omega
  refine ⟨hwhole, hduration, ?_, ?_, ?_⟩
  · rw [UInt64.le_iff_toNat_le]
    omega
  · rw [← UInt64.toNat_inj, ← hzero]
    omega
  · intro p hp
    exact Int64.le_iff_toInt_le.2 (pauses_le horder p hp)

/-- **A tracker loses no time of the session that it follows.** -/
theorem Tracker.conserves_run {s : OpenSession} {es : List TrackerEvent} (hes : ∀ e ∈ es, e.ends = false)
    {stop : Int64} (horder : InOrder s.started es stop)
    (hspan : stop.toInt - s.started.toInt ≤ 0x7FFFFFFFFFFFFFFF) :
    let t := ((running s 0 s.started).run es).2
    t.session? = some s ∧
      Session.Conserves ⟨s.id, s.profile, s.topic, s.started, stop, t.active stop⟩ (pauses stop none es) := by
  obtain ⟨hsession, -, hactive⟩ := active_run (t := running s 0 s.started) rfl hes
  refine ⟨hsession, Session.conserves_of_inOrder horder hspan ?_⟩
  have htime := hactive stop
  rwa [baseline, UInt64.toNat_zero, Nat.zero_add] at htime

/-! ### Sessions in a service -/

namespace Service

variable {σ : Type} [Backend σ]

omit [Backend σ] in
/-- Only two steps end a session. -/
theorem ends_of_asks {s : Service σ} {n : Nat} {st : Step} {e : TrackerEvent} (he : s.asks n st = some e)
    (hfinish : st ≠ .finish n) (hcancel : st ≠ .cancel n) : e.ends = false := by
  unfold asks at he
  split at he
  next hst =>
    cases st with
    | finish =>
        cases hst
        exact absurd rfl hfinish
    | cancel =>
        cases hst
        exact absurd rfl hcancel
    | begin | foreground | background | status | active =>
        cases he
        rfl
    | _ => cases he
  next => cases he

/-- The events of a session do not end it as long as nobody asks for that. -/
theorem ends_of_asked {n : Nat} {steps : List Step} (h : ∀ st ∈ steps, st ≠ .finish n ∧ st ≠ .cancel n) :
    ∀ s : Service σ, ∀ e ∈ (s.asked n steps).map Prod.fst, e.ends = false := by
  induction steps with
  | nil =>
      intro s e he
      cases he
  | cons st steps ih =>
      obtain ⟨hst, hrest⟩ := List.forall_mem_cons.1 h
      intro s e he
      rw [asked, List.map_append, List.mem_append] at he
      rcases he with he | he
      · cases hasks : s.asks n st with
        | none =>
            rw [hasks] at he
            cases he
        | some e' =>
            rw [hasks] at he
            cases List.mem_singleton.1 he
            exact ends_of_asks hasks hst.1 hst.2
      · exact ih hrest _ e he

end Service

/-! ### Every session -/

/-- **No time of a session is lost.**  A tracker that is idle begins a session, goes through any events that
do not end it, and finishes it: as long as clocks do not go back and the instants are not too far from each
other, the time that is counted and the time of the pauses make up the duration, and this is the time from
the beginning to the end.  The same holds of the sessions that a service begins and finishes, whatever is
asked of it in between. -/
theorem session_time_conserved :
    (∀ (f : TrackerFields) (id : SessionId) (profile : Profile) (topic : String) (start stop : Int64)
      (es : List TrackerEvent), f.status = .idle → (∀ e ∈ es, e.ends = false) → InOrder start es stop →
      stop.toInt - start.toInt ≤ 0x7FFFFFFFFFFFFFFF →
      ∃ active : UInt64, ((f.step (.begin id profile topic start)).2.run es).2.step (.finish stop) =
          (.finished ⟨id, profile, topic, start, stop, active⟩, .blank) ∧
        Session.Conserves ⟨id, profile, topic, start, stop, active⟩ (pauses stop none es)) ∧
    ∀ (σ : Type) [Backend σ] (s : Service σ) (n : Nat) (profile : Profile) (topic : String)
      (id : SessionId) (steps : List Step) (session : Session),
      let s₁ := (s.step (.begin n profile topic)).2
      let s₂ := (s₁.run steps).2
      let events := (s₁.asked n steps).map Prod.fst
      (s.step (.begin n profile topic)).1 = .begun id →
      (∀ st ∈ steps, st ≠ .finish n ∧ st ≠ .cancel n) → InOrder s.clock.now events s₂.clock.now →
      s₂.clock.now.toInt - s.clock.now.toInt ≤ 0x7FFFFFFFFFFFFFFF →
      (s₂.step (.finish n)).1 = .finished session →
      (session.id = id ∧ session.profile = profile ∧ session.topic = topic ∧
        session.started = s.clock.now ∧ session.stopped = s₂.clock.now) ∧
      session.Conserves (pauses s₂.clock.now none events) := by
  constructor
  · intro f id profile topic start stop es hidle hes horder hspan
    have hbegun : (f.step (.begin id profile topic start)).2 =
        (Tracker.running ⟨id, profile, topic, start⟩ 0 start).fields := by
      rw [TrackerFields.step, if_neg (not_not_intro hidle)]
      rfl
    obtain ⟨hsession, hconserves⟩ :=
      Tracker.conserves_run (s := ⟨id, profile, topic, start⟩) hes horder hspan
    rw [hbegun, Tracker.run_fields, Tracker.finish_fields hsession]
    exact ⟨_, rfl, hconserves⟩
  · intro σ _ s n profile topic id steps session s₁ s₂ events hbegun hsteps horder hspan hfinished
    obtain ⟨hsession, hconserves⟩ := Tracker.conserves_run (s := ⟨id, profile, topic, s.clock.now⟩)
      (Service.ends_of_asked hsteps s₁) horder hspan
    -- the tracker of the service has gone through these events
    have htracker : s₂.tracker n = _ := (Service.tracker_run n steps s₁).1
    rw [(Service.tracker_of_begun hbegun).2] at htracker
    have hfinish := Service.session_of_finished hfinished
    rw [htracker, Tracker.finish?, hsession, Option.map_some] at hfinish
    cases hfinish
    exact ⟨⟨rfl, rfl, rfl, rfl, rfl⟩, hconserves⟩

/-- A pause in which the application goes to the background once more and comes to the foreground twice, and
a session in a service that is paused to the end. -/
theorem session_time_conserved_with_pauses :
    let es : List TrackerEvent :=
      [.background 120, .background 125, .foreground 150, .foreground 160, .active 10]
    let s : Service Memory := .start ⟨-5, .zero⟩ .usual .blank
    let steps : List Step := [.advanceClock 20, .background 1, .advanceClock 40]
    let session : Session := ⟨.ofNat 0, "p", "t", -5, 55, 20⟩
    pauses 200 none es = [(120, 150)] ∧
    (∃ active : UInt64, ((TrackerFields.blank.step (.begin (.ofNat 0) "p" "t" 100)).2.run es).2.step
        (.finish 200) = (.finished ⟨.ofNat 0, "p", "t", 100, 200, active⟩, .blank) ∧
      active.toNat + 30 = 100) ∧
    (((s.step (.begin 1 "p" "t")).2.run steps).2.step (.finish 1)).1 = .finished session ∧
    session.Conserves [(15, 55)] := by
  intro es s steps session
  refine ⟨by decide, ?_, ?_⟩
  · obtain ⟨active, hfinished, hconserves⟩ := session_time_conserved.1 .blank (.ofNat 0) "p" "t" 100 200 es rfl
      (by decide) (by decide) (by decide)
    refine ⟨active, hfinished, ?_⟩
    have hsum : active.toNat + span (pauses 200 none es) = (Saturating.elapsed 200 100).toNat :=
      hconserves.active_add_span
    have hspan : span (pauses 200 none es) = 30 := by decide
    have hduration : (Saturating.elapsed 200 100).toNat = 100 := by decide
    omega
  · have hfinished : (((s.step (.begin 1 "p" "t")).2.run steps).2.step (.finish 1)).1 = .finished session := by
      simp only [s, steps]
      rfl
    obtain ⟨-, hconserves⟩ := session_time_conserved.2 Memory s 1 "p" "t" (.ofNat 0) steps session rfl
      (by decide) (by decide) (by decide) hfinished
    have hpauses : pauses ((s.step (.begin 1 "p" "t")).2.run steps).2.clock.now none
        (((s.step (.begin 1 "p" "t")).2.asked 1 steps).map Prod.fst) = [(15, 55)] := by
      decide
    rw [hpauses] at hconserves
    exact ⟨hfinished, hconserves⟩

end StudyTime
