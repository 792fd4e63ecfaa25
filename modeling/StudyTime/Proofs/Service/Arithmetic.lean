/-
**No computation overflows, except where it is asked to.**

Every subtraction of instants lies within bounds, in every state of a service and at every instant of its
clock.  The time since the last survey is computed behind the checks that make it one.  The difference of
two given instants may be none, and there may be no local time at the ends of the years that are shown;
these two are the only ways in which a step aborts, and they leave the service as it was.

Main definitions:

* `Service.Overflows` — the steps that have no answer;
* `Service.Safe`, `Computes` — what is to be said of the steps, and of the computations behind them.

Main results:

* `Survey.cooledDown?_eq` — **the time since the last survey is an instant** wherever it is computed;
* `Service.plainStep_eq`, `Service.plainRun_eq` — plain subtractions change nothing, in a step and in a run;
* `Service.aborted_iff`, `Service.aborted_cases` — which steps abort, and that they change nothing;
* `Service.arithmetic_safe` — **which steps abort**, in all runs, and that all else is exact up to the
  bounds.
-/

import StudyTime.Service.Plain
import StudyTime.Proofs.LocalTime
import StudyTime.Proofs.Service.Gating
import StudyTime.Proofs.Service.Reopening

set_option relaxedAutoImplicit false
set_option autoImplicit false

namespace StudyTime

/-! ### Instants as durations -/

namespace Saturating

/-- The bits of an instant that is not negative are those of the duration. -/
theorem toNat_toUInt64 {n : Int64} (h : 0 ≤ n.toInt) : n.toUInt64.toNat = n.toInt.toNat :=
  Int64.toNat_toUInt64_of_le (Int64.le_iff_toInt_le.2 h)

theorem toInt_max (a b : Int64) : (max a b).toInt = max a.toInt b.toInt := by
  change (if a ≤ b then b else a).toInt = _
  split
  next h =>
    have hle := Int64.le_iff_toInt_le.1 h
    omega
  next h =>
    have hnot : ¬ a.toInt ≤ b.toInt := fun hle => h (Int64.le_iff_toInt_le.2 hle)
    omega

theorem elapsedBits_eq (stop start : Int64) : elapsedBits stop start = elapsed stop start := by
  have hmax := toInt_max (sub stop start) 0
  have hzero : (0 : Int64).toInt = 0 := rfl
  have hlast := Int64.toInt_lt (sub stop start)
  rw [← UInt64.toNat_inj, elapsedBits, toNat_toUInt64 (by omega), hmax, elapsed, UInt64.toNat_ofNat']
  omega

end Saturating

/-- A record is stale when its age, up to the last instant, exceeds the limit. -/
theorem TopicRecord.isStale_exact (r : TopicRecord) (now : Int64) (staleness : UInt64) :
    r.isStale now staleness = true ↔
      (staleness.toNat : Int) < min (now.toInt - r.updated.toInt) Saturating.latest := by
  rw [isStale, decide_eq_true_iff, UInt64.lt_iff_toNat_lt, Saturating.toNat_elapsed]
  simp only [Saturating.latest]
  omega

theorem TopicRecord.staleBits_eq (r : TopicRecord) (now : Int64) (staleness : UInt64) :
    r.staleBits now staleness = r.isStale now staleness := by
  have hage := Saturating.toInt_sub now r.updated
  have hpositive : 0 < Saturating.sub now r.updated ↔ 0 < (Saturating.sub now r.updated).toInt :=
    Int64.lt_iff_toInt_lt
  simp only [Saturating.earliest, Saturating.latest] at hage
  rw [Bool.eq_iff_iff, isStale_exact]
  simp only [staleBits, Bool.and_eq_true, decide_eq_true_eq, hpositive, UInt64.lt_iff_toNat_lt,
    Saturating.latest]
  by_cases hpos : 0 < (Saturating.sub now r.updated).toInt
  · rw [Saturating.toNat_toUInt64 (n := Saturating.sub now r.updated) (by omega)]
    omega
  · omega

/-- **The time since the last survey is an instant** wherever it is computed. -/
theorem Survey.cooledDown?_eq (now : Int64) (shown : Option Int64) (cooldown : UInt64) :
    cooledDown? now shown cooldown = .ok (cooledDown now shown cooldown) := by
  cases shown with
  | none => rfl
  | some shown =>
      have hfirst := Int64.le_toInt shown
      have hlast := Int64.toInt_lt now
      have helapsed := Saturating.toNat_elapsed now shown
      have hpositive : shown ≤ 0 ↔ shown.toInt ≤ 0 := Int64.le_iff_toInt_le
      have hahead : now < shown ↔ now.toInt < shown.toInt := Int64.lt_iff_toInt_lt
      simp only [Saturating.latest] at helapsed
      simp only [cooledDown?, cooledDown, hpositive, hahead]
      by_cases hshown : shown.toInt ≤ 0
      · simp [hshown]
      by_cases hnow : now.toInt < shown.toInt
      · have hnot : ¬ cooldown < Saturating.elapsed now shown := by
          rw [UInt64.lt_iff_toNat_lt]
          omega
        simp [hshown, hnow, hnot]
      -- between zero and now the difference is an instant, and not negative
      cases hsub : Saturating.sub? now shown with
      | none =>
          have hbounds := Saturating.sub?_eq_none_iff.1 hsub
          simp only [Saturating.earliest, Saturating.latest] at hbounds
          omega
      | some d =>
          have hd := Saturating.sub?_eq_some_iff.1 hsub
          have hbits : d.toUInt64 = Saturating.elapsed now shown := by
            rw [← UInt64.toNat_inj, Saturating.toNat_toUInt64 (by omega), helapsed]
            omega
          simp [hshown, hnow, hbits]

/-! ### Steps -/

namespace Answer

variable {β : Type} {f : β → Answer} {a : Abort}

theorem ofCache_ne_aborted (hf : ∀ b, f b ≠ .aborted a) (r : Except CacheError β) :
    ofCache f r ≠ .aborted a := by
  cases r with
  | error e => exact fun h => by cases h
  | ok b => exact hf b

theorem ofFailure_ne_aborted (hf : ∀ b, f b ≠ .aborted a) (r : Except Failure β) :
    ofFailure f r ≠ .aborted a := by
  cases r with
  | error e => exact fun h => by cases h
  | ok b => exact hf b

theorem ofService_ne_aborted (hf : ∀ b, f b ≠ .aborted a) (r : Except ServiceError β) :
    ofService f r ≠ .aborted a := by
  cases r with
  | error e => exact fun h => by cases h
  | ok b => exact hf b

end Answer

namespace Service

variable {σ : Type} [Backend σ] (s : Service σ)

theorem cooledDown?_eq (profile : Profile) :
    s.cooledDown? profile = (.ok (s.cooledDown profile).1, (s.cooledDown profile).2) := by
  simp only [cooledDown?, cooledDown]
  generalize s.lastShown profile = out
  obtain ⟨r, s'⟩ := out
  cases r with
  | error f => rfl
  | ok shown => simp only [Survey.cooledDown?_eq]

theorem shouldShow?_eq (profile : Profile) (topic : String) :
    s.shouldShow? profile topic = s.shouldShow profile topic := by
  simp only [shouldShow?, shouldShow, cooledDown?_eq]
  cases s.clock.local? with
  | error a => rfl
  | ok d =>
      dsimp only
      cases Survey.inWindow d.time s.settings.survey.windowStart s.settings.survey.windowEnd with
      | false => rfl
      | true =>
          generalize s.cooledDown profile = out
          obtain ⟨cooled, s'⟩ := out
          cases cooled <;> rfl

/-- **Plain subtractions change nothing** in a step. -/
theorem plainStep_eq (st : Step) : s.plainStep st = s.step st := by
  cases st with
  | shouldShow profile topic => simp only [plainStep, Service.step, shouldShow?_eq]
  | _ => rfl

/-- **Plain subtractions change nothing** in a run. -/
theorem plainRun_eq (steps : List Step) : ∀ s : Service σ, s.plainRun steps = s.run steps := by
  induction steps with
  | nil =>
      intro s
      rfl
  | cons st steps ih =>
      intro s
      simp only [plainRun, run, plainStep_eq, ih]

/-- The steps that have no answer, and why. -/
inductive Overflows (c : Clock) : Step → Abort → Prop
  | difference {start stop : Int64} :
      (stop.toInt - start.toInt < Saturating.earliest ∨ Saturating.latest < stop.toInt - start.toInt) →
      Overflows c (.difference start stop) .subtraction
  | localTime : c.Stranded → Overflows c .localTime .localTime
  | shouldShow (profile : Profile) (topic : String) : c.Stranded →
      Overflows c (.shouldShow profile topic) .localTime

/-- It is asked in vain whether a survey is to be shown, and this changes nothing, when there is no local
time. -/
theorem shouldShow_error_iff (profile : Profile) (topic : String) (a : Abort) :
    (s.shouldShow profile topic).1 = .error a ↔ s.shouldShow profile topic = (.error a, s) ∧
      s.clock.Stranded ∧ a = .localTime := by
  rw [← Clock.local?_error_iff]
  constructor
  · intro h
    have hway := s.weighs_shouldShow profile topic
    generalize s.shouldShow profile topic = out at h hway
    cases hway with
    | noTime ha =>
        cases h
        exact ⟨rfl, ha⟩
    | shut | resting | decided => cases h
  · intro h
    rw [h.1]

/-- **A step aborts for these reasons only**, and it leaves the service as it was. -/
theorem aborted_cases {st : Step} {a : Abort} (h : (s.step st).1 = .aborted a) :
    Overflows s.clock st a ∧ (s.step st).2 = s := by
  cases st with
  | difference start stop =>
      simp only [Service.step] at h
      cases hsub : Saturating.sub? stop start with
      | none =>
          rw [hsub] at h
          cases h
          exact ⟨.difference (Saturating.sub?_eq_none_iff.1 hsub), rfl⟩
      | some n =>
          rw [hsub] at h
          cases h
  | localTime =>
      simp only [Service.step] at h
      cases hlocal : s.clock.local? with
      | error a' =>
          rw [hlocal] at h
          cases h
          obtain ⟨hstranded, rfl⟩ := (s.clock.local?_error_iff a).1 hlocal
          exact ⟨.localTime hstranded, rfl⟩
      | ok d =>
          rw [hlocal] at h
          cases h
  | shouldShow profile topic =>
      have hiff := s.shouldShow_error_iff profile topic a
      simp only [Service.step] at h ⊢
      generalize s.shouldShow profile topic = out at h hiff ⊢
      obtain ⟨r, s'⟩ := out
      cases r with
      | ok yes => cases h
      | error a' =>
          cases h
          obtain ⟨hout, hstranded, rfl⟩ := hiff.1 rfl
          cases hout
          exact ⟨.shouldShow profile topic hstranded, rfl⟩
  | record | getAll | get | remove => exact absurd h (Answer.ofCache_ne_aborted (fun _ h => by cases h) _)
  | lastShown | setLastShown | markShown | begin =>
      exact absurd h (Answer.ofFailure_ne_aborted (fun _ h => by cases h) _)
  | deleteProfile | finish => exact absurd h (Answer.ofService_ne_aborted (fun _ h => by cases h) _)
  | _ => cases h

/-- **A step aborts where it has no answer**, and only there. -/
theorem aborted_iff (st : Step) (a : Abort) : (s.step st).1 = .aborted a ↔ Overflows s.clock st a := by
  refine ⟨fun h => (s.aborted_cases h).1, fun h => ?_⟩
  cases h with
  | difference hbounds =>
      simp only [Service.step, Saturating.sub?_eq_none_iff.2 hbounds]
  | localTime hstranded =>
      simp only [Service.step, (s.clock.local?_error_iff _).2 ⟨hstranded, rfl⟩]
      rfl
  | shouldShow profile topic hstranded =>
      have hshow : s.shouldShow profile topic = (.error .localTime, s) := by
        simp only [shouldShow, (s.clock.local?_error_iff _).2 ⟨hstranded, rfl⟩]
      simp only [Service.step, hshow]
      rfl

/-- What is to be said of the steps of a service. -/
structure Safe (s : Service σ) : Prop where
  /-- Plain subtractions stay within bounds, except in the step that asks for one. -/
  plain : ∀ st, s.plainStep st = s.step st
  /-- The steps that abort are those that have no answer. -/
  aborted_iff : ∀ st a, (s.plainStep st).1 = .aborted a ↔ Overflows s.clock st a
  untouched : ∀ st a, (s.plainStep st).1 = .aborted a → (s.plainStep st).2 = s

/-- **All steps are safe**, whatever the state of the service. -/
theorem safe : s.Safe := by
  refine ⟨s.plainStep_eq, ?_, ?_⟩
  · intro st a
    rw [plainStep_eq]
    exact s.aborted_iff st a
  · intro st a h
    rw [plainStep_eq] at h ⊢
    exact (s.aborted_cases h).2

/-- **A run goes on behind a step that aborts** as if it had not been asked. -/
theorem plainRun_of_aborted (before after : List Step) {st : Step} {a : Abort}
    (h : ((s.plainRun before).2.plainStep st).1 = .aborted a) :
    s.plainRun (before ++ st :: after) =
      ((s.plainRun before).1 ++ .aborted a :: ((s.plainRun before).2.plainRun after).1,
        ((s.plainRun before).2.plainRun after).2) := by
  have hstate := (safe (s.plainRun before).2).untouched st a h
  simp only [plainRun_eq, plainStep_eq] at h hstate ⊢
  rw [run_append, run_cons, h, hstate]

end Service

/-! ### All computations -/

/-- What is computed with instants and durations besides: everything is exact, up to the bounds of a
duration and of an instant, and where bits are taken they are those of the number. -/
structure Computes : Prop where
  elapsed : ∀ stop start : Int64, Saturating.elapsedBits stop start = Saturating.elapsed stop start ∧
    (Saturating.elapsed stop start).toNat =
      min (stop.toInt - start.toInt).toNat Saturating.latest.toNat
  stale : ∀ (r : TopicRecord) (now : Int64) (staleness : UInt64),
    r.staleBits now staleness = r.isStale now staleness ∧
    (r.isStale now staleness = true ↔
      (staleness.toNat : Int) < min (now.toInt - r.updated.toInt) Saturating.latest)
  merge : ∀ (r : TopicRecord) (duration : UInt64) (now : Int64) (staleness : UInt64),
    (r.merge duration now staleness).total.toNat =
      if r.isStale now staleness then duration.toNat
      else min (r.total.toNat + duration.toNat) Saturating.longest
  active : ∀ (session : OpenSession) (baseline : UInt64) (anchor now : Int64),
    ((Tracker.running session baseline anchor).active now).toNat =
      min (baseline.toNat + min (now.toInt - anchor.toInt).toNat Saturating.latest.toNat)
        Saturating.longest
  duration : ∀ s : Session, s.duration.toNat =
    min (s.stopped.toInt - s.started.toInt).toNat Saturating.latest.toNat
  cooledDown : ∀ (now : Int64) (shown : Option Int64) (cooldown : UInt64),
    Survey.cooledDown? now shown cooldown = .ok (Survey.cooledDown now shown cooldown) ∧
    (Survey.cooledDown now shown cooldown = true ↔
      ∀ n, shown = some n → 0 < n.toInt → n.toInt + cooldown.toNat < now.toInt)
  atLocal : ∀ (d : DateTime) (offset : Offset), Shown d.toMillis →
    (Clock.atLocal d offset).now.toInt = d.toMillis - offset.millis

theorem computes : Computes where
  elapsed stop start := ⟨Saturating.elapsedBits_eq stop start, Saturating.toNat_elapsed stop start⟩
  stale r now staleness := ⟨r.staleBits_eq now staleness, r.isStale_exact now staleness⟩
  merge r duration now staleness := by
    rw [TopicRecord.merge]
    split
    · rfl
    · exact Saturating.toNat_add r.total duration
  active session baseline anchor now := by
    rw [Tracker.active, Saturating.toNat_add, Saturating.toNat_elapsed]
  duration s := Saturating.toNat_elapsed s.stopped s.started
  cooledDown now shown cooldown :=
    ⟨Survey.cooledDown?_eq now shown cooldown, Survey.cooledDown_iff now shown cooldown⟩
  atLocal _ offset h := Clock.toInt_now_atLocal h offset

namespace Service

/-- **Which steps abort.**  Over any store, in memory or in a database, and in every state of the service,
the only steps that abort are the difference of instants that is no instant and those that need a local time
where there is none; they abort at any rate, and they leave the service as it was, so that a run goes on as
if they had not been asked.  All other computations are exact up to the bounds. -/
theorem arithmetic_safe {σ : Type} [Backend σ] (s : Service σ) :
    (∀ steps, (s.plainRun steps).2.Safe ∧ s.plainRun steps = s.run steps) ∧
    (∀ before st after a, ((s.plainRun before).2.plainStep st).1 = .aborted a →
      s.plainRun (before ++ st :: after) =
        ((s.plainRun before).1 ++ .aborted a :: ((s.plainRun before).2.plainRun after).1,
          ((s.plainRun before).2.plainRun after).2)) ∧
    Computes :=
  ⟨fun steps => ⟨safe _, plainRun_eq steps s⟩, fun before _ after _ h => s.plainRun_of_aborted before after h,
    computes⟩

/-- Minutes before the last years that are shown end, east of Greenwich, and the two instants that are
farthest apart. -/
theorem arithmetic_safe_at_bounds :
    let s : Service Memory := .start ⟨0, ⟨3600, by decide, by decide⟩⟩ .usual .blank
    let last : Int64 := 8210266876799999
    ((s.plainRun [.advanceClock last]).2.plainStep (.shouldShow "p" "t")).1 = .aborted .localTime ∧
    ((s.plainRun []).2.plainStep (.difference Int64.minValue Int64.maxValue)).1 = .aborted .subtraction ∧
    s.plainRun [.difference Int64.minValue 0, .begin 0 "p" "t", .advanceClock 5, .finish 0] =
      s.run [.difference Int64.minValue 0, .begin 0 "p" "t", .advanceClock 5, .finish 0] := by
  intro s last
  have hsafe := (arithmetic_safe s).1
  refine ⟨?_, ?_, (hsafe _).2⟩
  · refine ((hsafe _).1.aborted_iff _ _).2 (.shouldShow "p" "t" ?_)
    change Clock.Stranded ⟨0 + 8210266876799999, ⟨3600, by decide, by decide⟩⟩
    constructor <;> decide
  · refine ((hsafe []).1.aborted_iff _ _).2 (.difference ?_)
    decide

end Service

end StudyTime
