/-
**The record of a topic sums up its last streak.**

A topic is studied now and then, and each time the session is merged into its record.  A session is
stale with respect to the one before it if more time than the limit has passed between them.  The last
streak of a history is the longest sequence at its end in which no session is stale with respect to the
one before.  Merging one session after the other adds up the durations of the last streak, up to the
largest duration there is: a sum that was held there is let go of only when a stale session begins a new
streak.

Main definitions:

* `Study`, `Study.Stale` — a session of a topic, and when it begins a new streak;
* `IsLastStreak` — the last streak of a history;
* `TopicRecord.SumsUp` — the record that sums up a history.

Main results:

* `IsLastStreak.concat`, `isLastStreak_concat_of_stale` — the last streak after one more session;
* `TopicRecord.SumsUp.merge` — **merging a session sums up the longer history**.
-/

import Mathlib.Data.List.Chain
import StudyTime.TopicRecord

set_option relaxedAutoImplicit false
set_option autoImplicit false

namespace StudyTime

/-- A session in which a topic was studied. -/
@[ext] structure Study where
  /-- How long it was studied, in milliseconds. -/
  duration : UInt64
  instant : Int64
  deriving DecidableEq, Repr

/-- The second session comes too long after the first one to add up with it.  The time between them is
held at the bounds of an instant. -/
def Study.Stale (limit : UInt64) (a b : Study) : Prop :=
  (limit.toNat : Int) <
    max Saturating.earliest (min (b.instant.toInt - a.instant.toInt) Saturating.latest)

/-- No session is stale with respect to the one before it. -/
def Steady (limit : UInt64) (studies : List Study) : Prop :=
  studies.IsChain fun a b => ¬ a.Stale limit b

/-- The streak is the longest one at the end of the history. -/
structure IsLastStreak (limit : UInt64) (studies streak : List Study) : Prop where
  suffix : streak <:+ studies
  /-- No session in it is stale with respect to the one before. -/
  steady : Steady limit streak
  /-- Nothing else of this kind is longer. -/
  longest : ∀ streak', streak' <:+ studies → Steady limit streak' → streak'.length ≤ streak.length

variable {limit : UInt64}

theorem steady_singleton (x : Study) : Steady limit [x] := List.isChain_singleton x

/-- A streak goes on with a session that is not stale with respect to its last one. -/
theorem steady_concat_iff {studies : List Study} {a x : Study} :
    Steady limit (studies ++ [a] ++ [x]) ↔ Steady limit (studies ++ [a]) ∧ ¬ a.Stale limit x := by
  rw [Steady, List.isChain_append]
  simp [Steady]

namespace IsLastStreak

/-- The history of which this is the last streak ends with the session that the streak ends with. -/
theorem exists_concat {studies streak : List Study} {a : Study}
    (h : IsLastStreak limit (studies ++ [a]) streak) : ∃ streak₀, streak = streak₀ ++ [a] := by
  rcases List.suffix_concat_iff.1 h.suffix with rfl | ⟨streak₀, rfl, -⟩
  · -- the last session alone would be longer
    have hle := h.longest [a] (List.suffix_append studies [a]) (steady_singleton a)
    exact absurd hle (by simp)
  · exact ⟨streak₀, by simp⟩

/-- **A session that is not stale** goes on with the last streak. -/
theorem concat {studies streak : List Study} {a x : Study}
    (h : IsLastStreak limit (studies ++ [a]) streak) (hx : ¬ a.Stale limit x) :
    IsLastStreak limit (studies ++ [a] ++ [x]) (streak ++ [x]) := by
  obtain ⟨streak₀, rfl⟩ := h.exists_concat
  constructor
  · obtain ⟨before, hbefore⟩ := h.suffix
    exact ⟨before, by rw [← List.append_assoc, hbefore]⟩
  · exact steady_concat_iff.2 ⟨h.steady, hx⟩
  · intro streak' hsuffix hsteady
    -- a longer streak would be longer before this session already
    rcases List.suffix_concat_iff.1 hsuffix with rfl | ⟨streak₁, rfl, hsuffix₁⟩
    · exact Nat.zero_le _
    · have hsteady₁ : Steady limit streak₁ := by
        rw [Steady, List.isChain_append] at hsteady
        exact hsteady.1
      have hle := h.longest streak₁ hsuffix₁ hsteady₁
      simp only [List.length_append] at hle ⊢
      omega

end IsLastStreak

/-- **A session that is stale** begins a new streak. -/
theorem isLastStreak_concat_of_stale {studies : List Study} {a x : Study} (hx : a.Stale limit x) :
    IsLastStreak limit (studies ++ [a] ++ [x]) [x] := by
  constructor
  · exact List.suffix_append _ _
  · exact steady_singleton x
  · intro streak' hsuffix hsteady
    -- a longer streak would have the stale session behind the one before it
    rcases List.suffix_concat_iff.1 hsuffix with rfl | ⟨streak₁, rfl, hsuffix₁⟩
    · exact Nat.zero_le _
    · rcases List.suffix_concat_iff.1 hsuffix₁ with rfl | ⟨streak₂, rfl, -⟩
      · simp
      · exact absurd hx (steady_concat_iff.1 hsteady).2

/-- The first session is a streak of its own. -/
theorem isLastStreak_singleton (x : Study) : IsLastStreak limit [x] [x] :=
  ⟨List.suffix_refl _, steady_singleton x, fun _ hsuffix _ => hsuffix.length_le⟩

/-- The durations of a streak added up, in milliseconds. -/
def totalDuration : List Study → Nat
  | [] => 0
  | x :: streak => x.duration.toNat + totalDuration streak

theorem totalDuration_append (streak streak' : List Study) :
    totalDuration (streak ++ streak') = totalDuration streak + totalDuration streak' := by
  induction streak with
  | nil => simp [totalDuration]
  | cons x streak ih =>
      rw [List.cons_append, totalDuration, totalDuration, ih, Nat.add_assoc]

namespace TopicRecord

/-- The record is stale at an instant if a session at this instant is stale with respect to one at the
instant of the record. -/
theorem isStale_iff (r : TopicRecord) (a x : Study) (ha : r.updated = a.instant) :
    r.isStale x.instant limit = true ↔ a.Stale limit x := by
  have helapsed := Saturating.toNat_elapsed x.instant a.instant
  rw [isStale, ha, decide_eq_true_iff, UInt64.lt_iff_toNat_lt, helapsed, Study.Stale]
  simp only [Saturating.latest, Saturating.earliest]
  omega

/-- The record sums up a history of its topic: it has the instant of the last session, and the time of
the last streak up to the largest duration. -/
structure SumsUp (limit : UInt64) (topic : String) (studies : List Study) (r : TopicRecord) :
    Prop where
  /-- It is the record of the topic. -/
  topic_eq : r.topic = topic
  /-- It has the instant of the last session. -/
  updated_eq : studies.getLast?.map Study.instant = some r.updated
  /-- It has the time of the last streak. -/
  total_eq : ∃ streak, IsLastStreak limit studies streak ∧
    r.total.toNat = min Saturating.longest (totalDuration streak)

/-- The record of the first session sums it up. -/
theorem sumsUp_first (topic : String) (x : Study) :
    SumsUp limit topic [x] ⟨topic, x.duration, x.instant⟩ := by
  refine ⟨rfl, rfl, [x], isLastStreak_singleton x, ?_⟩
  have hlt := x.duration.toNat_lt
  simp only [totalDuration, Saturating.longest]
  omega

/-- **Merging a session sums up the history with this session.** -/
theorem SumsUp.merge {topic : String} {studies : List Study} {r : TopicRecord}
    (h : SumsUp limit topic studies r) (x : Study) :
    SumsUp limit topic (studies ++ [x]) (r.merge x.duration x.instant limit) := by
  obtain ⟨streak, hstreak, htotal⟩ := h.total_eq
  have hlt := x.duration.toNat_lt
  refine ⟨h.topic_eq, by simp [TopicRecord.merge], ?_⟩
  rcases List.eq_nil_or_concat' studies with rfl | ⟨before, a, rfl⟩
  · have hnone := h.updated_eq
    cases hnone
  · have ha : r.updated = a.instant := by
      have hupdated := h.updated_eq
      rw [List.getLast?_concat] at hupdated
      exact (Option.some.inj hupdated).symm
    by_cases hx : a.Stale limit x
    · refine ⟨[x], isLastStreak_concat_of_stale hx, ?_⟩
      rw [TopicRecord.merge, if_pos ((r.isStale_iff a x ha).2 hx)]
      simp only [totalDuration, Saturating.longest]
      omega
    · refine ⟨streak ++ [x], hstreak.concat hx, ?_⟩
      rw [TopicRecord.merge, if_neg (fun h => hx ((r.isStale_iff a x ha).1 h)),
        Saturating.toNat_add, htotal]
      simp only [totalDuration_append, totalDuration, Saturating.longest]
      omega

end TopicRecord

end StudyTime
