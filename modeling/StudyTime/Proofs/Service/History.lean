/-
**What a service answers is settled by its history.**

The history of a service lists what was done to the ledgers with success: sessions that were merged,
whether recorded directly, in a batch or when a tracker finished, and ledgers that were removed.  What
failed left no trace, and neither did anything else: surveys, sessions that were cancelled, operations
that were refused, new services over the same store.  Every ledger is what the history makes of a blank
one.  So the record of a topic sums up the sessions of this topic since its profile was last removed.

Main definitions:

* `Deed`, `Service.deeds` — what a step did to the ledgers;
* `Move`, `Service.course` — steps, refusals and restarts, and the history that they leave;
* `studiesOf` — the sessions of a topic since its profile was last removed.

Main results:

* `Service.Represents.step` — **a step changes the ledgers by its deeds**, whatever fails;
* `ledgersAfter_get?` — the records that a history leaves;
* `Service.get_eq_streak` — **what is answered for a topic**, after any course.
-/

import StudyTime.Proofs.Service.Operations
import StudyTime.Proofs.Streaks

set_option relaxedAutoImplicit false
set_option autoImplicit false

namespace StudyTime

/-! ### Histories -/

/-- What was done to a ledger with success. -/
inductive Deed where
  /-- A session of a profile with a topic was merged. -/
  | studied (profile : Profile) (topic : String) (x : Study)
  | removed (profile : Profile)
  deriving DecidableEq

/-- What a deed makes of the ledgers. -/
def Deed.apply (limit : UInt64) (ledgers : Profile → Ledger) : Deed → Profile → Ledger
  | .studied profile topic x => fun profile' =>
    if profile' = profile then (ledgers profile).recordSession topic x.duration x.instant limit
    else ledgers profile'
  | .removed profile => fun profile' => if profile' = profile then .blank else ledgers profile'

/-- The ledgers after a history. -/
def ledgersAfter (limit : UInt64) (deeds : List Deed) : Profile → Ledger :=
  deeds.foldl (Deed.apply limit) fun _ => .blank

/-- The deeds since the ledger of a profile was last removed. -/
def sinceRemoval (profile : Profile) (deeds : List Deed) : List Deed :=
  (deeds.reverse.takeWhile fun deed => deed ≠ .removed profile).reverse

/-- The session that a deed merged into the record of a topic. -/
def Deed.study? (profile : Profile) (topic : String) : Deed → Option Study
  | .studied profile' topic' x => if profile' = profile ∧ topic' = topic then some x else none
  | .removed _ => none

/-- The sessions of a profile with a topic since its ledger was last removed. -/
def studiesOf (profile : Profile) (topic : String) (deeds : List Deed) : List Study :=
  (sinceRemoval profile deeds).filterMap (Deed.study? profile topic)

section Histories

variable {limit : UInt64} (profile : Profile) (topic : String) (deeds : List Deed)

/-- A removal leaves no sessions of the profile. -/
theorem studiesOf_concat_removed : studiesOf profile topic (deeds ++ [.removed profile]) = [] := by
  simp [studiesOf, sinceRemoval]

/-- Any other deed adds its session, if it merged one into the record. -/
theorem studiesOf_concat_of_ne {deed : Deed} (h : deed ≠ .removed profile) :
    studiesOf profile topic (deeds ++ [deed]) =
      studiesOf profile topic deeds ++ (deed.study? profile topic).toList := by
  simp only [studiesOf, sinceRemoval, List.reverse_append, List.reverse_cons, List.reverse_nil,
    List.nil_append, List.singleton_append, List.takeWhile_cons, h, ne_eq, not_false_eq_true,
    decide_true, if_true, List.filterMap_append, List.filterMap_cons, List.filterMap_nil]
  cases deed.study? profile topic <;> rfl

/-- What is in a ledger about a topic with these sessions: nothing if there are none, and else the
record that sums them up. -/
def Accounts (limit : UInt64) (topic : String) (studies : List Study) : Option TopicRecord → Prop
  | none => studies = []
  | some r => r.SumsUp limit topic studies

/-- What is answered for the topic: the zero record without sessions, and else the one that sums them
up. -/
theorem Accounts.getD {topic : String} {studies : List Study} {o : Option TopicRecord}
    (h : Accounts limit topic studies o) :
    (studies = [] → o.getD .zero = .zero) ∧
    (studies ≠ [] → (o.getD .zero).SumsUp limit topic studies) := by
  cases o with
  | none =>
      constructor
      · intro _
        rfl
      · intro hne
        exact absurd h hne
  | some r =>
      constructor
      · rintro rfl
        cases TopicRecord.SumsUp.updated_eq h
      · intro _
        exact h

/-- The record after one more session sums up the sessions with this one. -/
theorem Accounts.sessionRecord {l : Ledger} {topic : String} {studies : List Study}
    (h : Accounts limit topic studies (l.get? topic)) (x : Study) :
    (l.sessionRecord topic x.duration x.instant limit).SumsUp limit topic (studies ++ [x]) := by
  unfold Ledger.sessionRecord
  cases hget : l.get? topic with
  | none =>
      rw [hget] at h
      have hnone : studies = [] := h
      rw [hnone]
      exact TopicRecord.sumsUp_first topic x
  | some r =>
      rw [hget] at h
      exact TopicRecord.SumsUp.merge h x

/-- **The records that a history leaves** sum up the sessions since the last removal. -/
theorem ledgersAfter_get? :
    Accounts limit topic (studiesOf profile topic deeds)
      ((ledgersAfter limit deeds profile).get? topic) := by
  -- by induction on the history from its end, since the sessions since a removal stand there
  induction deeds using List.reverseRecOn with
  | nil => exact rfl
  | append_singleton deeds deed ih =>
      rw [ledgersAfter, List.foldl_append, List.foldl_cons, List.foldl_nil, ← ledgersAfter]
      cases deed with
      | removed profile' =>
          by_cases hprofile : profile = profile'
          · rw [hprofile, studiesOf_concat_removed, Deed.apply]
            simp only [if_true]
            rfl
          · rw [studiesOf_concat_of_ne _ _ _ (by simp [Ne.symm hprofile]), Deed.apply]
            simpa [hprofile, Deed.study?] using ih
      | studied profile' topic' x =>
          rw [studiesOf_concat_of_ne _ _ _ (by simp), Deed.apply]
          by_cases hprofile : profile = profile'
          · rw [← hprofile]
            simp only [if_true, Ledger.get?_recordSession]
            by_cases htopic : topic = topic'
            · rw [← htopic]
              simp only [Deed.study?, and_self, if_true, Option.toList_some]
              exact Accounts.sessionRecord ih x
            · simpa [htopic, Ne.symm htopic, Deed.study?] using ih
          · simpa [hprofile, Ne.symm hprofile, Deed.study?] using ih

end Histories

/-! ### Deeds -/

/-- The deed of recording a session, if that succeeded. -/
def Deed.ofRecord (now : Int64) (item : Profile × String × UInt64) :
    Except CacheError Unit → Option Deed
  | .ok () => some (.studied item.1 item.2.1 ⟨item.2.2, now⟩)
  | .error _ => none

namespace Service

variable {σ : Type} [Backend σ]

/-- What a step does to the ledgers, as far as it succeeds.  Deleting a profile begins with removing its
ledger. -/
def deeds (s : Service σ) : Step → List Deed
  | .record profile topic duration =>
    (Deed.ofRecord s.clock.now (profile, topic, duration) (s.record profile topic duration).1).toList
  | .recordBatch items _ =>
    (items.zip (s.recordAll items).1).filterMap fun i => Deed.ofRecord s.clock.now i.1 i.2
  | .remove profile | .deleteProfile profile =>
    match (s.remove profile).1 with
    | .ok () => [.removed profile]
    | .error _ => []
  | .finish n =>
    match (s.finish n).1 with
    | .ok session => [.studied session.profile session.topic ⟨session.active, s.clock.now⟩]
    | .error _ => []
  | _ => []

variable [LawfulStore σ] {settings : Settings} {b : Book} {s : Service σ}

/-- The service represents a book whose ledgers are those before with these deeds. -/
def Follows (settings : Settings) (b : Book) (deeds : List Deed) (s : Service σ) : Prop :=
  ∃ b', Represents settings b' s ∧
    b'.ledgers = deeds.foldl (Deed.apply settings.learning.staleness) b.ledgers

theorem Represents.deeds_record (h : Represents settings b s) (profile : Profile) (topic : String)
    (duration : UInt64) :
    ∃ b', Represents settings b' (s.record profile topic duration).2 ∧ b'.clock = b.clock ∧
      b'.ledgers = (Deed.ofRecord b.clock.now (profile, topic, duration)
        (s.record profile topic duration).1).toList.foldl
          (Deed.apply settings.learning.staleness) b.ledgers := by
  have hrecord := h.record profile topic duration
  cases hr : (s.record profile topic duration).1 with
  | error e => exact ⟨b, hrecord.represents_of_error hr, rfl, rfl⟩
  | ok u => exact ⟨_, hrecord.represents_of_ok hr, rfl, rfl⟩

theorem Represents.deeds_recordAll (items : List (Profile × String × UInt64)) :
    ∀ {b : Book} {s : Service σ}, Represents settings b s →
      ∃ b', Represents settings b' (s.recordAll items).2 ∧
        b'.ledgers = ((items.zip (s.recordAll items).1).filterMap fun i =>
          Deed.ofRecord b.clock.now i.1 i.2).foldl
            (Deed.apply settings.learning.staleness) b.ledgers := by
  induction items with
  | nil =>
      intro b s h
      exact ⟨_, h, rfl⟩
  | cons item items ih =>
      intro b s h
      obtain ⟨profile, topic, duration⟩ := item
      obtain ⟨b₁, h₁, hclock, hledgers₁⟩ := h.deeds_record profile topic duration
      obtain ⟨b₂, h₂, hledgers₂⟩ := ih h₁
      refine ⟨b₂, h₂, ?_⟩
      rw [hledgers₂, hledgers₁, hclock]
      simp only [Service.recordAll, List.zip_cons_cons, List.filterMap_cons]
      cases Deed.ofRecord b.clock.now (profile, topic, duration)
        (s.record profile topic duration).1 <;> rfl

/-- **A step changes the ledgers by its deeds**, whatever fails. -/
theorem Represents.step (h : Represents settings b s) (st : Step) :
    Follows settings b (s.deeds st) (s.step st).2 := by
  cases st with
  | setClock now => exact ⟨_, h.setClock _, rfl⟩
  | advanceClock delta => exact ⟨_, h.setClock _, rfl⟩
  | now => exact ⟨b, h, rfl⟩
  | localTime => exact ⟨b, h, rfl⟩
  | difference start stop => exact ⟨b, h, rfl⟩
  | staleness => exact ⟨b, h, rfl⟩
  | record profile topic duration =>
      obtain ⟨b', hrepresents, -, hledgers⟩ := h.deeds_record profile topic duration
      rw [← h.clock_eq] at hledgers
      exact ⟨b', hrepresents, hledgers⟩
  | recordBatch items awaited =>
      obtain ⟨b', hrepresents, hledgers⟩ := h.deeds_recordAll items
      rw [← h.clock_eq] at hledgers
      exact ⟨b', hrepresents, hledgers⟩
  | get profile topic => exact ⟨b, (h.topicRecord profile topic).1.represents, rfl⟩
  | getAll profile => exact ⟨b, (h.ledger profile).1.represents, rfl⟩
  | remove profile =>
      have hremove := h.remove profile
      simp only [deeds]
      cases hr : (s.remove profile).1 with
      | error e => exact ⟨b, hremove.represents_of_error hr, rfl⟩
      | ok u => exact ⟨_, hremove.represents_of_ok hr, rfl⟩
  | deleteProfile profile =>
      obtain ⟨herror, hok, -⟩ := h.deleteProfile profile
      simp only [deeds]
      cases hr : (s.remove profile).1 with
      | error e => exact ⟨b, herror e hr, rfl⟩
      | ok u =>
          obtain ⟨b', hrepresents, hledgers⟩ := hok hr
          exact ⟨b', hrepresents, hledgers⟩
  | shouldShow profile topic => exact ⟨b, (h.shouldShow profile topic).represents, rfl⟩
  | markShown profile =>
      have hmark := h.markShown profile
      cases hr : (s.markShown profile).1 with
      | error f => exact ⟨b, hmark.represents_of_error hr, rfl⟩
      | ok u => exact ⟨_, hmark.represents_of_ok hr, rfl⟩
  | lastShown profile => exact ⟨b, (h.lastShown profile).represents, rfl⟩
  | setLastShown profile n =>
      have hset := h.setLastShown profile n
      cases hr : (s.setLastShown profile n).1 with
      | error f => exact ⟨b, hset.represents_of_error hr, rfl⟩
      | ok u => exact ⟨_, hset.represents_of_ok hr, rfl⟩
  | begin n profile topic =>
      have hbegin := Represents.begin h n profile topic
      cases hb : (b.trackers n).begin? .any profile topic b.clock.now with
      | none =>
          rw [hb] at hbegin
          dsimp only at hbegin
          refine ⟨b, ?_, rfl⟩
          simp only [Service.step, hbegin]
          exact h
      | some t =>
          rw [hb] at hbegin
          obtain ⟨id, -, hrepresents, -⟩ := hbegin
          exact ⟨_, hrepresents, rfl⟩
  | finish n =>
      have hfinish := Represents.finish h n
      simp only [deeds]
      cases hb : (b.trackers n).finish? b.clock.now with
      | none =>
          rw [hb] at hfinish
          dsimp only at hfinish
          rw [hfinish]
          refine ⟨b, ?_, rfl⟩
          simp only [Service.step, hfinish]
          exact h
      | some session =>
          rw [hb] at hfinish
          obtain ⟨hok, herror, -⟩ := hfinish
          cases hr : (s.finish n).1 with
          | error e => exact ⟨_, herror e hr, rfl⟩
          | ok session' =>
              obtain ⟨hsession, hrepresents⟩ := hok session' hr
              refine ⟨_, hrepresents, ?_⟩
              rw [← hsession, h.clock_eq]
              rfl
  | cancel n => exact ⟨_, h.keepTracker n .idle, rfl⟩
  | foreground n => exact ⟨_, h.keepTracker n _, rfl⟩
  | background n => exact ⟨_, h.keepTracker n _, rfl⟩
  | status n => exact ⟨b, h, rfl⟩
  | active n => exact ⟨b, h, rfl⟩

end Service

/-! ### Courses -/

/-- What can happen to a service over a store in memory. -/
inductive Move where
  | ask (st : Step)
  /-- An operation of the store is refused from now on, or no longer. -/
  | refuse (op : Operation) (on : Bool)
  /-- A new service takes over the store and the clock. -/
  | restart
  deriving DecidableEq

namespace Service

/-- One move, with the deeds that it leaves behind. -/
def move (s : Service Memory) : Move → List Deed × Service Memory
  | .ask st => (s.deeds st, (s.step st).2)
  | .refuse op on => ([], { s with store := s.store.refuse op on })
  | .restart => ([], s.restart s.settings)

/-- A list of moves, with the history that they leave behind. -/
def course (s : Service Memory) : List Move → List Deed × Service Memory
  | [] => ([], s)
  | m :: moves =>
    let (deeds, s) := s.move m
    let (deeds', s) := course s moves
    (deeds ++ deeds', s)

variable {settings : Settings} {b : Book} {s : Service Memory}

/-- **A move changes the ledgers by its deeds.** -/
theorem Represents.move (h : Represents settings b s) (m : Move) :
    Follows settings b (s.move m).1 (s.move m).2 := by
  cases m with
  | ask st => exact Represents.step h st
  | refuse op on =>
      have hkept : kept (s.store.refuse op on) = kept s.store := rfl
      exact ⟨b, h.setStore (fun _ => by rw [hkept]) (by rw [hkept, h.shown_eq]) rfl rfl rfl, rfl⟩
  | restart =>
      -- what the store keeps is not lost with the caches
      refine ⟨{ b with trackers := fun _ => .idle }, ?_, rfl⟩
      exact ⟨h.settings_eq, h.clock_eq, h.ledger_eq, h.shown_eq, fun _ => rfl, fun hc => (by cases hc)⟩

/-- **A course changes the ledgers by its history.** -/
theorem Represents.course (moves : List Move) :
    ∀ {b : Book} {s : Service Memory}, Represents settings b s →
      Follows settings b (s.course moves).1 (s.course moves).2 := by
  induction moves with
  | nil =>
      intro b s h
      exact ⟨_, h, rfl⟩
  | cons m moves ih =>
      intro b s h
      obtain ⟨b₁, h₁, hledgers₁⟩ := Represents.move h m
      obtain ⟨b₂, h₂, hledgers₂⟩ := ih h₁
      refine ⟨b₂, h₂, ?_⟩
      rw [hledgers₂, hledgers₁, ← List.foldl_append]
      rfl

/-- What is answered for a topic is the record that is found. -/
theorem topicRecord_of_get {profile : Profile} {topic : String} {r : TopicRecord}
    (hget : (s.step (.get profile topic)).1 = .record r) : (s.topicRecord profile topic).1 = .ok r := by
  simp only [Service.step] at hget
  cases hout : (s.topicRecord profile topic).1 with
  | error e =>
      rw [hout] at hget
      cases hget
  | ok r' =>
      rw [hout] at hget
      cases hget
      rfl

/-- **What is answered for a topic** after any course is settled by the sessions of this topic since its
profile was last removed.  Without any it is the zero record.  Otherwise the record names the topic and
the instant of the last of these sessions, and its time is that of their last streak, up to the largest
duration. -/
theorem get_eq_streak (clock : Clock) (settings : Settings) (moves : List Move) (profile : Profile)
    (topic : String) (r : TopicRecord)
    (hget : (((start clock settings Memory.blank).course moves).2.step (.get profile topic)).1 =
      .record r) :
    let studies := studiesOf profile topic ((start clock settings Memory.blank).course moves).1
    (studies = [] → r = ⟨"", 0, 0⟩) ∧
    (∀ last, studies.getLast? = some last →
      r.topic = topic ∧ r.updated = last.instant ∧
      ∃ streak, IsLastStreak settings.learning.staleness studies streak ∧
        r.total.toNat = min Saturating.longest (totalDuration streak)) := by
  intro studies
  obtain ⟨b, hrepresents, hledgers⟩ :=
    Represents.course moves (represents_start clock settings Memory.kept_blank)
  obtain ⟨-, hfound⟩ := hrepresents.topicRecord profile topic
  have haccounts : Accounts settings.learning.staleness topic studies
      ((ledgersAfter settings.learning.staleness
        ((start clock settings Memory.blank).course moves).1 profile).get? topic) :=
    ledgersAfter_get? profile topic _
  have hr : r = b.topicRecord profile topic := hfound (topicRecord_of_get hget)
  have hledger : b.ledgers profile = ledgersAfter settings.learning.staleness
      ((start clock settings Memory.blank).course moves).1 profile := congrFun hledgers profile
  rw [hr, Book.topicRecord, hledger]
  refine ⟨haccounts.getD.1, ?_⟩
  intro last hlast
  have hne : studies ≠ [] := by
    intro hnil
    rw [hnil] at hlast
    cases hlast
  have hsums := haccounts.getD.2 hne
  have hupdated := hsums.updated_eq
  rw [hlast] at hupdated
  exact ⟨hsums.topic_eq, (Option.some.inj hupdated).symm, hsums.total_eq⟩

/-- A session that cannot be stored, and after it one that is stored and one that is finished. -/
theorem get_eq_streak_of_refusal :
    let moves : List Move := [.refuse .store true, .ask (.record "p" "t" 3), .refuse .store false,
      .ask (.record "p" "t" 5), .ask (.begin 0 "p" "t"), .ask (.advanceClock 7), .ask (.finish 0)]
    let s := ((start ⟨0, .zero⟩ .usual Memory.blank).course moves).2
    (s.step (.get "p" "t")).1 = .record ⟨"t", 12, 7⟩ ∧
    ∃ streak, IsLastStreak Settings.usual.learning.staleness [⟨5, 0⟩, ⟨7, 7⟩] streak ∧
      (12 : UInt64).toNat = min Saturating.longest (totalDuration streak) := by
  intro moves s
  have hget : (s.step (.get "p" "t")).1 = .record ⟨"t", 12, 7⟩ := by rfl
  have hstudies : studiesOf "p" "t" ((start ⟨0, .zero⟩ .usual Memory.blank).course moves).1 =
      [⟨5, 0⟩, ⟨7, 7⟩] := by rfl
  obtain ⟨-, hlast⟩ := get_eq_streak ⟨0, .zero⟩ .usual moves "p" "t" ⟨"t", 12, 7⟩ hget
  rw [hstudies] at hlast
  obtain ⟨-, -, htotal⟩ := hlast ⟨7, 7⟩ rfl
  exact ⟨hget, htotal⟩

end Service

end StudyTime
