/-
**What an onlooker sees of a step.**

Of the steps an onlooker keeps those that concern him: the steps that name his profile, the steps of the
trackers that he watches, and those that concern everybody, such as the steps of the clock.  Of a batch he
keeps the items for his profile.  He leaves out the other steps.  A session that he watches may be one of
another profile; how it ends is not for his eyes.

Main definitions:

* `Onlooker.part` — what he keeps of a step;
* `Onlooker.seen`, `Onlooker.blur` — what he sees of an answer;
* `Service.Twins` — services that no onlooker can tell apart.

Main results:

* `Service.Alike.step` — services that are alike take **the same step**;
* `Service.Alike.step_part` — one takes a step and the other one **what he keeps of it**;
* `Service.Alike.step_other` — one takes a step of which **he keeps nothing**;
* `Service.steady_step`, `Service.trackers_step` — what no step changes, and what only some steps do;
* `Service.Twins.run` — twins answer **a run** alike.
-/

import StudyTime.Proofs.Service.Onlookers

set_option relaxedAutoImplicit false
set_option autoImplicit false

namespace StudyTime

/-! ### Steps that concern somebody -/

namespace Step

/-- The profile that a step names to look something up or to change it. -/
def profile? : Step → Option Profile
  | .record profile _ _ | .get profile _ | .getAll profile | .remove profile | .deleteProfile profile
  | .shouldShow profile _ | .markShown profile | .lastShown profile | .setLastShown profile _ =>
    some profile
  | _ => none

/-- The tracker of a step. -/
def tracker? : Step → Option Nat
  | .begin n _ _ | .finish n | .cancel n | .foreground n | .background n | .status n | .active n => some n
  | _ => none

end Step

/-- The profile of which an answer says that its session was finished, or that its document cannot be
read or written. -/
def Answer.profile? : Answer → Option Profile
  | .finished session => some session.profile
  | .failed (.cache e) => some e.key.profile
  | _ => none

/-- The profile whose data a step looks up or changes. -/
def Service.subject? {σ : Type} (s : Service σ) : Step → Option Profile
  | .finish n => (s.tracker n).session?.map OpenSession.profile
  | st => st.profile?

/-! ### Batches -/

/-- What stands beside the items of a profile. -/
def besides {β : Type} (profile : Profile) (items : List (Profile × String × UInt64)) (bs : List β) :
    List β :=
  ((items.zip bs).filter fun x => x.1.1 = profile).map Prod.snd

/-- Whether each of the first numbers is awaited. -/
def marks (awaited : List Nat) (count : Nat) : List Bool := (List.range count).map awaited.contains

/-- The numbers of those that are marked. -/
def marked (ms : List Bool) : List Nat := (List.range ms.length).filter fun n => ms.getD n false

/-- An answer, if it is awaited. -/
def answerIf {β : Type} (b : β) (awaited : Bool) : Option β := if awaited then some b else none

section Batches

variable {β γ δ : Type} (profile : Profile) (item : Profile × String × UInt64)
variable (items : List (Profile × String × UInt64))

theorem besides_cons (b : β) (bs : List β) : besides profile (item :: items) (b :: bs) =
    if item.1 = profile then b :: besides profile items bs else besides profile items bs := by
  by_cases h : item.1 = profile <;> simp [besides, h]

theorem besides_zipWith (f : β → γ → δ) : ∀ (items : List (Profile × String × UInt64)) (bs : List β)
    (cs : List γ), besides profile items (List.zipWith f bs cs) =
      List.zipWith f (besides profile items bs) (besides profile items cs) := by
  intro items
  induction items with
  | nil =>
      intro bs cs
      rfl
  | cons item items ih =>
      intro bs cs
      cases bs with
      | nil => simp [besides]
      | cons b bs =>
          cases cs with
          | nil => simp [besides]
          | cons c cs =>
              rw [List.zipWith_cons_cons, besides_cons, besides_cons, besides_cons, ih]
              split <;> simp

theorem length_besides : ∀ (items : List (Profile × String × UInt64)) (bs : List β),
    bs.length = items.length →
      (besides profile items bs).length = (items.filter fun item => item.1 = profile).length := by
  intro items
  induction items with
  | nil =>
      intro bs _
      rfl
  | cons item items ih =>
      intro bs hlength
      cases bs with
      | nil => cases hlength
      | cons b bs =>
          rw [besides_cons]
          have hrest := ih bs (Nat.succ.inj hlength)
          by_cases h : item.1 = profile <;> simp [h, hrest]

theorem length_marks (awaited : List Nat) (count : Nat) : (marks awaited count).length = count := by
  simp [marks]

theorem marks_marked (ms : List Bool) : marks (marked ms) ms.length = ms := by
  refine List.ext_getElem (length_marks _ _) fun n h h' => ?_
  simp [marks, marked, h']

theorem mapIdx_awaited (awaited : List Nat) (bs : List β) :
    (bs.mapIdx fun n b => if awaited.contains n then some b else none) =
      List.zipWith answerIf bs (marks awaited bs.length) := by
  refine List.ext_getElem (by simp [marks]) fun n h h' => ?_
  simp [answerIf, marks]

end Batches

/-! ### Onlookers -/

namespace Onlooker

variable (o : Onlooker)

/-- Whether a step concerns an onlooker. -/
def keeps (st : Step) : Bool :=
  match st.profile?, st.tracker? with
  | some profile, _ => profile = o.profile
  | none, some n => o.watches n
  | none, none => true

/-- What an onlooker keeps of a step. -/
def part : Step → Option Step
  | .recordBatch items awaited =>
    let own := items.filter fun item => item.1 = o.profile
    if own = [] then none
    else some (.recordBatch own (marked (besides o.profile items (marks awaited items.length))))
  | st => if o.keeps st then some st else none

/-- The answer to a step as an onlooker sees it, whichever session it names.  How a session ends is only
seen if it is one of his profile. -/
def blur (st : Step) (a : Answer) : Option Answer :=
  match st, a.profile? with
  | .finish _, some profile => if profile = o.profile then some a.anonymous else none
  | _, _ => some a.anonymous

/-- What an onlooker sees of the answer to a step.  Of a batch these are the answers to his items. -/
def seen (st : Step) (a : Answer) : Option Answer :=
  match st, a with
  | .recordBatch items _, .many rs => some (.many (besides o.profile items rs))
  | st, a => o.blur st a

variable {o : Onlooker}

theorem part_of_not_batch {st : Step} (h : ∀ items awaited, st ≠ .recordBatch items awaited) :
    o.part st = if o.keeps st then some st else none := by
  cases st with
  | recordBatch items awaited => exact absurd rfl (h items awaited)
  | _ => rfl

theorem seen_of_not_batch {st : Step} (h : ∀ items awaited, st ≠ .recordBatch items awaited)
    (a : Answer) : o.seen st a = o.blur st a := by
  cases st with
  | recordBatch items awaited => exact absurd rfl (h items awaited)
  | _ => rfl

/-- A step that is kept and names a profile names the one of the onlooker. -/
theorem eq_of_keeps {st : Step} (h : o.keeps st = true) {profile : Profile}
    (hprofile : st.profile? = some profile) : profile = o.profile := by
  simp only [keeps, hprofile] at h
  exact of_decide_eq_true h

/-- The tracker of a step that is kept is watched. -/
theorem watches_of_keeps {st : Step} (h : o.keeps st = true) {n : Nat} (hn : st.tracker? = some n) :
    o.watches n = true := by
  have hprofile : st.profile? = none := by
    cases st <;> first | rfl | cases hn
  simpa only [keeps, hprofile, hn] using h

theorem blur_eq (st : Step) {a a' : Answer} (h : a.anonymous = a'.anonymous) :
    o.blur st a = o.blur st a' := by
  have hprofile : ∀ a : Answer, a.anonymous.profile? = a.profile? := by
    intro a
    cases a <;> rfl
  unfold blur
  rw [← hprofile a, ← hprofile a', h]

theorem blur_of_ne (n : Nat) {a : Answer} {profile : Profile} (h : a.profile? = some profile)
    (hne : profile ≠ o.profile) : o.blur (.finish n) a = none := by
  simp only [blur, h, if_neg hne]

end Onlooker

namespace Service

variable {σ : Type} [Backend σ] [PartitionedStore σ]

/-- **A step that names a profile** is an operation for it. -/
theorem minds_step {st : Step} {profile : Profile} (h : st.profile? = some profile) :
    Minds (σ := σ) profile fun s => s.step st := by
  cases st with
  | record profile' topic duration =>
      cases h
      exact (minds_record profile topic duration).map _
  | get profile' topic =>
      cases h
      exact (minds_topicRecord profile topic).map _
  | getAll profile' =>
      cases h
      exact (minds_ledger profile).map _
  | remove profile' =>
      cases h
      exact (minds_remove profile).map _
  | deleteProfile profile' =>
      cases h
      exact (minds_deleteProfile profile).map _
  | shouldShow profile' topic =>
      cases h
      exact (minds_shouldShow profile topic).map _
  | markShown profile' =>
      cases h
      exact (minds_markShown profile).map _
  | lastShown profile' =>
      cases h
      exact (minds_lastShown profile).map _
  | setLastShown profile' n =>
      cases h
      exact (minds_setLastShown profile n).map _
  | _ => cases h

variable {o : Onlooker} {s s' : Service σ}

/-! ### Trackers -/

/-- Keeping trackers; those that are watched still agree. -/
theorem Alike.setTrackers (h : Alike o s s') {trackers trackers' : SortedMap Nat Tracker}
    {next next' : Nat} (htrackers : ∀ n, o.watches n = true →
      ((trackers.get? n).getD .idle).anonymous = ((trackers'.get? n).getD .idle).anonymous) :
    Alike o { s with trackers := trackers, nextSession := next }
      { s' with trackers := trackers', nextSession := next' } :=
  ⟨h.settings_eq, h.clock_eq, h.same, h.caches, fun {n} hn => htrackers n hn⟩

/-- Keeping a tracker on both sides. -/
theorem Alike.keepTracker (h : Alike o s s') (n : Nat) {t t' : Tracker}
    (ht : t.anonymous = t'.anonymous) : Alike o (s.keepTracker n t) (s'.keepTracker n t') := by
  refine h.setTrackers fun m hm => ?_
  rw [SortedMap.get?_insert, SortedMap.get?_insert]
  split
  · exact ht
  · exact h.tracker_eq hm

/-- Keeping a tracker that is not watched. -/
theorem Alike.keepOther (h : Alike o s s') {n : Nat} (hn : o.watches n = false) (t : Tracker)
    (next : Nat) : Alike o { s.keepTracker n t with nextSession := next } s' := by
  refine h.setTrackers fun m hm => ?_
  rw [Service.keepTracker, SortedMap.get?_insert]
  split
  next heq =>
    rw [heq, hn] at hm
    cases hm
  next => exact h.tracker_eq hm

omit [PartitionedStore σ] in
/-- What is said at the end of a session names its profile. -/
theorem profile?_finish (s : Service σ) (n : Nat) :
    (s.step (.finish n)).1.profile? = s.subject? (.finish n) := by
  simp only [Service.step, finish, subject?, Tracker.finish?]
  cases (s.tracker n).session? with
  | none => rfl
  | some session =>
      have hkey : ∀ {e}, ((s.keepTracker n .idle).record session.profile session.topic
          ((s.tracker n).active s.clock.now)).1 = .error e → e.key = ledgerKey session.profile :=
        record_key
      simp only [Option.map_some]
      generalize (s.keepTracker n .idle).record _ _ _ = out at hkey
      obtain ⟨r, s₁⟩ := out
      cases r with
      | error e =>
          change some e.key.profile = _
          rw [hkey rfl]
          rfl
      | ok u => rfl

theorem session?_anonymous (t : Tracker) :
    t.anonymous.session? = t.session?.map OpenSession.anonymous := by
  cases t <;> rfl

/-- **Finishing a session** with a tracker that is watched. -/
theorem Alike.finish (h : Alike o s s') {n : Nat} (hn : o.watches n = true) :
    s.subject? (.finish n) = s'.subject? (.finish n) ∧
    ((∀ profile, s.subject? (.finish n) = some profile → profile = o.profile) →
      (s.step (.finish n)).1.anonymous = (s'.step (.finish n)).1.anonymous) ∧
    Alike o (s.step (.finish n)).2 (s'.step (.finish n)).2 := by
  have htracker := h.tracker_eq hn
  have hsession := congrArg Tracker.session? htracker
  have hactive := congrArg (fun t => Tracker.active t s.clock.now) htracker
  rw [session?_anonymous, session?_anonymous] at hsession
  simp only [Tracker.active_anonymous] at hactive
  simp only [subject?, Service.step, Service.finish, Tracker.finish?]
  generalize (s.tracker n).session? = session, (s'.tracker n).session? = session' at hsession
  cases session with
  | none =>
      cases session' with
      | none => exact ⟨rfl, fun _ => rfl, h⟩
      | some session' => cases hsession
  | some session =>
      cases session' with
      | none => cases hsession
      | some session' =>
          obtain ⟨id, profile, topic, started⟩ := session
          obtain ⟨id', profile', topic', started'⟩ := session'
          cases hsession
          rw [← h.clock_eq, ← hactive]
          obtain ⟨hanswer, hafter⟩ :=
            (minds_record profile topic ((s.tracker n).active s.clock.now)).both (h.keepTracker n rfl)
          simp only [Option.map_some]
          refine ⟨trivial, ?_⟩
          generalize (s.keepTracker n .idle).record profile topic _ = out,
            (s'.keepTracker n .idle).record profile topic _ = out' at hanswer hafter
          obtain ⟨r, s₁⟩ := out
          obtain ⟨r', s₁'⟩ := out'
          refine ⟨?_, ?_⟩
          · intro hprofile
            cases hanswer (hprofile profile rfl).symm
            cases r <;> rfl
          · cases r <;> cases r' <;> exact hafter

/-- **Beginning a session** with a tracker that is watched. -/
theorem Alike.begin (h : Alike o s s') {n : Nat} (hn : o.watches n = true) (profile : Profile)
    (topic : String) :
    (s.step (.begin n profile topic)).1.anonymous = (s'.step (.begin n profile topic)).1.anonymous ∧
    Alike o (s.step (.begin n profile topic)).2 (s'.step (.begin n profile topic)).2 := by
  have hbegin : ((s.tracker n).begin? (.ofNat s.nextSession) profile topic s.clock.now).map
      Tracker.anonymous = ((s'.tracker n).begin? (.ofNat s'.nextSession) profile topic
        s'.clock.now).map Tracker.anonymous := by
    rw [← Tracker.begin?_anonymous, ← Tracker.begin?_anonymous, h.tracker_eq hn, h.clock_eq]
  simp only [Service.step, Service.begin]
  generalize (s.tracker n).begin? (.ofNat s.nextSession) profile topic s.clock.now = t,
    (s'.tracker n).begin? (.ofNat s'.nextSession) profile topic s'.clock.now = t' at hbegin
  cases t with
  | none =>
      cases t' with
      | none => exact ⟨rfl, h⟩
      | some t' => cases hbegin
  | some t =>
      cases t' with
      | none => cases hbegin
      | some t' =>
          refine ⟨rfl, (h.keepTracker n (Option.some.inj hbegin)).setTrackers fun m hm => ?_⟩
          exact (h.keepTracker n (Option.some.inj hbegin)).tracker_eq hm

/-- **Services that are alike take the same step**, not a batch.  Afterwards they are alike, and the answers
are the same, whichever sessions they name, unless they are about another profile. -/
theorem Alike.step (h : Alike o s s') {st : Step}
    (hbatch : ∀ items awaited, st ≠ .recordBatch items awaited)
    (hwatch : ∀ n, st.tracker? = some n → o.watches n = true) :
    s.subject? st = s'.subject? st ∧
    ((∀ profile, s.subject? st = some profile → profile = o.profile) →
      (s.step st).1.anonymous = (s'.step st).1.anonymous) ∧
    Alike o (s.step st).2 (s'.step st).2 := by
  by_cases hprofile : ∃ profile, st.profile? = some profile
  · obtain ⟨profile, hprofile⟩ := hprofile
    obtain ⟨hanswer, hafter⟩ := (minds_step hprofile).both h
    have hsubject : ∀ s : Service σ, s.subject? st = some profile := by
      intro s
      cases st <;> first | exact hprofile | cases hprofile
    refine ⟨(hsubject s).trans (hsubject s').symm, fun hown => ?_, hafter⟩
    rw [hanswer (hown profile (hsubject s)).symm]
  · cases st with
    | setClock now =>
        refine ⟨rfl, fun _ => ?_, h.settings_eq, ?_, h.same, h.caches, h.tracker_eq⟩
        · simp only [Service.step, h.clock_eq]
        · simp only [Service.step, h.clock_eq]
    | advanceClock delta =>
        refine ⟨rfl, fun _ => ?_, h.settings_eq, ?_, h.same, h.caches, h.tracker_eq⟩
        · simp only [Service.step, h.clock_eq]
        · simp only [Service.step, h.clock_eq]
    | now => exact ⟨rfl, fun _ => by simp only [Service.step, h.clock_eq], h⟩
    | localTime => exact ⟨rfl, fun _ => by simp only [Service.step, h.clock_eq], h⟩
    | difference start stop => exact ⟨rfl, fun _ => rfl, h⟩
    | staleness => exact ⟨rfl, fun _ => by simp only [Service.step, h.settings_eq], h⟩
    | recordBatch items awaited => exact absurd rfl (hbatch items awaited)
    | begin n profile topic =>
        obtain ⟨hanswer, hafter⟩ := h.begin (hwatch n rfl) profile topic
        exact ⟨rfl, fun _ => hanswer, hafter⟩
    | finish n => exact h.finish (hwatch n rfl)
    | cancel n => exact ⟨rfl, fun _ => rfl, h.keepTracker n rfl⟩
    | foreground n =>
        refine ⟨rfl, fun _ => rfl, h.keepTracker n ?_⟩
        rw [← Tracker.foreground_anonymous, ← Tracker.foreground_anonymous, h.tracker_eq (hwatch n rfl),
          h.clock_eq]
    | background n =>
        have hbackground : ((s.tracker n).background s.clock.now).anonymous =
            ((s'.tracker n).background s'.clock.now).anonymous := by
          rw [← Tracker.background_anonymous, ← Tracker.background_anonymous,
            h.tracker_eq (hwatch n rfl), h.clock_eq]
        refine ⟨rfl, fun _ => ?_, h.keepTracker n hbackground⟩
        have hbaseline := congrArg Tracker.baseline hbackground
        rw [Tracker.baseline_anonymous, Tracker.baseline_anonymous] at hbaseline
        simp only [Service.step, Service.background, hbaseline]
    | status n =>
        refine ⟨rfl, fun _ => ?_, h⟩
        have hstatus := congrArg Tracker.status (h.tracker_eq (hwatch n rfl))
        rw [Tracker.status_anonymous, Tracker.status_anonymous] at hstatus
        simp only [Service.step, hstatus]
    | active n =>
        refine ⟨rfl, fun _ => ?_, h⟩
        have hactive := congrArg (fun t => Tracker.active t s.clock.now) (h.tracker_eq (hwatch n rfl))
        simp only [Tracker.active_anonymous] at hactive
        simp only [Service.step, ← h.clock_eq, hactive]
    | _ => exact absurd ⟨_, rfl⟩ hprofile

/-! ### Steps and what is kept of them -/

omit [PartitionedStore σ] in
theorem length_recordAll (items : List (Profile × String × UInt64)) :
    ∀ s : Service σ, (s.recordAll items).1.length = items.length := by
  induction items with
  | nil =>
      intro s
      rfl
  | cons item items ih =>
      intro s
      simp only [recordAll, List.length_cons, ih]

/-- **A batch and the items of it that are kept**: these are answered alike. -/
theorem Alike.recordAll (items : List (Profile × String × UInt64)) :
    ∀ {s s' : Service σ}, Alike o s s' →
      besides o.profile items (s.recordAll items).1 =
        (s'.recordAll (items.filter fun item => item.1 = o.profile)).1 ∧
      Alike o (s.recordAll items).2
        (s'.recordAll (items.filter fun item => item.1 = o.profile)).2 := by
  induction items with
  | nil =>
      intro s s' h
      exact ⟨rfl, h⟩
  | cons item items ih =>
      intro s s' h
      obtain ⟨profile, topic, duration⟩ := item
      have hrecord := minds_record (σ := σ) profile topic duration
      by_cases hprofile : profile = o.profile
      · subst hprofile
        obtain ⟨hanswer, halike⟩ := hrecord.alike rfl h
        obtain ⟨hrest, hafter⟩ := ih halike
        rw [List.filter_cons_of_pos (by simp)]
        simp only [Service.recordAll, besides_cons, if_true]
        exact ⟨by rw [hanswer, hrest], hafter⟩
      · obtain ⟨hrest, hafter⟩ := ih (hrecord.skip h (Ne.symm hprofile))
        rw [List.filter_cons_of_neg (by simp [hprofile])]
        simp only [Service.recordAll, besides_cons, hprofile, if_false]
        exact ⟨hrest, hafter⟩

omit [PartitionedStore σ] in
/-- The answers that are awaited, beside the marks. -/
theorem recordBatch_eq (s : Service σ) (items : List (Profile × String × UInt64)) (awaited : List Nat) :
    s.recordBatch items awaited = (List.zipWith answerIf (s.recordAll items).1
      (marks awaited items.length), (s.recordAll items).2) := by
  simp only [recordBatch, mapIdx_awaited, length_recordAll]

/-- **One takes a step and the other one what an onlooker keeps of it**: he sees the same answer, and cannot
tell them apart afterwards. -/
theorem Alike.step_part (h : Alike o s s') {st st' : Step} (hst : o.part st = some st') :
    o.seen st (s.step st).1 = o.blur st' (s'.step st').1 ∧ Alike o (s.step st).2 (s'.step st').2 := by
  by_cases hbatch : ∃ items awaited, st = .recordBatch items awaited
  · obtain ⟨items, awaited, rfl⟩ := hbatch
    simp only [Onlooker.part] at hst
    split at hst
    next => cases hst
    next =>
      cases hst
      obtain ⟨hanswers, hafter⟩ := Alike.recordAll items h
      refine ⟨?_, ?_⟩
      · have hlength : (items.filter fun item => item.1 = o.profile).length =
            (besides o.profile items (marks awaited items.length)).length :=
          (length_besides o.profile items _ (length_marks awaited _)).symm
        simp only [Service.step, recordBatch_eq, Onlooker.seen, besides_zipWith, hanswers]
        rw [hlength, marks_marked]
        rfl
      · simp only [Service.step, recordBatch_eq]
        exact hafter
  · have hnot : ∀ items awaited, st ≠ .recordBatch items awaited := fun items awaited heq =>
      hbatch ⟨items, awaited, heq⟩
    rw [Onlooker.part_of_not_batch hnot] at hst
    split at hst
    next hkeeps =>
      cases hst
      obtain ⟨hsubject, hanswer, hafter⟩ := h.step hnot fun n hn => Onlooker.watches_of_keeps hkeeps hn
      refine ⟨?_, hafter⟩
      rw [Onlooker.seen_of_not_batch hnot]
      by_cases hown : s.subject? st = none ∨ s.subject? st = some o.profile
      · refine Onlooker.blur_eq st (hanswer fun profile hprofile => ?_)
        obtain hnone | hsome := hown
        · cases hnone.symm.trans hprofile
        · exact (Option.some.inj (hsome.symm.trans hprofile)).symm
      · -- the session of another profile is finished
        cases hprofile : s.subject? st with
        | none => exact absurd (.inl hprofile) hown
        | some profile =>
            have hne : profile ≠ o.profile := fun heq => hown (.inr (heq ▸ hprofile))
            obtain ⟨n, rfl⟩ : ∃ n, st = .finish n := by
              cases st with
              | finish n => exact ⟨n, rfl⟩
              | _ => exact absurd (Onlooker.eq_of_keeps hkeeps hprofile) hne
            rw [Onlooker.blur_of_ne n ((profile?_finish s n).trans hprofile) hne,
              Onlooker.blur_of_ne n ((profile?_finish s' n).trans (hsubject.symm.trans hprofile)) hne]
    next => cases hst

omit [PartitionedStore σ] in
/-- A step of which an onlooker keeps nothing is about his profile only if it ends a session of it. -/
theorem subject?_of_other {st : Step} (hst : o.part st = none)
    (hfinish : ∀ n, st = .finish n → o.watches n = false → (s.step st).1.profile? ≠ some o.profile) :
    s.subject? st ≠ some o.profile := by
  intro hsubject
  have hprofile : st.profile? ≠ some o.profile := by
    intro hprofile
    cases st <;> simp_all [Onlooker.part, Onlooker.keeps, Step.profile?]
  cases st with
  | finish n =>
      have hwatch : o.watches n = false := by
        cases hwatch : o.watches n with
        | false => rfl
        | true => simp [Onlooker.part, Onlooker.keeps, Step.profile?, Step.tracker?, hwatch] at hst
      exact hfinish n rfl hwatch ((profile?_finish s n).trans hsubject)
  | _ => exact hprofile hsubject

/-- **One takes a step of which an onlooker keeps nothing**: he cannot tell, unless it ends a session of his
profile. -/
theorem Alike.step_other (h : Alike o s s') {st : Step} (hst : o.part st = none)
    (hsubject : s.subject? st ≠ some o.profile) : Alike o (s.step st).2 s' := by
  by_cases hprofile : ∃ profile, st.profile? = some profile
  · obtain ⟨profile, hprofile⟩ := hprofile
    refine (minds_step hprofile).skip h fun hown => hsubject ?_
    rw [hown]
    cases st <;> first | exact hprofile | cases hprofile
  · have hunwatched : ∀ {n}, st.tracker? = some n → o.watches n = false := by
      intro n hn
      cases st <;> simp_all [Onlooker.part, Onlooker.keeps, Step.profile?, Step.tracker?]
    cases st with
    | recordBatch items awaited =>
        simp only [Onlooker.part] at hst
        split at hst
        next hnone =>
          have hafter := (Alike.recordAll items h).2
          rw [hnone] at hafter
          exact hafter
        next => cases hst
    | begin n profile topic =>
        simp only [Service.step, Service.begin]
        split
        next => exact h
        next => exact h.keepOther (hunwatched rfl) _ _
    | finish n =>
        simp only [Service.step, Service.finish, subject?, Tracker.finish?] at hsubject ⊢
        generalize (s.tracker n).session? = session at hsubject
        cases session with
        | none => exact h
        | some session =>
            have hother : o.profile ≠ session.profile := fun hown => hsubject (by rw [hown]; rfl)
            have hidle : Alike o (s.keepTracker n .idle) s' := h.keepOther (hunwatched rfl) .idle _
            have hafter := (minds_record session.profile session.topic
              ((s.tracker n).active s.clock.now)).skip hidle hother
            simp only [Option.map_some]
            generalize (s.keepTracker n .idle).record session.profile session.topic _ = out at hafter
            obtain ⟨r, s₁⟩ := out
            cases r <;> exact hafter
    | cancel n => exact h.keepOther (hunwatched rfl) _ _
    | foreground n => exact h.keepOther (hunwatched rfl) _ _
    | background n => exact h.keepOther (hunwatched rfl) _ _
    | status n => exact h
    | active n => exact h
    | setClock | advanceClock | now | localTime | difference | staleness =>
        simp [Onlooker.part, Onlooker.keeps, Step.profile?, Step.tracker?] at hst
    | _ => exact absurd ⟨_, rfl⟩ hprofile

/-! ### What stays -/

/-- The settings are the same, and so is the form of the store. -/
structure Steady (s s' : Service σ) : Prop where
  settings_eq : s'.settings = s.settings
  form_eq : Partitioned.form s'.store = Partitioned.form s.store

theorem Within.steady {profile : Profile} (h : Within profile s s') : Steady s s' :=
  ⟨h.settings_eq, h.spares.form_eq⟩

theorem steady_recordAll (items : List (Profile × String × UInt64)) :
    ∀ s : Service σ, Steady s (s.recordAll items).2 := by
  induction items with
  | nil =>
      intro s
      exact ⟨rfl, rfl⟩
  | cons item items ih =>
      intro s
      obtain ⟨profile, topic, duration⟩ := item
      have hrecord := (minds_record profile topic duration).within s
      have hsteady := ih (s.record profile topic duration).2
      exact ⟨hsteady.settings_eq.trans hrecord.settings_eq,
        hsteady.form_eq.trans hrecord.spares.form_eq⟩

/-- **No step changes** the settings or the form of the store. -/
theorem steady_step (s : Service σ) (st : Step) : Steady s (s.step st).2 := by
  by_cases hprofile : ∃ profile, st.profile? = some profile
  · obtain ⟨profile, hprofile⟩ := hprofile
    exact ((minds_step hprofile).within s).steady
  · cases st with
    | recordBatch items awaited => exact steady_recordAll items s
    | begin n profile topic =>
        simp only [Service.step, Service.begin]
        split <;> exact ⟨rfl, rfl⟩
    | finish n =>
        simp only [Service.step, Service.finish]
        cases (s.tracker n).finish? s.clock.now with
        | none => exact ⟨rfl, rfl⟩
        | some session =>
            have hrecord := ((minds_record session.profile session.topic session.active).within
              (s.keepTracker n .idle)).steady
            dsimp only
            generalize (s.keepTracker n .idle).record _ _ _ = out at hrecord
            obtain ⟨r, s₁⟩ := out
            cases r <;> exact ⟨hrecord.settings_eq, hrecord.form_eq⟩
    | setClock | advanceClock | now | localTime | difference | staleness | cancel | foreground
    | background | status | active => exact ⟨rfl, rfl⟩
    | _ => exact absurd ⟨_, rfl⟩ hprofile

section Trackers

omit [PartitionedStore σ]

theorem trackers_recordAll (items : List (Profile × String × UInt64)) :
    ∀ s : Service σ, (s.recordAll items).2.trackers = s.trackers := by
  induction items with
  | nil => exact fun _ => rfl
  | cons item items ih => exact fun s => ih (s.record item.1 item.2.1 item.2.2).2

theorem trackers_remove (s : Service σ) (profile : Profile) :
    (s.remove profile).2.trackers = s.trackers := by
  unfold remove
  generalize s.cacheOf profile = out
  obtain ⟨c, store⟩ := out
  dsimp only
  split <;> rfl

theorem trackers_deleteProfile (s : Service σ) (profile : Profile) :
    (s.deleteProfile profile).2.trackers = s.trackers := by
  have hremove := trackers_remove s profile
  unfold deleteProfile
  generalize s.remove profile = out at hremove
  obtain ⟨r, s'⟩ := out
  cases r with
  | error e => exact hremove
  | ok =>
      dsimp only
      split <;> exact hremove

theorem trackers_shouldShow (s : Service σ) (profile : Profile) (topic : String) :
    (s.shouldShow profile topic).2.trackers = s.trackers := by
  have hcooled : (s.cooledDown profile).2.trackers = s.trackers := by
    have hshown : (s.lastShown profile).2.trackers = s.trackers := rfl
    unfold cooledDown
    generalize s.lastShown profile = out at hshown
    obtain ⟨r, s'⟩ := out
    cases r <;> exact hshown
  have hstudied : ∀ s' : Service σ, (s'.studiedEnough profile topic).2.trackers = s'.trackers := by
    intro s'
    have hrecord : (s'.topicRecord profile topic).2.trackers = s'.trackers := rfl
    unfold studiedEnough
    generalize s'.topicRecord profile topic = out at hrecord
    obtain ⟨r, s''⟩ := out
    cases r <;> exact hrecord
  unfold shouldShow
  split
  · rfl
  · split
    · generalize s.cooledDown profile = out at hcooled
      obtain ⟨yes, s'⟩ := out
      cases yes with
      | false => exact hcooled
      | true => exact (hstudied s').trans hcooled
    · rfl

/-- **Only the steps of trackers** change trackers, whatever the store does. -/
theorem trackers_step (s : Service σ) {st : Step} (hst : st.tracker? = none) :
    (s.step st).2.trackers = s.trackers := by
  cases st with
  | recordBatch items awaited => exact trackers_recordAll items s
  | remove profile => exact trackers_remove s profile
  | deleteProfile profile => exact trackers_deleteProfile s profile
  | shouldShow profile topic => exact trackers_shouldShow s profile topic
  | markShown profile =>
      have hshown : (s.setLastShown profile s.clock.now).2.trackers = s.trackers := rfl
      simp only [Service.step, markShown]
      generalize s.setLastShown profile s.clock.now = out at hshown
      obtain ⟨r, s'⟩ := out
      cases r <;> exact hshown
  | begin | finish | cancel | foreground | background | status | active => cases hst
  | _ => rfl

end Trackers

/-! ### Twins -/

/-- Services that nobody can tell apart. -/
def Twins (regard : Regard) (s s' : Service σ) : Prop :=
  ∀ profile, Alike ⟨profile, fun _ => true, regard⟩ s s'

variable {regard : Regard}

theorem Twins.recordAll (items : List (Profile × String × UInt64)) :
    ∀ {s s' : Service σ}, Twins regard s s' →
      (s.recordAll items).1 = (s'.recordAll items).1 ∧
      Twins regard (s.recordAll items).2 (s'.recordAll items).2 := by
  induction items with
  | nil =>
      intro s s' h
      exact ⟨rfl, h⟩
  | cons item items ih =>
      intro s s' h
      obtain ⟨profile, topic, duration⟩ := item
      have hrecord := minds_record (σ := σ) profile topic duration
      obtain ⟨hrest, hafter⟩ := ih fun q => (hrecord.both (h q)).2
      refine ⟨?_, hafter⟩
      simp only [Service.recordAll]
      rw [((hrecord.both (h profile)).1 rfl : (s.record profile topic duration).1 = _), hrest]

/-- **Twins answer a step alike**, whichever sessions they name, and stay twins. -/
theorem Twins.step (h : Twins regard s s') (st : Step) :
    (s.step st).1.anonymous = (s'.step st).1.anonymous ∧
    Twins regard (s.step st).2 (s'.step st).2 := by
  by_cases hbatch : ∃ items awaited, st = .recordBatch items awaited
  · obtain ⟨items, awaited, rfl⟩ := hbatch
    obtain ⟨hanswers, hafter⟩ := Twins.recordAll items h
    refine ⟨?_, ?_⟩
    · simp only [Service.step, recordBatch_eq, hanswers]
    · simp only [Service.step, recordBatch_eq]
      exact hafter
  · have hnot : ∀ items awaited, st ≠ .recordBatch items awaited := fun items awaited heq =>
      hbatch ⟨items, awaited, heq⟩
    refine ⟨?_, fun q => ((h q).step hnot fun _ _ => rfl).2.2⟩
    refine ((h ((s.subject? st).getD "")).step hnot fun _ _ => rfl).2.1 fun profile hprofile => ?_
    rw [hprofile, Option.getD_some]

/-- **A run of twins.** -/
theorem Twins.run (steps : List Step) :
    ∀ {s s' : Service σ}, Twins regard s s' →
      (s.run steps).1.map Answer.anonymous = (s'.run steps).1.map Answer.anonymous ∧
      Twins regard (s.run steps).2 (s'.run steps).2 := by
  induction steps with
  | nil =>
      intro s s' h
      exact ⟨rfl, h⟩
  | cons st steps ih =>
      intro s s' h
      obtain ⟨hanswer, hnext⟩ := h.step st
      obtain ⟨hanswers, hafter⟩ := ih hnext
      rw [run_cons, run_cons, List.map_cons, List.map_cons, hanswer, hanswers]
      exact ⟨rfl, hafter⟩

end Service

end StudyTime
