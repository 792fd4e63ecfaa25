/-
**No survey is shown again too early.**

A store keeps the instant at which a survey was last shown to a profile, whatever else is asked of it: only
a mark for this profile changes it, and only a deletion of this profile drops it.  Where it cannot be kept
any more it cannot be read either.  So from the exchanges of a course it can be told which instant was noted
last, and this instant decides about surveys: up to the end of the cooldown none is shown, in whichever
direction the clock was moved, and after it the cooldown is no condition any more.

Main definitions:

* `Step.noted`, `lastNoted` — the instant that is noted by a step, and by a course;
* `RecordingStore`, `Service.Recalls` — stores that keep the instant or have lost all of them;
* `System.Cools`, `System.CoolsDown` — what the instant says about surveys, and that it does in all courses.

Main results:

* `Survey.cooledDown_iff` — the cooldown in exact arithmetic;
* `Service.shown_step` — **what a step does** to the instants that are kept;
* `System.Recording.course` — the instant that was **noted last in a course** is the one that is read;
* `System.cools_down` — **surveys after any course**, over any store in memory, any database, and any
  database in a file.
-/

import StudyTime.Proofs.Service.Systems

set_option relaxedAutoImplicit false
set_option autoImplicit false

namespace StudyTime

/-! ### The cooldown -/

/-- The cooldown is over when more than so many milliseconds have passed since an instant that is
positive. -/
theorem Survey.cooledDown_iff (now : Int64) (shown : Option Int64) (cooldown : UInt64) :
    cooledDown now shown cooldown = true ↔
      ∀ n, shown = some n → 0 < n.toInt → n.toInt + cooldown.toNat < now.toInt := by
  cases shown with
  | none => simp [cooledDown]
  | some n =>
      have hfirst := Int64.le_toInt n
      have hlast := Int64.toInt_lt now
      have helapsed := Saturating.toNat_elapsed now n
      have hpositive : n ≤ 0 ↔ n.toInt ≤ 0 := Int64.le_iff_toInt_le
      simp only [Saturating.latest] at helapsed
      simp only [cooledDown, Bool.or_eq_true, decide_eq_true_eq, hpositive, UInt64.lt_iff_toNat_lt,
        Option.some.injEq, forall_eq', helapsed]
      -- from a positive instant no time is as long as the bound
      omega

/-! ### What is noted -/

/-- The instant that is noted for a profile after a step at an instant of the clock, when it was `t`
before.  What fails is not noted. -/
def Step.noted (profile : Profile) (now : Int64) (st : Step) (a : Answer) (t : Option Int64) :
    Option Int64 :=
  match st, a with
  | .markShown q, .done => if profile = q then some now else t
  | .setLastShown q n, .done => if profile = q then some n else t
  | .deleteProfile q, .done => if profile = q then none else t
  | _, _ => t

/-- The same after an exchange. -/
def Exchange.noted {τ : Type} (profile : Profile) (t : Option Int64) (e : Exchange τ) : Option Int64 :=
  match e.now, e.event, e.answer with
  | some now, .ask st, some a => st.noted profile now a t
  | _, _, _ => t

/-- The instant that is noted for a profile after these exchanges. -/
def lastNoted {τ : Type} (profile : Profile) (es : List (Exchange τ)) : Option Int64 :=
  es.foldl (Exchange.noted profile) none

/-! ### What a step does to the instants -/

/-- What leaves the instants when it succeeds leaves them at any rate. -/
theorem Changes.shown_eq {σ : Type} [Observed σ] {s : σ} {change : Kept → Kept}
    {out : Except Failure Unit × σ} (h : Changes s change out)
    (hchange : ∀ k, (change k).shown = k.shown) : (kept out.2).shown = (kept s).shown := by
  cases hr : out.1 with
  | error f => rw [h.kept_of_error hr]
  | ok u => rw [h.kept_of_ok hr, hchange]

namespace Cache

variable {σ α : Type} [Backend σ] [LawfulStore σ] (d : DocumentType α) (key : DocumentKey) (c : Cache α)
variable (s : σ)

theorem kept_fetch : kept (c.fetch d key s).2.2 = kept s := by
  have hload := (LawfulStore.load key s).kept_eq
  unfold fetch
  split
  next => rfl
  next =>
    generalize Backend.load key s = out at hload
    obtain ⟨r, s'⟩ := out
    cases r with
    | error f => exact hload
    | ok text =>
        dsimp only
        split <;> exact hload

theorem shown_commit (a : α) : (kept (c.commit d key a s).2.2).shown = (kept s).shown := by
  unfold commit
  split
  next => rfl
  next text _ =>
    have hstore := (LawfulStore.store key text s).shown_eq fun k => k.shown_setPayload key (some text)
    generalize Backend.store key text s = out at hstore
    obtain ⟨r, s'⟩ := out
    cases r <;> exact hstore

theorem shown_drop : (kept (c.drop d key s).2.2).shown = (kept s).shown := by
  have hdelete := (LawfulStore.delete key s).shown_eq fun k => k.shown_setPayload key none
  unfold drop
  generalize Backend.delete key s = out at hdelete
  obtain ⟨r, s'⟩ := out
  cases r <;> exact hdelete

/-- Changing a document is nothing to the instants. -/
theorem shown_write (cmd : Command α) : (kept (c.write d key cmd s).2.2).shown = (kept s).shown := by
  unfold write
  split
  next =>
    cases cmd with
    | clear => exact shown_drop d key c s
    | update change =>
        have hfetch := congrArg Kept.shown (kept_fetch d key c s)
        simp only [perform]
        generalize c.fetch d key s = out at hfetch
        obtain ⟨r, c', s'⟩ := out
        cases r with
        | error e => exact hfetch
        | ok a =>
            dsimp only at hfetch ⊢
            cases change a with
            | none => exact hfetch
            | some a' => exact (shown_commit d key c' s' a').trans hfetch
  next => rfl

end Cache

namespace Service

section Lawful

variable {σ : Type} [Backend σ] [LawfulStore σ] (s : Service σ)

theorem kept_cacheOf (profile : Profile) : kept (s.cacheOf profile).2 = kept s.store := by
  unfold cacheOf
  split
  next => rfl
  next => exact Cache.kept_fetch _ _ _ _

theorem shown_record (profile : Profile) (topic : String) (duration : UInt64) :
    (kept (s.record profile topic duration).2.store).shown = (kept s.store).shown :=
  (Cache.shown_write _ _ _ _ _).trans (congrArg Kept.shown (s.kept_cacheOf profile))

theorem shown_recordAll (items : List (Profile × String × UInt64)) :
    ∀ s : Service σ, (kept (s.recordAll items).2.store).shown = (kept s.store).shown := by
  induction items with
  | nil =>
      intro s
      rfl
  | cons item items ih =>
      intro s
      obtain ⟨profile, topic, duration⟩ := item
      exact (ih _).trans (s.shown_record profile topic duration)

theorem kept_ledger (profile : Profile) : kept (s.ledger profile).2.store = kept s.store :=
  (Cache.kept_fetch _ _ _ _).trans (s.kept_cacheOf profile)

theorem shown_remove (profile : Profile) :
    (kept (s.remove profile).2.store).shown = (kept s.store).shown := by
  have hwrite := (Cache.shown_write Ledger.document (ledgerKey profile) (s.cacheOf profile).1
    (s.cacheOf profile).2 .clear).trans (congrArg Kept.shown (s.kept_cacheOf profile))
  simp only [remove]
  generalize (s.cacheOf profile).1.write Ledger.document (ledgerKey profile) .clear
    (s.cacheOf profile).2 = out at hwrite
  obtain ⟨r, c, store⟩ := out
  cases r <;> exact hwrite

theorem kept_lastShown (profile : Profile) : kept (s.lastShown profile).2.store = kept s.store :=
  (LawfulStore.lastShown profile s.store).kept_eq

theorem kept_studiedEnough (profile : Profile) (topic : String) :
    kept (s.studiedEnough profile topic).2.store = kept s.store := by
  have hledger := s.kept_ledger profile
  simp only [studiedEnough, topicRecord]
  generalize s.ledger profile = out at hledger
  obtain ⟨r, s'⟩ := out
  cases r <;> exact hledger

/-- Asking whether a survey is to be shown changes nothing. -/
theorem kept_shouldShow (profile : Profile) (topic : String) :
    kept (s.shouldShow profile topic).2.store = kept s.store := by
  have hcooled : kept (s.cooledDown profile).2.store = kept s.store := by
    have hshown := s.kept_lastShown profile
    simp only [cooledDown]
    generalize s.lastShown profile = out at hshown
    obtain ⟨r, s'⟩ := out
    cases r <;> exact hshown
  simp only [shouldShow]
  split
  next => rfl
  next =>
    split
    next =>
      generalize s.cooledDown profile = out at hcooled
      obtain ⟨cooled, s'⟩ := out
      cases cooled with
      | false => exact hcooled
      | true => exact (s'.kept_studiedEnough profile topic).trans hcooled
    next => rfl

/-- An instant that is noted is kept from then on, unless noting it fails. -/
theorem shown_setLastShown (q : Profile) (n : Int64) (profile : Profile) :
    (kept (s.setLastShown q n).2.store).shown profile =
      match (s.setLastShown q n).1 with
      | .ok () => if profile = q then some n else (kept s.store).shown profile
      | .error _ => (kept s.store).shown profile := by
  have hset := LawfulStore.setLastShown q n s.store
  simp only [setLastShown]
  generalize Backend.setLastShown q n s.store = out at hset
  obtain ⟨r, store⟩ := out
  cases r with
  | error f => exact congrFun (congrArg Kept.shown (hset.kept_of_error rfl)) profile
  | ok u => exact congrFun (congrArg Kept.shown (hset.kept_of_ok rfl)) profile

/-- No instant is kept for a profile that was deleted, and all are if that fails. -/
theorem shown_deleteProfile (q profile : Profile) :
    (kept (s.deleteProfile q).2.store).shown profile =
      match (s.deleteProfile q).1 with
      | .ok () => if profile = q then none else (kept s.store).shown profile
      | .error _ => (kept s.store).shown profile := by
  have hremove := s.shown_remove q
  simp only [deleteProfile]
  generalize s.remove q = out at hremove
  obtain ⟨r, s'⟩ := out
  cases r with
  | error e => exact congrFun hremove profile
  | ok u =>
      have herase := LawfulStore.eraseProfile q s'.store
      dsimp only at hremove ⊢
      rw [← hremove]
      generalize Backend.eraseProfile q s'.store = out at herase
      obtain ⟨r, store⟩ := out
      cases r with
      | error f => exact congrFun (congrArg Kept.shown (herase.kept_of_error rfl)) profile
      | ok u => exact congrFun (congrArg Kept.shown (herase.kept_of_ok rfl)) profile

/-- **What a step does to the instants that are kept**: each is the one that is noted. -/
theorem shown_step (st : Step) (profile : Profile) : (kept (s.step st).2.store).shown profile =
    st.noted profile s.clock.now (s.step st).1 ((kept s.store).shown profile) := by
  cases st with
  | record q topic duration => exact congrFun (s.shown_record q topic duration) profile
  | recordBatch items awaited => exact congrFun (shown_recordAll items s) profile
  | get q topic => exact congrFun (congrArg Kept.shown (s.kept_ledger q)) profile
  | getAll q => exact congrFun (congrArg Kept.shown (s.kept_ledger q)) profile
  | remove q => exact congrFun (s.shown_remove q) profile
  | shouldShow q topic => exact congrFun (congrArg Kept.shown (s.kept_shouldShow q topic)) profile
  | lastShown q => exact congrFun (congrArg Kept.shown (s.kept_lastShown q)) profile
  | markShown q =>
      have hset := s.shown_setLastShown q s.clock.now profile
      simp only [Service.step, markShown]
      generalize s.setLastShown q s.clock.now = out at hset
      obtain ⟨r, s'⟩ := out
      cases r <;> exact hset
  | setLastShown q n =>
      have hset := s.shown_setLastShown q n profile
      simp only [Service.step]
      generalize s.setLastShown q n = out at hset
      obtain ⟨r, s'⟩ := out
      cases r <;> exact hset
  | deleteProfile q =>
      have hdelete := s.shown_deleteProfile q profile
      simp only [Service.step]
      generalize s.deleteProfile q = out at hdelete
      obtain ⟨r, s'⟩ := out
      cases r <;> exact hdelete
  | begin n q topic =>
      simp only [Service.step, Service.begin]
      split <;> rfl
  | finish n =>
      simp only [Service.step, finish]
      cases (s.tracker n).finish? s.clock.now with
      | none => rfl
      | some session =>
          have hrecord := (s.keepTracker n .idle).shown_record session.profile session.topic
            session.active
          dsimp only
          generalize (s.keepTracker n .idle).record _ _ _ = out at hrecord
          obtain ⟨r, s'⟩ := out
          cases r <;> exact congrFun hrecord profile
  | setClock | advanceClock | now | localTime | difference | staleness | cancel | foreground | background
  | status | active => rfl

end Lawful

end Service

/-! ### Stores that keep the instants -/

/-- Stores that keep the instants that are noted, or lose all of them and cannot tell any from then on. -/
class RecordingStore (σ : Type) [Backend σ] [TroubledStore σ] [LawfulStore σ] where
  /-- The instants are lost. -/
  Lost : σ → Prop
  lost_of_form : ∀ {s s' : σ}, Partitioned.form s' = Partitioned.form s → Lost s → Lost s'
  /-- Instants that are lost are not read. -/
  not_read : ∀ {s : σ}, Lost s → ∀ profile n, (Backend.lastShown profile s).1 ≠ .ok n
  lost_befall : ∀ (t : TroubledStore.Trouble σ) {s : σ}, Lost s → Lost (TroubledStore.befall t s)
  /-- No trouble changes an instant. -/
  shown_befall : ∀ (t : TroubledStore.Trouble σ) (s : σ), Lost (TroubledStore.befall t s) ∨
    (kept (TroubledStore.befall t s)).shown = (kept s).shown

instance : RecordingStore Memory where
  Lost _ := False
  lost_of_form _ h := h
  not_read h := h.elim
  lost_befall _ _ h := h
  shown_befall _ _ := .inr rfl

/-- The instants are lost with their table. -/
instance : RecordingStore Database where
  Lost db := db.tables.profiles = none
  lost_of_form {db db'} hform h := by
    have hprofiles : db'.tables.profiles.isSome = db.tables.profiles.isSome :=
      congrArg (fun form => form.2.2.2) hform
    rw [h] at hprofiles
    exact Option.not_isSome_iff_eq_none.1 (by simp [hprofiles])
  not_read {db} h profile n hread := by
    simp only [Backend.lastShown, Database.query, Tables.lastShown, h] at hread
    split at hread <;> cases hread
  lost_befall t {db} h := by
    cases t with
    | crash => exact h
    | drop table =>
        cases table with
        | entries => exact h
        | profiles => rfl
  shown_befall t db := by
    cases t with
    | crash => exact .inr rfl
    | drop table =>
        cases table with
        | entries => exact .inr rfl
        | profiles => exact .inl rfl

namespace Service

variable {σ : Type} [Backend σ] [TroubledStore σ] [LawfulStore σ] [RecordingStore σ]
variable {profile : Profile} {t : Option Int64} {s : Service σ}

/-- The instant of a profile is kept, unless it is lost. -/
def Recalls (profile : Profile) (t : Option Int64) (s : Service σ) : Prop :=
  RecordingStore.Lost s.store ∨ (kept s.store).shown profile = t

/-- An instant that is read is the one that was kept. -/
theorem Recalls.read (h : s.Recalls profile t) {n : Option Int64}
    (hread : (s.lastShown profile).1 = .ok n) : n = t := by
  obtain hlost | hshown := h
  · exact absurd hread (RecordingStore.not_read hlost profile n)
  · rw [← hshown]
    exact (LawfulStore.lastShown profile s.store).found hread

/-- **A step** leaves the instant that is noted. -/
theorem Recalls.step (h : s.Recalls profile t) (st : Step) :
    (s.step st).2.Recalls profile (st.noted profile s.clock.now (s.step st).1 t) := by
  obtain hlost | hshown := h
  · exact .inl (RecordingStore.lost_of_form (steady_step s st).form_eq hlost)
  · rw [← hshown]
    exact .inr (s.shown_step st profile)

/-- **Whatever befalls the store** leaves the instant. -/
theorem Recalls.befall (h : s.Recalls profile t) (trouble : TroubledStore.Trouble σ) :
    Recalls profile t { s with store := TroubledStore.befall trouble s.store } := by
  obtain hlost | hshown := h
  · exact .inl (RecordingStore.lost_befall trouble hlost)
  · exact (RecordingStore.shown_befall trouble s.store).imp id fun hsame =>
      (congrFun hsame profile).trans hshown

end Service

/-! ### Courses -/

namespace System

variable {μ σ : Type} [Backend σ] [TroubledStore σ] [LawfulStore σ] [RecordingStore σ] [System μ σ]
variable {profile : Profile}

/-- In all systems like these the services recall the instant that was noted last. -/
structure Recording (profile : Profile) (Like : Option Int64 → μ → Prop) : Prop where
  recalls : ∀ {t x s}, Like t x → service? x = some s → s.Recalls profile t
  /-- An event leaves the instant that is noted. -/
  happen : ∀ {t x}, Like t x → ∀ e, Like ((exchange x e).noted profile t) (happen x e).2

/-- **A course** leaves the instant that was noted last. -/
theorem Recording.course {Like : Option Int64 → μ → Prop} (h : Recording profile Like)
    (events : List (Event (TroubledStore.Trouble σ))) : ∀ {t : Option Int64} {x : μ}, Like t x →
      Like ((course x events).1.foldl (Exchange.noted profile) t) (course x events).2 := by
  induction events with
  | nil =>
      intro t x hx
      exact hx
  | cons e events ih =>
      intro t x hx
      exact ih (h.happen hx e)

end System

/-- A service by itself goes on with its store when it is started anew. -/
theorem Service.recording {σ : Type} [Backend σ] [TroubledStore σ] [LawfulStore σ] [RecordingStore σ]
    (profile : Profile) : System.Recording (σ := σ) profile (Service.Recalls profile) := by
  refine ⟨fun hx hs => ?_, fun hx e => ?_⟩
  · cases hs
    exact hx
  · cases e with
    | ask st => exact hx.step st
    | befall trouble => exact hx.befall trouble
    | restart settings => exact hx

namespace Installation

variable {profile : Profile} {t : Option Int64}

/-- A file has the instant, or its database has the current version and has lost all instants. -/
def Recorded (profile : Profile) (t : Option Int64) (file : Tables) : Prop :=
  file.version = currentVersion ∧ file.profiles = none ∨ file.content.shown profile = t

/-- The instant is there, in the database of a running service or in the file. -/
def Recalls (profile : Profile) (t : Option Int64) : Installation → Prop
  | .running s => s.Recalls profile t
  | .stopped _ _ file => Recorded profile t file

/-- Starting a service leaves the instant; a table that was lost stays lost. -/
theorem recalls_start (clock : Clock) (settings : Settings) {file : Tables}
    (h : Recorded profile t file) : (start clock settings file).2.Recalls profile t := by
  unfold start
  split
  next => exact h
  next =>
    split
    next => exact h
    next db hdb =>
      obtain ⟨hcurrent, hlost⟩ | hshown := h
      · rw [Database.open?_of_current hcurrent] at hdb
        cases hdb
        exact .inl hlost
      · refine .inr ?_
        change db.tables.content.shown profile = t
        rw [(Database.of_open? hdb).2.2]
        exact hshown

theorem recording (profile : Profile) :
    System.Recording profile fun t (i : Installation) => System.Current i ∧ i.Recalls profile t := by
  refine ⟨fun {t i s} hi hs => ?_, fun {t i} hi e => ?_⟩
  · cases i with
    | running s' =>
        cases hs
        exact hi.2
    | stopped => cases hs
  · obtain ⟨hcurrent, hi⟩ := hi
    refine ⟨hcurrent.happen (fun settings => current_restart settings i) e, ?_⟩
    cases i with
    | stopped clock settings file =>
        cases e with
        | ask | befall => exact hi
        | restart new => exact recalls_start clock _ hi
    | running s =>
        cases e with
        | ask st => exact hi.step st
        | befall trouble => exact hi.befall trouble
        | restart new =>
            exact recalls_start s.clock _ (hi.imp (fun hlost => ⟨hcurrent s rfl, hlost⟩) id)

end Installation

/-! ### Surveys -/

namespace Service

variable {σ : Type} [Backend σ] {profile : Profile} {t : Option Int64} {s : Service σ}

/-- Whether it is the right time of day, and the topic was studied long enough. -/
def ready (s : Service σ) (profile : Profile) (topic : String) : Except Abort Bool :=
  s.clock.local?.map fun d =>
    Survey.inWindow d.time s.settings.survey.windowStart s.settings.survey.windowEnd &&
      (s.studiedEnough profile topic).1

/-- The cooldown is looked at if the instant can be read. -/
theorem cooledDown_eq (s : Service σ) (profile : Profile) : (s.cooledDown profile).1 =
    match (s.lastShown profile).1 with
    | .error _ => false
    | .ok shown => Survey.cooledDown s.clock.now shown s.settings.survey.cooldown := by
  simp only [cooledDown, lastShown]
  cases (Backend.lastShown profile s.store).1 <;> rfl

/-- No survey is to be shown while the cooldown lasts. -/
theorem shouldShow_of_not_cooledDown (h : (s.cooledDown profile).1 = false) (topic : String) :
    (s.shouldShow profile topic).1 ≠ .ok true := by
  intro hshow
  simp only [shouldShow] at hshow
  split at hshow
  next => cases hshow
  next =>
    split at hshow
    next =>
      generalize s.cooledDown profile = out at h hshow
      obtain ⟨cooled, s'⟩ := out
      cases h
      cases hshow
    next => cases hshow

/-- When the cooldown is over the other conditions decide. -/
theorem shouldShow_of_cooledDown [PartitionedStore σ] (h : (s.cooledDown profile).1 = true)
    (topic : String) : (s.shouldShow profile topic).1 = s.ready profile topic := by
  -- having looked at the instant makes no difference to the record of the topic
  have halike : Alike ⟨profile, fun _ => true, .equal⟩ (s.cooledDown profile).2 s := by
    have hlooked : (s.cooledDown profile).2 = (s.lastShown profile).2 := by
      simp only [cooledDown]
      generalize s.lastShown profile = out
      obtain ⟨r, s'⟩ := out
      cases r <;> rfl
    rw [hlooked]
    exact ⟨rfl, rfl, (PartitionedStore.lastShown profile).keeps profile s.store, rfl, fun _ => rfl⟩
  have hstudied := ((minds_studiedEnough profile topic).alike rfl halike).1
  simp only [shouldShow, ready]
  cases s.clock.local? with
  | error a => rfl
  | ok d =>
      simp only [Except.map]
      cases Survey.inWindow d.time s.settings.survey.windowStart s.settings.survey.windowEnd with
      | false => rfl
      | true =>
          generalize s.cooledDown profile = out at h hstudied
          obtain ⟨cooled, s'⟩ := out
          cases h
          exact congrArg Except.ok hstudied

variable [TroubledStore σ] [LawfulStore σ] [RecordingStore σ]

/-- The cooldown is over only if it is over since the instant that was noted last. -/
theorem Recalls.cooledDown (h : s.Recalls profile t) (hcooled : (s.cooledDown profile).1 = true) :
    Survey.cooledDown s.clock.now t s.settings.survey.cooldown = true := by
  rw [cooledDown_eq] at hcooled
  cases hread : (s.lastShown profile).1 with
  | error f =>
      rw [hread] at hcooled
      cases hcooled
  | ok shown =>
      rw [hread] at hcooled
      rw [← h.read hread]
      exact hcooled

/-- If the instant can be read, the cooldown is over if it is over since the one that was noted last. -/
theorem Recalls.cooledDown_of_read (h : s.Recalls profile t) {shown : Option Int64}
    (hread : (s.lastShown profile).1 = .ok shown)
    (hcooled : Survey.cooledDown s.clock.now t s.settings.survey.cooldown = true) :
    (s.cooledDown profile).1 = true := by
  rw [cooledDown_eq, hread, h.read hread]
  exact hcooled

end Service

namespace System

section Systems

variable {μ σ : Type} [Backend σ] [TroubledStore σ] [System μ σ] {profile : Profile} {t : Option Int64}
variable {x : μ}

/-- What the instant that was noted last for a profile says about surveys.  The end of the cooldown is
computed exactly, and it does not matter how the clock came to show what it shows. -/
structure Cools (profile : Profile) (t : Option Int64) (x : μ) : Prop where
  /-- Up to the end of the cooldown no survey is shown. -/
  never : ∀ {s n}, service? x = some s → t = some n → 0 < n.toInt →
    s.clock.now.toInt ≤ n.toInt + s.settings.survey.cooldown.toNat →
    ∀ topic, (happen x (.ask (.shouldShow profile topic))).1 ≠ some (.decision true)
  /-- After it, and without a positive instant, the other conditions decide. -/
  otherwise : ∀ {s}, service? x = some s →
    (∀ n, t = some n → 0 < n.toInt →
      n.toInt + s.settings.survey.cooldown.toNat < s.clock.now.toInt) →
    ∀ {shown}, (s.lastShown profile).1 = .ok shown →
    ∀ topic, (happen x (.ask (.shouldShow profile topic))).1 =
      some (.ofAbort .decision (s.ready profile topic))

/-- After any course the instant that was noted last in it decides. -/
def CoolsDown (profile : Profile) (x : μ) : Prop :=
  ∀ events : List (Event (TroubledStore.Trouble σ)),
    Cools profile (lastNoted profile (course x events).1) (course x events).2

variable [LawfulStore σ] [RecordingStore σ]

theorem cools_of_recalls (h : ∀ s, service? x = some s → s.Recalls profile t) : Cools profile t x := by
  constructor
  · intro s n hs hn hpositive hcooling topic
    simp only [happen, hs, Service.step]
    have hnot : (s.cooledDown profile).1 = false := by
      refine Bool.eq_false_iff.2 fun hcooled => ?_
      have hover := (Survey.cooledDown_iff _ _ _).1 ((h s hs).cooledDown hcooled) n hn hpositive
      omega
    have hshow := Service.shouldShow_of_not_cooledDown hnot topic
    generalize s.shouldShow profile topic = out at hshow
    obtain ⟨r, s'⟩ := out
    cases r with
    | error a =>
        intro hyes
        cases hyes
    | ok yes =>
        intro hyes
        cases hyes
        exact hshow rfl
  · intro s hs hover shown hread topic
    have hcooled := (h s hs).cooledDown_of_read hread ((Survey.cooledDown_iff _ _ _).2 hover)
    simp only [happen, hs, Service.step, Service.shouldShow_of_cooledDown hcooled topic]

theorem Recording.coolsDown {Like : Option Int64 → μ → Prop} (h : Recording profile Like)
    (hx : Like none x) : CoolsDown profile x :=
  fun events => cools_of_recalls fun _ hs => h.recalls (h.course events hx) hs

end Systems

/-- **No survey is shown again too early.**  After any course from a start at which no survey was noted for
a profile, the instant decides that was noted last: over a store in memory of which operations are refused
now and then, over a database of which the worker may be taken down and tables dropped, and over a database
in a file, with restarts in between. -/
theorem cools_down (clock : Clock) (settings : Settings) (profile : Profile) :
    (∀ m : Memory, (kept m).shown profile = none → CoolsDown profile (Service.start clock settings m)) ∧
    (∀ db : Database, (kept db).shown profile = none →
      CoolsDown profile (Service.start clock settings db)) ∧
    (∀ file : Tables, file.content.shown profile = none →
      CoolsDown profile (Installation.start clock settings file).2) := by
  refine ⟨fun m hm => ?_, fun db hdb => ?_, fun file hfile => ?_⟩
  · exact (Service.recording profile).coolsDown (.inr hm)
  · exact (Service.recording profile).coolsDown (.inr hdb)
  · exact (Installation.recording profile).coolsDown ⟨Installation.current_start clock settings file,
      Installation.recalls_start clock settings (.inr hfile)⟩

/-- A survey that is noted at noon, and a mark that fails when the cooldown is over: a survey is shown then,
but not when the clock is put back to the first day. -/
theorem cools_down_of_refusal :
    let x : Service Memory := .start ⟨0, .zero⟩ .usual .blank
    let events : List (Event (Operation × Bool)) := [.ask (.record "p" "t" 300000),
      .ask (.setClock 43200000), .ask (.markShown "p"), .befall (.write, true),
      .ask (.setClock 2635200001), .ask (.markShown "p")]
    (kept Memory.blank).shown "p" = none ∧
    (happen (course x events).2 (.ask (.shouldShow "p" "t"))).1 = some (.decision true) ∧
    (happen (course x (events ++ [.ask (.setClock 43100000)])).2 (.ask (.shouldShow "p" "t"))).1 ≠
      some (.decision true) := by
  intro x events
  have hblank : (kept Memory.blank).shown "p" = none := by rfl
  obtain ⟨hmemory, -⟩ := cools_down ⟨0, .zero⟩ .usual "p"
  refine ⟨hblank, ?_, ?_⟩
  · have hnoted : lastNoted "p" (course x events).1 = some 43200000 := by
      simp only [events]
      rfl
    have hcools := hmemory .blank hblank events
    rw [hnoted] at hcools
    have hshow := hcools.otherwise rfl (fun n hn _ => ?_) rfl "t"
    · rw [hshow]
      simp only [events]
      rfl
    · cases hn
      simp only [events]
      decide
  · have hnoted : lastNoted "p" (course x (events ++ [.ask (.setClock 43100000)])).1 = some 43200000 := by
      simp only [events]
      rfl
    have hcools := hmemory .blank hblank (events ++ [.ask (.setClock 43100000)])
    rw [hnoted] at hcools
    exact hcools.never rfl rfl (by decide) (by simp only [events]; decide) "t"

end System

end StudyTime
