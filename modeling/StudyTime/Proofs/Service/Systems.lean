/-
**Systems and what is heard of them.**

A system runs a service, unless it is stopped: a service over a store in memory or over a database that is
kept nowhere, which is never stopped, or a service over a database in a file, which is stopped when it could
not be started.  It is asked things, its store is troubled from outside, and it is started anew.  The record
of all this are the exchanges.  What an onlooker hears are the exchanges that concern him, with his part of
them, and he hears the same when everything else does not happen.

Main definitions:

* `TroubledStore` — stores with the troubles that can befall them;
* `System`, `System.course` — systems, and the exchanges of a course of events;
* `Onlooker.hears` — what an onlooker hears of an exchange;
* `PartitionedSystem` — systems of which the restarts keep to the shares.

Main results:

* `System.happen_keeps` — what every event keeps;
* `System.hears_course` — **what an onlooker hears of a course** is what happens in the course of the events
  that concern him;
* `System.Twins.course` — systems that nobody can tell apart answer a course alike.
-/

import StudyTime.Proofs.Service.Views
import StudyTime.Service.Installation

set_option relaxedAutoImplicit false
set_option autoImplicit false

namespace StudyTime

/-! ### Troubles -/

/-- Stores that something can befall from outside. -/
class TroubledStore (σ : Type) [Backend σ] extends PartitionedStore σ where
  Trouble : Type
  befall : Trouble → σ → σ
  /-- Whatever befalls the stores, it is the same for all profiles. -/
  befall_same : ∀ (t : Trouble) {profile : Profile} {s s' : σ}, SameFor profile s s' →
    SameFor profile (befall t s) (befall t s')
  /-- The trouble stops no loads. -/
  Harmless : Trouble → Prop
  /-- What could be loaded can be loaded after harmless troubles. -/
  load_befall : ∀ {t : Trouble}, Harmless t → ∀ {profile : Profile} {s : σ} {text : Option String},
    (Backend.load (ledgerKey profile) s).1 = .ok text →
    (Backend.load (ledgerKey profile) (befall t s)).1 = .ok text

/-- An operation of a store in memory is refused from now on, or no longer. -/
instance : TroubledStore Memory where
  Trouble := Operation × Bool
  befall t m := m.refuse t.1 t.2
  befall_same t {profile m m'} h := by
    obtain ⟨hrefused, hpayload, hshown⟩ := Memory.sameFor_iff.1 h
    exact Memory.sameFor_iff.2 ⟨by simp only [Memory.refuse, hrefused], hpayload, hshown⟩
  Harmless t := t ≠ (.load, true)
  load_befall {t} ht {profile m text} h := by
    cases hload : m.refused .load with
    | true =>
        change (m.attempt .load _).1 = _ at h
        rw [Memory.attempt_of_refused hload] at h
        cases h
    | false =>
        have hstill : (m.refuse t.1 t.2).refused .load = false := by
          obtain ⟨op, on⟩ := t
          simp only [Memory.refuse]
          split
          next heq =>
            cases on with
            | true => exact absurd (by rw [← heq]) ht
            | false => rfl
          next => exact hload
        rw [Memory.load_of_not_refused hload] at h
        rw [Memory.load_of_not_refused hstill]
        exact h

/-- What can befall a database. -/
inductive DatabaseTrouble where
  /-- The worker is taken down. -/
  | crash
  | drop (table : TableName)
  deriving DecidableEq

instance : TroubledStore Database where
  Trouble := DatabaseTrouble
  befall
    | .crash, db => db.crash
    | .drop table, db => { db with tables := db.tables.dropTable table }
  befall_same t {profile db db'} h := by
    obtain ⟨hworking, htables⟩ := Database.sameFor_iff.1 h
    obtain ⟨hversion, hentries, hprofiles⟩ := Tables.sameFor_iff.1 htables
    cases t with
    | crash => exact Database.sameFor_iff.2 ⟨rfl, htables⟩
    | drop table =>
        refine Database.sameFor_iff.2 ⟨hworking, ?_⟩
        cases table with
        | entries => exact Tables.sameFor_iff.2 ⟨hversion, .absent, hprofiles⟩
        | profiles => exact Tables.sameFor_iff.2 ⟨hversion, hentries, .absent⟩
  Harmless t := t = .drop .profiles
  load_befall {t} ht {profile db text} h := by
    subst ht
    exact h

/-! ### Systems -/

/-- Systems that run a service, unless they are stopped. -/
class System (μ : Type) (σ : outParam Type) where
  service? : μ → Option (Service σ)
  running : Service σ → μ
  /-- It runs the service that it is given. -/
  service?_running : ∀ s, service? (running s) = some s
  /-- It is stopped if need be and started, with other settings if some are given. -/
  restart : Option Settings → μ → Except Failure Unit × μ

attribute [simp] System.service?_running

/-- A service by itself: its store stays when the service is started anew. -/
instance {σ : Type} : System (Service σ) σ where
  service? := some
  running s := s
  service?_running _ := rfl
  restart settings s := (.ok (), s.restart (settings.getD s.settings))

instance : System Installation Database where
  service?
    | .running s => some s
    | .stopped _ _ _ => none
  running := .running
  service?_running _ := rfl
  restart settings i := i.restart settings

/-- What can happen to a system. -/
inductive Event (τ : Type) where
  | ask (st : Step)
  | befall (t : τ)
  | restart (settings : Option Settings)

/-- What happened, the instant of the clock at which it did, and the answer. -/
structure Exchange (τ : Type) where
  now : Option Int64
  event : Event τ
  answer : Option Answer

namespace System

variable {μ σ : Type} [Backend σ] [TroubledStore σ] [System μ σ]

/-- One event. -/
def happen (x : μ) : Event (TroubledStore.Trouble σ) → Option Answer × μ
  | .ask st =>
    match service? x with
    | none => (none, x)
    | some s => (some (s.step st).1, running (s.step st).2)
  | .befall t =>
    match service? x with
    | none => (none, x)
    | some s => (none, running { s with store := TroubledStore.befall t s.store })
  | .restart settings =>
    let (r, x) := restart settings x
    (some (.ofFailure (fun _ => .done) r), x)

/-- What is to be told of an event. -/
def exchange (x : μ) (e : Event (TroubledStore.Trouble σ)) : Exchange (TroubledStore.Trouble σ) :=
  ⟨(service? x).map fun s => s.clock.now, e, (happen x e).1⟩

/-- A course of events, with the exchanges in order. -/
def course (x : μ) :
    List (Event (TroubledStore.Trouble σ)) → List (Exchange (TroubledStore.Trouble σ)) × μ
  | [] => ([], x)
  | e :: events =>
    let (es, x') := course (happen x e).2 events
    (exchange x e :: es, x')

theorem course_cons (x : μ) (e : Event (TroubledStore.Trouble σ))
    (events : List (Event (TroubledStore.Trouble σ))) : course x (e :: events) =
      (exchange x e :: (course (happen x e).2 events).1, (course (happen x e).2 events).2) := rfl

/-- What is kept by every step, by troubles and by restarts is kept by an event. -/
theorem happen_keeps {P : μ → Prop} {x : μ} (h : P x) {e : Event (TroubledStore.Trouble σ)}
    (hask : ∀ s st, service? x = some s → e = .ask st → P (running (s.step st).2))
    (hbefall : ∀ s t, service? x = some s → e = .befall t →
      P (running { s with store := TroubledStore.befall t s.store }))
    (hrestart : ∀ settings, P (restart settings x).2) : P (happen x e).2 := by
  cases e with
  | ask st =>
      simp only [happen]
      split
      next => exact h
      next s hs => exact hask s st hs rfl
  | befall t =>
      simp only [happen]
      split
      next => exact h
      next s hs => exact hbefall s t hs rfl
  | restart settings => exact hrestart settings

/-- What is told of are the events that happened. -/
theorem event_mem_of_mem_course {events : List (Event (TroubledStore.Trouble σ))} :
    ∀ {x : μ} {e : Exchange (TroubledStore.Trouble σ)}, e ∈ (course x events).1 → e.event ∈ events := by
  induction events with
  | nil =>
      intro x e he
      cases he
  | cons e₀ events ih =>
      intro x e he
      rw [course_cons] at he
      obtain rfl | he := List.mem_cons.1 he
      · exact List.mem_cons_self ..
      · exact List.mem_cons_of_mem _ (ih he)

end System

/-! ### What is heard -/

namespace Onlooker

variable {τ : Type} (o : Onlooker)

/-- What an onlooker keeps of an event. -/
def partOf : Event τ → Option (Event τ)
  | .ask st => (o.part st).map .ask
  | e => some e

/-- What an onlooker hears of an exchange. -/
def hears (e : Exchange τ) : Option (Exchange τ) :=
  match e.event with
  | .ask st => (o.part st).map fun st' => ⟨e.now, .ask st', e.answer.bind (o.seen st)⟩
  | _ => some e

/-- An exchange, with the answer as an onlooker sees it. -/
def blurred (e : Exchange τ) : Exchange τ :=
  match e.event with
  | .ask st => { e with answer := e.answer.bind (o.blur st) }
  | _ => e

/-- A session of the onlooker's profile is finished by a tracker that he does not watch. -/
def Misses (e : Exchange τ) : Prop :=
  ∃ n a, e.event = .ask (.finish n) ∧ o.watches n = false ∧ e.answer = some a ∧
    a.profile? = some o.profile

end Onlooker

/-- Systems of which the restarts keep to the shares. -/
class PartitionedSystem (μ : Type) (σ : outParam Type) [Backend σ] [PartitionedStore σ] extends
    System μ σ where
  Alike : Onlooker → μ → μ → Prop
  refl : ∀ {o x}, (∀ s, System.service? x = some s → s.Alike o s) → Alike o x x
  /-- Systems that are alike run services that are alike, or are both stopped. -/
  services : ∀ {o x x'}, Alike o x x' →
    (System.service? x = none ∧ System.service? x' = none) ∨
    ∃ s s', System.service? x = some s ∧ System.service? x' = some s' ∧ s.Alike o s'
  of_services : ∀ {o x x'} {s s' : Service σ}, System.service? x = some s →
    System.service? x' = some s' → s.Alike o s' → Alike o x x'
  /-- Restarts end alike. -/
  restart_alike : ∀ (settings : Option Settings) {o x x'}, Alike o x x' →
    (System.restart settings x).1 = (System.restart settings x').1 ∧
    Alike o (System.restart settings x).2 (System.restart settings x').2
  /-- No trackers are left after a restart. -/
  restart_trackers : ∀ {settings : Option Settings} {x : μ} {s : Service σ},
    System.service? (System.restart settings x).2 = some s → s.trackers = ∅

/-- A new service over the store of another one. -/
theorem Service.Alike.restart {σ : Type} [Backend σ] [PartitionedStore σ] {o : Onlooker}
    {s s' : Service σ} (h : s.Alike o s') (settings : Settings) :
    (s.restart settings).Alike o (s'.restart settings) :=
  ⟨rfl, h.clock_eq, h.same, .intro rfl ⟨fun _ hc => (by cases hc), fun _ hc => (by cases hc)⟩,
    fun _ => rfl⟩

instance {σ : Type} [Backend σ] [PartitionedStore σ] : PartitionedSystem (Service σ) σ where
  Alike o s s' := s.Alike o s'
  refl h := h _ rfl
  services h := .inr ⟨_, _, rfl, rfl, h⟩
  of_services hs hs' h := by
    cases hs
    cases hs'
    exact h
  restart_alike settings {o s s'} h := by
    refine ⟨rfl, ?_⟩
    change (s.restart _).Alike o (s'.restart _)
    rw [h.settings_eq]
    exact h.restart _
  restart_trackers h := by
    cases h
    rfl

namespace Installation

/-- Installations that an onlooker takes for the same. -/
inductive Alike (o : Onlooker) : Installation → Installation → Prop
  | running {s s' : Service Database} (h : s.Alike o s') : Alike o (.running s) (.running s')
  | stopped (clock : Clock) (settings : Settings) {file file' : Tables}
      (h : SameFor o.profile file file') :
      Alike o (.stopped clock settings file) (.stopped clock settings file')

/-- Starting over files that are the same for a profile ends alike. -/
theorem Alike.start {o : Onlooker} (clock : Clock) (settings : Settings) {file file' : Tables}
    (h : SameFor o.profile file file') :
    (start clock settings file).1 = (start clock settings file').1 ∧
    Alike o (start clock settings file).2 (start clock settings file').2 := by
  unfold Installation.start
  split
  next => exact ⟨rfl, .stopped clock settings h⟩
  next =>
    obtain ⟨f, hf, hf'⟩ | ⟨db, db', hdb, hdb', hsame⟩ := Database.open?_congr h
    · rw [hf, hf']
      exact ⟨rfl, .stopped clock settings h⟩
    · rw [hdb, hdb']
      refine ⟨rfl, .running ⟨rfl, rfl, hsame, ?_, fun _ => rfl⟩⟩
      exact .intro rfl ⟨fun _ hc => (by cases hc), fun _ hc => (by cases hc)⟩

/-- A service that was just started has no trackers. -/
theorem trackers_start {clock : Clock} {settings : Settings} {file : Tables} {s : Service Database}
    (h : System.service? (start clock settings file).2 = some s) : s.trackers = ∅ := by
  unfold start at h
  split at h
  next => cases h
  next =>
    split at h
    next => cases h
    next =>
      cases h
      rfl

instance : PartitionedSystem Installation Database where
  Alike := Installation.Alike
  refl {o i} h := by
    cases i with
    | running s => exact .running (h s rfl)
    | stopped clock settings file => exact .stopped clock settings (.refl _ _)
  services h := by
    cases h with
    | running h => exact .inr ⟨_, _, rfl, rfl, h⟩
    | stopped clock settings h => exact .inl ⟨rfl, rfl⟩
  of_services {o i i' s s'} hs hs' h := by
    cases i with
    | stopped clock settings file => cases hs
    | running s =>
        cases i' with
        | stopped clock settings file => cases hs'
        | running s' =>
            cases hs
            cases hs'
            exact .running h
  restart_alike settings {o i i'} h := by
    cases h with
    | @running s s' h =>
        have hstart := Alike.start s.clock (settings.getD s.settings)
          (Database.sameFor_iff.1 h.same).2
        change (start s.clock _ _).1 = (start s'.clock _ _).1 ∧
          Installation.Alike o (start s.clock _ _).2 (start s'.clock _ _).2
        rw [← h.clock_eq, ← h.settings_eq]
        exact hstart
    | stopped clock old h => exact Alike.start clock (settings.getD old) h
  restart_trackers {settings i s} h := by
    cases i with
    | running s => exact trackers_start h
    | stopped clock old file => exact trackers_start h

end Installation

namespace System

variable {σ : Type} [Backend σ] [TroubledStore σ]

/-- **What befalls the stores** of services that are alike. -/
theorem befall_alike {o : Onlooker} {s s' : Service σ} (h : s.Alike o s') (t : TroubledStore.Trouble σ)
    (ht : o.regard = .equal ∨ TroubledStore.Harmless t) :
    Service.Alike o { s with store := TroubledStore.befall t s.store }
      { s' with store := TroubledStore.befall t s'.store } where
  settings_eq := h.settings_eq
  clock_eq := h.clock_eq
  same := TroubledStore.befall_same t h.same
  caches := by
    obtain hregard | hharmless := ht
    · have hcaches := h.caches
      rw [hregard] at hcaches ⊢
      exact hcaches
    · have hfaithful : ∀ {s : Service σ}, s.FaithfulFor o.profile →
          Service.FaithfulFor o.profile { s with store := TroubledStore.befall t s.store } := by
        intro s hs c hc
        refine ⟨(hs c hc).writing, fun hl => ?_⟩
        obtain ⟨text, hload, hdecode⟩ := (hs c hc).loads hl
        exact ⟨text, TroubledStore.load_befall hharmless hload, hdecode⟩
      exact h.caches.imp id fun ⟨hs, hs'⟩ => ⟨hfaithful hs, hfaithful hs'⟩
  tracker_eq := h.tracker_eq

variable {μ : Type} [PartitionedSystem μ σ] {o : Onlooker} {x x' : μ}

open PartitionedSystem (Alike)

/-- **An event and what an onlooker keeps of it**: he hears the same. -/
theorem hears_part (hregard : o.regard = .equal) (h : Alike o x x')
    {e e' : Event (TroubledStore.Trouble σ)} (he : o.partOf e = some e') :
    o.hears (exchange x e) = some (o.blurred (exchange x' e')) ∧
    Alike o (happen x e).2 (happen x' e').2 := by
  have hservices := PartitionedSystem.services h
  cases e with
  | ask st =>
      simp only [Onlooker.partOf, Option.map_eq_some_iff] at he
      obtain ⟨st', hst, rfl⟩ := he
      obtain ⟨hnone, hnone'⟩ | ⟨s, s', hs, hs', halike⟩ := hservices
      · simp only [exchange, happen, hnone, hnone', Onlooker.hears, hst, Onlooker.blurred]
        exact ⟨rfl, h⟩
      · obtain ⟨hanswer, hafter⟩ := halike.step_part hst
        simp only [exchange, happen, hs, hs', Onlooker.hears, hst, Onlooker.blurred]
        refine ⟨?_, PartitionedSystem.of_services (service?_running _) (service?_running _) hafter⟩
        simp only [Option.map_some, Option.bind_some, hanswer, halike.clock_eq]
  | befall t =>
      cases he
      obtain ⟨hnone, hnone'⟩ | ⟨s, s', hs, hs', halike⟩ := hservices
      · simp only [exchange, happen, hnone, hnone', Onlooker.hears, Onlooker.blurred]
        exact ⟨trivial, h⟩
      · simp only [exchange, happen, hs, hs', Onlooker.hears, Onlooker.blurred]
        refine ⟨?_, PartitionedSystem.of_services (service?_running _) (service?_running _)
          (befall_alike halike t (.inl hregard))⟩
        simp only [Option.map_some, halike.clock_eq]
  | restart settings =>
      cases he
      obtain ⟨hanswer, hafter⟩ := PartitionedSystem.restart_alike settings h
      have hnow : ((service? x).map fun s => s.clock.now) = (service? x').map fun s => s.clock.now := by
        obtain ⟨hnone, hnone'⟩ | ⟨s, s', hs, hs', halike⟩ := hservices
        · rw [hnone, hnone']
        · rw [hs, hs', Option.map_some, Option.map_some, halike.clock_eq]
      refine ⟨?_, hafter⟩
      simp only [exchange, happen, Onlooker.hears, Onlooker.blurred, hanswer, hnow]

/-- **An event of which an onlooker keeps nothing**: he hears nothing. -/
theorem hears_other (h : Alike o x x') {e : Event (TroubledStore.Trouble σ)} (he : o.partOf e = none)
    (hmiss : ¬ o.Misses (exchange x e)) :
    o.hears (exchange x e) = none ∧ Alike o (happen x e).2 x' := by
  cases e with
  | ask st =>
      simp only [Onlooker.partOf, Option.map_eq_none_iff] at he
      refine ⟨by simp only [exchange, Onlooker.hears, he, Option.map_none], ?_⟩
      obtain ⟨hnone, -⟩ | ⟨s, s', hs, hs', halike⟩ := PartitionedSystem.services h
      · simp only [happen, hnone]
        exact h
      · simp only [happen, hs]
        refine PartitionedSystem.of_services (service?_running _) hs' (halike.step_other he ?_)
        refine Service.subject?_of_other he fun n hn hwatch hprofile => hmiss ?_
        have hanswer : (exchange x (.ask st)).answer = some (s.step st).1 := by
          simp only [exchange, happen, hs]
        exact ⟨n, (s.step st).1, by rw [exchange, hn], hwatch, hanswer, hprofile⟩
  | befall t => cases he
  | restart settings => cases he

/-- **What an onlooker hears of a course** is what happens when only the events happen that concern him, as
far as he is to see the answers; no session of his profile may be finished behind his back. -/
theorem hears_course (hregard : o.regard = .equal) (events : List (Event (TroubledStore.Trouble σ))) :
    ∀ {x x' : μ}, Alike o x x' → (∀ e ∈ (course x events).1, ¬ o.Misses e) →
      (course x events).1.filterMap o.hears =
        (course x' (events.filterMap o.partOf)).1.map o.blurred ∧
      Alike o (course x events).2 (course x' (events.filterMap o.partOf)).2 := by
  induction events with
  | nil =>
      intro x x' h _
      exact ⟨rfl, h⟩
  | cons e events ih =>
      intro x x' h hmiss
      rw [course_cons] at hmiss ⊢
      have hfirst := hmiss _ (List.mem_cons_self ..)
      have hrest := fun e he => hmiss e (List.mem_cons_of_mem _ he)
      cases he : o.partOf e with
      | none =>
          obtain ⟨hheard, hnext⟩ := hears_other h he hfirst
          obtain ⟨hall, hafter⟩ := ih hnext hrest
          rw [List.filterMap_cons_none he, List.filterMap_cons_none hheard]
          exact ⟨hall, hafter⟩
      | some e' =>
          obtain ⟨hheard, hnext⟩ := hears_part hregard h he
          obtain ⟨hall, hafter⟩ := ih hnext hrest
          rw [List.filterMap_cons_some he, List.filterMap_cons_some hheard, course_cons, List.map_cons, hall]
          exact ⟨rfl, hafter⟩

/-! ### Twins -/

/-- Systems that nobody can tell apart. -/
def Twins (regard : Regard) (x x' : μ) : Prop := ∀ profile, Alike ⟨profile, fun _ => true, regard⟩ x x'

/-- What is answered, whichever sessions it names. -/
def answers {τ : Type} (es : List (Exchange τ)) : List (Option Answer) :=
  es.map fun e => e.answer.map Answer.anonymous

variable {regard : Regard}

/-- Twins run services that are twins, or are both stopped. -/
theorem Twins.services (h : Twins regard x x') :
    (service? x = none ∧ service? x' = none) ∨
    ∃ s s', service? x = some s ∧ service? x' = some s' ∧ Service.Twins regard s s' := by
  obtain hnone | ⟨s, s', hs, hs', -⟩ := PartitionedSystem.services (h "")
  · exact .inl hnone
  · refine .inr ⟨s, s', hs, hs', fun profile => ?_⟩
    obtain ⟨hnone, -⟩ | ⟨s₁, s₁', hs₁, hs₁', halike⟩ := PartitionedSystem.services (h profile)
    · cases hnone.symm.trans hs
    · cases hs₁.symm.trans hs
      cases hs₁'.symm.trans hs'
      exact halike

/-- **Twins answer an event alike** and stay twins, unless loads are stopped. -/
theorem Twins.happen (h : Twins regard x x') {e : Event (TroubledStore.Trouble σ)}
    (he : ∀ t, e = .befall t → regard = .equal ∨ TroubledStore.Harmless t) :
    (happen x e).1.map Answer.anonymous = (happen x' e).1.map Answer.anonymous ∧
    Twins regard (happen x e).2 (happen x' e).2 := by
  have hservices := h.services
  cases e with
  | ask st =>
      obtain ⟨hnone, hnone'⟩ | ⟨s, s', hs, hs', htwins⟩ := hservices
      · simp only [System.happen, hnone, hnone']
        exact ⟨trivial, h⟩
      · obtain ⟨hanswer, hafter⟩ := htwins.step st
        simp only [System.happen, hs, hs']
        exact ⟨congrArg some hanswer, fun q =>
          PartitionedSystem.of_services (service?_running _) (service?_running _) (hafter q)⟩
  | befall t =>
      obtain ⟨hnone, hnone'⟩ | ⟨s, s', hs, hs', htwins⟩ := hservices
      · simp only [System.happen, hnone, hnone']
        exact ⟨trivial, h⟩
      · simp only [System.happen, hs, hs']
        exact ⟨trivial, fun q => PartitionedSystem.of_services (service?_running _) (service?_running _)
          (befall_alike (htwins q) t (he t rfl))⟩
  | restart settings =>
      obtain ⟨hanswer, -⟩ := PartitionedSystem.restart_alike settings (h "")
      simp only [System.happen, hanswer]
      exact ⟨trivial, fun q => (PartitionedSystem.restart_alike settings (h q)).2⟩

/-- **Twins answer a course alike**, unless loads are stopped. -/
theorem Twins.course (events : List (Event (TroubledStore.Trouble σ))) :
    ∀ {x x' : μ}, Twins regard x x' →
      (∀ t, .befall t ∈ events → regard = .equal ∨ TroubledStore.Harmless t) →
      answers (course x events).1 = answers (course x' events).1 := by
  induction events with
  | nil =>
      intro x x' _ _
      rfl
  | cons e events ih =>
      intro x x' h he
      obtain ⟨hanswer, hnext⟩ := h.happen fun t ht => he t (ht ▸ List.mem_cons_self ..)
      have hrest := ih hnext fun t ht => he t (List.mem_cons_of_mem _ ht)
      simp only [answers] at hrest ⊢
      rw [course_cons, course_cons, List.map_cons, List.map_cons, hrest]
      simp only [exchange, hanswer]

/-! ### Databases of the current version -/

/-- The database has the current version, unless the system is stopped. -/
def Current {μ : Type} [System μ Database] (x : μ) : Prop :=
  ∀ s, service? x = some s → s.store.tables.version = currentVersion

/-- Nothing that happens changes the version, if restarts do not. -/
theorem Current.happen {μ : Type} [System μ Database] {x : μ} (h : Current x)
    (hrestart : ∀ settings, Current (restart settings x).2) (e : Event DatabaseTrouble) :
    Current (happen x e).2 := by
  refine happen_keeps h (fun s st hs _ => ?_) (fun s t hs _ => ?_) hrestart
  · intro s' hs'
    cases (service?_running _).symm.trans hs'
    have hversion := congrArg (fun form => form.2.1) (Service.steady_step s st).form_eq
    exact hversion.trans (h s hs)
  · intro s' hs'
    cases (service?_running _).symm.trans hs'
    cases t with
    | crash => exact h s hs
    | drop table => cases table <;> exact h s hs

end System

namespace Installation

/-- A database that was opened has the current version. -/
theorem current_start (clock : Clock) (settings : Settings) (file : Tables) :
    System.Current (start clock settings file).2 := by
  intro s hs
  unfold start at hs
  split at hs
  next => cases hs
  next =>
    split at hs
    next => cases hs
    next db hdb =>
      cases hs
      exact (Database.of_open? hdb).2.1

theorem current_restart (settings : Option Settings) (i : Installation) :
    System.Current (System.restart settings i).2 := by
  cases i with
  | running s => exact current_start _ _ _
  | stopped clock old file => exact current_start _ _ _

end Installation

end StudyTime
