/-
**A profile that was deleted is forgotten.**

When a profile is deleted, its rows go from both tables and its cache goes with them; nothing of it is left
that could come up again, and nothing of the others is touched.  From then on those who follow the profile
hear what they would hear over a database that holds nothing.  When only its ledger is removed they hear
what they would hear over a database without ledgers.  When a removal fails, nobody can tell that it was
tried, as long as ledgers can be loaded.

Main definitions:

* `Service.Drops` — which rows and caches are dropped;
* `System.Forgets`, `System.Bears` — what is heard after a profile was deleted or removed, and after that
  failed.

Main results:

* `Service.drops_deleteProfile`, `Service.drops_remove` — what is dropped;
* `Service.twins_remove` — **a removal that fails** cannot be told from none;
* `System.forgets` — **what is heard afterwards**, in any course over a database.
-/

import StudyTime.Proofs.Service.Isolation

set_option relaxedAutoImplicit false
set_option autoImplicit false

namespace StudyTime

/-- Somebody who follows a profile, and whom no tracker concerns. -/
def Onlooker.of (profile : Profile) : Onlooker := ⟨profile, fun _ => false, .equal⟩

namespace Service

/-! ### What is dropped -/

/-- The second service has the rows and the caches of the first one except for the cache of the profile and
the rows under these keys, which it does not have. -/
structure Drops (profile : Profile) (dropsEntry : DocumentKey → Bool) (dropsProfile : Profile → Bool)
    (s s' : Service Database) : Prop where
  entries : ∀ key, (s'.store.tables.entries.bind fun m => m.get? key) =
    if dropsEntry key then none else s.store.tables.entries.bind fun m => m.get? key
  profiles : ∀ q, (s'.store.tables.profiles.bind fun m => m.get? q) =
    if dropsProfile q then none else s.store.tables.profiles.bind fun m => m.get? q
  caches : ∀ q, s'.caches.get? q = if q = profile then none else s.caches.get? q

variable {s : Service Database} {profile : Profile}

/-- Reading leaves a database as it is. -/
theorem fetch_store {α : Type} (d : DocumentType α) (key : DocumentKey) (c : Cache α) (db : Database) :
    (c.fetch d key db).2.2 = db := by
  unfold Cache.fetch
  split
  next => rfl
  next =>
    split
    next f db' hload => exact (congrArg Prod.snd hload).symm
    next text db' hload =>
      have hdb : db' = db := (congrArg Prod.snd hload).symm
      split <;> exact hdb

theorem cacheOf_store (s : Service Database) (profile : Profile) : (s.cacheOf profile).2 = s.store := by
  unfold cacheOf
  split
  next => rfl
  next => exact fetch_store Ledger.document (ledgerKey profile) _ s.store

/-- The service after a profile was removed. -/
theorem remove_ok (h : (s.remove profile).1 = .ok ()) :
    ∃ es, s.store.tables.entries = some es ∧ (s.remove profile).2 = { s with
      caches := s.caches.erase profile
      store := ⟨{ s.store.tables with entries := some (es.erase (ledgerKey profile)) }, true⟩ } := by
  have hstore := cacheOf_store s profile
  unfold remove at h ⊢
  generalize s.cacheOf profile = x at h hstore
  obtain ⟨c, db⟩ := x
  dsimp only at h hstore ⊢
  subst hstore
  obtain ⟨clock, settings, caches, trackers, next, ⟨⟨version, entries, indexed, profiles⟩, working⟩⟩ := s
  obtain ⟨held, writing⟩ := c
  cases writing with
  | false => cases h
  | true =>
      cases working with
      | false => cases h
      | true =>
          cases entries with
          | none => cases h
          | some es => exact ⟨es, rfl, rfl⟩

/-- The service after a profile was deleted. -/
theorem deleteProfile_ok (h : (s.deleteProfile profile).1 = .ok ()) :
    ∃ es ps, s.store.tables.entries = some es ∧ s.store.tables.profiles = some ps ∧
      (s.deleteProfile profile).2 = { s with
        caches := s.caches.erase profile
        store := ⟨{ s.store.tables with
          entries := some ((es.erase (ledgerKey profile)).filterKeys fun key => key.profile ≠ profile)
          profiles := some (ps.erase profile) }, true⟩ } := by
  have hremove : (s.remove profile).1 = .ok () → _ := remove_ok
  unfold deleteProfile at h ⊢
  generalize s.remove profile = out at h hremove
  obtain ⟨r, s₁⟩ := out
  cases r with
  | error e => cases h
  | ok u =>
      obtain ⟨es, hes, hs₁⟩ := hremove rfl
      dsimp only at hs₁
      subst hs₁
      obtain ⟨clock, settings, caches, trackers, next, ⟨⟨version, entries, indexed, profiles⟩, working⟩⟩ := s
      cases hes
      cases profiles with
      | none => cases h
      | some ps => exact ⟨es, ps, rfl, rfl, rfl⟩

/-- **A profile that is removed** loses its ledger and its cache, and nothing else is lost. -/
theorem drops_remove (h : (s.remove profile).1 = .ok ()) :
    Drops profile (fun key => key = ledgerKey profile) (fun _ => false) s (s.remove profile).2 := by
  obtain ⟨es, hes, hs'⟩ := remove_ok h
  rw [hs']
  refine ⟨fun key => ?_, fun q => by simp, fun q => SortedMap.get?_erase _ _ _⟩
  rw [hes]
  simpa using es.get?_erase (ledgerKey profile) key

/-- **A profile that is deleted** loses all its rows and its cache, and nothing else is lost. -/
theorem drops_deleteProfile (h : (s.deleteProfile profile).1 = .ok ()) :
    Drops profile (fun key => key.profile = profile) (fun q => q = profile) s
      (s.deleteProfile profile).2 := by
  obtain ⟨es, ps, hes, hps, hs'⟩ := deleteProfile_ok h
  rw [hs']
  refine ⟨fun key => ?_, fun q => ?_, fun q => SortedMap.get?_erase _ _ _⟩
  · rw [hes]
    simp only [Option.bind_some, SortedMap.get?_filterKeys]
    by_cases hkey : key.profile = profile
    · simp [hkey]
    · have hne : key ≠ ledgerKey profile := fun heq => hkey (congrArg DocumentKey.profile heq)
      simp [hkey, es.get?_erase_of_ne hne]
  · rw [hps]
    simpa using ps.get?_erase profile q

/-! ### What is heard afterwards -/

/-- **After a profile was deleted** the service is, for those who follow it, a new one over a database that
holds nothing. -/
theorem alike_deleteProfile (hversion : s.store.tables.version = currentVersion)
    (h : (s.deleteProfile profile).1 = .ok ()) :
    Alike (.of profile) (s.deleteProfile profile).2 (start s.clock s.settings Database.fresh) := by
  obtain ⟨es, ps, -, -, hs'⟩ := deleteProfile_ok h
  rw [hs', Database.fresh_eq]
  refine ⟨rfl, rfl, Database.sameFor_iff.2 ⟨rfl, Tables.sameFor_iff.2 ⟨hversion, ?_, ?_⟩⟩, ?_, ?_⟩
  · refine .present ?_
    simp [SortedMap.get?_filterKeys, ledgerKey, Onlooker.of]
  · exact .present (ps.get?_erase_self profile)
  · exact s.caches.get?_erase_self profile
  · intro n hn
    cases hn

/-- **After a profile was removed** the service is, for those who follow it, a new one over a database
without ledgers. -/
theorem alike_remove (h : (s.remove profile).1 = .ok ()) :
    Alike (.of profile) (s.remove profile).2
      (start s.clock s.settings ⟨{ s.store.tables with entries := some ∅ }, true⟩) := by
  obtain ⟨es, -, hs'⟩ := remove_ok h
  rw [hs']
  refine ⟨rfl, rfl, Database.sameFor_iff.2 ⟨rfl, Tables.sameFor_iff.2 ⟨rfl, ?_, .refl _ _⟩⟩, ?_, ?_⟩
  · exact .present (es.get?_erase_self (ledgerKey profile))
  · exact s.caches.get?_erase_self profile
  · intro n hn
    cases hn

end Service

/-! ### Removals that fail -/

namespace Service

variable {σ : Type} [Backend σ] [PartitionedStore σ] {s : Service σ} {profile : Profile}

/-- A removal that fails leaves the store as it was for the profile, and its cache as it was if there was
one; otherwise there is a cache now, and it is faithful. -/
theorem twins_remove {e : CacheError} (h : (s.remove profile).1 = .error e) :
    Twins .either (s.remove profile).2 s := by
  intro q
  have hself : ∀ (o : Onlooker), o.regard = .either → s.Alike o s := by
    intro o hregard
    refine ⟨rfl, rfl, .refl _ _, ?_, fun _ => rfl⟩
    rw [hregard]
    exact .inl rfl
  have hwithin := (minds_remove profile).within s
  by_cases hq : q = profile
  · subst hq
    have hsame := cacheOf_same q q s
    have hcache : (s.caches.get? q = some (s.cacheOf q).1) ∨
        s.caches.get? q = none ∧ Faithful q (s.cacheOf q).1 (s.cacheOf q).2 := by
      unfold cacheOf
      split
      next c hc => exact .inl hc
      next hnone => exact .inr ⟨hnone, (faithful_empty q s.store).fetch.2⟩
    simp only [remove] at h ⊢
    generalize s.cacheOf q = x at h hsame hcache
    obtain ⟨c, store⟩ := x
    have herror : ∀ {e}, (c.write Ledger.document (ledgerKey q) .clear store).1 = .error e → _ :=
      clear_of_error
    generalize c.write Ledger.document (ledgerKey q) .clear store = out at h herror
    obtain ⟨r, c', store'⟩ := out
    cases r with
    | ok reply => cases h
    | error e' =>
        obtain ⟨rfl, hkeeps⟩ := herror rfl
        have hstore : SameFor q store' s.store := SameFor.trans hkeeps hsame
        refine ⟨rfl, rfl, hstore, ?_, fun _ => rfl⟩
        obtain hheld | ⟨hnone, hfaithful⟩ := hcache
        · exact .inl ((s.caches.get?_insert_self q c').trans hheld.symm)
        · refine .inr ⟨?_, faithfulFor_of_none hnone⟩
          intro c₁ hc₁
          cases (s.caches.get?_insert_self q c').symm.trans hc₁
          exact hfaithful.of_same hkeeps
  · exact (hself _ rfl).of_within hwithin hq

end Service

/-! ### Courses -/

namespace System

/-- Those who follow the profile hear of any course from here on what happens from there on, when only the
events happen that concern them.  No session of the profile is finished meanwhile. -/
def HearsAs {μ σ : Type} [Backend σ] [TroubledStore σ] [PartitionedSystem μ σ] (profile : Profile)
    (x x' : μ) : Prop :=
  ∀ events : List (Event (TroubledStore.Trouble σ)),
    (∀ e ∈ (course x events).1, ¬ (Onlooker.of profile).Misses e) →
    (course x events).1.filterMap (Onlooker.of profile).hears =
      (course x' (events.filterMap (Onlooker.of profile).partOf)).1.map (Onlooker.of profile).blurred

/-- After a removal that failed every course is answered as it would be without, while loads go on. -/
def Bears {μ σ : Type} [Backend σ] [TroubledStore σ] [PartitionedSystem μ σ] (profile : Profile) (x : μ) :
    Prop :=
  ∀ {e : ServiceError} {x' : μ}, happen x (.ask (.remove profile)) = (some (.failed e), x') →
    ∀ events : List (Event (TroubledStore.Trouble σ)),
      (∀ t, .befall t ∈ events → TroubledStore.Harmless t) →
      answers (course x' events).1 = answers (course x events).1

/-- What becomes of a profile that is deleted or removed. -/
structure Forgets {μ : Type} [PartitionedSystem μ Database] (profile : Profile) (x : μ) : Prop where
  /-- A profile that was deleted is as in a database that holds nothing. -/
  deleted : ∀ {x' : μ}, happen x (.ask (.deleteProfile profile)) = (some .done, x') →
    ∃ s s', service? x = some s ∧ service? x' = some s' ∧
      s.Drops profile (fun key => key.profile = profile) (fun q => q = profile) s' ∧
      HearsAs profile x' (running (Service.start s.clock s.settings Database.fresh))
  /-- A profile that was removed is as in a database without ledgers. -/
  removed : ∀ {x' : μ}, happen x (.ask (.remove profile)) = (some .done, x') →
    ∃ s s', service? x = some s ∧ service? x' = some s' ∧
      s.Drops profile (fun key => key = ledgerKey profile) (fun _ => false) s' ∧
      HearsAs profile x' (running (Service.start s.clock s.settings
        ⟨{ s.store.tables with entries := some ∅ }, true⟩))
  /-- A removal that failed cannot be told from none. -/
  bears : Bears profile x

section Systems

variable {μ σ : Type} [Backend σ] [TroubledStore σ] [PartitionedSystem μ σ] {profile : Profile} {x x' : μ}

theorem hearsAs_of_alike {s s' : Service σ} (hs : service? x = some s) (hs' : service? x' = some s')
    (h : s.Alike (.of profile) s') : HearsAs profile x x' :=
  fun events hmiss => (hears_course rfl events (PartitionedSystem.of_services hs hs' h) hmiss).1

/-- What was answered was answered by a service. -/
theorem happen_ask_eq_some {st : Step} {a : Answer} (h : happen x (.ask st) = (some a, x')) :
    ∃ s, service? x = some s ∧ (s.step st).1 = a ∧ service? x' = some (s.step st).2 := by
  simp only [happen] at h
  split at h
  next => cases h
  next s hs =>
    cases h
    exact ⟨s, hs, rfl, service?_running _⟩

theorem bears (profile : Profile) (x : μ) : Bears profile x := by
  intro e x' h events hharmless
  obtain ⟨s, hs, hanswer, hs'⟩ := happen_ask_eq_some h
  simp only [Service.step] at hanswer hs'
  have htwins : ∀ {e}, (s.remove profile).1 = .error e → _ := Service.twins_remove
  generalize s.remove profile = out at hanswer hs' htwins
  obtain ⟨r, s₁⟩ := out
  cases r with
  | ok u => cases hanswer
  | error e' =>
      have hsystems : Twins .either x' x := fun q =>
        PartitionedSystem.of_services hs' hs (htwins rfl q)
      exact hsystems.course events fun t ht => .inr (hharmless t ht)

end Systems

variable {μ : Type} [PartitionedSystem μ Database] {x : μ}

theorem forgets_of_current (h : Current x) (profile : Profile) : Forgets profile x := by
  refine ⟨?_, ?_, bears profile x⟩
  · intro x' hdone
    obtain ⟨s, hs, hanswer, hs'⟩ := happen_ask_eq_some hdone
    have hok : (s.deleteProfile profile).1 = .ok () := by
      simp only [Service.step] at hanswer
      cases hr : (s.deleteProfile profile).1 with
      | error e =>
          rw [hr] at hanswer
          cases hanswer
      | ok u => rfl
    exact ⟨s, _, hs, hs', Service.drops_deleteProfile hok, hearsAs_of_alike hs' (service?_running _)
      (Service.alike_deleteProfile (h s hs) hok)⟩
  · intro x' hdone
    obtain ⟨s, hs, hanswer, hs'⟩ := happen_ask_eq_some hdone
    have hok : (s.remove profile).1 = .ok () := by
      simp only [Service.step] at hanswer
      cases hr : (s.remove profile).1 with
      | error e =>
          rw [hr] at hanswer
          cases hanswer
      | ok u => rfl
    exact ⟨s, _, hs, hs', Service.drops_remove hok, hearsAs_of_alike hs' (service?_running _)
      (Service.alike_remove hok)⟩

/-- Courses keep the version current, if restarts do. -/
theorem Current.course (hrestart : ∀ settings (x : μ), Current x → Current (restart settings x).2)
    (events : List (Event DatabaseTrouble)) : ∀ {x : μ}, Current x → Current (course x events).2 := by
  induction events with
  | nil =>
      intro x h
      exact h
  | cons e events ih =>
      intro x h
      exact ih (h.happen (fun settings => hrestart settings x h) e)

/-- **A profile that was deleted is forgotten**, and one that was removed has never studied, after any
course over a new database or over a database in a file; and a removal that fails, over these or over a
store in memory, makes no difference. -/
theorem forgets (clock : Clock) (settings : Settings) (profile : Profile) :
    (∀ before, Forgets profile (course (Service.start clock settings Database.fresh) before).2) ∧
    (∀ file before, Forgets profile (course (Installation.start clock settings file).2 before).2) ∧
    (∀ (m : Memory) before, Bears profile (course (Service.start clock settings m) before).2) := by
  refine ⟨fun before => ?_, fun file before => ?_, fun m before => bears profile _⟩
  · refine forgets_of_current (Current.course (fun _ s₀ h s hs => ?_) before fun s hs => ?_) profile
    · cases hs
      exact h s₀ rfl
    · cases hs
      rw [Service.start, Database.fresh_eq]
  · exact forgets_of_current (Current.course (fun settings i _ => Installation.current_restart settings i)
      before (Installation.current_start clock settings file)) profile

/-- A profile that is deleted and studies again, in a database where another one has studied. -/
theorem forgets_of_delete :
    let x : Service Database := (course (Service.start ⟨0, .zero⟩ .usual Database.fresh)
      [.ask (.record "p" "t" 3), .ask (.record "q" "t" 4)]).2
    let x' : Service Database := (happen x (.ask (.deleteProfile "p"))).2
    let later : List (Event DatabaseTrouble) := [.ask (.record "p" "t" 5), .ask (.get "p" "t")]
    happen x (.ask (.deleteProfile "p")) = (some .done, x') ∧
    (∀ e ∈ (course x' later).1, ¬ (Onlooker.of "p").Misses e) ∧
    (course x' later).1.filterMap (Onlooker.of "p").hears =
      (course (Service.start ⟨0, .zero⟩ .usual Database.fresh) later).1.map (Onlooker.of "p").blurred ∧
    answers (course (Service.start ⟨0, .zero⟩ .usual Database.fresh) later).1 =
      [some .done, some (.record ⟨"t", 5, 0⟩)] := by
  intro x x' later
  obtain ⟨hforgets, -⟩ := forgets ⟨0, .zero⟩ .usual "p"
  have hdone : happen x (.ask (.deleteProfile "p")) = (some .done, x') := by
    refine Prod.ext ?_ rfl
    simp only [x]
    rw [Database.fresh_eq]
    rfl
  have hmiss : ∀ e ∈ (course x' later).1, ¬ (Onlooker.of "p").Misses e := by
    rintro e he ⟨n, a, hfinish, -⟩
    have hlater := event_mem_of_mem_course he
    rw [hfinish] at hlater
    simp [later] at hlater
  obtain ⟨s, s', hs, -, -, hhears⟩ :=
    (hforgets [.ask (.record "p" "t" 3), .ask (.record "q" "t" 4)]).deleted hdone
  cases hs
  refine ⟨hdone, hmiss, hhears later hmiss, ?_⟩
  rw [Database.fresh_eq]
  simp only [later]
  rfl

end System

end StudyTime
