/-
**What a service does for a profile, as seen by onlookers.**

An onlooker follows one profile.  He knows the settings, the clock, the share that the store has for his
profile, the cache of his profile, and some of the trackers.  Services that are the same in these are alike
to him.  It is up to him whether it takes equal caches for this or faithful ones.  An operation for a profile
is answered alike by services that are alike to those who follow this profile, and to everybody else it is
nothing.

Main definitions:

* `Onlooker`, `Service.Alike` — onlookers, and the services that are alike to them;
* `Service.Within` — the service differs from another one in what it has of one profile;
* `Service.Minds` — what it means that an operation is one for a profile.

Main results: `Service.minds_record`, `Service.minds_remove`, `Service.minds_shouldShow` and the others —
**every operation is one for its profile**.
-/

import StudyTime.Proofs.Cache.Faithful
import StudyTime.Proofs.Service.Book

set_option relaxedAutoImplicit false
set_option autoImplicit false

namespace StudyTime

/-- Somebody who follows a profile. -/
structure Onlooker where
  profile : Profile
  /-- The trackers that are watched. -/
  watches : Nat → Bool
  /-- What it takes for two caches to be the same. -/
  regard : Regard

namespace Service

variable {σ : Type} [Backend σ] [PartitionedStore σ]

/-! ### Services that are alike -/

/-- The cache of the profile, if there is one, is faithful. -/
def FaithfulFor (profile : Profile) (s : Service σ) : Prop :=
  ∀ c, s.caches.get? profile = some c → Faithful profile c s.store

/-- Services that an onlooker takes for the same. -/
structure Alike (o : Onlooker) (s s' : Service σ) : Prop where
  settings_eq : s.settings = s'.settings
  clock_eq : s.clock = s'.clock
  same : SameFor o.profile s.store s'.store
  caches : o.regard.Holds (s.caches.get? o.profile = s'.caches.get? o.profile)
    (FaithfulFor o.profile s ∧ FaithfulFor o.profile s')
  /-- The trackers that are watched agree, whichever sessions they follow. -/
  tracker_eq : ∀ {n}, o.watches n = true → (s.tracker n).anonymous = (s'.tracker n).anonymous

/-- The second service differs from the first one in what it has of a profile at most. -/
structure Within (profile : Profile) (s s' : Service σ) : Prop where
  settings_eq : s'.settings = s.settings
  clock_eq : s'.clock = s.clock
  trackers_eq : s'.trackers = s.trackers
  /-- The caches of other profiles are as they were. -/
  caches_eq : ∀ {q}, q ≠ profile → s'.caches.get? q = s.caches.get? q
  spares : Spares profile s.store s'.store

variable {o : Onlooker} {profile : Profile} {s s' s₁ s₁' : Service σ}

theorem FaithfulFor.of_same (h : FaithfulFor profile s) (hcaches : s'.caches.get? profile =
    s.caches.get? profile) (hs : SameFor profile s'.store s.store) : FaithfulFor profile s' := by
  intro c hc
  rw [hcaches] at hc
  exact (h c hc).of_same hs

theorem Alike.symm (h : Alike o s s') : Alike o s' s := by
  refine ⟨h.settings_eq.symm, h.clock_eq.symm, h.same.symm, ?_, fun hn => (h.tracker_eq hn).symm⟩
  exact h.caches.imp Eq.symm And.symm

theorem Within.refl (profile : Profile) (s : Service σ) : Within profile s s :=
  ⟨rfl, rfl, rfl, fun _ => rfl, .refl _ _⟩

theorem Within.trans {s'' : Service σ} (h : Within profile s s') (h' : Within profile s' s'') :
    Within profile s s'' where
  settings_eq := h'.settings_eq.trans h.settings_eq
  clock_eq := h'.clock_eq.trans h.clock_eq
  trackers_eq := h'.trackers_eq.trans h.trackers_eq
  caches_eq hq := (h'.caches_eq hq).trans (h.caches_eq hq)
  spares := h.spares.trans h'.spares

theorem Within.tracker_eq (h : Within profile s s') (n : Nat) : s'.tracker n = s.tracker n := by
  rw [tracker, tracker, h.trackers_eq]

/-- **What happens to another profile** is nothing to an onlooker. -/
theorem Alike.of_within (h : Alike o s s') (hw : Within profile s s₁) (hprofile : o.profile ≠ profile) :
    Alike o s₁ s' := by
  have hsame : SameFor o.profile s₁.store s.store := hw.spares.others hprofile
  have hcaches := hw.caches_eq hprofile
  refine ⟨hw.settings_eq.trans h.settings_eq, hw.clock_eq.trans h.clock_eq, hsame.trans h.same, ?_, ?_⟩
  · exact h.caches.imp hcaches.trans fun ⟨hs, hs'⟩ => ⟨hs.of_same hcaches hsame, hs'⟩
  · intro n hn
    rw [hw.tracker_eq]
    exact h.tracker_eq hn

/-! ### Operations for a profile -/

/-- The operation is one for a profile: services that are alike to those who follow the profile answer it
alike and are alike afterwards, and nobody else notices. -/
structure Minds {β : Type} (profile : Profile) (op : Service σ → β × Service σ) : Prop where
  /-- Nothing is changed but for the profile. -/
  within : ∀ s, Within profile s (op s).2
  /-- The answer and the changes depend on nothing but what those know who follow the profile. -/
  alike : ∀ {o s s'}, o.profile = profile → Alike o s s' →
    (op s).1 = (op s').1 ∧ Alike o (op s).2 (op s').2

namespace Minds

variable {β γ : Type} {op : Service σ → β × Service σ}

/-- An onlooker of another profile does not notice the operation. -/
theorem skip (hop : Minds profile op) (h : Alike o s s') (hprofile : o.profile ≠ profile) :
    Alike o (op s).2 s' :=
  h.of_within (hop.within s) hprofile

/-- **The operation on services that are alike** leaves them alike, whichever profile is followed, and is
answered alike if this is its profile. -/
theorem both (hop : Minds profile op) (h : Alike o s s') :
    (o.profile = profile → (op s).1 = (op s').1) ∧ Alike o (op s).2 (op s').2 := by
  by_cases hprofile : o.profile = profile
  · obtain ⟨hanswer, halike⟩ := hop.alike hprofile h
    exact ⟨fun _ => hanswer, halike⟩
  · refine ⟨fun h => absurd h hprofile, ?_⟩
    exact (hop.skip (hop.skip h hprofile).symm hprofile).symm

/-- The answer can be told in other words. -/
theorem map (hop : Minds profile op) (f : β → γ) : Minds profile fun s => (f (op s).1, (op s).2) where
  within := hop.within
  alike hprofile h := by
    obtain ⟨hanswer, halike⟩ := hop.alike hprofile h
    exact ⟨congrArg f hanswer, halike⟩

/-- Looking at the store. -/
theorem looks {look : σ → Except Failure β × σ} (hlook : Looks profile look) :
    Minds profile fun s => ((look s.store).1, { s with store := (look s.store).2 }) where
  within s := ⟨rfl, rfl, rfl, fun _ => rfl, hlook.spares profile s.store⟩
  alike {o s s'} hprofile h := by
    subst hprofile
    refine ⟨hlook.answer_eq h.same, h.settings_eq, h.clock_eq, hlook.same h.same, ?_, h.tracker_eq⟩
    refine h.caches.imp id fun ⟨hs, hs'⟩ => ⟨?_, ?_⟩
    · exact hs.of_same rfl (hlook.keeps _ _)
    · exact hs'.of_same rfl (hlook.keeps _ _)

end Minds

/-! ### Caches -/

/-- The cache of another profile than the onlooker's, and its store. -/
theorem cacheOf_same (profile q : Profile) (s : Service σ) :
    SameFor q (s.cacheOf profile).2 s.store := by
  unfold cacheOf
  split
  · exact .refl q s.store
  · exact fetch_same profile q _ s.store

/-- The caches of a profile agree, whether or not they were there before. -/
theorem Alike.cacheOf (h : Alike o s s') :
    Agree o.regard o.profile (s.cacheOf o.profile) (s'.cacheOf o.profile) := by
  have hsame : SameFor o.profile (s.cacheOf o.profile).2 (s'.cacheOf o.profile).2 :=
    ((cacheOf_same _ _ s).trans h.same).trans (cacheOf_same _ _ s').symm
  refine ⟨hsame, ?_⟩
  have hfaithful : ∀ {s : Service σ}, FaithfulFor o.profile s →
      Faithful o.profile (s.cacheOf o.profile).1 (s.cacheOf o.profile).2 := by
    intro s hs
    unfold Service.cacheOf
    split
    next c hc => exact hs c hc
    next => exact (faithful_empty o.profile s.store).fetch.2
  refine h.caches.imp (fun heq => ?_) fun ⟨hs, hs'⟩ => ⟨hfaithful hs, hfaithful hs'⟩
  unfold Service.cacheOf
  rw [heq]
  split
  next => rfl
  next => exact (fetch_congr h.same _).2

/-- Keeping caches that agree. -/
theorem Alike.keep (h : Alike o s s') {c c' : Cache Ledger} {store store' : σ}
    (hc : Agree o.regard o.profile (c, store) (c', store')) :
    Alike o (s.keep o.profile c store) (s'.keep o.profile c' store') := by
  refine ⟨h.settings_eq, h.clock_eq, hc.same, ?_, h.tracker_eq⟩
  refine hc.caches.imp (fun heq => ?_) fun ⟨hf, hf'⟩ => ⟨?_, ?_⟩
  · simp only [Service.keep, SortedMap.get?_insert_self]
    exact congrArg some heq
  · intro c₁ hc₁
    simp only [Service.keep, SortedMap.get?_insert_self] at hc₁
    cases hc₁
    exact hf
  · intro c₁ hc₁
    simp only [Service.keep, SortedMap.get?_insert_self] at hc₁
    cases hc₁
    exact hf'

theorem within_keep {store : σ} (h : Spares profile s.store store) (c : Cache Ledger) :
    Within profile s (s.keep profile c store) :=
  ⟨rfl, rfl, rfl, fun hq => s.caches.get?_insert_of_ne c hq, h⟩

omit [PartitionedStore σ] in
theorem faithfulFor_of_none (h : s.caches.get? profile = none) : FaithfulFor profile s := by
  intro c hc
  rw [h] at hc
  cases hc

/-- Services that are alike but for their stores, without caches of the profile. -/
theorem Alike.of_none (h : Alike o s s') {caches caches' : SortedMap Profile (Cache Ledger)}
    {store store' : σ} (hs : SameFor o.profile store store') (hnone : caches.get? o.profile = none)
    (hnone' : caches'.get? o.profile = none) :
    Alike o { s with caches := caches, store := store }
      { s' with caches := caches', store := store' } where
  settings_eq := h.settings_eq
  clock_eq := h.clock_eq
  same := hs
  caches := .intro (hnone.trans hnone'.symm) ⟨faithfulFor_of_none hnone, faithfulFor_of_none hnone'⟩
  tracker_eq := h.tracker_eq

/-! ### Study time -/

/-- **Recording a session** is an operation for its profile. -/
theorem minds_record (profile : Profile) (topic : String) (duration : UInt64) :
    Minds (σ := σ) profile fun s => s.record profile topic duration where
  within s := by
    refine within_keep (.trans (.of_same fun q => cacheOf_same profile q s) ?_) _
    exact write_spares profile _ _ _
  alike {o s s'} hprofile h := by
    subst hprofile
    have hcaches := h.cacheOf
    simp only [record, ← h.clock_eq, ← h.settings_eq]
    generalize s.cacheOf o.profile = x, s'.cacheOf o.profile = x' at hcaches
    obtain ⟨hanswer, hagree⟩ := Agree.write hcaches fun l =>
      l.recordSession topic duration s.clock.now s.settings.learning.staleness
    exact ⟨congrArg (Except.map _) hanswer, h.keep hagree⟩

omit [PartitionedStore σ] in
/-- What is said of a session that cannot be recorded names its profile. -/
theorem record_key {topic : String} {duration : UInt64} {e : CacheError}
    (h : (s.record profile topic duration).1 = .error e) : e.key = ledgerKey profile := by
  have hwrite : ∀ {r : Except CacheError (Reply Ledger)},
      (r.map fun _ => ()) = .error e → r = .error e := by
    intro r hr
    cases r with
    | error e' =>
        cases hr
        rfl
    | ok reply => cases hr
  exact write_key (hwrite h)

/-- **The ledger of a profile** is an operation for the profile. -/
theorem minds_ledger (profile : Profile) : Minds (σ := σ) profile fun s => s.ledger profile where
  within s := by
    refine within_keep (.of_same fun q => ?_) _
    exact (fetch_same profile q _ _).trans (cacheOf_same profile q s)
  alike {o s s'} hprofile h := by
    subst hprofile
    have hcaches := h.cacheOf
    simp only [ledger]
    generalize s.cacheOf o.profile = x, s'.cacheOf o.profile = x' at hcaches
    obtain ⟨hanswer, hagree⟩ := Agree.fetch hcaches
    exact ⟨hanswer, h.keep hagree⟩

theorem minds_topicRecord (profile : Profile) (topic : String) :
    Minds (σ := σ) profile fun s => s.topicRecord profile topic :=
  (minds_ledger profile).map fun r => r.map fun l => (l.get? topic).getD .zero

/-- **Removing a profile**: it is answered alike, and if it succeeds no cache is left. -/
theorem minds_remove (profile : Profile) : Minds (σ := σ) profile fun s => s.remove profile where
  within s := by
    have hspares : Spares profile s.store ((s.cacheOf profile).1.write Ledger.document
        (ledgerKey profile) .clear (s.cacheOf profile).2).2.2 :=
      .trans (.of_same fun q => cacheOf_same profile q s) (write_spares profile _ _ _)
    simp only [remove]
    generalize (s.cacheOf profile).1.write Ledger.document (ledgerKey profile) .clear
      (s.cacheOf profile).2 = out at hspares
    obtain ⟨r, c, store⟩ := out
    cases r with
    | error e => exact within_keep hspares c
    | ok reply => exact ⟨rfl, rfl, rfl, fun hq => s.caches.get?_erase_of_ne hq, hspares⟩
  alike {o s s'} hprofile h := by
    subst hprofile
    have hcaches := h.cacheOf
    simp only [remove]
    generalize s.cacheOf o.profile = x, s'.cacheOf o.profile = x' at hcaches
    obtain ⟨hanswer, hsame, herror⟩ := Agree.clear hcaches
    generalize x.1.write Ledger.document (ledgerKey o.profile) .clear x.2 = out,
      x'.1.write Ledger.document (ledgerKey o.profile) .clear x'.2 = out' at hanswer hsame herror
    obtain ⟨r, c, store⟩ := out
    obtain ⟨r', c', store'⟩ := out'
    cases hanswer
    cases r with
    | error e => exact ⟨rfl, h.keep (herror rfl)⟩
    | ok reply =>
        exact ⟨rfl, h.of_none hsame (s.caches.get?_erase_self _) (s'.caches.get?_erase_self _)⟩

omit [PartitionedStore σ] in
/-- After a successful removal no cache is left. -/
theorem caches_remove (h : (s.remove profile).1 = .ok ()) :
    (s.remove profile).2.caches.get? profile = none := by
  unfold remove at h ⊢
  dsimp only at h ⊢
  split
  next hout =>
    rw [hout] at h
    cases h
  next => exact s.caches.get?_erase_self profile

/-- **Deleting a profile** is an operation for the profile. -/
theorem minds_deleteProfile (profile : Profile) :
    Minds (σ := σ) profile fun s => s.deleteProfile profile where
  within s := by
    have hremove := (minds_remove profile).within s
    simp only [deleteProfile]
    generalize s.remove profile = out at hremove
    obtain ⟨r, s₁⟩ := out
    cases r with
    | error e => exact hremove
    | ok u =>
        have herase := (PartitionedStore.eraseProfile profile).spares s₁.store
        dsimp only at hremove ⊢
        refine hremove.trans ?_
        generalize Backend.eraseProfile profile s₁.store = out at herase
        obtain ⟨r, store⟩ := out
        cases r <;> exact ⟨rfl, rfl, rfl, fun _ => rfl, herase⟩
  alike {o s s'} hprofile h := by
    subst hprofile
    obtain ⟨hanswer, halike⟩ := (minds_remove o.profile).alike rfl h
    have hcaches : (s.remove o.profile).1 = .ok () → _ := caches_remove
    have hcaches' : (s'.remove o.profile).1 = .ok () → _ := caches_remove
    simp only [deleteProfile]
    generalize s.remove o.profile = out, s'.remove o.profile = out' at hanswer halike hcaches hcaches'
    obtain ⟨r, s₁⟩ := out
    obtain ⟨r', s₁'⟩ := out'
    cases hanswer
    cases r with
    | error e => exact ⟨rfl, halike⟩
    | ok u =>
        -- no caches are left that would still hold what is erased
        have herase := (PartitionedStore.eraseProfile o.profile).answer_eq halike.same
        have hsame := (PartitionedStore.eraseProfile o.profile).same halike.same
        have hafter := halike.of_none hsame (hcaches rfl) (hcaches' rfl)
        dsimp only
        generalize Backend.eraseProfile o.profile s₁.store = out,
          Backend.eraseProfile o.profile s₁'.store = out' at herase hafter
        obtain ⟨r, store⟩ := out
        obtain ⟨r', store'⟩ := out'
        cases herase
        cases r <;> exact ⟨rfl, hafter⟩

/-! ### Surveys -/

/-- **When a survey was last shown** is an operation for the profile. -/
theorem minds_lastShown (profile : Profile) : Minds (σ := σ) profile fun s => s.lastShown profile :=
  .looks (PartitionedStore.lastShown profile)

/-- **Noting when a survey was shown** is an operation for the profile. -/
theorem minds_setLastShown (profile : Profile) (n : Int64) :
    Minds (σ := σ) profile fun s => s.setLastShown profile n where
  within s := ⟨rfl, rfl, rfl, fun _ => rfl, (PartitionedStore.setLastShown profile n).spares s.store⟩
  alike {o s s'} hprofile h := by
    subst hprofile
    have hset := PartitionedStore.setLastShown (σ := σ) o.profile n
    refine ⟨hset.answer_eq h.same, h.settings_eq, h.clock_eq, hset.same h.same, ?_, h.tracker_eq⟩
    -- what is held is loaded as before
    have hfaithful : ∀ {s : Service σ}, FaithfulFor o.profile s →
        FaithfulFor o.profile (s.setLastShown o.profile n).2 := by
      intro s hs c hc
      refine ⟨(hs c hc).writing, fun hl => ?_⟩
      obtain ⟨text, hload, hdecode⟩ := (hs c hc).loads hl
      exact ⟨text, (PartitionedStore.load_setLastShown o.profile n s.store).trans hload, hdecode⟩
    exact h.caches.imp id fun ⟨hs, hs'⟩ => ⟨hfaithful hs, hfaithful hs'⟩

/-- **Noting that a survey is shown** is an operation for the profile. -/
theorem minds_markShown (profile : Profile) :
    Minds (σ := σ) profile fun s => s.markShown profile where
  within s := by
    have hset := (minds_setLastShown profile s.clock.now).within s
    simp only [markShown]
    generalize s.setLastShown profile s.clock.now = out at hset
    obtain ⟨r, s₁⟩ := out
    cases r <;> exact hset
  alike {o s s'} hprofile h := by
    obtain ⟨hanswer, halike⟩ := (minds_setLastShown profile s.clock.now).alike hprofile h
    simp only [markShown, ← h.clock_eq]
    generalize s.setLastShown profile s.clock.now = out, s'.setLastShown profile s.clock.now = out'
      at hanswer halike
    obtain ⟨r, s₁⟩ := out
    obtain ⟨r', s₁'⟩ := out'
    cases hanswer
    cases r <;> exact ⟨rfl, halike⟩

theorem minds_cooledDown (profile : Profile) :
    Minds (σ := σ) profile fun s => s.cooledDown profile where
  within s := by
    have hshown := (minds_lastShown profile).within s
    simp only [cooledDown]
    generalize s.lastShown profile = out at hshown
    obtain ⟨r, s₁⟩ := out
    cases r <;> exact hshown
  alike {o s s'} hprofile h := by
    obtain ⟨hanswer, halike⟩ := (minds_lastShown profile).alike hprofile h
    simp only [cooledDown]
    generalize s.lastShown profile = out, s'.lastShown profile = out' at hanswer halike
    obtain ⟨r, s₁⟩ := out
    obtain ⟨r', s₁'⟩ := out'
    cases hanswer
    cases r with
    | error f => exact ⟨rfl, halike⟩
    | ok shown =>
        dsimp only at halike ⊢
        exact ⟨by rw [halike.clock_eq, halike.settings_eq], halike⟩

theorem minds_studiedEnough (profile : Profile) (topic : String) :
    Minds (σ := σ) profile fun s => s.studiedEnough profile topic where
  within s := by
    have hrecord := (minds_topicRecord profile topic).within s
    simp only [studiedEnough]
    generalize s.topicRecord profile topic = out at hrecord
    obtain ⟨r, s₁⟩ := out
    cases r <;> exact hrecord
  alike {o s s'} hprofile h := by
    obtain ⟨hanswer, halike⟩ := (minds_topicRecord profile topic).alike hprofile h
    simp only [studiedEnough]
    generalize s.topicRecord profile topic = out, s'.topicRecord profile topic = out' at hanswer halike
    obtain ⟨r, s₁⟩ := out
    obtain ⟨r', s₁'⟩ := out'
    cases hanswer
    cases r with
    | error e => exact ⟨rfl, halike⟩
    | ok r =>
        dsimp only at halike ⊢
        exact ⟨by rw [halike.settings_eq], halike⟩

/-- **Whether a survey is to be shown** is an operation for the profile. -/
theorem minds_shouldShow (profile : Profile) (topic : String) :
    Minds (σ := σ) profile fun s => s.shouldShow profile topic where
  within s := by
    have hcooled := (minds_cooledDown profile).within s
    have hstudied := (minds_studiedEnough profile topic).within (s.cooledDown profile).2
    simp only [shouldShow]
    split
    next => exact .refl profile s
    next =>
      split
      next =>
        generalize s.cooledDown profile = out at hcooled hstudied
        obtain ⟨cooled, s₁⟩ := out
        cases cooled with
        | false => exact hcooled
        | true => exact hcooled.trans hstudied
      next => exact .refl profile s
  alike {o s s'} hprofile h := by
    obtain ⟨hanswer, halike⟩ := (minds_cooledDown profile).alike hprofile h
    obtain ⟨hstudied, hafter⟩ := (minds_studiedEnough profile topic).alike hprofile halike
    simp only [shouldShow, ← h.clock_eq, ← h.settings_eq]
    split
    next => exact ⟨rfl, h⟩
    next =>
      split
      next =>
        generalize s.cooledDown profile = out, s'.cooledDown profile = out'
          at hanswer halike hstudied hafter
        obtain ⟨cooled, s₁⟩ := out
        obtain ⟨cooled', s₁'⟩ := out'
        cases hanswer
        cases cooled with
        | false => exact ⟨rfl, halike⟩
        | true => exact ⟨congrArg Except.ok hstudied, hafter⟩
      next => exact ⟨rfl, h⟩

end Service

end StudyTime
