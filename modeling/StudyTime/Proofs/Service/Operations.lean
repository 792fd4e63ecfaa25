/-
**A service keeps its book.**

A service represents a book if the texts in its store stand for the ledgers of the book, the instants in
its store are those of the book, and every cache that it has is coherent with the store and has its
writer.  A profile without a cache is no exception: its text is all that matters.  Every operation
either fails and represents the same book as before, or succeeds and represents the book after the same
operation.  Over a sound store the operations do not fail.

Main definitions:

* `Service.Represents` — the relation between a service and its book;
* `Service.Tells`, `Service.Does` — what it means that an operation reads or changes the book.

Main results: `Service.Represents.record`, `Service.Represents.ledger`, `Service.Represents.remove`,
`Service.Represents.deleteProfile`, `Service.Represents.setLastShown` and the others — one for each
operation.
-/

import StudyTime.Proofs.Cache.Coherence
import StudyTime.Proofs.Service.Book

set_option relaxedAutoImplicit false
set_option autoImplicit false

namespace StudyTime

/-- The ledger that a text stands for. -/
abbrev ledgerOf (k : Kept) (profile : Profile) : Except Failure Ledger :=
  Cache.decode Ledger.document (ledgerKey profile) (k.payload (ledgerKey profile))

theorem ledgerKey_ne {profile profile' : Profile} (h : profile' ≠ profile) :
    ledgerKey profile' ≠ ledgerKey profile :=
  fun e => h (congrArg DocumentKey.profile e)

theorem ledgerOf_setPayload_self (k : Kept) (profile : Profile) (text : Option String) :
    ledgerOf (k.setPayload (ledgerKey profile) text) profile =
      Cache.decode Ledger.document (ledgerKey profile) text := by
  rw [ledgerOf, Kept.payload_setPayload_self]

theorem ledgerOf_setPayload_of_ne (k : Kept) {profile profile' : Profile} (text : Option String)
    (h : profile' ≠ profile) :
    ledgerOf (k.setPayload (ledgerKey profile) text) profile' = ledgerOf k profile' := by
  rw [ledgerOf, Kept.payload_setPayload_of_ne k text (ledgerKey_ne h)]

namespace Service

variable {σ : Type} [Backend σ] [LawfulStore σ]

/-- A cache of a profile that is coherent with the store and has its writer. -/
structure Serves (c : Cache Ledger) (profile : Profile) (store : σ) : Prop where
  writing : c.writing = true
  /-- The cache is coherent with the store. -/
  coherent : c.Coherent Ledger.document (ledgerKey profile) store

theorem Serves.of_ledgerOf_eq {c : Cache Ledger} {profile : Profile} {store store' : σ}
    (h : Serves c profile store)
    (hledger : ledgerOf (kept store') profile = ledgerOf (kept store) profile) :
    Serves c profile store' :=
  ⟨h.writing, h.coherent.of_decode_eq hledger⟩

/-- The service stands for the book. -/
structure Represents (settings : Settings) (b : Book) (s : Service σ) : Prop where
  settings_eq : s.settings = settings
  clock_eq : s.clock = b.clock
  /-- The texts stand for the ledgers. -/
  ledger_eq : ∀ profile, ledgerOf (kept s.store) profile = .ok (b.ledgers profile)
  /-- The instants at which surveys were shown agree. -/
  shown_eq : (kept s.store).shown = b.shown
  /-- The trackers agree, whichever sessions they follow. -/
  tracker_eq : ∀ n, (s.tracker n).anonymous = b.trackers n
  /-- The caches that there are can be used. -/
  serves : ∀ {profile c}, s.caches.get? profile = some c → Serves c profile s.store

/-- The operation leaves the book as it is and answers what the book says; at any rate it does so
over a sound store. -/
structure Tells {β : Type} (settings : Settings) (b : Book) (v : β) (s : Service σ)
    (out : β × Service σ) : Prop where
  /-- The book stays as it is. -/
  represents : Represents settings b out.2
  /-- Over a sound store the answer is what the book says, and the store stays sound. -/
  sound : Sound s.store → out.1 = v ∧ Sound out.2.store

/-- The operation changes the book in this way, or fails and leaves it as it is. -/
structure Does {ε : Type} (settings : Settings) (b b' : Book) (s : Service σ)
    (out : Except ε Unit × Service σ) : Prop where
  /-- After a success the book is changed. -/
  represents_of_ok : out.1 = .ok () → Represents settings b' out.2
  /-- After a failure the book is as before. -/
  represents_of_error : ∀ {e}, out.1 = .error e → Represents settings b out.2
  /-- Over a sound store the operation succeeds, and the store stays sound. -/
  sound : Sound s.store → out.1 = .ok () ∧ Sound out.2.store

variable {settings : Settings} {b : Book} {s : Service σ}

/-- Where an answer cannot be found, which does not happen over a sound store, any other one can be
given instead. -/
theorem Tells.of_error {ε β γ : Type} {e : ε} {v : β} {s' : Service σ}
    (h : Tells settings b (.ok v : Except ε β) s (.error e, s')) (a w : γ) :
    Tells settings b w s (a, s') := by
  constructor
  · exact h.represents
  · intro hs
    exact absurd (h.sound hs).1 (by simp)

/-- A failure can be told in other words. -/
theorem Does.of_error {ε ε' : Type} {e : ε} {b' : Book} {s' : Service σ}
    (h : Does settings b b' s (.error e, s')) (e' : ε') : Does settings b b' s (.error e', s') := by
  constructor
  · intro hr
    cases hr
  · intro _ _
    exact h.represents_of_error rfl
  · intro hs
    exact absurd (h.sound hs).1 (by simp)

/-! ### Beginnings -/

/-- A service that was not used yet, over a store that keeps nothing, represents the blank book. -/
theorem represents_start (clock : Clock) (settings : Settings) {store : σ}
    (h : kept store = Kept.blank) :
    Represents settings (Book.blank clock) (start clock settings store) where
  settings_eq := rfl
  clock_eq := rfl
  ledger_eq profile := by
    change ledgerOf (kept store) profile = _
    rw [h]
    rfl
  shown_eq := by
    change (kept store).shown = _
    rw [h]
    rfl
  tracker_eq _ := rfl
  serves hc := by cases hc

/-- Putting the clock to another time. -/
theorem Represents.setClock (h : Represents settings b s) (clock : Clock) :
    Represents settings { b with clock := clock } { s with clock := clock } :=
  ⟨h.settings_eq, rfl, h.ledger_eq, h.shown_eq, h.tracker_eq, h.serves⟩

/-! ### Caches -/

/-- The cache of a profile can be used, whether or not it was there before. -/
theorem Represents.cacheOf (h : Represents settings b s) (profile : Profile) :
    Serves (s.cacheOf profile).1 profile (s.cacheOf profile).2 ∧
    kept (s.cacheOf profile).2 = kept s.store ∧
    (Sound s.store → Sound (s.cacheOf profile).2) := by
  unfold Service.cacheOf
  split
  next c hc => exact ⟨h.serves hc, rfl, fun hsound => hsound⟩
  next hc =>
    have hnew : Cache.Coherent Ledger.document (ledgerKey profile) ⟨none, true⟩ s.store :=
      Cache.coherent_of_none rfl
    have hfetch := hnew.fetch
    exact ⟨⟨hfetch.writing_eq, hfetch.coherent⟩, hfetch.kept_eq,
      fun hsound => (hfetch.sound hsound (h.ledger_eq profile)).2⟩

/-- Keeping a cache of a profile, when nothing but the ledger of this profile has changed. -/
theorem Represents.keep (h : Represents settings b s) {profile : Profile} {c : Cache Ledger}
    {store : σ} {l : Ledger} (hc : Serves c profile store)
    (hother : ∀ profile', profile' ≠ profile →
      ledgerOf (kept store) profile' = ledgerOf (kept s.store) profile')
    (hshown : (kept store).shown = (kept s.store).shown)
    (hl : ledgerOf (kept store) profile = .ok l) :
    Represents settings (b.setLedger profile l) (s.keep profile c store) where
  settings_eq := h.settings_eq
  clock_eq := h.clock_eq
  ledger_eq profile' := by
    change ledgerOf (kept store) profile' = _
    by_cases hprofile : profile' = profile
    · rw [hprofile, hl, b.ledgers_setLedger_self]
    · rw [hother profile' hprofile, b.ledgers_setLedger_of_ne l hprofile]
      exact h.ledger_eq profile'
  shown_eq := hshown.trans h.shown_eq
  tracker_eq := h.tracker_eq
  serves {profile' c'} hc' := by
    rw [Service.keep, SortedMap.get?_insert] at hc'
    split at hc'
    next hprofile =>
      cases hc'
      rw [hprofile]
      exact hc
    next hprofile => exact (h.serves hc').of_ledgerOf_eq (hother profile' hprofile)

/-- Keeping a cache when the store keeps what it kept. -/
theorem Represents.keep_of_kept_eq (h : Represents settings b s) {profile : Profile}
    {c : Cache Ledger} {store : σ} (hc : Serves c profile store) (hkept : kept store = kept s.store) :
    Represents settings b (s.keep profile c store) := by
  have hledger : ledgerOf (kept store) profile = .ok (b.ledgers profile) := by
    rw [hkept]
    exact h.ledger_eq profile
  have hkeep := h.keep hc (fun _ _ => by rw [hkept]) (by rw [hkept]) hledger
  rwa [b.setLedger_self] at hkeep

/-- Forgetting the cache of a profile, when nothing but the ledger of this profile has changed. -/
theorem Represents.forget (h : Represents settings b s) {profile : Profile} {store : σ} {l : Ledger}
    (hother : ∀ profile', profile' ≠ profile →
      ledgerOf (kept store) profile' = ledgerOf (kept s.store) profile')
    (hshown : (kept store).shown = (kept s.store).shown)
    (hl : ledgerOf (kept store) profile = .ok l) :
    Represents settings (b.setLedger profile l)
      { s with caches := s.caches.erase profile, store := store } where
  settings_eq := h.settings_eq
  clock_eq := h.clock_eq
  ledger_eq profile' := by
    by_cases hprofile : profile' = profile
    · rw [hprofile, b.ledgers_setLedger_self]
      exact hl
    · rw [b.ledgers_setLedger_of_ne l hprofile]
      exact (hother profile' hprofile).trans (h.ledger_eq profile')
  shown_eq := hshown.trans h.shown_eq
  tracker_eq := h.tracker_eq
  serves {profile' c'} hc' := by
    rw [SortedMap.get?_erase] at hc'
    split at hc'
    next => cases hc'
    next hprofile => exact (h.serves hc').of_ledgerOf_eq (hother profile' hprofile)

/-- Another store, of which the texts stand for the same ledgers. -/
theorem Represents.setStore (h : Represents settings b s) {store : σ} {b' : Book}
    (hledger : ∀ profile, ledgerOf (kept store) profile = ledgerOf (kept s.store) profile)
    (hshown : (kept store).shown = b'.shown) (hclock : b'.clock = b.clock)
    (hledgers : b'.ledgers = b.ledgers) (htrackers : b'.trackers = b.trackers) :
    Represents settings b' { s with store := store } where
  settings_eq := h.settings_eq
  clock_eq := h.clock_eq.trans hclock.symm
  ledger_eq profile := by
    rw [hledgers]
    exact (hledger profile).trans (h.ledger_eq profile)
  shown_eq := hshown
  tracker_eq n := by
    rw [htrackers]
    exact h.tracker_eq n
  serves {profile c} hc := (h.serves hc).of_ledgerOf_eq (hledger profile)

/-! ### Study time -/

/-- Writing a change of the ledger of a profile to a cache of this profile. -/
theorem Represents.write (h : Represents settings b s) {profile : Profile} {c : Cache Ledger}
    {store : σ} (hc : Serves c profile store) (hkept : kept store = kept s.store)
    (change : Ledger → Ledger) {r : Except CacheError (Reply Ledger)} {c' : Cache Ledger}
    {store' : σ} (hout : c.write Ledger.document (ledgerKey profile)
      (.update fun l => some (change l)) store = (r, c', store')) :
    (∀ reply, r = .ok reply →
      Represents settings (b.setLedger profile (change (b.ledgers profile)))
        (s.keep profile c' store')) ∧
    (∀ e, r = .error e → Represents settings b (s.keep profile c' store')) ∧
    (Sound store → (∃ reply, r = .ok reply) ∧ Sound store') := by
  have hledger : ledgerOf (kept store) profile = .ok (b.ledgers profile) := by
    rw [hkept]
    exact h.ledger_eq profile
  -- a change of a ledger is computed in any case, so the writer stays
  have hwritten := hc.coherent.write (.update fun l => some (change l))
  have htotal : ∀ change' a, (Command.update fun l => some (change l)) = .update change' →
      change' a ≠ none := by
    rintro _ _ ⟨⟩ ⟨⟩
  have hwriting := Cache.write_writing Ledger.document (ledgerKey profile) htotal c store
  rw [hout] at hwritten hwriting
  have hc' : Serves c' profile store' := ⟨hwriting.trans hc.writing, hwritten.coherent⟩
  have heffect := hwritten.effect
  refine ⟨?_, ?_, ?_⟩
  · rintro reply rfl
    -- the text that was accepted is the one of the changed ledger
    generalize hk : kept store' = k at heffect
    cases heffect with
    | committed ha ha' htext =>
        cases ha.symm.trans hledger
        cases ha'
        refine h.keep hc' ?_ ?_ ?_
        · intro profile' hprofile
          rw [hk, hkept]
          exact ledgerOf_setPayload_of_ne _ _ hprofile
        · rw [hk, hkept]
          rfl
        · rw [hk, ledgerOf_setPayload_self]
          exact Cache.decode_encode htext
  · rintro e rfl
    generalize hk : kept store' = k at heffect
    cases heffect
    exact h.keep_of_kept_eq hc' (hk.trans hkept)
  · intro hsound
    obtain ⟨hr, -, hsound'⟩ := hc.coherent.write_update_of_sound hc.writing hsound
      (fun l => some (change l)) hledger rfl rfl
    rw [hout] at hr hsound'
    exact ⟨⟨_, hr⟩, hsound'⟩

/-- **Recording a session** merges it into the ledger, or fails and changes nothing. -/
theorem Represents.record (h : Represents settings b s) (profile : Profile) (topic : String)
    (duration : UInt64) :
    Does settings b (b.record settings profile topic duration) s
      (s.record profile topic duration) := by
  obtain ⟨hserves, hkept, hsound⟩ := h.cacheOf profile
  simp only [Service.record]
  generalize s.cacheOf profile = state at hserves hkept hsound
  obtain ⟨c, store⟩ := state
  dsimp only at hserves hkept hsound ⊢
  rw [h.settings_eq, h.clock_eq]
  cases hout : c.write Ledger.document (ledgerKey profile) (.update fun l =>
      some (l.recordSession topic duration b.clock.now settings.learning.staleness)) store with
  | mk r state =>
      obtain ⟨c', store'⟩ := state
      obtain ⟨hok, herror, hsound'⟩ := h.write hserves hkept (fun l =>
        l.recordSession topic duration b.clock.now settings.learning.staleness) hout
      dsimp only
      constructor
      · intro hr
        cases r with
        | error e => cases hr
        | ok reply => exact hok reply rfl
      · intro e hr
        cases r with
        | error e => exact herror e rfl
        | ok reply => cases hr
      · intro hs
        obtain ⟨⟨reply, rfl⟩, hs'⟩ := hsound' (hsound hs)
        exact ⟨rfl, hs'⟩

/-- **The ledger of a profile** is the one in the book. -/
theorem Represents.ledger (h : Represents settings b s) (profile : Profile) :
    Tells settings b (.ok (b.ledgers profile)) s (s.ledger profile) ∧
    ∀ {l}, (s.ledger profile).1 = .ok l → l = b.ledgers profile := by
  obtain ⟨hserves, hkept, hsound⟩ := h.cacheOf profile
  simp only [Service.ledger]
  generalize s.cacheOf profile = state at hserves hkept hsound
  obtain ⟨c, store⟩ := state
  dsimp only at hserves hkept hsound ⊢
  have hfetch := hserves.coherent.fetch
  have hledger : ledgerOf (kept store) profile = .ok (b.ledgers profile) := by
    rw [hkept]
    exact h.ledger_eq profile
  have hserves' : Serves (c.fetch Ledger.document (ledgerKey profile) store).2.1 profile
      (c.fetch Ledger.document (ledgerKey profile) store).2.2 :=
    ⟨hfetch.writing_eq.trans hserves.writing, hfetch.coherent⟩
  refine ⟨⟨h.keep_of_kept_eq hserves' (hfetch.kept_eq.trans hkept), ?_⟩, ?_⟩
  · intro hs
    exact hfetch.sound (hsound hs) hledger
  · intro l hl
    cases (hfetch.decode_of_ok hl).symm.trans hledger
    rfl

/-- **The record of a topic** is the one in the book. -/
theorem Represents.topicRecord (h : Represents settings b s) (profile : Profile) (topic : String) :
    Tells settings b (.ok (b.topicRecord profile topic)) s (s.topicRecord profile topic) ∧
    ∀ {r}, (s.topicRecord profile topic).1 = .ok r → r = b.topicRecord profile topic := by
  obtain ⟨htells, hfound⟩ := h.ledger profile
  simp only [Service.topicRecord]
  generalize s.ledger profile = out at htells hfound
  obtain ⟨r, s'⟩ := out
  dsimp only at hfound ⊢
  refine ⟨⟨htells.represents, ?_⟩, ?_⟩
  · intro hs
    obtain ⟨hr, hs'⟩ := htells.sound hs
    dsimp only at hr
    exact ⟨by rw [hr]; rfl, hs'⟩
  · intro r' hr'
    cases r with
    | error e => cases hr'
    | ok l =>
        cases hr'
        rw [hfound rfl]
        rfl

/-- **Removing a profile** drops its ledger, or fails and changes nothing. -/
theorem Represents.remove (h : Represents settings b s) (profile : Profile) :
    Does settings b (b.erase profile) s (s.remove profile) := by
  obtain ⟨hserves, hkept, hsound⟩ := h.cacheOf profile
  simp only [Service.remove]
  generalize s.cacheOf profile = state at hserves hkept hsound
  obtain ⟨c, store⟩ := state
  dsimp only at hserves hkept hsound ⊢
  have hwritten := hserves.coherent.write .clear
  have hcleared := Cache.write_clear_of_sound (s := store) Ledger.document (ledgerKey profile)
    hserves.writing
  have htotal : ∀ change (a : Ledger), Command.clear = .update change → change a ≠ none := by
    rintro _ _ ⟨⟩
  have hwriting := Cache.write_writing Ledger.document (ledgerKey profile) htotal c store
  cases hout : c.write Ledger.document (ledgerKey profile) .clear store with
  | mk r state =>
      obtain ⟨c', store'⟩ := state
      rw [hout] at hwritten hcleared hwriting
      have heffect := hwritten.effect
      generalize hk : kept store' = k at heffect
      cases heffect with
      | failed cmd e =>
          constructor
          · intro hr
            cases hr
          · intro _ _
            have hserves' : Serves c' profile store' :=
              ⟨hwriting.trans hserves.writing, hwritten.coherent⟩
            exact h.keep_of_kept_eq hserves' (hk.trans hkept)
          · intro hs
            exact absurd (hcleared (hsound hs)).1 (by simp)
      | cleared =>
          constructor
          · intro _
            refine h.forget ?_ ?_ ?_
            · intro profile' hprofile
              rw [hk, hkept]
              exact ledgerOf_setPayload_of_ne _ _ hprofile
            · rw [hk, hkept]
              rfl
            · rw [hk, ledgerOf_setPayload_self]
              rfl
          · intro e hr
            cases hr
          · intro hs
            exact ⟨rfl, (hcleared (hsound hs)).2⟩

/-- Erasing a profile of which the ledger is blank drops the instant of its last survey. -/
theorem Represents.eraseBlank (h : Represents settings b s) {profile : Profile}
    (hblank : b.ledgers profile = .blank) {store : σ}
    (hkept : kept store = (kept s.store).eraseProfile profile) :
    Represents settings { b with
      shown := fun profile' => if profile' = profile then none else b.shown profile' }
      { s with store := store } := by
  refine h.setStore (fun profile' => ?_) ?_ rfl rfl rfl
  · rw [hkept]
    by_cases hprofile : profile' = profile
    · -- no text stands for the blank ledger, as the text that was there did
      rw [hprofile, h.ledger_eq profile, hblank]
      simp [ledgerOf, Kept.eraseProfile, ledgerKey, Cache.decode, Ledger.document,
        Json.Codec.documentType]
    · simp [ledgerOf, Kept.eraseProfile, ledgerKey, hprofile]
  · rw [hkept, ← h.shown_eq]
    rfl

/-- **Deleting a profile** drops its ledger as removing it does, and if nothing fails also the instant
of its last survey. -/
theorem Represents.deleteProfile (h : Represents settings b s) (profile : Profile) :
    (∀ e, (s.remove profile).1 = .error e → Represents settings b (s.deleteProfile profile).2) ∧
    ((s.remove profile).1 = .ok () →
      ∃ b', Represents settings b' (s.deleteProfile profile).2 ∧
        b'.ledgers = (b.erase profile).ledgers) ∧
    (Sound s.store → (s.deleteProfile profile).1 = .ok () ∧
      Represents settings (b.eraseProfile profile) (s.deleteProfile profile).2 ∧
      Sound (s.deleteProfile profile).2.store) := by
  have hremove := h.remove profile
  simp only [Service.deleteProfile]
  generalize s.remove profile = out at hremove
  obtain ⟨r, s₁⟩ := out
  cases r with
  | error e =>
      refine ⟨?_, ?_, ?_⟩
      · intro _ _
        exact hremove.represents_of_error rfl
      · intro hr
        cases hr
      · intro hs
        exact absurd (hremove.sound hs).1 (by simp)
  | ok u =>
      have hrepresents : Represents settings (b.erase profile) s₁ := hremove.represents_of_ok rfl
      have herase := LawfulStore.eraseProfile profile s₁.store
      dsimp only
      generalize Backend.eraseProfile profile s₁.store = out at herase
      obtain ⟨r', store⟩ := out
      cases r' with
      | error f =>
          -- the ledger is removed already, and only the instant is left
          have hkept : kept store = kept s₁.store := herase.kept_of_error rfl
          refine ⟨?_, ?_, ?_⟩
          · intro _ hr
            cases hr
          · intro _
            refine ⟨b.erase profile, ?_, rfl⟩
            exact hrepresents.setStore (fun _ => by rw [hkept]) (by rw [hkept, hrepresents.shown_eq])
              rfl rfl rfl
          · intro hs
            exact absurd (herase.sound (hremove.sound hs).2).1 (by simp)
      | ok u' =>
          have hdeleted : Represents settings (b.eraseProfile profile) { s₁ with store := store } :=
            hrepresents.eraseBlank (b.ledgers_setLedger_self profile .blank)
              (herase.kept_of_ok rfl)
          refine ⟨?_, ?_, ?_⟩
          · intro _ hr
            cases hr
          · intro _
            exact ⟨_, hdeleted, rfl⟩
          · intro hs
            exact ⟨rfl, hdeleted, (herase.sound (hremove.sound hs).2).2⟩

/-! ### Surveys -/

/-- **When a survey was last shown** is in the book. -/
theorem Represents.lastShown (h : Represents settings b s) (profile : Profile) :
    Tells settings b (.ok (b.shown profile)) s (s.lastShown profile) := by
  have hread := LawfulStore.lastShown profile s.store
  simp only [Service.lastShown]
  constructor
  · exact h.setStore (fun _ => by rw [hread.kept_eq]) (by rw [hread.kept_eq, h.shown_eq]) rfl rfl rfl
  · intro hs
    rw [← h.shown_eq]
    exact hread.sound hs

/-- **Noting when a survey was shown** puts the instant into the book, or fails and changes nothing. -/
theorem Represents.setLastShown (h : Represents settings b s) (profile : Profile) (n : Int64) :
    Does settings b (b.setShown profile n) s (s.setLastShown profile n) := by
  have hwrite := LawfulStore.setLastShown profile n s.store
  simp only [Service.setLastShown]
  constructor
  · intro hr
    have hkept := hwrite.kept_of_ok hr
    refine h.setStore (fun _ => by rw [hkept]; rfl) ?_ rfl rfl rfl
    rw [hkept, Book.setShown, ← h.shown_eq]
    rfl
  · intro f hr
    have hkept := hwrite.kept_of_error hr
    exact h.setStore (fun _ => by rw [hkept]) (by rw [hkept, h.shown_eq]) rfl rfl rfl
  · exact hwrite.sound

/-- **Noting that a survey is shown** puts the instant of the clock into the book. -/
theorem Represents.markShown (h : Represents settings b s) (profile : Profile) :
    Does settings b (b.setShown profile b.clock.now) s (s.markShown profile) := by
  have hset := h.setLastShown profile b.clock.now
  simp only [Service.markShown]
  rw [h.clock_eq]
  generalize s.setLastShown profile b.clock.now = out at hset
  obtain ⟨r, s'⟩ := out
  cases r with
  | error f => exact hset.of_error _
  | ok u =>
      constructor
      · intro _
        exact hset.represents_of_ok rfl
      · intro f hr
        cases hr
      · exact hset.sound

theorem Represents.cooledDown (h : Represents settings b s) (profile : Profile) :
    Tells settings b (b.cooledDown settings profile) s (s.cooledDown profile) := by
  have hshown := h.lastShown profile
  simp only [Service.cooledDown]
  generalize s.lastShown profile = out at hshown
  obtain ⟨r, s'⟩ := out
  cases r with
  | error f => exact hshown.of_error false _
  | ok shown =>
      refine ⟨hshown.represents, ?_⟩
      intro hs
      obtain ⟨hr, hs'⟩ := hshown.sound hs
      cases hr
      refine ⟨?_, hs'⟩
      dsimp only
      rw [hshown.represents.clock_eq, hshown.represents.settings_eq]
      rfl

theorem Represents.studiedEnough (h : Represents settings b s) (profile : Profile)
    (topic : String) :
    Tells settings b (b.studiedEnough settings profile topic) s (s.studiedEnough profile topic) := by
  have hrecord := (h.topicRecord profile topic).1
  simp only [Service.studiedEnough]
  generalize s.topicRecord profile topic = out at hrecord
  obtain ⟨r, s'⟩ := out
  cases r with
  | error e => exact hrecord.of_error false _
  | ok r =>
      refine ⟨hrecord.represents, ?_⟩
      intro hs
      obtain ⟨hr, hs'⟩ := hrecord.sound hs
      cases hr
      refine ⟨?_, hs'⟩
      dsimp only
      rw [hrecord.represents.settings_eq]
      rfl

/-- **Whether a survey is to be shown** is what the book says. -/
theorem Represents.shouldShow (h : Represents settings b s) (profile : Profile) (topic : String) :
    Tells settings b (b.shouldShow settings profile topic) s (s.shouldShow profile topic) := by
  have hcooled := h.cooledDown profile
  simp only [Service.shouldShow, Book.shouldShow]
  rw [h.clock_eq, h.settings_eq]
  cases b.clock.local? with
  | error a => exact ⟨h, fun hs => ⟨rfl, hs⟩⟩
  | ok date =>
      simp only [Except.map]
      cases Survey.inWindow date.time settings.survey.windowStart settings.survey.windowEnd with
      | false => exact ⟨h, fun hs => ⟨rfl, hs⟩⟩
      | true =>
          generalize s.cooledDown profile = out at hcooled
          obtain ⟨cooled, s'⟩ := out
          cases cooled with
          | false =>
              -- whether the topic was studied enough is not asked
              refine ⟨hcooled.represents, ?_⟩
              intro hs
              obtain ⟨hanswer, hs'⟩ := hcooled.sound hs
              rw [← hanswer]
              exact ⟨rfl, hs'⟩
          | true =>
              have hstudied := Represents.studiedEnough hcooled.represents profile topic
              refine ⟨hstudied.represents, ?_⟩
              intro hs
              obtain ⟨hanswer, hs'⟩ := hcooled.sound hs
              obtain ⟨hanswer', hs''⟩ := hstudied.sound hs'
              rw [← hanswer, ← hanswer']
              exact ⟨rfl, hs''⟩

/-! ### Sessions -/

/-- Keeping a tracker. -/
theorem Represents.keepTracker (h : Represents settings b s) (n : Nat) (t : Tracker) :
    Represents settings (b.setTracker n t.anonymous) (s.keepTracker n t) where
  settings_eq := h.settings_eq
  clock_eq := h.clock_eq
  ledger_eq := h.ledger_eq
  shown_eq := h.shown_eq
  tracker_eq n' := by
    have htracker := h.tracker_eq n'
    -- the cases are whether this is the tracker that is kept
    simp only [Service.tracker, Service.keepTracker, SortedMap.get?_insert, Book.setTracker]
      at htracker ⊢
    split
    next => rfl
    next => exact htracker
  serves := h.serves

/-- **Beginning a session** lets the tracker follow one, or fails and changes nothing. -/
theorem Represents.begin (h : Represents settings b s) (n : Nat) (profile : Profile)
    (topic : String) :
    match (b.trackers n).begin? .any profile topic b.clock.now with
    | none => s.begin n profile topic = (.error .sessionActive, s)
    | some t => ∃ id, (s.begin n profile topic).1 = .ok id ∧
        Represents settings (b.setTracker n t) (s.begin n profile topic).2 ∧
        (s.begin n profile topic).2.store = s.store := by
  rw [← h.tracker_eq n, Tracker.begin?_anonymous _ _ (.ofNat s.nextSession), ← h.clock_eq]
  simp only [Service.begin]
  cases (s.tracker n).begin? (.ofNat s.nextSession) profile topic s.clock.now with
  | none => rfl
  | some t =>
      have hkeep := h.keepTracker n t
      exact ⟨_, rfl, ⟨hkeep.settings_eq, hkeep.clock_eq, hkeep.ledger_eq, hkeep.shown_eq,
        hkeep.tracker_eq, hkeep.serves⟩, rfl⟩

/-- **Finishing a session** makes the tracker idle and merges the time into the ledger; if the time
cannot be merged the ledger stays as it is. -/
theorem Represents.finish (h : Represents settings b s) (n : Nat) :
    match (b.trackers n).finish? b.clock.now with
    | none => s.finish n = (.error (.failure .noSession), s)
    | some session =>
      (∀ session', (s.finish n).1 = .ok session' → session'.anonymous = session ∧
        Represents settings ((b.setTracker n .idle).record settings session.profile session.topic
          session.active) (s.finish n).2) ∧
      (∀ e, (s.finish n).1 = .error e → Represents settings (b.setTracker n .idle) (s.finish n).2) ∧
      (Sound s.store → (∃ session', (s.finish n).1 = .ok session') ∧ Sound (s.finish n).2.store) := by
  rw [← h.tracker_eq n, Tracker.finish?_anonymous, ← h.clock_eq]
  simp only [Service.finish]
  cases (s.tracker n).finish? s.clock.now with
  | none => rfl
  | some session =>
      have hrecord := (h.keepTracker n .idle).record session.profile session.topic session.active
      dsimp only [Option.map]
      generalize (s.keepTracker n .idle).record session.profile session.topic session.active = out
        at hrecord
      obtain ⟨r, s'⟩ := out
      cases r with
      | error e =>
          refine ⟨?_, ?_, ?_⟩
          · intro _ hr
            cases hr
          · intro _ _
            exact hrecord.represents_of_error rfl
          · intro hs
            exact absurd (hrecord.sound hs).1 (by simp)
      | ok u =>
          refine ⟨?_, ?_, ?_⟩
          · intro session' hr
            cases hr
            exact ⟨rfl, hrecord.represents_of_ok rfl⟩
          · intro e hr
            cases hr
          · intro hs
            exact ⟨⟨session, rfl⟩, (hrecord.sound hs).2⟩

end Service

end StudyTime
