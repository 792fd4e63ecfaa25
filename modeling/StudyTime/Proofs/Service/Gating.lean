/-
**When a survey is due.**

A survey is due when three conditions hold: the local time lies inside the window, the last survey is long
enough ago, and the topic was studied long enough.  The conditions are looked at in this order, and what a
later one would need is not touched before the earlier ones hold.  A read that fails counts against the
survey.  Whatever the answer is, nothing is changed by it: at most the ledger of the profile is loaded.

Main definitions:

* `SurveySettings.Open`, `Service.Rested`, `Service.Studied`, `Service.Due` — the three conditions;
* `Service.Weighs` — the ways in which the question can go;
* `Service.Inspects` — what looking leaves as it was;
* `Service.Gated` — what is to be said of the question in one state.

Main results:

* `Service.weighs_shouldShow` — **the question goes one of these ways**;
* `Service.gated` — the answer is told by the conditions, and nothing is changed;
* `Service.surveys_gated` — **surveys are shown when they are due**, whatever the state of the service.
-/

import StudyTime.Proofs.Cache.Outcomes
import StudyTime.Proofs.Service.Cooldown
import StudyTime.Proofs.Service.Operations

set_option relaxedAutoImplicit false
set_option autoImplicit false

namespace StudyTime

/-! ### The conditions -/

/-- The time lies strictly between the ends of the window. -/
def SurveySettings.Open (w : SurveySettings) (t : TimeOfDay) : Prop :=
  w.windowStart.before t = true ∧ t.before w.windowEnd = true

theorem SurveySettings.inWindow_iff (w : SurveySettings) (t : TimeOfDay) :
    Survey.inWindow t w.windowStart w.windowEnd = true ↔ w.Open t := by
  simp [Survey.inWindow, Open]

theorem TimeOfDay.before_trans {a b c : TimeOfDay} (h : a.before b = true) (h' : b.before c = true) :
    a.before c = true := by
  rw [before_iff] at *
  omega

/-- A window that does not end after it starts is never open. -/
theorem SurveySettings.not_open {w : SurveySettings} (h : w.windowStart.before w.windowEnd = false)
    (t : TimeOfDay) : ¬ w.Open t := by
  intro hopen
  rw [TimeOfDay.before_trans hopen.1 hopen.2] at h
  cases h

/-- The time that was studied. -/
def Ledger.studied (l : Ledger) (topic : String) : Nat :=
  ((l.get? topic).map fun r => r.total.toNat).getD 0

namespace Service

variable {σ : Type} [Backend σ]

/-- It can be read when a survey was last shown, and there was none, or it was shown before now and more
than the cooldown has passed.  An instant that is not positive counts as no survey. -/
def Rested (s : Service σ) (profile : Profile) : Prop :=
  ∃ shown, (s.lastShown profile).1 = .ok shown ∧ ∀ n, shown = some n →
    n.toInt ≤ 0 ∨ n.toInt ≤ s.clock.now.toInt ∧
      (s.settings.survey.cooldown.toNat : Int) < s.clock.now.toInt - n.toInt

/-- The ledger can be read, and the time that was studied reaches the threshold. -/
def Studied (s : Service σ) (profile : Profile) (topic : String) : Prop :=
  ∃ l, (s.ledger profile).1 = .ok l ∧ s.settings.survey.threshold.toNat ≤ l.studied topic

/-- A survey is due. -/
structure Due (s : Service σ) (profile : Profile) (topic : String) : Prop where
  window : ∃ d, s.clock.local? = .ok d ∧ s.settings.survey.Open d.time
  rested : s.Rested profile
  studied : s.Studied profile topic

theorem cooledDown_iff (s : Service σ) (profile : Profile) :
    (s.cooledDown profile).1 = true ↔ s.Rested profile := by
  rw [cooledDown_eq, Rested]
  cases hread : (s.lastShown profile).1 with
  | error f => simp
  | ok shown =>
      simp only [Survey.cooledDown_iff, Except.ok.injEq, exists_eq_left']
      refine forall_congr' fun n => imp_congr_right fun _ => ?_
      omega

theorem studiedEnough_iff (s : Service σ) (profile : Profile) (topic : String) :
    (s.studiedEnough profile topic).1 = true ↔ s.Studied profile topic := by
  have hsettings : (s.ledger profile).2.settings = s.settings := rfl
  simp only [studiedEnough, topicRecord, Studied]
  generalize s.ledger profile = out at hsettings
  obtain ⟨r, s'⟩ := out
  dsimp only at hsettings
  cases r with
  | error e => simp [Except.map]
  | ok l =>
      have htotal : ((l.get? topic).getD .zero).total.toNat = l.studied topic := by
        rw [Ledger.studied]
        cases l.get? topic <;> rfl
      simp [Except.map, Survey.studiedEnough, hsettings, UInt64.le_iff_toNat_le, htotal]

theorem studiedEnough_state (s : Service σ) (profile : Profile) (topic : String) :
    (s.studiedEnough profile topic).2 = (s.ledger profile).2 := by
  simp only [studiedEnough, topicRecord]
  generalize s.ledger profile = out
  obtain ⟨r, s'⟩ := out
  cases r <;> rfl

theorem cooledDown_state (s : Service σ) (profile : Profile) :
    (s.cooledDown profile).2 = (s.lastShown profile).2 := by
  simp only [cooledDown]
  generalize s.lastShown profile = out
  obtain ⟨r, s'⟩ := out
  cases r <;> rfl

/-! ### The ways of the question -/

section Ways

variable {s : Service σ} {profile : Profile} {topic : String}

/-- The ways in which it goes to ask whether a survey is to be shown. -/
inductive Weighs (s : Service σ) (profile : Profile) (topic : String) :
    Except Abort Bool × Service σ → Prop
  | noTime {a : Abort} : s.clock.local? = .error a → Weighs s profile topic (.error a, s)
  | shut {d : DateTime} : s.clock.local? = .ok d → ¬ s.settings.survey.Open d.time →
      Weighs s profile topic (.ok false, s)
  /-- The last survey is not long enough ago, or it cannot be read when it was. -/
  | resting {d : DateTime} : s.clock.local? = .ok d → s.settings.survey.Open d.time →
      ¬ s.Rested profile → Weighs s profile topic (.ok false, (s.lastShown profile).2)
  | decided {d : DateTime} : s.clock.local? = .ok d → s.settings.survey.Open d.time →
      s.Rested profile → Weighs s profile topic
        (.ok ((s.lastShown profile).2.studiedEnough profile topic).1,
          ((s.lastShown profile).2.ledger profile).2)

/-- **The question goes one of these ways.** -/
theorem weighs_shouldShow (s : Service σ) (profile : Profile) (topic : String) :
    s.Weighs profile topic (s.shouldShow profile topic) := by
  have hstate := s.cooledDown_state profile
  have hrested := s.cooledDown_iff profile
  unfold shouldShow
  split
  next a ha => exact .noTime ha
  next d hd =>
    split
    next hopen =>
      rw [SurveySettings.inWindow_iff] at hopen
      generalize s.cooledDown profile = out at hstate hrested
      obtain ⟨cooled, s'⟩ := out
      dsimp only at hstate hrested
      subst hstate
      cases cooled with
      | false => exact .resting hd hopen fun h => by cases hrested.2 h
      | true =>
          have hway : Weighs s profile topic _ := .decided hd hopen (hrested.1 rfl)
          rw [← studiedEnough_state _ profile topic] at hway
          exact hway
    next hshut =>
      rw [SurveySettings.inWindow_iff] at hshut
      exact .shut hd hshut

end Ways

end Service

/-! ### What looking leaves as it was -/

namespace Cache

variable {σ α : Type} [Backend σ] {d : DocumentType α} {key : DocumentKey} {c : Cache α} {s : σ}

/-- What holds of a store as long as documents are loaded from it holds after a read. -/
theorem fetch_store {P : σ → Prop} (hload : ∀ t, P t → P (Backend.load key t).2) (hs : P s) :
    P (c.fetch d key s).2.2 := by
  have hloaded := hload s hs
  unfold fetch
  split
  next => exact hs
  next =>
    generalize Backend.load key s = out at hloaded
    obtain ⟨r, s'⟩ := out
    cases r with
    | error f => exact hloaded
    | ok text =>
        dsimp only
        split <;> exact hloaded

/-- The document in memory stays; if there is none it may be loaded. -/
structure Fills (r : Except Failure α) (c c' : Cache α) : Prop where
  writing_eq : c'.writing = c.writing
  kept_or_loaded : c'.held = c.held ∨ c.held = none ∧ ∃ a, c'.held = some a ∧ r = .ok a

theorem Fills.trans {r : Except Failure α} {c c' c'' : Cache α} (h : Fills r c c')
    (h' : Fills r c' c'') : Fills r c c'' := by
  refine ⟨h'.writing_eq.trans h.writing_eq, ?_⟩
  obtain hkept' | ⟨hnone', a, ha, hr⟩ := h'.kept_or_loaded
  · rw [hkept']
    exact h.kept_or_loaded
  · obtain hkept | ⟨hnone, a', ha', -⟩ := h.kept_or_loaded
    · exact .inr ⟨hkept.symm.trans hnone', a, ha, hr⟩
    · rw [ha'] at hnone'
      cases hnone'

theorem fills_fetch [LawfulStore σ] (d : DocumentType α) (key : DocumentKey) (c : Cache α) (s : σ) :
    Fills (decode d key ((kept s).payload key)) c (c.fetch d key s).2.1 := by
  have hload := LawfulStore.load key s
  unfold fetch
  split
  next => exact ⟨rfl, .inl rfl⟩
  next hnone =>
    generalize Backend.load key s = out at hload
    obtain ⟨r, s'⟩ := out
    cases r with
    | error f => exact ⟨rfl, .inl rfl⟩
    | ok text =>
        cases hload.found rfl
        dsimp only
        split
        next => exact ⟨rfl, .inl rfl⟩
        next a ha => exact ⟨rfl, .inr ⟨hnone, a, rfl, ha⟩⟩

end Cache

namespace Service

variable {σ : Type} [Backend σ] {s : Service σ} {profile : Profile} {topic : String}

theorem ledger_store {P : σ → Prop} (hload : ∀ key t, P t → P (Backend.load key t).2)
    (hs : P s.store) : P (s.ledger profile).2.store := by
  have hcache : P (s.cacheOf profile).2 := by
    unfold cacheOf
    split
    next => exact hs
    next => exact Cache.fetch_store (hload _) hs
  exact Cache.fetch_store (hload _) hcache

/-- What holds of the store as long as it is only read holds after the question. -/
theorem Weighs.store {P : σ → Prop} {out : Except Abort Bool × Service σ}
    (h : s.Weighs profile topic out) (hshown : ∀ q t, P t → P (Backend.lastShown q t).2)
    (hload : ∀ key t, P t → P (Backend.load key t).2) (hs : P s.store) : P out.2.store := by
  cases h with
  | noTime | shut => exact hs
  | resting => exact hshown _ _ hs
  | decided => exact ledger_store hload (hshown profile s.store hs)

variable [LawfulStore σ]

/-- The second service has looked at what the first one has of a profile.  The cache of the profile may be
a new one, and its ledger may be loaded; nothing else is different, and what is kept is not. -/
structure Inspects (profile : Profile) (s s' : Service σ) : Prop where
  clock_eq : s'.clock = s.clock
  settings_eq : s'.settings = s.settings
  trackers_eq : s'.trackers = s.trackers
  nextSession_eq : s'.nextSession = s.nextSession
  kept_eq : kept s'.store = kept s.store
  others_eq : ∀ q, q ≠ profile → s'.caches.get? q = s.caches.get? q
  /-- A cache stays, and so does the ledger in it. -/
  cache : ∀ c, s.caches.get? profile = some c → ∃ c', s'.caches.get? profile = some c' ∧
    Cache.Fills (ledgerOf (kept s.store) profile) c c'
  /-- A new cache has its writer, and if there is a ledger in it, it is the one that is kept. -/
  created : ∀ c', s.caches.get? profile = none → s'.caches.get? profile = some c' →
    Cache.Fills (ledgerOf (kept s.store) profile) ⟨none, true⟩ c'

theorem Inspects.refl (profile : Profile) (s : Service σ) : Inspects profile s s := by
  refine ⟨rfl, rfl, rfl, rfl, rfl, fun _ _ => rfl, ?_, ?_⟩
  · intro c hc
    exact ⟨c, hc, rfl, .inl rfl⟩
  · intro c' hnone hc'
    rw [hnone] at hc'
    cases hc'

theorem inspects_ledger (s : Service σ) (profile : Profile) :
    Inspects profile s (s.ledger profile).2 := by
  have hfills := Cache.fills_fetch Ledger.document (ledgerKey profile) (s.cacheOf profile).1
    (s.cacheOf profile).2
  rw [s.kept_cacheOf profile] at hfills
  have hcache : (s.ledger profile).2.caches.get? profile = some (Cache.fetch Ledger.document
      (ledgerKey profile) (s.cacheOf profile).1 (s.cacheOf profile).2).2.1 :=
    (SortedMap.get?_insert ..).trans (if_pos rfl)
  refine ⟨rfl, rfl, rfl, rfl, s.kept_ledger profile, ?_, ?_, ?_⟩
  · intro q hq
    exact (SortedMap.get?_insert ..).trans (if_neg hq)
  · intro c hc
    refine ⟨_, hcache, ?_⟩
    simp only [cacheOf, hc] at hfills ⊢
    exact hfills
  · intro c' hnone hc'
    cases hc'.symm.trans hcache
    refine Cache.Fills.trans ?_ hfills
    simp only [cacheOf, hnone, Cache.create]
    exact Cache.fills_fetch _ _ _ _

/-- Looking at the instant first makes no difference. -/
theorem Inspects.after_lastShown {s' : Service σ} (h : Inspects profile (s.lastShown profile).2 s') :
    Inspects profile s s' := by
  have hkept : kept (s.lastShown profile).2.store = kept s.store := s.kept_lastShown profile
  have hcache := h.cache
  have hcreated := h.created
  rw [hkept] at hcache hcreated
  exact ⟨h.clock_eq, h.settings_eq, h.trackers_eq, h.nextSession_eq, h.kept_eq.trans hkept, h.others_eq,
    hcache, hcreated⟩

/-- **The question changes nothing**, whichever way it goes. -/
theorem Weighs.inspects {out : Except Abort Bool × Service σ} (h : s.Weighs profile topic out) :
    Inspects profile s out.2 := by
  cases h with
  | noTime | shut => exact .refl profile s
  | resting => exact (Inspects.refl profile _).after_lastShown
  | decided => exact (inspects_ledger _ profile).after_lastShown

/-! ### The answer -/

section Answer

variable [PartitionedStore σ]

omit [LawfulStore σ] in
/-- Looking at the instant first makes no difference to the ledger. -/
theorem studied_lastShown (s : Service σ) (profile : Profile) (topic : String) :
    (s.lastShown profile).2.Studied profile topic ↔ s.Studied profile topic := by
  have halike : Alike ⟨profile, fun _ => true, .equal⟩ (s.lastShown profile).2 s :=
    ⟨rfl, rfl, (PartitionedStore.lastShown profile).keeps profile s.store, rfl, fun _ => rfl⟩
  have hledger := ((minds_ledger profile).alike rfl halike).1
  have hsettings : (s.lastShown profile).2.settings = s.settings := rfl
  rw [Studied, Studied, hledger, hsettings]

omit [LawfulStore σ] in
/-- **The answer is told by the conditions.** -/
theorem Weighs.answer {out : Except Abort Bool × Service σ} (h : s.Weighs profile topic out) :
    (∃ a, s.clock.local? = .error a ∧ out.1 = .error a) ∨
    ∃ d yes, s.clock.local? = .ok d ∧ out.1 = .ok yes ∧ (yes = true ↔ s.Due profile topic) := by
  cases h with
  | noTime ha => exact .inl ⟨_, ha, rfl⟩
  | shut hd hshut =>
      refine .inr ⟨_, false, hd, rfl, fun h => (by cases h), fun hdue => ?_⟩
      obtain ⟨d, hd', hopen⟩ := hdue.window
      cases hd.symm.trans hd'
      exact absurd hopen hshut
  | resting hd _ hrested =>
      exact .inr ⟨_, false, hd, rfl, fun h => (by cases h), fun hdue => absurd hdue.rested hrested⟩
  | decided hd hopen hrested =>
      refine .inr ⟨_, _, hd, rfl, ?_⟩
      rw [studiedEnough_iff, studied_lastShown]
      exact ⟨fun hstudied => ⟨⟨_, hd, hopen⟩, hrested, hstudied⟩, Due.studied⟩

/-- What is to be said of the question whether a survey is to be shown. -/
structure Gated (s : Service σ) (profile : Profile) (topic : String) : Prop where
  /-- A survey is to be shown exactly if it is due. -/
  shows_iff : (s.shouldShow profile topic).1 = .ok true ↔ s.Due profile topic
  /-- Otherwise none is to be shown, if there is a local time. -/
  otherwise : ¬ s.Due profile topic → ∀ d, s.clock.local? = .ok d →
    (s.shouldShow profile topic).1 = .ok false
  aborts_iff : ∀ a, (s.shouldShow profile topic).1 = .error a ↔ s.clock.local? = .error a
  /-- Outside the window nothing is looked at. -/
  shut : (∀ d, s.clock.local? = .ok d → ¬ s.settings.survey.Open d.time) →
    (s.shouldShow profile topic).2 = s
  /-- While the last survey is not long enough ago no ledger is looked at. -/
  resting : ∀ d, s.clock.local? = .ok d → s.settings.survey.Open d.time → ¬ s.Rested profile →
    (s.shouldShow profile topic).2 = { s with store := (Backend.lastShown profile s.store).2 }
  inspects : Inspects profile s (s.shouldShow profile topic).2
  /-- A window that does not end after it starts is never open. -/
  never : s.settings.survey.windowStart.before s.settings.survey.windowEnd = false →
    ∀ clock, (shouldShow { s with clock := clock } profile topic).1 ≠ .ok true

/-- The answer is told by the conditions, and nothing is changed. -/
theorem gated (s : Service σ) (profile : Profile) (topic : String) : s.Gated profile topic := by
  have hway := s.weighs_shouldShow profile topic
  refine ⟨?_, ?_, ?_, ?_, ?_, hway.inspects, ?_⟩
  · obtain ⟨a, ha, hout⟩ | ⟨d, yes, hd, hout, hdue⟩ := hway.answer
    · rw [hout]
      refine ⟨fun h => (by cases h), fun hdue => ?_⟩
      obtain ⟨d, hd, -⟩ := hdue.window
      cases ha.symm.trans hd
    · rw [hout, ← hdue, Except.ok.injEq]
  · intro hnot d hd
    obtain ⟨a, ha, -⟩ | ⟨_, yes, -, hout, hdue⟩ := hway.answer
    · cases ha.symm.trans hd
    · rw [hout, Bool.eq_false_iff.2 fun hyes => hnot (hdue.1 hyes)]
  · intro a
    obtain ⟨a', ha, hout⟩ | ⟨d, yes, hd, hout, -⟩ := hway.answer
    · rw [ha, hout]
      rw [Except.error.injEq, Except.error.injEq]
    · rw [hd, hout]
      exact ⟨fun h => (by cases h), fun h => by cases h⟩
  · intro hshut
    generalize s.shouldShow profile topic = out at hway
    cases hway with
    | noTime | shut => rfl
    | resting hd hopen | decided hd hopen => exact absurd hopen (hshut _ hd)
  · intro d hd hopen hrested
    generalize s.shouldShow profile topic = out at hway
    cases hway with
    | noTime ha => cases ha.symm.trans hd
    | shut hd' hshut =>
        cases hd.symm.trans hd'
        exact absurd hopen hshut
    | resting => rfl
    | decided _ _ hrested' => exact absurd hrested' hrested
  · intro hwindow clock hyes
    have hway' := weighs_shouldShow { s with clock := clock } profile topic
    obtain ⟨a, -, hout⟩ | ⟨d, yes, hd, hout, hdue⟩ := hway'.answer
    · rw [hyes] at hout
      cases hout
    · rw [hyes] at hout
      cases hout
      obtain ⟨d', -, hopen⟩ := (hdue.1 rfl).window
      exact SurveySettings.not_open hwindow _ hopen

end Answer

end Service

/-! ### In memory and in a database -/

namespace Memory

/-- The second store differs from the first one in the counts of the attempts to read. -/
structure ReadOnly (m m' : Memory) : Prop where
  uncounted_eq : m'.uncounted = m.uncounted
  attempts_eq : ∀ op, op ≠ .load → op ≠ .read → m'.attempts op = m.attempts op

/-- An attempt to read is counted, and nothing else happens. -/
theorem ReadOnly.attempt {β : Type} {m m' : Memory} (h : ReadOnly m m') {op : Operation}
    (hop : op = .load ∨ op = .read) (look : Memory → β) :
    ReadOnly m (m'.attempt op fun m => (look m, m)).2 := by
  have hcount : ReadOnly m (m'.count op) := by
    refine ⟨h.uncounted_eq, fun op' hload hread => ?_⟩
    have hne : op' ≠ op := by
      rintro rfl
      exact hop.elim hload hread
    rw [attempts_count, if_neg hne]
    exact h.attempts_eq op' hload hread
  cases hrefused : m'.refused op with
  | true =>
      rw [attempt_of_refused hrefused]
      exact hcount
  | false =>
      rw [attempt_of_not_refused hrefused]
      exact hcount

end Memory

namespace Service

/-- **Surveys are shown when they are due**, in every state of a service, over a store in memory and over a
database.  In memory attempts to read are counted; nothing else becomes of a store. -/
theorem surveys_gated (profile : Profile) (topic : String) :
    (∀ s : Service Memory, s.Gated profile topic ∧
      s.store.ReadOnly (s.shouldShow profile topic).2.store) ∧
    ∀ s : Service Database, s.Gated profile topic ∧ (s.shouldShow profile topic).2.store = s.store := by
  refine ⟨fun s => ⟨s.gated profile topic, ?_⟩, fun s => ⟨s.gated profile topic, ?_⟩⟩
  · exact (s.weighs_shouldShow profile topic).store (P := s.store.ReadOnly)
      (fun q _ h => h.attempt (.inr rfl) fun m => m.shown.get? q)
      (fun key _ h => h.attempt (.inl rfl) fun m => m.payload key) ⟨rfl, fun _ _ _ => rfl⟩
  · exact (s.weighs_shouldShow profile topic).store (P := fun db => db = s.store) (fun _ _ h => h)
      (fun _ _ h => h) rfl

/-- Five minutes in a ledger that no cache has loaded yet: at noon a survey is due.  In a window that ends
before it starts none is shown at any time. -/
theorem surveys_gated_at_noon :
    let l : Ledger := ⟨(∅ : SortedMap String TopicRecord).insert "t" ⟨"t", 300000, 0⟩⟩
    let m := Memory.blank.setPayload (ledgerKey "p") (some (Ledger.codec.compact l))
    let s : Service Memory := .start ⟨43200000, .zero⟩ .usual m
    let backwards : SurveySettings := ⟨.ofMinute 22 0 (by decide), .ofMinute 9 0 (by decide), 0, 0⟩
    s.Due "p" "t" ∧ (s.shouldShow "p" "t").1 = .ok true ∧
    ∀ clock, (shouldShow { s with settings := ⟨.usual, backwards⟩, clock := clock } "p" "t").1 ≠
      .ok true := by
  intro l m s backwards
  have hdecode : Cache.decode Ledger.document (ledgerKey "p") (m.payload (ledgerKey "p")) = .ok l := by
    rw [Memory.payload_setPayload_self]
    exact Cache.decode_encode rfl
  have hcache : s.cacheOf "p" = (⟨some l, true⟩, m.count .load) := by
    have hnone : s.caches.get? "p" = none := rfl
    simp only [cacheOf, hnone, Cache.create]
    change (Cache.fetch Ledger.document (ledgerKey "p") ⟨none, true⟩ m).2 = _
    rw [(Cache.Fetches.loaded rfl rfl hdecode).eq]
  have hledger : (s.ledger "p").1 = .ok l := by
    rw [ledger, hcache]
    rfl
  have hdue : s.Due "p" "t" := by
    obtain ⟨d, hd, htime⟩ : ∃ d, (⟨43200000, .zero⟩ : Clock).local? = .ok d ∧
        d.time = .ofMinute 12 0 (by decide) := ⟨_, rfl, by decide +kernel⟩
    have hopen : SurveySettings.usual.Open d.time := by
      rw [htime]
      exact ⟨by decide, by decide⟩
    have hstudied : 300000 ≤ l.studied "t" := by decide
    exact ⟨⟨d, hd, hopen⟩, ⟨none, rfl, fun n hn => by cases hn⟩, l, hledger, hstudied⟩
  have hgated := ((surveys_gated "p" "t").1 s).1
  refine ⟨hdue, hgated.shows_iff.2 hdue, ?_⟩
  exact (((surveys_gated "p" "t").1 { s with settings := ⟨.usual, backwards⟩ }).1).never (by decide)

end Service

end StudyTime
