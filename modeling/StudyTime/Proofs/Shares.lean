/-
**What a store keeps for each profile.**

A store consists of its form, which none of its operations changes, and of a share for each profile.  An
operation for a profile is answered from the form and from the share of this profile, and if it changes
anything then it changes this share.  So two stores that are the same for a profile stay so under all
operations for it, and under the operations for other profiles, whatever they keep for these.

Main definitions:

* `Partitioned`, `SameFor` — forms and shares, and stores that are the same for a profile;
* `Looks`, `Touches`, `Spares` — what it means that an operation looks at a share or changes it;
* `PartitionedStore` — stores of which every operation keeps to one share.

Main results: stores in memory and databases are partitioned, and opening a database leaves the shares the
same.
-/

import StudyTime.Proofs.Stores
import StudyTime.Service

set_option relaxedAutoImplicit false
set_option autoImplicit false

namespace StudyTime

/-! ### Forms and shares -/

/-- Stores that have a form, and a share for each profile. -/
class Partitioned (σ : Type) where
  Form : Type
  Share : Type
  form : σ → Form
  share : Profile → σ → Share

/-- Two stores of which the form is the same and the share of a profile. -/
structure SameFor {σ : Type} [Partitioned σ] (profile : Profile) (s s' : σ) : Prop where
  form_eq : Partitioned.form s = Partitioned.form s'
  share_eq : Partitioned.share profile s = Partitioned.share profile s'

namespace SameFor

variable {σ : Type} [Partitioned σ] {profile : Profile} {s s' s'' : σ}

theorem refl (profile : Profile) (s : σ) : SameFor profile s s := ⟨rfl, rfl⟩

theorem symm (h : SameFor profile s s') : SameFor profile s' s :=
  ⟨h.form_eq.symm, h.share_eq.symm⟩

theorem trans (h : SameFor profile s s') (h' : SameFor profile s' s'') : SameFor profile s s'' :=
  ⟨h.form_eq.trans h'.form_eq, h.share_eq.trans h'.share_eq⟩

end SameFor

/-- The second store differs from the first one in the share of a profile at most. -/
structure Spares {σ : Type} [Partitioned σ] (profile : Profile) (s s' : σ) : Prop where
  form_eq : Partitioned.form s' = Partitioned.form s
  /-- All other shares are as they were. -/
  others : ∀ {q}, q ≠ profile → SameFor q s' s

namespace Spares

variable {σ : Type} [Partitioned σ] {profile : Profile} {s s' s'' : σ}

theorem of_same (h : ∀ q, SameFor q s' s) : Spares profile s s' :=
  ⟨(h profile).form_eq, fun _ => h _⟩

theorem refl (profile : Profile) (s : σ) : Spares profile s s := of_same fun q => .refl q s

theorem trans (h : Spares profile s s') (h' : Spares profile s' s'') : Spares profile s s'' :=
  ⟨h'.form_eq.trans h.form_eq, fun hq => (h'.others hq).trans (h.others hq)⟩

end Spares

section Operations

variable {σ β : Type} [Partitioned σ]

/-- The operation is answered from the share of a profile, and no share is changed. -/
structure Looks (profile : Profile) (op : σ → Except Failure β × σ) : Prop where
  answer_eq : ∀ {s s'}, SameFor profile s s' → (op s).1 = (op s').1
  /-- Nothing is changed. -/
  keeps : ∀ q s, SameFor q (op s).2 s

/-- The operation is answered from the share of a profile, and no other share is changed; if it fails
nothing is. -/
structure Touches (profile : Profile) (op : σ → Except Failure Unit × σ) : Prop where
  answer_eq : ∀ {s s'}, SameFor profile s s' → (op s).1 = (op s').1
  /-- What becomes of the share depends on nothing else. -/
  same : ∀ {s s'}, SameFor profile s s' → SameFor profile (op s).2 (op s').2
  spares : ∀ s, Spares profile s (op s).2
  keeps_of_error : ∀ {s f}, (op s).1 = .error f → SameFor profile (op s).2 s

/-- Looking at a share leaves stores the same. -/
theorem Looks.same {profile : Profile} {op : σ → Except Failure β × σ} (h : Looks profile op)
    {q : Profile} {s s' : σ} (hs : SameFor q s s') : SameFor q (op s).2 (op s').2 :=
  ((h.keeps q s).trans hs).trans (h.keeps q s').symm

theorem Looks.spares {profile : Profile} {op : σ → Except Failure β × σ} (h : Looks profile op)
    (q : Profile) (s : σ) : Spares q s (op s).2 :=
  .of_same fun q => h.keeps q s

end Operations

/-- A store of which every operation for a profile keeps to the share of this profile. -/
class PartitionedStore (σ : Type) [Backend σ] extends Partitioned σ where
  load : ∀ profile : Profile, Looks profile (Backend.load (σ := σ) (ledgerKey profile))
  store : ∀ (profile : Profile) (text : String),
    Touches profile (Backend.store (σ := σ) (ledgerKey profile) text)
  delete : ∀ profile : Profile, Touches profile (Backend.delete (σ := σ) (ledgerKey profile))
  lastShown : ∀ profile : Profile, Looks profile (Backend.lastShown (σ := σ) profile)
  setLastShown : ∀ (profile : Profile) (n : Int64),
    Touches profile (Backend.setLastShown (σ := σ) profile n)
  eraseProfile : ∀ profile : Profile, Touches profile (Backend.eraseProfile (σ := σ) profile)
  /-- Where texts can be loaded, a text that was stored is loaded from then on. -/
  load_store : ∀ (profile : Profile) (text : String) (s : σ) {before : Option String},
    (Backend.load (ledgerKey profile) s).1 = .ok before →
    (Backend.store (ledgerKey profile) text s).1 = .ok () →
    (Backend.load (ledgerKey profile) (Backend.store (ledgerKey profile) text s).2).1 =
      .ok (some text)
  /-- Noting an instant is nothing to the texts. -/
  load_setLastShown : ∀ (profile : Profile) (n : Int64) (s : σ),
    (Backend.load (ledgerKey profile) (Backend.setLastShown profile n s).2).1 =
      (Backend.load (ledgerKey profile) s).1

/-! ### Stores in memory -/

namespace Memory

/-- The form are the switches, and each profile has the text of its ledger and its instant. -/
instance : Partitioned Memory where
  Form := Operation → Bool
  Share := Option String × Option Int64
  form m := m.refused
  share profile m := (m.payload (ledgerKey profile), m.shown.get? profile)

variable {m m' : Memory} {profile : Profile}

theorem sameFor_iff : SameFor profile m m' ↔ m.refused = m'.refused ∧
    m.payload (ledgerKey profile) = m'.payload (ledgerKey profile) ∧
    m.shown.get? profile = m'.shown.get? profile := by
  constructor
  · intro h
    exact ⟨h.form_eq, congrArg Prod.fst h.share_eq, congrArg Prod.snd h.share_eq⟩
  · rintro ⟨hrefused, hpayload, hshown⟩
    exact ⟨hrefused, Prod.ext hpayload hshown⟩

theorem same_count (op : Operation) (m : Memory) (profile : Profile) :
    SameFor profile (m.count op) m := ⟨rfl, rfl⟩

/-- An attempt to look at something of a profile looks at its share. -/
theorem looks_attempt {β : Type} (op : Operation) {look : Memory → β}
    (hlook : ∀ {m m'}, SameFor profile m m' → look m = look m') :
    Looks profile (attempt op fun m => (look m, m)) := by
  constructor
  · intro m m' h
    have hrefused : m.refused op = m'.refused op := congrFun h.form_eq op
    cases hop : m'.refused op with
    | true => rw [attempt_of_refused (hrefused.trans hop), attempt_of_refused hop]
    | false =>
        rw [attempt_of_not_refused (hrefused.trans hop), attempt_of_not_refused hop]
        exact congrArg Except.ok (hlook ⟨h.form_eq, h.share_eq⟩)
  · intro q m
    cases hop : m.refused op with
    | true => rw [attempt_of_refused hop]; exact same_count op m q
    | false => rw [attempt_of_not_refused hop]; exact same_count op m q

/-- An attempt to change something of a profile changes its share. -/
theorem touches_attempt (op : Operation) {change : Memory → Memory}
    (hsame : ∀ {m m'}, SameFor profile m m' → SameFor profile (change m) (change m'))
    (hspares : ∀ m, Spares profile m (change m)) :
    Touches profile (attempt op fun m => ((), change m)) := by
  constructor
  · intro m m' h
    have hrefused : m.refused op = m'.refused op := congrFun h.form_eq op
    cases hop : m'.refused op with
    | true => rw [attempt_of_refused (hrefused.trans hop), attempt_of_refused hop]
    | false => rw [attempt_of_not_refused (hrefused.trans hop), attempt_of_not_refused hop]
  · intro m m' h
    have hrefused : m.refused op = m'.refused op := congrFun h.form_eq op
    cases hop : m'.refused op with
    | true =>
        rw [attempt_of_refused (hrefused.trans hop), attempt_of_refused hop]
        exact ⟨h.form_eq, h.share_eq⟩
    | false =>
        rw [attempt_of_not_refused (hrefused.trans hop), attempt_of_not_refused hop]
        exact hsame ⟨h.form_eq, h.share_eq⟩
  · intro m
    have hcount : Spares profile m (m.count op) := .of_same (same_count op m)
    cases hop : m.refused op with
    | true => rw [attempt_of_refused hop]; exact hcount
    | false => rw [attempt_of_not_refused hop]; exact hcount.trans (hspares _)
  · intro m f h
    cases hop : m.refused op with
    | true => rw [attempt_of_refused hop]; exact same_count op m profile
    | false =>
        rw [attempt_of_not_refused hop] at h
        cases h

theorem spares_setPayload (m : Memory) (profile : Profile) (text : Option String) :
    Spares profile m (m.setPayload (ledgerKey profile) text) := by
  constructor
  · cases text <;> rfl
  · intro q hq
    have hkey : ledgerKey q ≠ ledgerKey profile := fun h => hq (congrArg DocumentKey.profile h)
    refine sameFor_iff.2 ⟨by cases text <;> rfl, ?_, by cases text <;> rfl⟩
    rw [payload_setPayload, if_neg hkey]

theorem same_setPayload (h : SameFor profile m m') (text : Option String) :
    SameFor profile (m.setPayload (ledgerKey profile) text)
      (m'.setPayload (ledgerKey profile) text) := by
  obtain ⟨hrefused, -, hshown⟩ := sameFor_iff.1 h
  refine sameFor_iff.2 ⟨?_, ?_, ?_⟩
  · cases text <;> exact hrefused
  · rw [payload_setPayload, payload_setPayload, if_pos rfl, if_pos rfl]
  · cases text <;> exact hshown

instance : PartitionedStore Memory where
  load profile := looks_attempt .load fun h => (sameFor_iff.1 h).2.1
  store profile text :=
    touches_attempt .store (fun h => same_setPayload h (some text))
      fun m => m.spares_setPayload profile (some text)
  delete profile :=
    touches_attempt .delete (fun h => same_setPayload h none) fun m => m.spares_setPayload profile none
  lastShown profile := looks_attempt .read fun h => (sameFor_iff.1 h).2.2
  setLastShown profile n := by
    refine touches_attempt .write (fun {m m'} h => ?_) fun m => ?_
    · obtain ⟨hrefused, hpayload, -⟩ := sameFor_iff.1 h
      refine sameFor_iff.2 ⟨hrefused, hpayload, ?_⟩
      exact (m.shown.get?_insert_self profile n).trans (m'.shown.get?_insert_self profile n).symm
    · refine ⟨rfl, fun {q} hq => sameFor_iff.2 ⟨rfl, rfl, ?_⟩⟩
      exact m.shown.get?_insert_of_ne n hq
  eraseProfile profile := by
    -- this one is never refused
    refine ⟨fun _ => rfl, fun {m m'} h => ?_, fun m => ⟨rfl, fun {q} hq => ?_⟩, fun h => by cases h⟩
    · refine sameFor_iff.2 ⟨(sameFor_iff.1 h).1, ?_, ?_⟩
      · change (m.payloads.filterKeys _).get? _ = (m'.payloads.filterKeys _).get? _
        simp [SortedMap.get?_filterKeys, ledgerKey]
      · exact (m.shown.get?_erase_self profile).trans (m'.shown.get?_erase_self profile).symm
    · refine sameFor_iff.2 ⟨rfl, ?_, m.shown.get?_erase_of_ne hq⟩
      change (m.payloads.filterKeys _).get? _ = m.payloads.get? _
      simp [SortedMap.get?_filterKeys, ledgerKey, hq]
  load_store profile text m before hload hstore := by
    change (m.attempt .load fun m => (m.payload (ledgerKey profile), m)).1 = _ at hload
    change (m.attempt .store fun m => ((), m.setPayload (ledgerKey profile) (some text))).1 = _
      at hstore
    cases hr : m.refused .load with
    | true =>
        rw [attempt_of_refused hr] at hload
        cases hload
    | false =>
        cases hs : m.refused .store with
        | true =>
            rw [attempt_of_refused hs] at hstore
            cases hstore
        | false =>
            have hstored : (Backend.store (ledgerKey profile) text m).2 =
                (m.count .store).setPayload (ledgerKey profile) (some text) :=
              congrArg Prod.snd (attempt_of_not_refused hs _)
            rw [hstored, load_of_not_refused (by exact hr), payload_setPayload, if_pos rfl]
  load_setLastShown profile n m := by
    change (Backend.load (ledgerKey profile) (m.attempt .write fun m =>
      ((), { m with shown := m.shown.insert profile n })).2).1 = _
    cases hw : m.refused .write with
    | true =>
        rw [attempt_of_refused hw]
        exact (looks_attempt .load fun h => (sameFor_iff.1 h).2.1).answer_eq (same_count .write m profile)
    | false =>
        rw [attempt_of_not_refused hw]
        cases hr : m.refused .load with
        | true =>
            change (attempt .load _ _).1 = (attempt .load _ _).1
            rw [attempt_of_refused hr, attempt_of_refused (by exact hr)]
        | false =>
            rw [load_of_not_refused hr, load_of_not_refused (by exact hr)]
            rfl

end Memory

/-! ### Databases -/

namespace Tables

/-- The form are the version and the tables that are there, and each profile has the row of its ledger
and its row in the table of profiles. -/
instance : Partitioned Tables where
  Form := Int × Bool × Bool
  Share := Option PayloadCell × Option ShownCell
  form t := (t.version, t.entries.isSome, t.profiles.isSome)
  share profile t :=
    (t.entries.bind fun m => m.get? (ledgerKey profile), t.profiles.bind fun m => m.get? profile)

/-- Two tables that are both absent, or that have the same row under a key. -/
inductive SameRow {κ ν : Type} [KeyOrder κ] (key : κ) :
    Option (SortedMap κ ν) → Option (SortedMap κ ν) → Prop
  | absent : SameRow key none none
  | present {m m' : SortedMap κ ν} (h : m.get? key = m'.get? key) : SameRow key (some m) (some m')

theorem SameRow.refl {κ ν : Type} [KeyOrder κ] (key : κ) :
    ∀ o : Option (SortedMap κ ν), SameRow key o o
  | none => .absent
  | some _ => .present rfl

theorem sameRow_iff {κ ν : Type} [KeyOrder κ] {key : κ} {o o' : Option (SortedMap κ ν)} :
    SameRow key o o' ↔ o.isSome = o'.isSome ∧
      (o.bind fun m => m.get? key) = o'.bind fun m => m.get? key := by
  constructor
  · rintro (_ | h)
    · exact ⟨rfl, rfl⟩
    · exact ⟨rfl, h⟩
  · rintro ⟨hsome, hget⟩
    cases o <;> cases o'
    · exact .absent
    · cases hsome
    · cases hsome
    · exact .present hget

theorem sameFor_iff {t t' : Tables} {profile : Profile} : SameFor profile t t' ↔
    t.version = t'.version ∧ SameRow (ledgerKey profile) t.entries t'.entries ∧
      SameRow profile t.profiles t'.profiles := by
  rw [sameRow_iff, sameRow_iff]
  constructor
  · rintro ⟨hform, hshare⟩
    obtain ⟨hversion, hform⟩ := Prod.mk.inj hform
    obtain ⟨hentries, hprofiles⟩ := Prod.mk.inj hform
    obtain ⟨hentry, hprofile⟩ := Prod.mk.inj hshare
    exact ⟨hversion, ⟨hentries, hentry⟩, hprofiles, hprofile⟩
  · rintro ⟨hversion, ⟨hentries, hentry⟩, hprofiles, hprofile⟩
    constructor
    · simp only [Partitioned.form, hversion, hentries, hprofiles]
    · simp only [Partitioned.share, hentry, hprofile]

/-- A statement for a profile: its outcome depends on the share of the profile, and it changes no other
share. -/
structure Concerns (profile : Profile) (statement : Tables → Except Failure Tables) : Prop where
  /-- Tables that are the same for the profile stay so, or the statement fails on both. -/
  same : ∀ {t t'}, SameFor profile t t' →
    (∃ f, statement t = .error f ∧ statement t' = .error f) ∨
    ∃ u u', statement t = .ok u ∧ statement t' = .ok u' ∧ SameFor profile u u'
  spares : ∀ {t u}, statement t = .ok u → Spares profile t u

/-- A statement that puts a row under the key of a profile, or drops it. -/
theorem concerns_entries {profile : Profile} {f : Failure} {row : Option PayloadCell}
    {change : SortedMap DocumentKey PayloadCell → SortedMap DocumentKey PayloadCell}
    (hrow : ∀ m, (change m).get? (ledgerKey profile) = row)
    (hother : ∀ m {key}, key ≠ ledgerKey profile → (change m).get? key = m.get? key) :
    Concerns profile fun t => match t.entries with
      | none => .error f
      | some m => .ok { t with entries := some (change m) } := by
  constructor
  · rintro ⟨version, entries, indexed, profiles⟩ ⟨version', entries', indexed', profiles'⟩ h
    obtain ⟨hversion, hentries, hprofiles⟩ := sameFor_iff.1 h
    dsimp only at hversion hentries hprofiles ⊢
    cases hentries with
    | absent => exact .inl ⟨f, rfl, rfl⟩
    | present hget =>
        refine .inr ⟨_, _, rfl, rfl, sameFor_iff.2 ⟨hversion, .present ?_, hprofiles⟩⟩
        rw [hrow, hrow]
  · rintro ⟨version, entries, indexed, profiles⟩ u h
    cases entries with
    | none => cases h
    | some m =>
        cases h
        refine ⟨rfl, fun {q} hq => sameFor_iff.2 ⟨rfl, .present ?_, .refl q _⟩⟩
        exact hother m fun e => hq (congrArg DocumentKey.profile e)

theorem concerns_putEntry (profile : Profile) (text : String) :
    Concerns profile fun t => t.putEntry (ledgerKey profile) text :=
  concerns_entries (fun m => m.get?_insert_self _ _) fun m _ h => m.get?_insert_of_ne _ h

theorem concerns_deleteEntry (profile : Profile) :
    Concerns profile fun t => t.deleteEntry (ledgerKey profile) :=
  concerns_entries (fun m => m.get?_erase_self _) fun m _ h => m.get?_erase_of_ne h

theorem concerns_setLastShown (profile : Profile) (n : Int64) :
    Concerns profile fun t => t.setLastShown profile n := by
  constructor
  · rintro ⟨version, entries, indexed, profiles⟩ ⟨version', entries', indexed', profiles'⟩ h
    obtain ⟨hversion, hentries, hprofiles⟩ := sameFor_iff.1 h
    dsimp only at hversion hentries hprofiles
    cases hprofiles with
    | absent => exact .inl ⟨_, rfl, rfl⟩
    | present hget =>
        refine .inr ⟨_, _, rfl, rfl, sameFor_iff.2 ⟨hversion, hentries, .present ?_⟩⟩
        rw [SortedMap.get?_insert_self, SortedMap.get?_insert_self]
  · rintro ⟨version, entries, indexed, profiles⟩ u h
    cases profiles with
    | none => cases h
    | some m =>
        cases h
        refine ⟨rfl, fun {q} hq => sameFor_iff.2 ⟨rfl, .refl _ _, .present ?_⟩⟩
        exact m.get?_insert_of_ne _ hq

theorem concerns_deleteProfile (profile : Profile) :
    Concerns profile fun t => t.deleteProfile profile := by
  constructor
  · rintro ⟨version, entries, indexed, profiles⟩ ⟨version', entries', indexed', profiles'⟩ h
    obtain ⟨hversion, hentries, hprofiles⟩ := sameFor_iff.1 h
    dsimp only at hversion hentries hprofiles
    cases hentries with
    | absent => exact .inl ⟨_, rfl, rfl⟩
    | present hentry =>
        cases hprofiles with
        | absent => exact .inl ⟨_, rfl, rfl⟩
        | present hprofile =>
            refine .inr ⟨_, _, rfl, rfl, sameFor_iff.2 ⟨hversion, .present ?_, .present ?_⟩⟩
            · simp [SortedMap.get?_filterKeys, ledgerKey]
            · rw [SortedMap.get?_erase_self, SortedMap.get?_erase_self]
  · rintro ⟨version, entries, indexed, profiles⟩ u h
    cases entries with
    | none => cases h
    | some es =>
        cases profiles with
        | none => cases h
        | some ps =>
            cases h
            refine ⟨rfl, fun {q} hq => sameFor_iff.2 ⟨rfl, .present ?_, .present ?_⟩⟩
            · simp [SortedMap.get?_filterKeys, ledgerKey, hq]
            · exact ps.get?_erase_of_ne hq

theorem entry_congr {t t' : Tables} {profile : Profile} (h : SameFor profile t t') :
    t.entry (ledgerKey profile) = t'.entry (ledgerKey profile) := by
  obtain ⟨-, hentries, -⟩ := sameFor_iff.1 h
  unfold entry
  generalize t.entries = o, t'.entries = o' at hentries
  cases hentries with
  | absent => rfl
  | present hget => simp only [hget]

theorem lastShown_congr {t t' : Tables} {profile : Profile} (h : SameFor profile t t') :
    t.lastShown profile = t'.lastShown profile := by
  obtain ⟨-, -, hprofiles⟩ := sameFor_iff.1 h
  unfold lastShown
  generalize t.profiles = o, t'.profiles = o' at hprofiles
  cases hprofiles with
  | absent => rfl
  | present hget => simp only [hget]

end Tables

namespace Database

/-- To the form of the tables comes whether the worker is there. -/
instance : Partitioned Database where
  Form := Bool × Partitioned.Form Tables
  Share := Partitioned.Share Tables
  form db := (db.working, Partitioned.form db.tables)
  share profile db := Partitioned.share profile db.tables

theorem sameFor_iff {db db' : Database} {profile : Profile} : SameFor profile db db' ↔
    db.working = db'.working ∧ SameFor profile db.tables db'.tables := by
  constructor
  · rintro ⟨hform, hshare⟩
    obtain ⟨hworking, htables⟩ := Prod.mk.inj hform
    exact ⟨hworking, htables, hshare⟩
  · rintro ⟨hworking, htables⟩
    exact ⟨Prod.ext hworking htables.form_eq, htables.share_eq⟩

theorem looks_query {β : Type} {profile : Profile} {ask : Tables → Except Failure β}
    (hask : ∀ {t t'}, SameFor profile t t' → ask t = ask t') :
    Looks profile fun db : Database => (db.query ask, db) := by
  constructor
  · intro db db' h
    obtain ⟨hworking, htables⟩ := sameFor_iff.1 h
    simp only [query, hworking, hask htables]
  · intro q db
    exact .refl q db

theorem touches_update {profile : Profile} {statement : Tables → Except Failure Tables}
    (h : Tables.Concerns profile statement) : Touches profile fun db : Database => db.update statement := by
  constructor
  · intro db db' hs
    obtain ⟨hworking, htables⟩ := sameFor_iff.1 hs
    obtain ⟨f, hf, hf'⟩ | ⟨u, u', hu, hu', -⟩ := h.same htables
    · simp only [update, hworking, hf, hf']
      split <;> rfl
    · simp only [update, hworking, hu, hu']
      split <;> rfl
  · intro db db' hs
    obtain ⟨hworking, htables⟩ := sameFor_iff.1 hs
    obtain ⟨f, hf, hf'⟩ | ⟨u, u', hu, hu', hsame⟩ := h.same htables
    · simp only [update, hworking, hf, hf']
      split <;> exact hs
    · simp only [update, hworking, hu, hu']
      split
      · exact sameFor_iff.2 ⟨rfl, hsame⟩
      · exact hs
  · intro db
    simp only [update]
    split
    · split
      next => exact .refl profile db
      next u hu =>
        have hspares := h.spares hu
        exact ⟨Prod.ext rfl hspares.form_eq, fun hq => sameFor_iff.2 ⟨rfl, hspares.others hq⟩⟩
    · exact .refl profile db
  · intro db f hf
    simp only [update] at hf ⊢
    split
    next hworking =>
      rw [if_pos hworking] at hf
      split
      next => exact .refl profile db
      next u hu =>
        rw [hu] at hf
        cases hf
    next => exact .refl profile db

instance : PartitionedStore Database where
  load _ := looks_query Tables.entry_congr
  store profile text := touches_update (Tables.concerns_putEntry profile text)
  delete profile := touches_update (Tables.concerns_deleteEntry profile)
  lastShown _ := looks_query Tables.lastShown_congr
  setLastShown profile n := touches_update (Tables.concerns_setLastShown profile n)
  eraseProfile profile := touches_update (Tables.concerns_deleteProfile profile)
  load_store profile text db before hload hstore := by
    obtain ⟨⟨version, entries, indexed, profiles⟩, working⟩ := db
    -- a load that is answered needs the worker and the table of documents
    cases working with
    | false => cases hload
    | true =>
        cases entries with
        | none => cases hload
        | some m =>
            change Tables.entry ⟨version, some (m.insert (ledgerKey profile) (.text text)), indexed,
              profiles⟩ (ledgerKey profile) = _
            simp [Tables.entry]
  load_setLastShown profile n db := by
    obtain ⟨⟨version, entries, indexed, profiles⟩, working⟩ := db
    cases working <;> cases profiles <;> rfl

end Database

/-! ### Opening a database -/

namespace Tables

/-- The migration of a database of any version, when no statement is refused. -/
theorem migrated_eq (t : Tables) : t.migrated =
    if currentVersion < t.version then .error (.laterVersion t.version currentVersion)
    else if t.version = 2 then .ok t
    else if t.version = 1 then
      .ok { t with version := currentVersion, profiles := some (t.profiles.getD ∅) }
    else if t.version = 0 then
      .ok ⟨currentVersion, some (t.entries.getD ∅), true, some (t.profiles.getD ∅)⟩
    else .error (.inside (.migration (t.version + 1)) (.unknownVersion (t.version + 1))) := by
  obtain ⟨version, entries, indexed, profiles⟩ := t
  simp only [migrated, migrate, Bool.false_eq_true, if_false]
  split
  next => rfl
  next hlater =>
    split
    next heq => simp_all [currentVersion]
    next hne =>
      by_cases h1 : version = 1
      · subst h1
        simp [upgrade, execute, Statement.apply, script, currentVersion]
      · by_cases h0 : version = 0
        · subst h0
          simp [upgrade, execute, Statement.apply, script, currentVersion]
        · -- there is no way up from a negative version
          have hnext : script (version + 1) = none := by
            simp only [currentVersion] at *
            unfold script
            rw [if_neg (by omega), if_neg (by omega)]
          have hlt : version < currentVersion := by
            simp only [currentVersion] at *
            omega
          rw [upgrade, if_pos hlt]
          simp only [hnext]
          simp_all [currentVersion]

/-- The versions from which a migration succeeds, and what it makes of each. -/
theorem migrated_cases {t u : Tables} (h : t.migrated = .ok u) :
    (t.version = 2 ∧ u = t) ∨
    (t.version = 1 ∧
      u = { t with version := currentVersion, profiles := some (t.profiles.getD ∅) }) ∨
    (t.version = 0 ∧
      u = ⟨currentVersion, some (t.entries.getD ∅), true, some (t.profiles.getD ∅)⟩) := by
  rw [migrated_eq] at h
  split at h
  next => cases h
  next =>
    split at h
    next htwo =>
      cases h
      exact .inl ⟨htwo, rfl⟩
    next =>
      split at h
      next hone =>
        cases h
        exact .inr (.inl ⟨hone, rfl⟩)
      next =>
        split at h
        next hzero =>
          cases h
          exact .inr (.inr ⟨hzero, rfl⟩)
        next => cases h

theorem SameRow.getD {κ ν : Type} [KeyOrder κ] {key : κ} {o o' : Option (SortedMap κ ν)}
    (h : SameRow key o o') : SameRow key (some (o.getD ∅)) (some (o'.getD ∅)) := by
  cases h with
  | absent => exact .present rfl
  | present h => exact .present h

/-- Tables that are the same for a profile are migrated alike. -/
theorem migrated_congr {t t' : Tables} {profile : Profile} (h : SameFor profile t t') :
    (∃ f, t.migrated = .error f ∧ t'.migrated = .error f) ∨
    ∃ u u', t.migrated = .ok u ∧ t'.migrated = .ok u' ∧ SameFor profile u u' := by
  obtain ⟨hversion, hentries, hprofiles⟩ := sameFor_iff.1 h
  rw [migrated_eq, migrated_eq, ← hversion]
  split
  next => exact .inl ⟨_, rfl, rfl⟩
  next =>
    split
    next => exact .inr ⟨_, _, rfl, rfl, h⟩
    next =>
      split
      next => exact .inr ⟨_, _, rfl, rfl, sameFor_iff.2 ⟨rfl, hentries, hprofiles.getD⟩⟩
      next =>
        split
        next => exact .inr ⟨_, _, rfl, rfl, sameFor_iff.2 ⟨rfl, hentries.getD, hprofiles.getD⟩⟩
        next => exact .inl ⟨_, rfl, rfl⟩

/-- Migrating leads to the current version and leaves what the tables hold. -/
theorem of_migrated {t u : Tables} (h : t.migrated = .ok u) :
    u.version = currentVersion ∧ u.content = t.content := by
  have hgetD : ∀ {κ ν : Type} [KeyOrder κ] (o : Option (SortedMap κ ν)) (k : κ),
      (o.getD ∅).get? k = o.bind fun m => m.get? k := by
    intro κ ν _ o k
    cases o <;> rfl
  obtain ⟨hversion, rfl⟩ | ⟨-, rfl⟩ | ⟨-, rfl⟩ := migrated_cases h
  · exact ⟨hversion, rfl⟩
  · exact ⟨rfl, by simp [content, hgetD]⟩
  · exact ⟨rfl, by simp [content, hgetD]⟩

end Tables

namespace Database

/-- Databases that are the same for a profile are opened alike. -/
theorem open?_congr {t t' : Tables} {profile : Profile} (h : SameFor profile t t') :
    (∃ f, open? t = .error f ∧ open? t' = .error f) ∨
    ∃ db db', open? t = .ok db ∧ open? t' = .ok db' ∧ SameFor profile db db' := by
  unfold open?
  obtain ⟨f, hf, hf'⟩ | ⟨u, u', hu, hu', hsame⟩ := Tables.migrated_congr h
  · rw [hf, hf']
    exact .inl ⟨_, rfl, rfl⟩
  · rw [hu, hu']
    exact .inr ⟨_, _, rfl, rfl, sameFor_iff.2 ⟨rfl, hsame⟩⟩

/-- A database of the current version is opened as it is. -/
theorem open?_of_current {t : Tables} (h : t.version = currentVersion) : open? t = .ok ⟨t, true⟩ := by
  have hmigrated : t.migrated = .ok t := by
    rw [Tables.migrated_eq, h]
    rfl
  rw [open?, hmigrated]

/-- What is opened works, has the current version, and holds what the file held. -/
theorem of_open? {t : Tables} {db : Database} (h : open? t = .ok db) :
    db.working = true ∧ db.tables.version = currentVersion ∧ db.tables.content = t.content := by
  unfold open? at h
  split at h
  next => cases h
  next u hu =>
    cases h
    exact ⟨rfl, Tables.of_migrated hu⟩

end Database

end StudyTime
