/-
**What a store keeps.**

Whatever a store is made of, what matters to its users are the texts that it keeps under the keys of
documents and the instants that it keeps for profiles.  A lawful store changes them in the way that its
operations announce: one that fails changes nothing, one that reads changes nothing and finds what is
kept, and one that writes changes what it was asked to change and nothing else.  A store is sound as
long as none of its operations fails.

Main definitions:

* `Kept` — texts under keys and instants for profiles, and how they change;
* `Reads`, `Changes` — what it means that an operation reads or changes them;
* `LawfulStore` — stores of which every operation does what it should.

Main results: stores in memory and databases are lawful, and new ones are sound and keep nothing.
-/

import StudyTime.Database.Migration
import StudyTime.Memory

set_option relaxedAutoImplicit false
set_option autoImplicit false

namespace StudyTime

/-! ### Texts and instants -/

/-- Texts under keys and instants for profiles. -/
@[ext] structure Kept where
  payload : DocumentKey → Option String
  shown : String → Option Int64

namespace Kept

/-- Nothing. -/
def blank : Kept := ⟨fun _ => none, fun _ => none⟩

/-- Another text, or none, under a key. -/
def setPayload (k : Kept) (key : DocumentKey) (text : Option String) : Kept :=
  { k with payload := fun key' => if key' = key then text else k.payload key' }

/-- Another instant for a profile. -/
def setShown (k : Kept) (profile : String) (n : Int64) : Kept :=
  { k with shown := fun profile' => if profile' = profile then some n else k.shown profile' }

/-- Nothing any more for a profile. -/
def eraseProfile (k : Kept) (profile : String) : Kept where
  payload key := if key.profile = profile then none else k.payload key
  shown profile' := if profile' = profile then none else k.shown profile'

@[simp] theorem payload_setPayload_self (k : Kept) (key : DocumentKey) (text : Option String) :
    (k.setPayload key text).payload key = text := by
  simp [setPayload]

theorem payload_setPayload_of_ne (k : Kept) {key key' : DocumentKey} (text : Option String)
    (h : key' ≠ key) : (k.setPayload key text).payload key' = k.payload key' := by
  simp [setPayload, h]

@[simp] theorem shown_setPayload (k : Kept) (key : DocumentKey) (text : Option String) :
    (k.setPayload key text).shown = k.shown := rfl

end Kept

/-! ### Lawful stores -/

/-- Stores whose content can be looked at. -/
class Observed (σ : Type) where
  kept : σ → Kept
  /-- No operation on the store fails. -/
  Sound : σ → Prop

export Observed (kept Sound)

section Operations

variable {σ β : Type} [Observed σ]

/-- The operation changes nothing, and finds this value if it does not fail. -/
structure Reads (s : σ) (b : β) (out : Except Failure β × σ) : Prop where
  kept_eq : kept out.2 = kept s
  /-- What is found is the value. -/
  found : ∀ {b'}, out.1 = .ok b' → b' = b
  /-- On a sound store it is found, and the store stays sound. -/
  sound : Sound s → out.1 = .ok b ∧ Sound out.2

/-- The operation brings about this change, or fails and changes nothing. -/
structure Changes (s : σ) (change : Kept → Kept) (out : Except Failure Unit × σ) : Prop where
  /-- The change that is brought about. -/
  kept_of_ok : out.1 = .ok () → kept out.2 = change (kept s)
  kept_of_error : ∀ {f}, out.1 = .error f → kept out.2 = kept s
  /-- On a sound store it succeeds, and the store stays sound. -/
  sound : Sound s → out.1 = .ok () ∧ Sound out.2

end Operations

/-- A store that does what is asked of it, or fails and does nothing. -/
class LawfulStore (σ : Type) [Backend σ] extends Observed σ where
  /-- Loading a document reads its text. -/
  load : ∀ (key : DocumentKey) (s : σ), Reads s ((kept s).payload key) (Backend.load key s)
  /-- Storing a document changes its text. -/
  store : ∀ (key : DocumentKey) (text : String) (s : σ),
    Changes s (fun k => k.setPayload key (some text)) (Backend.store key text s)
  /-- Deleting a document drops its text. -/
  delete : ∀ (key : DocumentKey) (s : σ),
    Changes s (fun k => k.setPayload key none) (Backend.delete key s)
  /-- When a survey was last shown is read. -/
  lastShown : ∀ (profile : String) (s : σ),
    Reads s ((kept s).shown profile) (Backend.lastShown profile s)
  /-- Noting that a survey is shown changes the instant. -/
  setLastShown : ∀ (profile : String) (n : Int64) (s : σ),
    Changes s (fun k => k.setShown profile n) (Backend.setLastShown profile n s)
  /-- Erasing a profile drops all that is kept for it. -/
  eraseProfile : ∀ (profile : String) (s : σ),
    Changes s (fun k => k.eraseProfile profile) (Backend.eraseProfile profile s)

/-! ### Stores in memory -/

namespace Memory

instance : Observed Memory where
  kept m := ⟨m.payload, fun profile => m.shown.get? profile⟩
  Sound m := ∀ op, m.refused op = false

theorem attempt_of_refused {β : Type} {m : Memory} {op : Operation} (h : m.refused op = true)
    (carryOut : Memory → β × Memory) : m.attempt op carryOut = (.error (.injected op), m.count op) := by
  simp [attempt, count, h]

theorem attempt_of_not_refused {β : Type} {m : Memory} {op : Operation} (h : m.refused op = false)
    (carryOut : Memory → β × Memory) :
    m.attempt op carryOut = (.ok (carryOut (m.count op)).1, (carryOut (m.count op)).2) := by
  simp [attempt, count, h]

theorem payload_setPayload (m : Memory) (key key' : DocumentKey) (text : Option String) :
    (m.setPayload key text).payload key' = if key' = key then text else m.payload key' := by
  cases text with
  | none => exact m.payloads.get?_erase key key'
  | some text => exact m.payloads.get?_insert key key' text

theorem kept_setPayload (m : Memory) (key : DocumentKey) (text : Option String) :
    kept (m.setPayload key text) = (kept m).setPayload key text := by
  refine Kept.ext ?_ ?_
  · funext key'
    exact m.payload_setPayload key key' text
  · cases text <;> rfl

theorem kept_eraseProfile (m : Memory) (profile : String) :
    kept (m.eraseProfile profile) = (kept m).eraseProfile profile := by
  refine Kept.ext ?_ ?_
  · funext key
    change (m.payloads.filterKeys _).get? key = _
    rw [SortedMap.get?_filterKeys]
    by_cases hkey : key.profile = profile <;> simp [Kept.eraseProfile, hkey, kept, payload]
  · funext profile'
    exact m.shown.get?_erase profile profile'

/-- An attempt that only looks reads what it looks at. -/
theorem reads_attempt {β : Type} (op : Operation) (look : Memory → β) (m : Memory)
    (hlook : look (m.count op) = look m) :
    Reads m (look m) (m.attempt op fun m => (look m, m)) := by
  unfold attempt
  by_cases hop : (m.count op).refused op = true
  · rw [if_pos hop]
    constructor
    · rfl
    · intro b' h
      cases h
    · intro h
      exact absurd hop (by simp [count, h op])
  · rw [if_neg hop]
    constructor
    · rfl
    · intro b' h
      cases h
      exact hlook
    · intro h
      exact ⟨congrArg Except.ok hlook, h⟩

/-- An attempt to change something changes it. -/
theorem changes_attempt (op : Operation) (change : Memory → Memory) (m : Memory) {f : Kept → Kept}
    (hchange : kept (change (m.count op)) = f (kept m))
    (hrefused : (change (m.count op)).refused = m.refused) :
    Changes m f (m.attempt op fun m => ((), change m)) := by
  unfold attempt
  by_cases hop : (m.count op).refused op = true
  · rw [if_pos hop]
    constructor
    · intro h
      cases h
    · intro f' _
      rfl
    · intro h
      exact absurd hop (by simp [count, h op])
  · rw [if_neg hop]
    constructor
    · intro _
      exact hchange
    · intro f' h
      cases h
    · intro h
      refine ⟨rfl, ?_⟩
      intro op'
      rw [hrefused]
      exact h op'

instance : LawfulStore Memory where
  load key m := reads_attempt .load (fun m => m.payload key) m rfl
  store key text m :=
    changes_attempt .store (fun m => m.setPayload key (some text)) m
      ((m.count .store).kept_setPayload key (some text)) rfl
  delete key m :=
    changes_attempt .delete (fun m => m.setPayload key none) m
      ((m.count .delete).kept_setPayload key none) rfl
  lastShown profile m := reads_attempt .read (fun m => m.shown.get? profile) m rfl
  setLastShown profile n m := by
    refine changes_attempt .write (fun m => { m with shown := m.shown.insert profile n }) m ?_ rfl
    refine Kept.ext rfl ?_
    funext profile'
    exact m.shown.get?_insert profile profile' n
  eraseProfile profile m := by
    -- this one is never refused
    constructor
    · intro _
      exact m.kept_eraseProfile profile
    · intro f h
      cases h
    · intro h
      exact ⟨rfl, h⟩

theorem kept_blank : kept blank = Kept.blank := rfl

theorem sound_blank : Sound blank := fun _ => rfl

/-- A load that is not refused finds the text that is kept. -/
theorem load_of_not_refused {m : Memory} (h : m.refused .load = false) (key : DocumentKey) :
    Backend.load key m = (.ok (m.payload key), m.count .load) := by
  change m.attempt .load _ = _
  simp [attempt, count, h, payload]

end Memory

/-! ### Databases -/

namespace PayloadCell

/-- The text that a cell holds. -/
def text? : PayloadCell → Option String
  | .text s => some s
  | .other => none

end PayloadCell

namespace ShownCell

/-- The instant that a cell holds. -/
def instant? : ShownCell → Option Int64
  | .instant n => some n
  | _ => none

end ShownCell

namespace Tables

/-- The texts and the instants in the tables. -/
def content (t : Tables) : Kept where
  payload key := (t.entries.bind fun m => m.get? key).bind PayloadCell.text?
  shown profile := (t.profiles.bind fun m => m.get? profile).bind ShownCell.instant?

/-- Both tables are there and hold nothing that cannot be read. -/
structure Intact (t : Tables) : Prop where
  /-- The table of documents is there, and what it holds are texts. -/
  entries : ∃ m, t.entries = some m ∧ ∀ key, m.get? key ≠ some .other
  /-- The table of profiles is there, and what it holds are instants. -/
  profiles : ∃ m, t.profiles = some m ∧ ∀ profile s, m.get? profile ≠ some (.text s)

theorem entry_ok {t : Tables} {key : DocumentKey} {text : Option String}
    (h : t.entry key = .ok text) : text = t.content.payload key := by
  unfold entry at h
  split at h
  · cases h
  next m hm =>
    split at h <;> cases h
    next hnone => simp [content, hm, hnone]
    next hsome => simp [content, hm, hsome, PayloadCell.text?]

theorem Intact.entry {t : Tables} (h : t.Intact) (key : DocumentKey) :
    t.entry key = .ok (t.content.payload key) := by
  obtain ⟨m, hm, hother⟩ := h.entries
  have hkey := hother key
  unfold Tables.entry
  rw [hm]
  cases hget : m.get? key with
  | none => simp [content, hm, hget]
  | some cell =>
      cases cell with
      | text s => simp [content, hm, hget, PayloadCell.text?]
      | other => exact absurd hget hkey

theorem lastShown_ok {t : Tables} {profile : String} {n : Option Int64}
    (h : t.lastShown profile = .ok n) : n = t.content.shown profile := by
  unfold lastShown at h
  split at h
  · cases h
  next m hm =>
    split at h <;> cases h
    next hnone => simp [content, hm, hnone]
    next hnull => simp [content, hm, hnull, ShownCell.instant?]
    next hsome => simp [content, hm, hsome, ShownCell.instant?]

theorem Intact.lastShown {t : Tables} (h : t.Intact) (profile : String) :
    t.lastShown profile = .ok (t.content.shown profile) := by
  obtain ⟨m, hm, htext⟩ := h.profiles
  unfold Tables.lastShown
  rw [hm]
  cases hget : m.get? profile with
  | none => simp [content, hm, hget]
  | some cell =>
      cases cell with
      | null => simp [content, hm, hget, ShownCell.instant?]
      | instant n => simp [content, hm, hget, ShownCell.instant?]
      | text s => exact absurd hget (htext profile s)

/-- What a statement does that changes the tables. -/
structure Executes (t : Tables) (change : Kept → Kept) (out : Except Failure Tables) : Prop where
  /-- The change that is brought about. -/
  content_of_ok : ∀ {t'}, out = .ok t' → t'.content = change t.content
  /-- On intact tables it succeeds, and they stay intact. -/
  intact : t.Intact → ∃ t', out = .ok t' ∧ t'.Intact

theorem executes_putEntry (t : Tables) (key : DocumentKey) (text : String) :
    t.Executes (fun k => k.setPayload key (some text)) (t.putEntry key text) := by
  unfold putEntry
  constructor
  · intro t' h
    split at h
    · cases h
    next m hm =>
      cases h
      refine Kept.ext ?_ rfl
      funext key'
      by_cases hkey : key' = key
      · simp [content, Kept.setPayload, hkey, PayloadCell.text?]
      · simp [content, Kept.setPayload, hkey, hm, m.get?_insert_of_ne _ hkey]
  · rintro ⟨⟨m, hm, hother⟩, hprofiles⟩
    rw [hm]
    refine ⟨_, rfl, ⟨_, rfl, fun key' => ?_⟩, hprofiles⟩
    rw [m.get?_insert]
    split
    · simp
    · exact hother key'

theorem executes_deleteEntry (t : Tables) (key : DocumentKey) :
    t.Executes (fun k => k.setPayload key none) (t.deleteEntry key) := by
  unfold deleteEntry
  constructor
  · intro t' h
    split at h
    · cases h
    next m hm =>
      cases h
      refine Kept.ext ?_ rfl
      funext key'
      by_cases hkey : key' = key
      · simp [content, Kept.setPayload, hkey]
      · simp [content, Kept.setPayload, hkey, hm, m.get?_erase_of_ne hkey]
  · rintro ⟨⟨m, hm, hother⟩, hprofiles⟩
    rw [hm]
    refine ⟨_, rfl, ⟨_, rfl, fun key' => ?_⟩, hprofiles⟩
    rw [m.get?_erase]
    split
    · simp
    · exact hother key'

theorem executes_setLastShown (t : Tables) (profile : String) (n : Int64) :
    t.Executes (fun k => k.setShown profile n) (t.setLastShown profile n) := by
  unfold setLastShown
  constructor
  · intro t' h
    split at h
    · cases h
    next m hm =>
      cases h
      refine Kept.ext rfl ?_
      funext profile'
      by_cases hprofile : profile' = profile
      · simp [content, Kept.setShown, hprofile, ShownCell.instant?]
      · simp [content, Kept.setShown, hprofile, hm, m.get?_insert_of_ne _ hprofile]
  · rintro ⟨hentries, ⟨m, hm, htext⟩⟩
    rw [hm]
    refine ⟨_, rfl, hentries, ⟨_, rfl, fun profile' s => ?_⟩⟩
    rw [m.get?_insert]
    split
    · simp
    · exact htext profile' s

theorem executes_deleteProfile (t : Tables) (profile : String) :
    t.Executes (fun k => k.eraseProfile profile) (t.deleteProfile profile) := by
  unfold deleteProfile
  constructor
  · intro t' h
    split at h
    next es ps hes hps =>
      cases h
      refine Kept.ext ?_ ?_
      · funext key
        by_cases hkey : key.profile = profile
        · simp [content, Kept.eraseProfile, hkey, SortedMap.get?_filterKeys]
        · simp [content, Kept.eraseProfile, hkey, hes, SortedMap.get?_filterKeys]
      · funext profile'
        by_cases hprofile : profile' = profile
        · simp [content, Kept.eraseProfile, hprofile]
        · simp [content, Kept.eraseProfile, hprofile, hps, ps.get?_erase_of_ne hprofile]
    · cases h
  · rintro ⟨⟨es, hes, hother⟩, ⟨ps, hps, htext⟩⟩
    rw [hes, hps]
    refine ⟨_, rfl, ⟨_, rfl, fun key => ?_⟩, ⟨_, rfl, fun profile' s => ?_⟩⟩
    · rw [SortedMap.get?_filterKeys]
      split
      · exact hother key
      · simp
    · rw [ps.get?_erase]
      split
      · simp
      · exact htext profile' s

end Tables

namespace Database

instance : Observed Database where
  kept db := db.tables.content
  Sound db := db.working = true ∧ db.tables.Intact

/-- A question to the worker reads what it asks for. -/
theorem reads_query {β : Type} (db : Database) (ask : Tables → Except Failure β) (b : β)
    (hfound : ∀ {b'}, ask db.tables = .ok b' → b' = b)
    (hintact : db.tables.Intact → ask db.tables = .ok b) : Reads db b (db.query ask, db) := by
  constructor
  · rfl
  · intro b' h
    simp only [query] at h
    split at h
    · exact hfound h
    · cases h
  · intro h
    refine ⟨?_, h⟩
    simp only [query, h.1, if_true]
    exact hintact h.2

/-- A statement issued by the worker changes what it announces. -/
theorem changes_update (db : Database) {change : Kept → Kept}
    {statement : Tables → Except Failure Tables}
    (h : db.tables.Executes change (statement db.tables)) : Changes db change (db.update statement) := by
  unfold update
  by_cases hworking : db.working = true
  · rw [if_pos hworking]
    cases hout : statement db.tables with
    | error f =>
        constructor
        · intro hr
          cases hr
        · intro f' _
          rfl
        · intro hsound
          -- no statement fails on intact tables
          obtain ⟨t, ht, -⟩ := h.intact hsound.2
          rw [hout] at ht
          cases ht
    | ok t =>
        constructor
        · intro _
          exact h.content_of_ok hout
        · intro f' hr
          cases hr
        · intro hsound
          obtain ⟨t', ht', hintact⟩ := h.intact hsound.2
          rw [hout] at ht'
          cases ht'
          exact ⟨rfl, hworking, hintact⟩
  · rw [if_neg hworking]
    constructor
    · intro hr
      cases hr
    · intro f' _
      rfl
    · intro hsound
      exact absurd hsound.1 hworking

instance : LawfulStore Database where
  load key db := db.reads_query _ _ Tables.entry_ok fun h => h.entry key
  store key text db := db.changes_update (db.tables.executes_putEntry key text)
  delete key db := db.changes_update (db.tables.executes_deleteEntry key)
  lastShown profile db := db.reads_query _ _ Tables.lastShown_ok fun h => h.lastShown profile
  setLastShown profile n db := db.changes_update (db.tables.executes_setLastShown profile n)
  eraseProfile profile db := db.changes_update (db.tables.executes_deleteProfile profile)

/-- The migration of a database that was just created makes both tables. -/
theorem migrated_blank : Tables.blank.migrated = .ok ⟨currentVersion, some ∅, true, some ∅⟩ := by
  simp [Tables.migrated, Tables.migrate, Tables.upgrade, Tables.execute, Tables.blank,
    Statement.apply, script, currentVersion]

theorem fresh_eq : fresh = ⟨⟨currentVersion, some ∅, true, some ∅⟩, true⟩ := by
  simp only [fresh, open?, migrated_blank]

theorem open?_blank : open? .blank = .ok fresh := by
  simp only [open?, migrated_blank, fresh_eq]

theorem kept_fresh : kept fresh = Kept.blank := by
  rw [fresh_eq]
  rfl

theorem sound_fresh : Sound fresh := by
  rw [fresh_eq]
  exact ⟨rfl, ⟨∅, rfl, fun _ => by simp⟩, ⟨∅, rfl, fun _ _ => by simp⟩⟩

end Database

end StudyTime
