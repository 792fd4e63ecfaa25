/-
**Caches that answer what the store would answer.**

A cache of a ledger is faithful if it has its writer, and a ledger that it holds is the one that would be
loaded.  Whether a faithful cache holds a ledger makes no difference to the answers.  Two caches over stores
that are the same for their profile agree if they are equal, or if both are faithful; what is read from
caches that agree, or written to them, is answered alike, and they agree afterwards.

Main definitions: `Faithful`, `Regard`, `Agree`.

Main results:

* `Faithful.fetch`, `Faithful.commit` — what keeps a cache faithful;
* `Agree.fetch`, `Agree.write`, `Agree.clear` — **reading, changing and dropping** ledgers in caches that
  agree;
* `write_spares` — a cache of a profile keeps to the share of this profile.
-/

import StudyTime.Proofs.Cache.Coherence
import StudyTime.Proofs.Shares

set_option relaxedAutoImplicit false
set_option autoImplicit false

namespace StudyTime

variable {σ : Type} [Backend σ]

/-! ### Faithful caches -/

/-- A cache that answers what the store would answer: it has its writer, and a ledger that it holds would
also be loaded. -/
structure Faithful (profile : Profile) (c : Cache Ledger) (s : σ) : Prop where
  writing : c.writing = true
  /-- What is held would be loaded. -/
  loads : ∀ {l}, c.held = some l → ∃ text,
    (Backend.load (ledgerKey profile) s).1 = .ok text ∧
    Cache.decode Ledger.document (ledgerKey profile) text = .ok l

theorem faithful_empty (profile : Profile) (s : σ) : Faithful profile ⟨none, true⟩ s :=
  ⟨rfl, fun hl => by cases hl⟩

/-- What was read is held. -/
theorem fetch_held {α : Type} {d : DocumentType α} {key : DocumentKey} {c : Cache α} {s : σ} {a : α}
    (h : (c.fetch d key s).1 = .ok a) : (c.fetch d key s).2.1.held = some a := by
  unfold Cache.fetch at h ⊢
  cases hheld : c.held with
  | some a' =>
      rw [hheld] at h
      cases h
      exact hheld
  | none =>
      rw [hheld] at h
      dsimp only at h ⊢
      split at h
      next => cases h
      next hload =>
        split at h
        next => cases h
        next =>
          cases h
          rfl

/-- A change of the ledger is read, computed and committed. -/
theorem write_update {profile : Profile} {c : Cache Ledger} {s : σ} (h : c.writing = true)
    (change : Ledger → Ledger) :
    c.write Ledger.document (ledgerKey profile) (.update fun l => some (change l)) s =
      match c.fetch Ledger.document (ledgerKey profile) s with
      | (.error e, c, s) => (.error e, c, s)
      | (.ok l, c, s) => c.commit Ledger.document (ledgerKey profile) (change l) s := by
  simp only [Cache.write, h, if_true, Cache.perform]
  generalize c.fetch Ledger.document (ledgerKey profile) s = out
  obtain ⟨r, c, s⟩ := out
  cases r <;> rfl

theorem write_clear {profile : Profile} {c : Cache Ledger} {s : σ} (h : c.writing = true) :
    c.write Ledger.document (ledgerKey profile) .clear s =
      c.drop Ledger.document (ledgerKey profile) s := by
  simp only [Cache.write, h, if_true, Cache.perform]

/-- What is said of a fetch that fails names the document. -/
theorem fetch_key {α : Type} {d : DocumentType α} {key : DocumentKey} {c : Cache α} {s : σ}
    {e : CacheError} (h : (c.fetch d key s).1 = .error e) : e.key = key := by
  unfold Cache.fetch at h
  split at h
  · cases h
  · split at h
    · cases h
      rfl
    · split at h <;> cases h
      rfl

/-- What is said of a command that fails names the document. -/
theorem write_key {α : Type} {d : DocumentType α} {key : DocumentKey} {cmd : Command α} {c : Cache α}
    {s : σ} {e : CacheError} (h : (c.write d key cmd s).1 = .error e) : e.key = key := by
  have hcommit : ∀ {a c} {s : σ}, (Cache.commit d key a c s).1 = .error e → e.key = key := by
    intro a c s h
    unfold Cache.commit at h
    split at h
    · cases h
      rfl
    · split at h <;> cases h
      rfl
  have hfetch : (c.fetch d key s).1 = .error e → e.key = key := fetch_key
  cases cmd with
  | clear =>
      simp only [Cache.write, Cache.perform, Cache.drop] at h
      split at h
      · split at h <;> cases h
        rfl
      · cases h
        rfl
  | update change =>
      simp only [Cache.write, Cache.perform] at h
      generalize c.fetch d key s = out at h hfetch
      obtain ⟨r, c₁, s₁⟩ := out
      split at h
      · cases r with
        | error e' =>
            cases h
            exact hfetch rfl
        | ok a =>
            dsimp only at h
            cases hchange : change a with
            | none =>
                simp only [hchange] at h
                cases h
                rfl
            | some a' =>
                simp only [hchange] at h
                exact hcommit h
      · cases h
        rfl

variable [PartitionedStore σ]

theorem Faithful.of_same {profile : Profile} {c : Cache Ledger} {s s' : σ}
    (h : Faithful profile c s) (hs : SameFor profile s' s) : Faithful profile c s' := by
  refine ⟨h.writing, fun {l} hl => ?_⟩
  rw [(PartitionedStore.load profile).answer_eq hs]
  exact h.loads hl

/-- Reading a cache leaves the store as it is. -/
theorem fetch_same (profile q : Profile) (c : Cache Ledger) (s : σ) :
    SameFor q (c.fetch Ledger.document (ledgerKey profile) s).2.2 s := by
  have hkeeps := (PartitionedStore.load profile).keeps q s
  unfold Cache.fetch
  split
  · exact .refl q s
  · split
    next hload =>
      rw [hload] at hkeeps
      exact hkeeps
    next hload =>
      rw [hload] at hkeeps
      split <;> exact hkeeps

/-- A faithful cache reads what a new one reads, and stays faithful. -/
theorem Faithful.fetch {profile : Profile} {c : Cache Ledger} {s : σ} (h : Faithful profile c s) :
    (c.fetch Ledger.document (ledgerKey profile) s).1 =
      (Cache.fetch Ledger.document (ledgerKey profile) ⟨none, true⟩ s).1 ∧
    Faithful profile (c.fetch Ledger.document (ledgerKey profile) s).2.1
      (c.fetch Ledger.document (ledgerKey profile) s).2.2 := by
  have hkeeps := fetch_same profile profile c s
  cases hheld : c.held with
  | some l =>
      obtain ⟨text, hload, hdecode⟩ := h.loads hheld
      simp only [Cache.fetch, hheld]
      refine ⟨?_, h⟩
      generalize Backend.load (ledgerKey profile) s = out at hload
      obtain ⟨r, s'⟩ := out
      cases hload
      simp only [hdecode]
  | none =>
      simp only [Cache.fetch, hheld] at hkeeps ⊢
      have hanswer := (PartitionedStore.load profile).answer_eq hkeeps
      cases hload : Backend.load (ledgerKey profile) s with
      | mk r s' =>
          simp only [hload] at hkeeps hanswer ⊢
          cases r with
          | error f => exact ⟨rfl, h.writing, fun hl => by simp [hheld] at hl⟩
          | ok text =>
              dsimp only at hkeeps hanswer ⊢
              cases hdecode : Cache.decode Ledger.document (ledgerKey profile) text with
              | error f => exact ⟨rfl, h.writing, fun hl => by simp [hheld] at hl⟩
              | ok l =>
                  simp only [hdecode] at hkeeps hanswer
                  refine ⟨rfl, h.writing, fun hl => ?_⟩
                  cases hl
                  exact ⟨text, hanswer, hdecode⟩

theorem fetch_congr {profile : Profile} {s s' : σ} (h : SameFor profile s s') (c : Cache Ledger) :
    (c.fetch Ledger.document (ledgerKey profile) s).1 =
      (c.fetch Ledger.document (ledgerKey profile) s').1 ∧
    (c.fetch Ledger.document (ledgerKey profile) s).2.1 =
      (c.fetch Ledger.document (ledgerKey profile) s').2.1 := by
  have hload := (PartitionedStore.load profile).answer_eq h
  unfold Cache.fetch
  cases c.held with
  | some l => exact ⟨rfl, rfl⟩
  | none =>
      generalize Backend.load (ledgerKey profile) s = out,
        Backend.load (ledgerKey profile) s' = out' at hload
      obtain ⟨r, t⟩ := out
      obtain ⟨r', t'⟩ := out'
      cases hload
      cases r with
      | error f => exact ⟨rfl, rfl⟩
      | ok text =>
          dsimp only
          split <;> exact ⟨rfl, rfl⟩

theorem commit_congr {profile : Profile} {s s' : σ} (h : SameFor profile s s') (l : Ledger)
    (c c' : Cache Ledger) :
    (c.commit Ledger.document (ledgerKey profile) l s).1 =
      (c'.commit Ledger.document (ledgerKey profile) l s').1 ∧
    (c = c' → (c.commit Ledger.document (ledgerKey profile) l s).2.1 =
      (c'.commit Ledger.document (ledgerKey profile) l s').2.1) ∧
    SameFor profile (c.commit Ledger.document (ledgerKey profile) l s).2.2
      (c'.commit Ledger.document (ledgerKey profile) l s').2.2 := by
  unfold Cache.commit
  split
  next => exact ⟨rfl, id, h⟩
  next text htext =>
    have hstore := (PartitionedStore.store profile text).answer_eq h
    have hsame := (PartitionedStore.store profile text).same h
    generalize Backend.store (ledgerKey profile) text s = out,
      Backend.store (ledgerKey profile) text s' = out' at hstore hsame
    obtain ⟨r, t⟩ := out
    obtain ⟨r', t'⟩ := out'
    cases hstore
    cases r with
    | error f => exact ⟨rfl, id, hsame⟩
    | ok u => exact ⟨rfl, fun hc => by rw [hc], hsame⟩

theorem drop_congr {profile : Profile} {s s' : σ} (h : SameFor profile s s') (c c' : Cache Ledger) :
    (c.drop Ledger.document (ledgerKey profile) s).1 =
      (c'.drop Ledger.document (ledgerKey profile) s').1 ∧
    SameFor profile (c.drop Ledger.document (ledgerKey profile) s).2.2
      (c'.drop Ledger.document (ledgerKey profile) s').2.2 := by
  have hdelete := (PartitionedStore.delete profile).answer_eq h
  have hsame := (PartitionedStore.delete profile).same h
  unfold Cache.drop
  generalize Backend.delete (ledgerKey profile) s = out,
    Backend.delete (ledgerKey profile) s' = out' at hdelete hsame
  obtain ⟨r, t⟩ := out
  obtain ⟨r', t'⟩ := out'
  cases hdelete
  cases r <;> exact ⟨rfl, hsame⟩

/-- Committing over a faithful cache that holds something leaves it faithful. -/
theorem Faithful.commit {profile : Profile} {c : Cache Ledger} {s : σ} (h : Faithful profile c s)
    {l₀ : Ledger} (hheld : c.held = some l₀) (l : Ledger) :
    Faithful profile (c.commit Ledger.document (ledgerKey profile) l s).2.1
      (c.commit Ledger.document (ledgerKey profile) l s).2.2 := by
  obtain ⟨before, hload, -⟩ := h.loads hheld
  unfold Cache.commit
  split
  next => exact h
  next text htext =>
    have herror : ∀ {f}, (Backend.store (ledgerKey profile) text s).1 = .error f → _ :=
      (PartitionedStore.store profile text).keeps_of_error
    have hloaded := PartitionedStore.load_store profile text s hload
    generalize Backend.store (ledgerKey profile) text s = out at herror hloaded
    obtain ⟨r, s'⟩ := out
    cases r with
    | error f => exact h.of_same (herror rfl)
    | ok u =>
        refine ⟨h.writing, fun hl => ?_⟩
        cases hl
        exact ⟨some text, hloaded rfl, Cache.decode_encode htext⟩

/-- Deleting that fails changes nothing for the profile. -/
theorem drop_of_error {profile : Profile} {c : Cache Ledger} {s : σ} {e : CacheError}
    (h : (c.drop Ledger.document (ledgerKey profile) s).1 = .error e) :
    (c.drop Ledger.document (ledgerKey profile) s).2.1 = c ∧
    SameFor profile (c.drop Ledger.document (ledgerKey profile) s).2.2 s := by
  have herror : ∀ {f}, (Backend.delete (ledgerKey profile) s).1 = .error f → _ :=
    (PartitionedStore.delete profile).keeps_of_error
  unfold Cache.drop at h ⊢
  generalize Backend.delete (ledgerKey profile) s = out at h herror
  obtain ⟨r, s'⟩ := out
  cases r with
  | error f => exact ⟨rfl, herror rfl⟩
  | ok u => cases h

/-- Clearing that fails leaves the cache as it is and changes nothing for the profile. -/
theorem clear_of_error {profile : Profile} {c : Cache Ledger} {s : σ} {e : CacheError}
    (h : (c.write Ledger.document (ledgerKey profile) .clear s).1 = .error e) :
    (c.write Ledger.document (ledgerKey profile) .clear s).2.1 = c ∧
    SameFor profile (c.write Ledger.document (ledgerKey profile) .clear s).2.2 s := by
  cases hwriting : c.writing with
  | false =>
      rw [Cache.write_of_not_writing hwriting]
      exact ⟨rfl, .refl profile s⟩
  | true =>
      rw [write_clear hwriting] at h ⊢
      exact drop_of_error h

/-- **A cache of a profile keeps to its share**, whatever it is told to do. -/
theorem write_spares (profile : Profile) (cmd : Command Ledger) (c : Cache Ledger) (s : σ) :
    Spares profile s (c.write Ledger.document (ledgerKey profile) cmd s).2.2 := by
  have hcommit : ∀ (l : Ledger) (c : Cache Ledger) (s : σ),
      Spares profile s (c.commit Ledger.document (ledgerKey profile) l s).2.2 := by
    intro l c s
    unfold Cache.commit
    split
    · exact .refl profile s
    next text _ =>
      have hspares := (PartitionedStore.store profile text).spares s
      generalize Backend.store (ledgerKey profile) text s = out at hspares
      obtain ⟨r, s'⟩ := out
      cases r <;> exact hspares
  have hdrop : Spares profile s (c.drop Ledger.document (ledgerKey profile) s).2.2 := by
    have hspares := (PartitionedStore.delete profile).spares s
    unfold Cache.drop
    generalize Backend.delete (ledgerKey profile) s = out at hspares
    obtain ⟨r, s'⟩ := out
    cases r <;> exact hspares
  have hfetch : Spares profile s (c.fetch Ledger.document (ledgerKey profile) s).2.2 :=
    .of_same fun q => fetch_same profile q c s
  cases cmd with
  | clear =>
      simp only [Cache.write, Cache.perform]
      split
      · exact hdrop
      · exact .refl profile s
  | update change =>
      simp only [Cache.write, Cache.perform]
      generalize c.fetch Ledger.document (ledgerKey profile) s = out at hfetch
      obtain ⟨r, c₁, s₁⟩ := out
      split
      · cases r with
        | error e => exact hfetch
        | ok l =>
            dsimp only
            cases change l with
            | none => exact hfetch
            | some l' => exact hfetch.trans (hcommit l' c₁ s₁)
      · exact .refl profile s

/-! ### Caches that agree -/

/-- What it takes for two caches to count as the same. -/
inductive Regard where
  | equal
  | faithful
  | either

/-- The caches count as the same, given whether they are equal and whether they are faithful. -/
def Regard.Holds (regard : Regard) (equal faithful : Prop) : Prop :=
  match regard with
  | .equal => equal
  | .faithful => faithful
  | .either => equal ∨ faithful

namespace Regard.Holds

variable {regard : Regard} {a b a' b' : Prop}

theorem elim {c : Prop} (h : regard.Holds a b) (ha : a → c) (hb : b → c) : c := by
  cases regard with
  | equal => exact ha h
  | faithful => exact hb h
  | either => exact Or.elim h ha hb

theorem imp (h : regard.Holds a b) (ha : a → a') (hb : b → b') : regard.Holds a' b' := by
  cases regard with
  | equal => exact ha h
  | faithful => exact hb h
  | either => exact Or.imp ha hb h

theorem intro (ha : a) (hb : b) : regard.Holds a b := by
  cases regard with
  | equal => exact ha
  | faithful => exact hb
  | either => exact .inl ha

end Regard.Holds

/-- Caches with their stores that answer alike. -/
structure Agree (regard : Regard) (profile : Profile) (x x' : Cache Ledger × σ) : Prop where
  same : SameFor profile x.2 x'.2
  caches : regard.Holds (x.1 = x'.1) (Faithful profile x.1 x.2 ∧ Faithful profile x'.1 x'.2)

namespace Agree

variable {regard : Regard} {profile : Profile} {c c' : Cache Ledger} {s s' : σ}

theorem writing_eq (h : Agree regard profile (c, s) (c', s')) : c.writing = c'.writing :=
  h.caches.elim (congrArg Cache.writing) fun ⟨hc, hc'⟩ => hc.writing.trans hc'.writing.symm

/-- **Reading** caches that agree. -/
theorem fetch (h : Agree regard profile (c, s) (c', s')) :
    (c.fetch Ledger.document (ledgerKey profile) s).1 =
      (c'.fetch Ledger.document (ledgerKey profile) s').1 ∧
    Agree regard profile (c.fetch Ledger.document (ledgerKey profile) s).2
      (c'.fetch Ledger.document (ledgerKey profile) s').2 := by
  have hsame : SameFor profile (c.fetch Ledger.document (ledgerKey profile) s).2.2
      (c'.fetch Ledger.document (ledgerKey profile) s').2.2 :=
    ((fetch_same _ _ c s).trans h.same).trans (fetch_same _ _ c' s').symm
  refine ⟨h.caches.elim ?_ ?_, hsame, h.caches.imp ?_ ?_⟩
  · rintro rfl
    exact (fetch_congr h.same c).1
  · rintro ⟨hc, hc'⟩
    -- what a new cache reads is settled by the share
    rw [hc.fetch.1, hc'.fetch.1, (fetch_congr h.same ⟨none, true⟩).1]
  · rintro rfl
    exact (fetch_congr h.same c).2
  · rintro ⟨hc, hc'⟩
    exact ⟨hc.fetch.2, hc'.fetch.2⟩

/-- **Committing** over caches that agree and hold something. -/
theorem commit (h : Agree regard profile (c, s) (c', s')) {l₀ l₀' : Ledger} (hheld : c.held = some l₀)
    (hheld' : c'.held = some l₀') (l : Ledger) :
    (c.commit Ledger.document (ledgerKey profile) l s).1 =
      (c'.commit Ledger.document (ledgerKey profile) l s').1 ∧
    Agree regard profile (c.commit Ledger.document (ledgerKey profile) l s).2
      (c'.commit Ledger.document (ledgerKey profile) l s').2 := by
  obtain ⟨hanswer, hcache, hsame⟩ := commit_congr h.same l c c'
  exact ⟨hanswer, hsame, h.caches.imp hcache fun ⟨hc, hc'⟩ => ⟨hc.commit hheld l, hc'.commit hheld' l⟩⟩

/-- **Writing** a change of the ledger to caches that agree. -/
theorem write (h : Agree regard profile (c, s) (c', s')) (change : Ledger → Ledger) :
    (c.write Ledger.document (ledgerKey profile) (.update fun l => some (change l)) s).1 =
      (c'.write Ledger.document (ledgerKey profile) (.update fun l => some (change l)) s').1 ∧
    Agree regard profile
      (c.write Ledger.document (ledgerKey profile) (.update fun l => some (change l)) s).2
      (c'.write Ledger.document (ledgerKey profile) (.update fun l => some (change l)) s').2 := by
  cases hwriting : c.writing with
  | false =>
      rw [Cache.write_of_not_writing hwriting,
        Cache.write_of_not_writing (h.writing_eq.symm.trans hwriting)]
      exact ⟨rfl, h⟩
  | true =>
      rw [write_update hwriting, write_update (h.writing_eq.symm.trans hwriting)]
      obtain ⟨hanswer, hagree⟩ := h.fetch
      have hheld : ∀ l, (c.fetch Ledger.document (ledgerKey profile) s).1 = .ok l → _ :=
        fun l => fetch_held
      have hheld' : ∀ l, (c'.fetch Ledger.document (ledgerKey profile) s').1 = .ok l → _ :=
        fun l => fetch_held
      generalize c.fetch Ledger.document (ledgerKey profile) s = out,
        c'.fetch Ledger.document (ledgerKey profile) s' = out' at hanswer hagree hheld hheld'
      obtain ⟨r, c₁, s₁⟩ := out
      obtain ⟨r', c₁', s₁'⟩ := out'
      cases hanswer
      cases r with
      | error e => exact ⟨rfl, hagree⟩
      | ok l => exact hagree.commit (hheld l rfl) (hheld' l rfl) (change l)

/-- **Clearing** caches that agree: they are answered alike, and still agree if that fails. -/
theorem clear (h : Agree regard profile (c, s) (c', s')) :
    (c.write Ledger.document (ledgerKey profile) .clear s).1 =
      (c'.write Ledger.document (ledgerKey profile) .clear s').1 ∧
    SameFor profile (c.write Ledger.document (ledgerKey profile) .clear s).2.2
      (c'.write Ledger.document (ledgerKey profile) .clear s').2.2 ∧
    ∀ {e}, (c.write Ledger.document (ledgerKey profile) .clear s).1 = .error e →
      Agree regard profile (c.write Ledger.document (ledgerKey profile) .clear s).2
        (c'.write Ledger.document (ledgerKey profile) .clear s').2 := by
  have hsettled : (c.write Ledger.document (ledgerKey profile) .clear s).1 =
        (c'.write Ledger.document (ledgerKey profile) .clear s').1 ∧
      SameFor profile (c.write Ledger.document (ledgerKey profile) .clear s).2.2
        (c'.write Ledger.document (ledgerKey profile) .clear s').2.2 := by
    cases hwriting : c.writing with
    | false =>
        rw [Cache.write_of_not_writing hwriting,
          Cache.write_of_not_writing (h.writing_eq.symm.trans hwriting)]
        exact ⟨rfl, h.same⟩
    | true =>
        rw [write_clear hwriting, write_clear (h.writing_eq.symm.trans hwriting)]
        exact drop_congr h.same c c'
  obtain ⟨hanswer, hsame⟩ := hsettled
  refine ⟨hanswer, hsame, fun he => ⟨hsame, ?_⟩⟩
  obtain ⟨hcache, hkeeps⟩ := clear_of_error he
  obtain ⟨hcache', hkeeps'⟩ := clear_of_error (hanswer.symm.trans he)
  rw [hcache, hcache']
  exact h.caches.imp id fun ⟨hc, hc'⟩ => ⟨hc.of_same hkeeps, hc'.of_same hkeeps'⟩

end Agree

end StudyTime
