/-
**A session is recorded as a whole, or not at all.**

What there is of a profile is the ledger in memory, and as long as there is none it is what the text in the
store stands for.  This is so in every state of a service, also when a cache and the text under it have come
apart.  Loading a ledger does not change what there is of it.  To record a session is to load the ledger if
need be, to merge the session and to store the text; whichever of these fails, nothing has changed but that
the ledger may be in memory now.  Otherwise the ledger is the one with the session, and all that is different
in the store is its text.

Main definitions:

* `Cache.current`, `Service.aggregate` — the document and the ledger that there are;
* `Cache.Updates` — the ways in which a change of a document goes;
* `Service.Merges` — the ways in which it goes to record a session.

Main results:

* `Service.aggregate_of_ledger` — a ledger that is read is the one that there is;
* `Cache.updates_write` — **every change of a document goes one of these ways**, over any lawful store;
* `Service.merges_record` — **so does every session that is recorded**.
-/

import StudyTime.Proofs.Service.Gating

set_option relaxedAutoImplicit false
set_option autoImplicit false

namespace StudyTime

/-! ### The document that there is -/

namespace Cache

variable {σ α : Type} [Backend σ] [LawfulStore σ] {d : DocumentType α} {key : DocumentKey}
variable {c c' : Cache α} {s s' : σ}

/-- The document that there is: the one in memory, or else the one that the kept text stands for. -/
def current (d : DocumentType α) (key : DocumentKey) (c : Cache α) (s : σ) : Except Failure α :=
  c.held.elim (decode d key ((kept s).payload key)) .ok

theorem current_of_held {a : α} (h : c.held = some a) : c.current d key s = .ok a := by
  rw [current, h]
  rfl

theorem current_of_none (h : c.held = none) : c.current d key s = decode d key ((kept s).payload key) := by
  rw [current, h]
  rfl

/-- What there is stays when it is loaded. -/
theorem Fills.current_eq (h : Fills (decode d key ((kept s).payload key)) c c')
    (hpayload : (kept s').payload key = (kept s).payload key) :
    c'.current d key s' = c.current d key s := by
  obtain hheld | ⟨hnone, a, ha, hdecode⟩ := h.kept_or_loaded
  · rw [current, current, hheld, hpayload]
  · rw [current_of_held ha, current_of_none hnone, hdecode]

theorem current_fetch (d : DocumentType α) (key : DocumentKey) (c : Cache α) (s : σ) :
    (c.fetch d key s).2.1.current d key (c.fetch d key s).2.2 = c.current d key s := by
  refine (fills_fetch d key c s).current_eq ?_
  rw [kept_fetch]

/-! ### Changing it -/

/-- The ways in which it goes to write a change of a document that is computed in any case. -/
inductive Updates (d : DocumentType α) (key : DocumentKey) (change : α → α) (c : Cache α) (s : σ) :
    Except CacheError (Reply α) × Cache α × σ → Prop
  | failed {e : CacheError} {c' : Cache α} {s' : σ} : e.key = key → kept s' = kept s →
      c'.current d key s' = c.current d key s → Updates d key change c s (.error e, c', s')
  | committed {a : α} {text : String} {c' : Cache α} {s' : σ} : c.current d key s = .ok a →
      d.encode (change a) = some text → kept s' = (kept s).setPayload key (some text) →
      c'.held = some (change a) →
      Updates d key change c s (.ok (.committed (change a)), c', s')

/-- **Every change of a document goes one of these ways.** -/
theorem updates_write (d : DocumentType α) (key : DocumentKey) (change : α → α) (c : Cache α) (s : σ) :
    Updates d key change c s (c.write d key (.update fun a => some (change a)) s) := by
  have hkept := kept_fetch d key c s
  have hcurrent := current_fetch d key c s
  have hheld : ∀ a, (c.fetch d key s).1 = .ok a → (c.fetch d key s).2.1.held = some a :=
    fun _ => fetch_held
  have hkey : ∀ e, (c.fetch d key s).1 = .error e → e.key = key := fun _ => fetch_key
  unfold write
  split
  next =>
    simp only [perform]
    generalize c.fetch d key s = out at hkept hcurrent hheld hkey
    obtain ⟨r, c₁, s₁⟩ := out
    dsimp only at hkept hcurrent hheld hkey
    cases r with
    | error e => exact .failed (hkey e rfl) hkept hcurrent
    | ok a =>
        rw [current_of_held (hheld a rfl)] at hcurrent
        dsimp only
        unfold commit
        split
        next => exact .failed rfl hkept ((current_of_held (hheld a rfl)).trans hcurrent)
        next text htext =>
          have hstore := LawfulStore.store key text s₁
          generalize Backend.store key text s₁ = out at hstore
          obtain ⟨r, s₂⟩ := out
          cases r with
          | error f =>
              exact .failed rfl ((hstore.kept_of_error rfl).trans hkept)
                ((current_of_held (hheld a rfl)).trans hcurrent)
          | ok u =>
              have hstored : kept s₂ = (kept s₁).setPayload key (some text) := hstore.kept_of_ok rfl
              exact .committed hcurrent.symm htext (hstored.trans (by rw [hkept])) rfl
  next => exact .failed rfl rfl rfl

end Cache

/-! ### The ledger that there is -/

namespace Service

variable {σ : Type} [Backend σ] [LawfulStore σ]

/-- The ledger that there is of a profile: the one in memory, or else the one that the kept text stands
for. -/
def aggregate (s : Service σ) (profile : Profile) : Except Failure Ledger :=
  ((s.caches.get? profile).getD ⟨none, true⟩).current Ledger.document (ledgerKey profile) s.store

variable {s : Service σ} {profile : Profile} {topic : String} {duration : UInt64}

/-- Without a cache it is the one that the kept text stands for. -/
theorem aggregate_of_none (h : s.caches.get? profile = none) :
    s.aggregate profile = ledgerOf (kept s.store) profile := by
  rw [aggregate, h]
  rfl

theorem aggregate_of_some {c : Cache Ledger} (h : s.caches.get? profile = some c) :
    s.aggregate profile = c.current Ledger.document (ledgerKey profile) s.store := by
  rw [aggregate, h]
  rfl

/-- A cache that is created changes nothing of what there is. -/
theorem current_cacheOf (s : Service σ) (profile : Profile) :
    (s.cacheOf profile).1.current Ledger.document (ledgerKey profile) (s.cacheOf profile).2 =
      s.aggregate profile := by
  unfold cacheOf
  split
  next c hc => exact (aggregate_of_some hc).symm
  next hnone =>
    rw [aggregate_of_none hnone]
    exact Cache.current_fetch Ledger.document (ledgerKey profile) ⟨none, true⟩ s.store

theorem aggregate_keep_self (s : Service σ) (profile : Profile) (c : Cache Ledger) (store : σ) :
    (s.keep profile c store).aggregate profile = c.current Ledger.document (ledgerKey profile) store :=
  aggregate_of_some (s.caches.get?_insert_self profile c)

/-- Of other profiles there is what there was, as long as their texts are kept. -/
theorem aggregate_keep_of_ne {q : Profile} (hq : q ≠ profile) (c : Cache Ledger) {store : σ}
    (hpayload : (kept store).payload (ledgerKey q) = (kept s.store).payload (ledgerKey q)) :
    (s.keep profile c store).aggregate q = s.aggregate q := by
  have hcaches : (s.keep profile c store).caches.get? q = s.caches.get? q :=
    s.caches.get?_insert_of_ne c hq
  have hstore : (s.keep profile c store).store = store := rfl
  rw [aggregate, aggregate, hcaches, Cache.current, Cache.current, hstore, hpayload]

/-- **A ledger that is read** is the one that there is. -/
theorem aggregate_of_ledger {l : Ledger} (h : (s.ledger profile).1 = .ok l) :
    s.aggregate profile = .ok l := by
  have hheld : ((s.cacheOf profile).1.fetch Ledger.document (ledgerKey profile)
      (s.cacheOf profile).2).2.1.held = some l := fetch_held h
  rw [← current_cacheOf, ← Cache.current_fetch, Cache.current_of_held hheld]

omit [LawfulStore σ] in
/-- A ledger in memory is read. -/
theorem ledger_keep_of_held {c : Cache Ledger} {l : Ledger} (h : c.held = some l) (store : σ) :
    ((s.keep profile c store).ledger profile).1 = .ok l := by
  have hcache : (s.keep profile c store).cacheOf profile = (c, store) := by
    have hget : (s.keep profile c store).caches.get? profile = some c := s.caches.get?_insert_self profile c
    rw [cacheOf, hget]
    rfl
  rw [ledger, hcache]
  simp only [Cache.fetch, h]

/-! ### Recording a session -/

/-- The ways in which it goes to record a session. -/
inductive Merges (s : Service σ) (profile : Profile) (topic : String) (duration : UInt64) :
    Except CacheError Unit × Service σ → Prop
  | failed {e : CacheError} {s' : Service σ} : e.key = ledgerKey profile → kept s'.store = kept s.store →
      (∀ q, s'.aggregate q = s.aggregate q) → Merges s profile topic duration (.error e, s')
  | merged {l l' : Ledger} {text : String} {s' : Service σ} : s.aggregate profile = .ok l →
      l.recordSession topic duration s.clock.now s.settings.learning.staleness = l' →
      Ledger.document.encode l' = some text →
      kept s'.store = (kept s.store).setPayload (ledgerKey profile) (some text) →
      (s'.ledger profile).1 = .ok l' → (∀ q, q ≠ profile → s'.aggregate q = s.aggregate q) →
      Merges s profile topic duration (.ok (), s')

/-- **Every session that is recorded goes one of these ways.** -/
theorem merges_record (s : Service σ) (profile : Profile) (topic : String) (duration : UInt64) :
    s.Merges profile topic duration (s.record profile topic duration) := by
  have hkept := s.kept_cacheOf profile
  have hcurrent := s.current_cacheOf profile
  simp only [record]
  generalize s.cacheOf profile = x at hkept hcurrent
  obtain ⟨c, store⟩ := x
  have hupdates := Cache.updates_write Ledger.document (ledgerKey profile)
    (fun l => l.recordSession topic duration s.clock.now s.settings.learning.staleness) c store
  dsimp only at hkept hcurrent ⊢
  generalize c.write _ _ _ store = out at hupdates
  cases hupdates with
  | failed hkey hkept' hcurrent' =>
      refine .failed hkey (hkept'.trans hkept) fun q => ?_
      by_cases hq : q = profile
      · rw [hq, aggregate_keep_self, hcurrent', hcurrent]
      · refine aggregate_keep_of_ne hq _ ?_
        rw [hkept', hkept]
  | committed hl htext hstored hheld =>
      rw [hcurrent] at hl
      rw [hkept] at hstored
      refine .merged hl rfl htext hstored (ledger_keep_of_held hheld _) fun q hq => ?_
      refine aggregate_keep_of_ne hq _ ?_
      rw [hstored, Kept.payload_setPayload_of_ne _ _ (ledgerKey_ne hq)]

end Service

end StudyTime
