/-
**Every way in which reading and writing can go.**

Over a store in memory it is settled by the cache, by the switches and by the kept text how a read goes
and how a command goes.  The two relations of this module have one constructor for each way, which says
when it is taken, what is answered and what is left behind.  What is said of single reads and commands
elsewhere is read off them by cases, and what is said of a batch follows from its commands one by one.

Main definitions:

* `Memory.uncounted` — a store whose attempts were not counted;
* `Cache.Fetches`, `Cache.Writes` — the ways of a read and of a command.

Main results:

* `Cache.fetches_fetch`, `Cache.writes_write` — **every read and every command goes one of these ways**;
* `CacheRun.step_batch` — a batch is its commands one by one, with the answers of those who wait.
-/

import StudyTime.Proofs.Cache.Coherence

set_option relaxedAutoImplicit false
set_option autoImplicit false

namespace StudyTime

/-! ### Counts and switches -/

namespace Memory

variable (m : Memory) (op : Operation) (key : DocumentKey) (text : Option String) (on : Bool)

/-- The store as if no attempt had been counted. -/
def uncounted : Memory := { m with attempts := fun _ => 0 }

@[simp] theorem uncounted_count : (m.count op).uncounted = m.uncounted := rfl

@[simp] theorem uncounted_setPayload :
    (m.setPayload key text).uncounted = m.uncounted.setPayload key text := by
  cases text <;> rfl

@[simp] theorem payload_setPayload_self : (m.setPayload key text).payload key = text := by
  rw [payload_setPayload, if_pos rfl]

@[simp] theorem refused_count : (m.count op).refused = m.refused := rfl

@[simp] theorem refused_setPayload : (m.setPayload key text).refused = m.refused := by
  cases text <;> rfl

theorem refused_refuse (op' : Operation) :
    (m.refuse op on).refused op' = if op' = op then on else m.refused op' := rfl

theorem attempts_count (op' : Operation) :
    (m.count op).attempts op' = if op' = op then m.attempts op' + 1 else m.attempts op' := rfl

@[simp] theorem attempts_refuse : (m.refuse op on).attempts = m.attempts := rfl

@[simp] theorem attempts_setPayload : (m.setPayload key text).attempts = m.attempts := by
  cases text <;> rfl

theorem load_of_refused (h : m.refused .load = true) :
    Backend.load key m = (.error (.injected .load), m.count .load) := attempt_of_refused h _

theorem store_of_refused (h : m.refused .store = true) (text : String) :
    Backend.store key text m = (.error (.injected .store), m.count .store) := attempt_of_refused h _

theorem store_of_not_refused (h : m.refused .store = false) (text : String) :
    Backend.store key text m = (.ok (), (m.count .store).setPayload key (some text)) :=
  attempt_of_not_refused h _

theorem delete_of_refused (h : m.refused .delete = true) :
    Backend.delete key m = (.error (.injected .delete), m.count .delete) := attempt_of_refused h _

theorem delete_of_not_refused (h : m.refused .delete = false) :
    Backend.delete key m = (.ok (), (m.count .delete).setPayload key none) :=
  attempt_of_not_refused h _

variable {m} {m' : Memory} (h : m.uncounted = m'.uncounted)

include h

theorem refused_eq_of_uncounted : m.refused = m'.refused := by
  have heq : m.uncounted.refused = m'.uncounted.refused := by rw [h]
  exact heq

theorem payload_eq_of_uncounted : m.payload key = m'.payload key := by
  have heq : m.uncounted.payload key = m'.uncounted.payload key := by rw [h]
  exact heq

end Memory

/-! ### Reading -/

namespace Cache

variable {α : Type} {d : DocumentType α} {key : DocumentKey} {c : Cache α} {m : Memory}

/-- The ways in which reading goes. -/
inductive Fetches (d : DocumentType α) (key : DocumentKey) (c : Cache α) (m : Memory) :
    Except CacheError α × Cache α × Memory → Prop
  /-- The document is in memory. -/
  | held {a : α} : c.held = some a → Fetches d key c m (.ok a, c, m)
  | refused : c.held = none → m.refused .load = true →
      Fetches d key c m (.error (.load key (.injected .load)), c, m.count .load)
  /-- The text that is loaded stands for no document. -/
  | undecoded {f : Failure} : c.held = none → m.refused .load = false →
      decode d key (m.payload key) = .error f →
      Fetches d key c m (.error (.load key f), c, m.count .load)
  | loaded {a : α} : c.held = none → m.refused .load = false →
      decode d key (m.payload key) = .ok a →
      Fetches d key c m (.ok a, { c with held := some a }, m.count .load)

/-- **Every read goes one of these ways.** -/
theorem fetches_fetch (d : DocumentType α) (key : DocumentKey) (c : Cache α) (m : Memory) :
    Fetches d key c m (fetch d key c m) := by
  unfold fetch
  split
  next a hheld => exact .held hheld
  next hheld =>
    cases hload : m.refused .load with
    | true =>
        rw [m.load_of_refused key hload]
        exact .refused hheld hload
    | false =>
        rw [Memory.load_of_not_refused hload]
        dsimp only
        split
        next f hdecode => exact .undecoded hheld hload hdecode
        next a hdecode => exact .loaded hheld hload hdecode

/-- A way that can be taken is the one that is taken. -/
theorem Fetches.eq {out : Except CacheError α × Cache α × Memory} (h : Fetches d key c m out) :
    fetch d key c m = out := by
  cases h with
  | held hheld => simp only [fetch, hheld]
  | refused hheld hload => simp only [fetch, hheld, m.load_of_refused key hload]
  | undecoded hheld hload hdecode =>
      simp only [fetch, hheld, Memory.load_of_not_refused hload, hdecode]
  | loaded hheld hload hdecode =>
      simp only [fetch, hheld, Memory.load_of_not_refused hload, hdecode]

namespace Fetches

variable {r : Except CacheError α} {c' : Cache α} {m' : Memory}

/-- Reading is nothing to the store but an attempt that is counted. -/
theorem uncounted_eq (h : Fetches d key c m (r, c', m')) : m'.uncounted = m.uncounted := by
  cases h <;> rfl

theorem writing_eq (h : Fetches d key c m (r, c', m')) : c'.writing = c.writing := by
  cases h <;> rfl

/-- What is read is in memory. -/
theorem held_eq {a : α} (h : Fetches d key c m (.ok a, c', m')) : c'.held = some a := by
  cases h with
  | held hheld => exact hheld
  | loaded => rfl

/-- Reading attempts a load if no document is in memory, and only then. -/
theorem attempts_eq (h : Fetches d key c m (r, c', m')) :
    m'.attempts = if c.held.isNone then (m.count .load).attempts else m.attempts := by
  cases h with
  | held hheld => rw [hheld, Option.isNone_some, if_neg Bool.false_ne_true]
  | refused hheld | undecoded hheld | loaded hheld => rw [hheld, Option.isNone_none, if_pos rfl]

end Fetches

/-! ### Writing -/

/-- The ways in which a command goes. -/
inductive Writes (d : DocumentType α) (key : DocumentKey) (c : Cache α) (m : Memory) :
    Command α → Except CacheError (Reply α) × Cache α × Memory → Prop
  /-- The writer is gone. -/
  | closed (cmd : Command α) : c.writing = false →
      Writes d key c m cmd (.error (.closed key), c, m)
  | undeleted : c.writing = true → m.refused .delete = true →
      Writes d key c m .clear (.error (.persist key (.injected .delete)), c, m.count .delete)
  | cleared : c.writing = true → m.refused .delete = false →
      Writes d key c m .clear
        (.ok .cleared, { c with held := some d.blank }, (m.count .delete).setPayload key none)
  | unloaded {change : α → Option α} {e : CacheError} {c' : Cache α} {m' : Memory} :
      c.writing = true → Fetches d key c m (.error e, c', m') →
      Writes d key c m (.update change) (.error e, c', m')
  /-- The change aborts. -/
  | aborted {change : α → Option α} {a : α} {c' : Cache α} {m' : Memory} :
      c.writing = true → Fetches d key c m (.ok a, c', m') → change a = none →
      Writes d key c m (.update change) (.error (.closed key), { c' with writing := false }, m')
  /-- There is no text for the new document. -/
  | unwritable {change : α → Option α} {a a' : α} {c' : Cache α} {m' : Memory} :
      c.writing = true → Fetches d key c m (.ok a, c', m') → change a = some a' →
      d.encode a' = none →
      Writes d key c m (.update change)
        (.error (.persist key (.inside (.encode key.cache) (.document .mismatch))), c', m')
  | unstored {change : α → Option α} {a a' : α} {text : String} {c' : Cache α} {m' : Memory} :
      c.writing = true → Fetches d key c m (.ok a, c', m') → change a = some a' →
      d.encode a' = some text → m'.refused .store = true →
      Writes d key c m (.update change)
        (.error (.persist key (.injected .store)), c', m'.count .store)
  | committed {change : α → Option α} {a a' : α} {text : String} {c' : Cache α} {m' : Memory} :
      c.writing = true → Fetches d key c m (.ok a, c', m') → change a = some a' →
      d.encode a' = some text → m'.refused .store = false →
      Writes d key c m (.update change)
        (.ok (.committed a'), { c' with held := some a' },
          (m'.count .store).setPayload key (some text))

/-- **Every command goes one of these ways.** -/
theorem writes_write (d : DocumentType α) (key : DocumentKey) (cmd : Command α) (c : Cache α)
    (m : Memory) : Writes d key c m cmd (write d key cmd c m) := by
  cases hc : c.writing with
  | false =>
      rw [write_of_not_writing hc]
      exact .closed cmd hc
  | true =>
      cases cmd with
      | clear =>
          have hwrite : write d key .clear c m = drop d key c m := by
            simp only [write, hc, if_true, perform]
          cases hdelete : m.refused .delete with
          | true =>
              rw [hwrite, drop, m.delete_of_refused key hdelete]
              exact .undeleted hc hdelete
          | false =>
              rw [hwrite, drop, m.delete_of_not_refused key hdelete]
              exact .cleared hc hdelete
      | update change =>
          have hfetch := fetches_fetch d key c m
          generalize hout : fetch d key c m = out at hfetch
          obtain ⟨r, c', m'⟩ := out
          cases r with
          | error e =>
              have hperform : perform d key (.update change) c m = (some (.error e), c', m') := by
                simp only [perform, hout]
              rw [write_of_some hc hperform]
              exact .unloaded hc hfetch
          | ok a =>
              cases ha : change a with
              | none =>
                  have hperform : perform d key (.update change) c m =
                      (none, { c' with writing := false }, m') := by
                    simp only [perform, hout, ha]
                  rw [write_of_none hc hperform]
                  exact .aborted hc hfetch ha
              | some a' =>
                  have hwrite : write d key (.update change) c m = commit d key a' c' m' := by
                    simp only [write, hc, if_true, perform, hout, ha]
                  rw [hwrite, commit]
                  split
                  next hencode => exact .unwritable hc hfetch ha hencode
                  next text hencode =>
                    cases hstore : m'.refused .store with
                    | true =>
                        rw [m'.store_of_refused key hstore]
                        exact .unstored hc hfetch ha hencode hstore
                    | false =>
                        rw [m'.store_of_not_refused key hstore]
                        exact .committed hc hfetch ha hencode hstore

/-- Whether the writer needs a document for the command and has none in memory. -/
def loadsFor (c : Cache α) : Command α → Bool
  | .update _ => c.writing && c.held.isNone
  | .clear => false

/-- A way that can be taken is the one that is taken. -/
theorem Writes.eq {cmd : Command α} {out : Except CacheError (Reply α) × Cache α × Memory}
    (h : Writes d key c m cmd out) : write d key cmd c m = out := by
  cases h with
  | closed _ hc => exact write_of_not_writing hc cmd
  | undeleted hc hdelete =>
      simp only [write, hc, if_true, perform, drop, m.delete_of_refused key hdelete]
  | cleared hc hdelete =>
      simp only [write, hc, if_true, perform, drop, m.delete_of_not_refused key hdelete]
  | unloaded hc hfetch => simp only [write, hc, if_true, perform, hfetch.eq]
  | aborted hc hfetch ha => simp only [write, hc, if_true, perform, hfetch.eq, ha]
  | unwritable hc hfetch ha hencode =>
      simp only [write, hc, if_true, perform, hfetch.eq, ha, commit, hencode]
  | @unstored _ _ _ text _ m' hc hfetch ha hencode hstore =>
      simp only [write, hc, if_true, perform, hfetch.eq, ha, commit, hencode,
        m'.store_of_refused key hstore text]
  | @committed _ _ _ text _ m' hc hfetch ha hencode hstore =>
      simp only [write, hc, if_true, perform, hfetch.eq, ha, commit, hencode,
        m'.store_of_not_refused key hstore text]

namespace Writes

variable {cmd : Command α} {r : Except CacheError (Reply α)} {c' : Cache α} {m' : Memory}

/-- No command changes a switch. -/
theorem refused_eq (h : Writes d key c m cmd (r, c', m')) : m'.refused = m.refused := by
  cases h with
  | closed => rfl
  | undeleted => rfl
  | cleared => simp
  | unloaded _ hfetch | aborted _ hfetch | unwritable _ hfetch =>
      exact Memory.refused_eq_of_uncounted hfetch.uncounted_eq
  | unstored _ hfetch | committed _ hfetch =>
      simpa using Memory.refused_eq_of_uncounted hfetch.uncounted_eq

/-- The writer attempts a load if it is there, no document is in memory and the command is a change, and
only then. -/
theorem attempts_load (h : Writes d key c m cmd (r, c', m')) :
    m'.attempts .load = m.attempts .load + if c.loadsFor cmd then 1 else 0 := by
  -- what is behind the load does not attempt another one
  have hupdate : ∀ {r' c₁ m₁} {change : α → Option α}, c.writing = true →
      Fetches d key c m (r', c₁, m₁) →
      m₁.attempts .load = m.attempts .load + if c.loadsFor (.update change) then 1 else 0 := by
    intro r' c₁ m₁ change hc hfetch
    rw [hfetch.attempts_eq, loadsFor, hc, Bool.true_and]
    cases c.held <;> simp [Memory.attempts_count]
  cases h with
  | closed _ hc => cases cmd <;> simp [loadsFor, hc]
  | undeleted => simp [loadsFor, Memory.attempts_count]
  | cleared => simp [loadsFor, Memory.attempts_count]
  | unloaded hc hfetch | aborted hc hfetch | unwritable hc hfetch => exact hupdate hc hfetch
  | unstored hc hfetch => simpa [Memory.attempts_count] using hupdate hc hfetch
  | committed hc hfetch => simpa [Memory.attempts_count] using hupdate hc hfetch

end Writes

/-! ### Commands one by one -/

/-- What every one of the commands preserves is there after all of them. -/
theorem serial_keeps {P : Cache α → Memory → Prop} {cmds : List (Command α)} :
    (∀ cmd ∈ cmds, ∀ {c m r c' m'}, Writes d key c m cmd (r, c', m') → P c m → P c' m') →
      ∀ {c : Cache α} {m : Memory}, P c m →
        P (serial d key cmds c m).2.1 (serial d key cmds c m).2.2 := by
  induction cmds with
  | nil =>
      intro _ c m h
      exact h
  | cons cmd cmds ih =>
      intro hwrite c m h
      rw [serial_cons cmd cmds rfl]
      refine ih (fun cmd' hcmd' => hwrite cmd' (List.mem_cons_of_mem _ hcmd')) ?_
      exact hwrite cmd List.mem_cons_self (writes_write d key cmd c m) h

/-- The count of the loads does not go down. -/
theorem attempts_load_le_serial (d : DocumentType α) (key : DocumentKey) (cmds : List (Command α))
    (c : Cache α) (m : Memory) : m.attempts .load ≤ (serial d key cmds c m).2.2.attempts .load :=
  serial_keeps (P := fun _ m' => m.attempts .load ≤ m'.attempts .load)
    (fun _ _ _ _ _ _ _ hwrites h => by rw [hwrites.attempts_load]; omega) (Nat.le_refl _)

end Cache

/-! ### Steps -/

namespace CacheRun

variable {α : Type} (d : DocumentType α) (key : DocumentKey)

/-- A batch is its commands one by one, with the answers of those who wait. -/
theorem step_batch (r : CacheRun α) (cmds : List (Command α)) (awaited : List Nat) :
    r.step d key (.batch cmds awaited) =
      (.many ((r.cache.serial d key cmds r.memory).1.mapIdx fun n a =>
          if n ∈ awaited then some a else none),
        ⟨(r.cache.serial d key cmds r.memory).2.1, (r.cache.serial d key cmds r.memory).2.2⟩) := by
  rw [step, Cache.batch, Cache.interleave_eq]
  simp [Turn.awaits]

/-- At every step of the run this is so of the state before it. -/
def Throughout (P : CacheRun α → CacheStep α → Prop) : CacheRun α → List (CacheStep α) → Prop
  | _, [] => True
  | r, st :: steps => P r st ∧ Throughout P (r.step d key st).2 steps

end CacheRun

end StudyTime
