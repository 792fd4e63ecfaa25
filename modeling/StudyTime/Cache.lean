/-
**A document cached in front of a store.**

A cache holds one document of one profile.  The document is loaded when it is first needed and then
stays in memory; every change is a command that a writer takes from a queue, and the document in
memory changes only after the store has accepted the new text.  A command whose change aborts takes
the writer down: nothing behind it in the queue is performed, and later commands are not accepted.

Main definitions:

* `Backend` — the operations that a store offers;
* `Cache`, `Cache.fetch`, `Cache.create` — the cache, and reading it;
* `Command`, `Cache.perform` — one change;
* `Cache.write` — one command queued and waited for.
-/

import StudyTime.Failure

set_option relaxedAutoImplicit false
set_option autoImplicit false

namespace StudyTime

/-- The operations of a store, for documents and for the instants at which surveys were shown.  Each
of them also changes the store, a failing one included. -/
class Backend (σ : Type) where
  /-- The text kept under a key. -/
  load : DocumentKey → σ → Except Failure (Option String) × σ
  /-- Keeps a text under a key. -/
  store : DocumentKey → String → σ → Except Failure Unit × σ
  /-- Drops the text kept under a key. -/
  delete : DocumentKey → σ → Except Failure Unit × σ
  /-- When a survey was last shown to a profile. -/
  lastShown : String → σ → Except Failure (Option Int64) × σ
  /-- Notes when a survey was shown to a profile. -/
  setLastShown : String → Int64 → σ → Except Failure Unit × σ
  /-- Drops everything that is kept of a profile. -/
  eraseProfile : String → σ → Except Failure Unit × σ

/-- A cached document. -/
structure Cache (α : Type) where
  /-- The document, once it is loaded. -/
  held : Option α
  /-- Whether the writer is there. -/
  writing : Bool
  deriving DecidableEq, Repr

/-- A change of the document: a new value computed from the old one, unless the computation
aborts, or dropping the document. -/
inductive Command (α : Type) where
  | update (change : α → Option α)
  | clear

/-- The answer to a command that was performed. -/
inductive Reply (α : Type) where
  | committed (a : α)
  | cleared
  deriving DecidableEq, Repr

namespace Cache

variable {σ α : Type} [Backend σ]

/-- The document that a kept text stands for. -/
def decode (d : DocumentType α) (key : DocumentKey) : Option String → Except Failure α
  | none => .ok d.blank
  | some text =>
    match d.decode text with
    | .ok a => .ok a
    | .error e => .error (.inside (.decode key.cache) (.document e))

/-- The document, loaded unless it is in memory. -/
def fetch (d : DocumentType α) (key : DocumentKey) (c : Cache α) (s : σ) :
    Except CacheError α × Cache α × σ :=
  match c.held with
  | some a => (.ok a, c, s)
  | none =>
    match Backend.load key s with
    | (.error f, s) => (.error (.load key f), c, s)
    | (.ok text, s) =>
      match decode d key text with
      | .error f => (.error (.load key f), c, s)
      | .ok a => (.ok a, { c with held := some a }, s)

/-- A new cache.  Its writer starts by loading the document; a failure to do so is not reported. -/
def create (d : DocumentType α) (key : DocumentKey) (s : σ) : Cache α × σ :=
  (fetch d key ⟨none, true⟩ s).2

/-- Stores a new value, and holds it in memory once that is done. -/
def commit (d : DocumentType α) (key : DocumentKey) (a : α) (c : Cache α) (s : σ) :
    Except CacheError (Reply α) × Cache α × σ :=
  match d.encode a with
  | none => (.error (.persist key (.inside (.encode key.cache) (.document .mismatch))), c, s)
  | some text =>
    match Backend.store key text s with
    | (.error f, s) => (.error (.persist key f), c, s)
    | (.ok (), s) => (.ok (.committed a), { c with held := some a }, s)

/-- Deletes the document, and holds the blank one in memory once that is done. -/
def drop (d : DocumentType α) (key : DocumentKey) (c : Cache α) (s : σ) :
    Except CacheError (Reply α) × Cache α × σ :=
  match Backend.delete key s with
  | (.error f, s) => (.error (.persist key f), c, s)
  | (.ok (), s) => (.ok .cleared, { c with held := some d.blank }, s)

/-- Performs a command; there is no answer if the change aborts, and the writer is gone. -/
def perform (d : DocumentType α) (key : DocumentKey) (cmd : Command α) (c : Cache α) (s : σ) :
    Option (Except CacheError (Reply α)) × Cache α × σ :=
  match cmd with
  | .clear =>
    let (r, c, s) := drop d key c s
    (some r, c, s)
  | .update change =>
    match fetch d key c s with
    | (.error e, c, s) => (some (.error e), c, s)
    | (.ok a, c, s) =>
      match change a with
      | none => (none, { c with writing := false }, s)
      | some a =>
        let (r, c, s) := commit d key a c s
        (some r, c, s)

/-- Queues one command and waits for its answer. -/
def write (d : DocumentType α) (key : DocumentKey) (cmd : Command α) (c : Cache α) (s : σ) :
    Except CacheError (Reply α) × Cache α × σ :=
  if c.writing then
    match perform d key cmd c s with
    | (none, c, s) => (.error (.closed key), c, s)
    | (some r, c, s) => (r, c, s)
  else (.error (.closed key), c, s)

/-! ### The writer -/

section Writer

variable (d : DocumentType α) (key : DocumentKey) (c : Cache α) (s : σ)

/-- Reading leaves the writer alone. -/
@[simp] theorem fetch_writing : (fetch d key c s).2.1.writing = c.writing := by
  unfold fetch
  split
  · rfl
  · split
    · rfl
    · split <;> rfl

/-- Storing leaves the writer alone. -/
@[simp] theorem commit_writing (a : α) : (commit d key a c s).2.1.writing = c.writing := by
  unfold commit
  split
  · rfl
  · split <;> rfl

/-- Deleting leaves the writer alone. -/
@[simp] theorem drop_writing : (drop d key c s).2.1.writing = c.writing := by
  unfold drop
  split <;> rfl

/-- A command that is answered leaves the writer alone, and one that is not takes it down. -/
theorem perform_writing (cmd : Command α) :
    (perform d key cmd c s).2.1.writing = (c.writing && (perform d key cmd c s).1.isSome) := by
  cases cmd with
  | clear => simp [perform]
  | update change =>
      have hfetch := fetch_writing d key c s
      simp only [perform]
      split
      next e c' s' hout =>
        rw [hout] at hfetch
        simp [← hfetch]
      next a c' s' hout =>
        rw [hout] at hfetch
        split
        · simp
        · simp [← hfetch]

end Writer

end Cache

end StudyTime
