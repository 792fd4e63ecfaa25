/-
**A connection to a database, and the transaction on it.**

Statements see what was committed, or the working copy of a transaction while one is open, and that is
what they change.  A statement that is refused changes nothing, and none of those behind it is issued.
The working copy becomes what is committed only if the transaction is committed; one that comes to its
end without that is rolled back, and nothing is left of it.

Main definitions:

* `proceed`, `attempting` — going on unless something failed, and saying what was attempted;
* `Connection` — what is committed, and the working copy;
* `Connection.begin`, `Connection.commit`, `Connection.rollback` — transactions;
* `Connection.issue`, `Connection.transaction` — one statement, and several in a transaction.
-/

import StudyTime.Failure

set_option relaxedAutoImplicit false
set_option autoImplicit false

namespace StudyTime

/-- Goes on from what was done, unless it failed. -/
def proceed {κ : Type} (r : Except Failure Unit × κ) (next : κ → Except Failure Unit × κ) :
    Except Failure Unit × κ :=
  match r with
  | (.error f, c) => (.error f, c)
  | (.ok (), c) => next c

/-- Says in what attempt something failed. -/
def attempting {κ : Type} (context : Context) (r : Except Failure Unit × κ) :
    Except Failure Unit × κ :=
  (r.1.mapError (.inside context), r.2)

@[simp] theorem proceed_error {κ : Type} (f : Failure) (c : κ) (next : κ → Except Failure Unit × κ) :
    proceed (.error f, c) next = (.error f, c) := rfl

@[simp] theorem proceed_ok {κ : Type} (c : κ) (next : κ → Except Failure Unit × κ) :
    proceed (.ok (), c) next = next c := rfl

@[simp] theorem attempting_error {κ : Type} (context : Context) (f : Failure) (c : κ) :
    attempting context (.error f, c) = (.error (.inside context f), c) := rfl

@[simp] theorem attempting_ok {κ : Type} (context : Context) (c : κ) :
    attempting context (.ok (), c) = (.ok (), c) := rfl

/-- A connection to a database with content of this kind. -/
@[ext] structure Connection (σ : Type) where
  committed : σ
  /-- The working copy of the transaction, while one is open. -/
  working : Option σ

namespace Connection

variable {σ : Type}

/-- A connection on which no transaction is open. -/
def idle (s : σ) : Connection σ := ⟨s, none⟩

/-- The content that statements see. -/
def content (c : Connection σ) : σ := c.working.getD c.committed

/-- Other content, in the place of the one that statements see. -/
def setContent (c : Connection σ) (s : σ) : Connection σ :=
  match c.working with
  | none => ⟨s, none⟩
  | some _ => ⟨c.committed, some s⟩

/-- Opens a transaction. -/
def begin (c : Connection σ) : Connection σ := ⟨c.committed, some c.committed⟩

/-- Commits the working copy. -/
def commit (c : Connection σ) : Connection σ := ⟨c.content, none⟩

/-- Drops the working copy. -/
def rollback (c : Connection σ) : Connection σ := ⟨c.committed, none⟩

/-- Issues a statement, which the engine refuses if it has no result. -/
def issue (statement : σ → Option σ) (c : Connection σ) : Except Failure Unit × Connection σ :=
  match statement c.content with
  | none => (.error .engine, c)
  | some s => (.ok (), c.setContent s)

/-- What is done within a transaction is committed in the end, unless something failed. -/
def transaction (body : Connection σ → Except Failure Unit × Connection σ) (c : Connection σ) :
    Except Failure Unit × Connection σ :=
  let r := proceed (body c.begin) fun c => (.ok (), c.commit)
  (r.1, r.2.rollback)

end Connection

end StudyTime
