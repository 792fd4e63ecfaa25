/-
**Running one cache over a store in memory.**

Main definitions:

* `CacheStep`, `CacheAnswer` — what can be asked of the cache and of its store, and the answers;
* `CacheRun`, `CacheRun.start`, `CacheRun.step`, `CacheRun.run` — the cache with its store, and its
  course over a list of steps.
-/

import StudyTime.Cache.Batch
import StudyTime.Memory

set_option relaxedAutoImplicit false
set_option autoImplicit false

namespace StudyTime

/-- What can be asked of a cache and of its store. -/
inductive CacheStep (α : Type) where
  | read
  | prime
  | write (cmd : Command α)
  /-- Commands queued together, and the numbers of those that are waited for. -/
  | batch (cmds : List (Command α)) (awaited : List Nat)
  /-- Refusing an operation of the store from now on, or no longer. -/
  | refuse (op : Operation) (on : Bool)
  | payload
  /-- Putting a text into the store behind the back of the cache. -/
  | setPayload (text : Option String)
  /-- The counts of the attempts. -/
  | counts
  /-- A new cache over the same store. -/
  | restart

/-- The answers. -/
inductive CacheAnswer (α : Type) where
  | value (r : Except CacheError α)
  | primed (r : Except CacheError Unit)
  | written (r : Except CacheError (Reply α))
  | many (rs : List (Option (Except CacheError (Reply α))))
  | payload (text : Option String)
  | counts (attempts : Operation → Nat)
  | done

/-- A cache with its store. -/
structure CacheRun (α : Type) where
  cache : Cache α
  memory : Memory

namespace CacheRun

variable {α : Type}

/-- A new cache over a store. -/
def start (d : DocumentType α) (key : DocumentKey) (m : Memory) : CacheRun α :=
  let (c, m) := Cache.create d key m
  ⟨c, m⟩

/-- One step. -/
def step (d : DocumentType α) (key : DocumentKey) (r : CacheRun α) :
    CacheStep α → CacheAnswer α × CacheRun α
  | .read =>
    let (v, c, m) := r.cache.fetch d key r.memory
    (.value v, ⟨c, m⟩)
  | .prime =>
    let (v, c, m) := r.cache.fetch d key r.memory
    (.primed (v.map fun _ => ()), ⟨c, m⟩)
  | .write cmd =>
    let (v, c, m) := r.cache.write d key cmd r.memory
    (.written v, ⟨c, m⟩)
  | .batch cmds awaited =>
    let (vs, c, m) := r.cache.batch d key cmds awaited r.memory
    (.many vs, ⟨c, m⟩)
  | .refuse op on => (.done, { r with memory := r.memory.refuse op on })
  | .payload => (.payload (r.memory.payload key), r)
  | .setPayload text => (.done, { r with memory := r.memory.setPayload key text })
  | .counts => (.counts r.memory.attempts, r)
  | .restart => (.done, start d key r.memory)

/-- A list of steps, with the answers in order. -/
def run (d : DocumentType α) (key : DocumentKey) (r : CacheRun α) :
    List (CacheStep α) → List (CacheAnswer α) × CacheRun α
  | [] => ([], r)
  | s :: steps =>
    let (a, r) := r.step d key s
    let (as, r) := run d key r steps
    (a :: as, r)

theorem run_cons (d : DocumentType α) (key : DocumentKey) (r : CacheRun α) (st : CacheStep α)
    (steps : List (CacheStep α)) :
    r.run d key (st :: steps) =
      ((r.step d key st).1 :: ((r.step d key st).2.run d key steps).1,
        ((r.step d key st).2.run d key steps).2) := rfl

end CacheRun

end StudyTime
