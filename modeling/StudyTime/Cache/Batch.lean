/-
**Commands that wait in a queue.**

A command that is issued goes to the end of the queue, and its caller keeps the other end of a channel
for the answer.  The writer takes the commands from the front, one at a time, and sends each answer into
its channel, where it is lost if the caller has gone away.  A change that aborts takes the writer down,
and with it the commands that still wait.  A caller that waits for an answer lets the writer go on until
the answer is there or can no longer come.

Main definitions:

* `Traffic` — a cache with its store, the commands that wait and the answers that arrived;
* `Traffic.issue`, `Traffic.work`, `Traffic.await`, `Traffic.drain` — what happens to them;
* `Turn`, `Traffic.course` — the writer and the callers taking turns;
* `Cache.interleave`, `Cache.batch` — commands issued together, some of them being waited for.
-/

import StudyTime.Cache

set_option relaxedAutoImplicit false
set_option autoImplicit false

namespace StudyTime

/-- A cache with its store, and the commands on their way. -/
structure Traffic (σ α : Type) where
  cache : Cache α
  store : σ
  /-- The commands that wait, under their numbers. -/
  queue : List (Nat × Command α)
  /-- Whether the caller of the command with this number has stayed. -/
  stays : Nat → Bool
  answers : List (Nat × Except CacheError (Reply α))

/-- Who acts next while commands are on their way. -/
inductive Turn where
  /-- The writer takes the command at the front of the queue. -/
  | work
  /-- A caller waits for the answer to the command with this number. -/
  | await (n : Nat)
  deriving DecidableEq, Repr

/-- Whether somebody waits for the answer to the command with this number. -/
def Turn.awaits (turns : List Turn) (n : Nat) : Bool := turns.contains (.await n)

/-- Numbers the commands in the order in which they are issued. -/
def numberFrom {α : Type} (n : Nat) : List (Command α) → List (Nat × Command α)
  | [] => []
  | cmd :: cmds => (n, cmd) :: numberFrom (n + 1) cmds

/-- The first answer that is listed under a number. -/
def answerTo? {α : Type} (answers : List (Nat × Except CacheError (Reply α))) (n : Nat) :
    Option (Except CacheError (Reply α)) :=
  (answers.find? fun a => a.1 == n).map fun a => a.2

namespace Traffic

variable {σ α : Type}

/-- Issues commands before the writer takes any of them; without a writer none is accepted. -/
def issue (cmds : List (Command α)) (stays : Nat → Bool) (c : Cache α) (s : σ) : Traffic σ α :=
  ⟨c, s, if c.writing then numberFrom 0 cmds else [], stays, []⟩

/-- Sends an answer to the caller, if it has stayed. -/
def send (t : Traffic σ α) (n : Nat) (r : Except CacheError (Reply α)) : Traffic σ α :=
  if t.stays n then { t with answers := t.answers ++ [(n, r)] } else t

@[simp] theorem send_queue (t : Traffic σ α) (n : Nat) (r : Except CacheError (Reply α)) :
    (t.send n r).queue = t.queue := by
  unfold send
  split <;> rfl

variable [Backend σ]

/-- The writer performs the command at the front of the queue and sends the answer, unless the change
aborts: then it is gone, and so is the queue. -/
def work (d : DocumentType α) (key : DocumentKey) (t : Traffic σ α) : Traffic σ α :=
  match t.queue with
  | [] => t
  | (n, cmd) :: queue =>
    match t.cache.perform d key cmd t.store with
    | (none, c, s) => { t with cache := c, store := s, queue := [] }
    | (some r, c, s) => { t with cache := c, store := s, queue := queue }.send n r

theorem length_queue_work_lt (d : DocumentType α) (key : DocumentKey) (t : Traffic σ α)
    (h : t.queue ≠ []) : (t.work d key).queue.length < t.queue.length := by
  unfold work
  split
  next hq => exact absurd hq h
  next n cmd queue hq =>
    rw [hq]
    split <;> simp

/-- The answer to a command.  The writer goes on until it is there; if nothing waits any more, it
cannot come. -/
def await (d : DocumentType α) (key : DocumentKey) (n : Nat) (t : Traffic σ α) :
    Except CacheError (Reply α) × Traffic σ α :=
  match answerTo? t.answers n with
  | some r => (r, t)
  | none =>
    if h : t.queue = [] then (.error (.closed key), t)
    else
      have := length_queue_work_lt d key t h
      await d key n (t.work d key)
termination_by t.queue.length

/-- The writer goes on until nothing waits. -/
def drain (d : DocumentType α) (key : DocumentKey) (t : Traffic σ α) : Traffic σ α :=
  if h : t.queue = [] then t
  else
    have := length_queue_work_lt d key t h
    drain d key (t.work d key)
termination_by t.queue.length

/-- The writer and the callers take turns, and the writer goes on until nothing waits.  The answers
stand in the order in which they were waited for. -/
def course (d : DocumentType α) (key : DocumentKey) :
    List Turn → Traffic σ α → List (Nat × Except CacheError (Reply α)) × Traffic σ α
  | [], t => ([], t.drain d key)
  | .work :: turns, t => course d key turns (t.work d key)
  | .await n :: turns, t =>
    let (r, t) := t.await d key n
    let (rs, t) := course d key turns t
    ((n, r) :: rs, t)

end Traffic

namespace Cache

variable {σ α : Type} [Backend σ]

/-- Issues commands together and lets the writer and the callers take turns.  Callers that are not
among these have gone away before the first turn; their commands are performed like the others. -/
def interleave (d : DocumentType α) (key : DocumentKey) (cmds : List (Command α))
    (turns : List Turn) (c : Cache α) (s : σ) :
    List (Option (Except CacheError (Reply α))) × Cache α × σ :=
  let (rs, t) := (Traffic.issue cmds (Turn.awaits turns) c s).course d key turns
  ((List.range cmds.length).map fun n => answerTo? rs n, t.cache, t.store)

/-- Issues commands together and waits for the answers to some of them, in the order given. -/
def batch (d : DocumentType α) (key : DocumentKey) (cmds : List (Command α)) (awaited : List Nat)
    (c : Cache α) (s : σ) : List (Option (Except CacheError (Reply α))) × Cache α × σ :=
  interleave d key cmds (awaited.map .await) c s

end Cache

end StudyTime
