/-
**A store in memory.**

It keeps documents and the instants at which surveys were shown, counts every attempt, and can be
made to refuse each kind of operation.  A refused operation is counted and changes nothing else.

Main definitions: `Memory`, its instance of `Backend`, and `Memory.refuse`, `Memory.payload`,
`Memory.setPayload` for what happens behind the back of its users.
-/

import StudyTime.Cache

set_option relaxedAutoImplicit false
set_option autoImplicit false

namespace StudyTime

/-- A store in memory. -/
structure Memory where
  payloads : SortedMap DocumentKey String
  /-- When a survey was last shown to each profile. -/
  shown : SortedMap String Int64
  refused : Operation → Bool
  /-- How often each operation was attempted. -/
  attempts : Operation → Nat

namespace Memory

/-- A store that keeps nothing and refuses nothing. -/
def blank : Memory := ⟨∅, ∅, fun _ => false, fun _ => 0⟩

instance : Inhabited Memory := ⟨blank⟩

/-- Counts an attempt. -/
def count (op : Operation) (m : Memory) : Memory :=
  { m with attempts := fun o => if o = op then m.attempts o + 1 else m.attempts o }

/-- Attempts an operation: it is counted, and refused or carried out. -/
def attempt {β : Type} (op : Operation) (carryOut : Memory → β × Memory) (m : Memory) :
    Except Failure β × Memory :=
  let m := m.count op
  if m.refused op then (.error (.injected op), m)
  else
    let (b, m) := carryOut m
    (.ok b, m)

/-- Refuses an operation from now on, or no longer. -/
def refuse (m : Memory) (op : Operation) (on : Bool) : Memory :=
  { m with refused := fun o => if o = op then on else m.refused o }

/-- The text kept under a key. -/
def payload (m : Memory) (key : DocumentKey) : Option String := m.payloads.get? key

/-- Puts a text under a key, or drops it. -/
def setPayload (m : Memory) (key : DocumentKey) (text : Option String) : Memory :=
  match text with
  | some text => { m with payloads := m.payloads.insert key text }
  | none => { m with payloads := m.payloads.erase key }

/-- Drops everything that is kept of a profile. -/
def eraseProfile (m : Memory) (profile : String) : Memory :=
  { m with
    payloads := m.payloads.filterKeys fun key => key.profile ≠ profile
    shown := m.shown.erase profile }

instance : Backend Memory where
  load key := attempt .load fun m => (m.payload key, m)
  store key text := attempt .store fun m => ((), m.setPayload key (some text))
  delete key := attempt .delete fun m => ((), m.setPayload key none)
  lastShown profile := attempt .read fun m => (m.shown.get? profile, m)
  setLastShown profile instant := attempt .write fun m =>
    ((), { m with shown := m.shown.insert profile instant })
  eraseProfile profile m := (.ok (), m.eraseProfile profile)

end Memory

end StudyTime
