/-
**Times of day.**

A time of day is a second of the day and a part of that second, counted in nanoseconds.  A leap
second has no number of its own: it prolongs the last second of a minute, whose nanoseconds then
run on beyond the thousand millionth.  Times compare by the second and then by the nanosecond, so
a leap second comes after everything in the second that it prolongs and before the next one.

Main definitions:

* `TimeOfDay`, `TimeOfDay.of?` — times of day, and the one with these parts;
* `TimeOfDay.before` — the order of times;
* `TimeOfDay.ofMillis` — the time at so many milliseconds after midnight.
-/

set_option relaxedAutoImplicit false
set_option autoImplicit false

namespace StudyTime

/-- A time of day. -/
@[ext] structure TimeOfDay where
  second : Nat
  /-- The part of the second, in nanoseconds; a thousand million and more in a leap second. -/
  nano : Nat
  /-- A day has 86400 numbered seconds. -/
  second_lt : second < 86400
  /-- A second is prolonged by one leap second at most. -/
  nano_lt : nano < 2000000000
  /-- Only the last second of a minute is prolonged. -/
  leap : 1000000000 ≤ nano → second % 60 = 59
  deriving DecidableEq, Repr

namespace TimeOfDay

/-- The time with these parts, if there is one. -/
def of? (hour minute second nano : Nat) : Option TimeOfDay :=
  if h : (hour < 24 ∧ minute < 60 ∧ second < 60) ∧ nano < 2000000000 ∧
      (1000000000 ≤ nano → second = 59) then
    some
      { second := hour * 3600 + minute * 60 + second
        nano := nano
        second_lt := by omega
        nano_lt := h.2.1
        leap := fun hn => by
          have := h.2.2 hn
          omega }
  else none

/-- A full minute of the day. -/
def ofMinute (hour minute : Nat) (h : hour < 24 ∧ minute < 60) : TimeOfDay where
  second := hour * 3600 + minute * 60
  nano := 0
  second_lt := by omega
  nano_lt := by omega
  leap := by omega

/-- The time at so many milliseconds after midnight, whole days left out of account. -/
def ofMillis (n : Int) : TimeOfDay where
  second := (n % 86400000 / 1000).toNat
  nano := (n % 1000).toNat * 1000000
  second_lt := by omega
  nano_lt := by omega
  leap := by omega

/-- The hour. -/
def hour (t : TimeOfDay) : Nat := t.second / 3600

/-- The minute of the hour. -/
def minute (t : TimeOfDay) : Nat := t.second / 60 % 60

/-- The second of the minute, the one that a leap second prolongs included. -/
def secondOfMinute (t : TimeOfDay) : Nat := t.second % 60

/-- Whether the first time is the earlier one. -/
def before (a b : TimeOfDay) : Bool :=
  a.second < b.second || (a.second = b.second && a.nano < b.nano)

/-- The whole milliseconds from midnight to a time. -/
def toMillis (t : TimeOfDay) : Int := (t.second * 1000 + t.nano / 1000000 : Nat)

theorem before_iff {a b : TimeOfDay} :
    a.before b = true ↔ a.second < b.second ∨ (a.second = b.second ∧ a.nano < b.nano) := by
  simp [before]

end TimeOfDay

end StudyTime
