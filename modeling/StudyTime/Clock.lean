/-
**Clocks with a fixed offset.**

A clock shows an instant in milliseconds since the beginning of 1970, and the date and time of day
that go with it at a fixed offset from universal time.  Dates are shown for the years from -262143
to 262142.  At an instant outside of these the clock shows the beginning of 1970 instead; and where
only the offset leads out of them there is nothing to show, and asking is an abort.

Main definitions:

* `DateTime` — a date with a time of day, counted in milliseconds by `DateTime.toMillis`;
* `Offset`, `Clock` — clocks;
* `Clock.atLocal`, `Clock.set`, `Clock.advance` — putting a clock to a time;
* `Clock.local?` — the date and time that a clock shows.
-/

import StudyTime.Calendar
import StudyTime.TimeOfDay

set_option relaxedAutoImplicit false
set_option autoImplicit false

namespace StudyTime

/-! ### Lengths of time in milliseconds -/

/-- A second. -/
def secondMillis : Nat := 1000

/-- A minute. -/
def minuteMillis : Nat := 60 * secondMillis

/-- An hour. -/
def hourMillis : Nat := 60 * minuteMillis

/-- A day. -/
def dayMillis : Nat := 24 * hourMillis

/-! ### Aborts -/

/-- The two computations that have no answer. -/
inductive Abort where
  /-- The difference of two instants is no instant. -/
  | subtraction
  /-- The offset leads out of the years that are shown. -/
  | localTime
  deriving DecidableEq, Repr

/-- The wording of an abort. -/
def Abort.message : Abort → String
  | .subtraction => "attempt to subtract with overflow"
  | .localTime => "Local time out of range for `NaiveDateTime`"

/-! ### Dates with times -/

/-- A date with a time of day. -/
@[ext] structure DateTime where
  date : Date
  time : TimeOfDay
  deriving DecidableEq, Repr

namespace DateTime

/-- The whole milliseconds since the beginning of 1970, a leap second running on into the next
second. -/
def toMillis (d : DateTime) : Int := d.date.toDays * 86400000 + d.time.toMillis

/-- The date and time at so many milliseconds since the beginning of 1970. -/
def ofMillis (n : Int) : DateTime := ⟨Date.ofDays (n / 86400000), TimeOfDay.ofMillis n⟩

end DateTime

/-! ### Clocks -/

/-- The distance of local time from universal time, to the east. -/
structure Offset where
  seconds : Int
  /-- It is less than a day to the west. -/
  gt : -86400 < seconds
  /-- It is less than a day to the east. -/
  lt : seconds < 86400
  deriving DecidableEq, Repr

/-- The offset of so many seconds, if it is less than a day. -/
def Offset.of? (seconds : Int) : Option Offset :=
  if h : -86400 < seconds ∧ seconds < 86400 then some ⟨seconds, h.1, h.2⟩ else none

/-- No offset. -/
def Offset.zero : Offset := ⟨0, by decide, by decide⟩

/-- The offset in milliseconds. -/
def Offset.millis (o : Offset) : Int := 1000 * o.seconds

/-- A clock. -/
structure Clock where
  /-- The instant that it shows, in milliseconds since the beginning of 1970. -/
  now : Int64
  /-- The distance of its local time from universal time. -/
  offset : Offset
  deriving DecidableEq, Repr

/-- The years from -262143 to 262142, in milliseconds since the beginning of 1970. -/
def Shown (n : Int) : Prop :=
  yearStart (-262143) * 86400000 ≤ n ∧ n < yearStart 262143 * 86400000

instance (n : Int) : Decidable (Shown n) := by unfold Shown; infer_instance

namespace Clock

/-- The clock that shows this date and time at this offset. -/
def atLocal (d : DateTime) (offset : Offset) : Clock :=
  ⟨Int64.ofInt (d.toMillis - offset.millis), offset⟩

/-- Puts the clock to an instant. -/
def set (c : Clock) (now : Int64) : Clock := ⟨now, c.offset⟩

/-- Moves the clock on, from the last instant to the first one if need be. -/
def advance (c : Clock) (delta : Int64) : Clock := ⟨c.now + delta, c.offset⟩

/-- The instant whose date is shown. -/
def shownInstant (c : Clock) : Int := if Shown c.now.toInt then c.now.toInt else 0

/-- The date and time that the clock shows. -/
def local? (c : Clock) : Except Abort DateTime :=
  let n := c.shownInstant + c.offset.millis
  if Shown n then .ok (DateTime.ofMillis n) else .error .localTime

end Clock

end StudyTime
