/-
**Local times and instants correspond one to one.**

The calendar goes from one day to the next one as calendars do: to the next day of the month, from the last
day of a month to the first one of the next month, and from the last day of a year to the first one of the
next year.  So the days are numbered without gaps, a date and a time of day stand for a number of
milliseconds, and a number of milliseconds stands for one date and one time of whole milliseconds.  A leap
second has no milliseconds of its own; it stands for those of the second after it.  A clock at a fixed offset
shows the local time that it was put to, up to the millisecond, and putting a clock to the local time that
another one shows puts it to the same instant, whether this lies before or after 1970.

Main definitions:

* `Date.next` — the day after;
* `DateTime.carried`, `DateTime.whole` — a date and time without its leap second, and in whole milliseconds;
* `DateTime.InYears`, `Clock.instants`, `Clock.localTimes` — what is shown by clocks at an offset;
* `Clock.Stranded` — the clock shows an instant whose local time is out of the years that are shown.

Main results:

* `Date.toDays_next` — **the day after has the next number**;
* `DateTime.ofMillis_toMillis`, `DateTime.toMillis_ofMillis` — milliseconds, forth and back;
* `shown_toMillis` — the years that are shown, in milliseconds;
* `Clock.local?_error_iff` — when there is no local time;
* `Clock.local_time_bijective` — **clocks show the local times that they are put to**, and no other ones.
-/

import Mathlib.Data.Set.Function
import StudyTime.Clock

set_option relaxedAutoImplicit false
set_option autoImplicit false

namespace StudyTime

/-! ### Day after day -/

/-- A year has begun before a day if it is the year of this day or an earlier one. -/
theorem yearStart_le_iff (y n : Int) : yearStart y ≤ n ↔ y ≤ yearOf n := by
  have ⟨hbegun, hends⟩ := yearOf_bounds n
  constructor
  · intro h
    refine Int.not_lt.1 fun hlt => ?_
    have := yearStart_le_of_le (show yearOf n + 1 ≤ y by omega)
    omega
  · intro h
    exact Int.le_trans (yearStart_le_of_le h) hbegun

theorem totalDays_take_succ (ls : List Nat) (m : Nat) :
    totalDays (ls.take (m + 1)) = totalDays (ls.take m) + ls[m]?.getD 0 := by
  rw [List.take_add_one, totalDays_append]
  cases ls[m]? <;> rfl

theorem monthLength_pos (year : Int) {m : Nat} (h : m < 12) : 0 < monthLength year m := by
  have hlengths : ∀ leap : Bool, ∀ m < 12, 0 < (monthLengths leap)[m]?.getD 0 := by decide
  exact hlengths _ m h

namespace Date

/-- The day after. -/
def next (d : Date) : Date :=
  if hday : d.day < monthLength d.year (d.month - 1) then
    { d with day := d.day + 1, day_pos := Nat.succ_pos _, day_le := hday }
  else if hmonth : d.month < 12 then
    { year := d.year
      month := d.month + 1
      day := 1
      month_pos := Nat.succ_pos _
      month_le := hmonth
      day_pos := Nat.one_pos
      day_le := monthLength_pos d.year (by have := d.month_pos; omega) }
  else
    { year := d.year + 1
      month := 1
      day := 1
      month_pos := Nat.one_pos
      month_le := by omega
      day_pos := Nat.one_pos
      day_le := monthLength_pos (d.year + 1) (by omega) }

/-- **The day after has the next number.** -/
theorem toDays_next (d : Date) : d.next.toDays = d.toDays + 1 := by
  have hpos := d.day_pos
  have hmonthpos := d.month_pos
  have hlast := d.day_le
  -- the days up to the end of the month are those before the month and its own
  have hsum := totalDays_take_succ (monthLengths (isLeapYear d.year)) (d.month - 1)
  rw [← monthLength, Nat.sub_add_cancel hmonthpos] at hsum
  unfold next
  split
  next hday =>
    simp only [toDays]
    omega
  next hday =>
    split
    next hmonth =>
      simp only [toDays, Nat.add_sub_cancel, hsum]
      omega
    next hmonth =>
      have htwelve : d.month = 12 := by
        have := d.month_le
        omega
      have hyear : totalDays ((monthLengths (isLeapYear d.year)).take d.month) =
          totalDays (monthLengths (isLeapYear d.year)) := by
        rw [htwelve, List.take_of_length_le (Nat.le_of_eq (length_monthLengths _))]
      have hlength := totalDays_monthLengths d.year
      have hstart := yearStart_succ d.year
      simp only [toDays, Nat.sub_self, List.take_zero, totalDays]
      omega

/-- Counting starts in 1970, and the end of a century is no leap day. -/
example : (Date.mk 1970 1 1 (by decide) (by decide) (by decide) (by decide)).toDays = 0 ∧
    ((Date.of? 1900 2 28).map next) = Date.of? 1900 3 1 ∧
    ((Date.of? 2000 2 28).map next) = Date.of? 2000 2 29 ∧
    ((Date.of? (-1) 12 31).map next) = Date.of? 0 1 1 := by
  decide

end Date

/-! ### Whole milliseconds -/

/-- The time without what is less than a millisecond. -/
def TimeOfDay.whole (t : TimeOfDay) : TimeOfDay where
  second := t.second
  nano := t.nano / 1000000 * 1000000
  second_lt := t.second_lt
  nano_lt := by
    have := t.nano_lt
    omega
  leap h := t.leap (by omega)

namespace DateTime

/-- The date and time without what is less than a millisecond. -/
def whole (d : DateTime) : DateTime := ⟨d.date, d.time.whole⟩

/-- The date and time without a leap second, which is carried over into the second after it, and into the
day after at the end of a day. -/
def carried (d : DateTime) : DateTime :=
  if d.time.nano < 1000000000 then d
  else if h : d.time.second + 1 < 86400 then
    { date := d.date
      time :=
        { second := d.time.second + 1
          nano := d.time.nano - 1000000000
          second_lt := h
          nano_lt := by have := d.time.nano_lt; omega
          leap := by have := d.time.nano_lt; omega } }
  else
    { date := d.date.next
      time :=
        { second := 0
          nano := d.time.nano - 1000000000
          second_lt := by omega
          nano_lt := by have := d.time.nano_lt; omega
          leap := by have := d.time.nano_lt; omega } }

variable (d : DateTime)

theorem carried_of_lt {d : DateTime} (h : d.time.nano < 1000000000) : d.carried = d := if_pos h

theorem nano_carried_lt : d.carried.time.nano < 1000000000 := by
  have := d.time.nano_lt
  unfold carried
  split
  · assumption
  · split <;> dsimp only <;> omega

/-- Carrying a leap second over moves nothing in time. -/
theorem toMillis_carried : d.carried.toMillis = d.toMillis := by
  unfold carried
  split
  next => rfl
  next hleap =>
    split
    next h =>
      simp only [toMillis, TimeOfDay.toMillis]
      omega
    next h =>
      have := d.time.second_lt
      simp only [toMillis, TimeOfDay.toMillis, Date.toDays_next]
      omega

/-- **From a date and time to milliseconds and back**: what is less than a millisecond is lost, and a leap
second is carried over. -/
theorem ofMillis_toMillis : ofMillis d.toMillis = d.carried.whole := by
  rw [← toMillis_carried]
  have hnano := nano_carried_lt d
  generalize d.carried = d at hnano
  have hsecond := d.time.second_lt
  -- less than a day has passed since midnight, and less than a second of the last one
  have htime : d.time.toMillis = (d.time.second : Int) * 1000 + (d.time.nano / 1000000 : Nat) := rfl
  have hdays : d.toMillis / 86400000 = d.date.toDays := by
    rw [toMillis]
    omega
  refine DateTime.ext ?_ (TimeOfDay.ext ?_ ?_)
  · rw [ofMillis, hdays]
    exact d.date.ofDays_toDays
  · simp only [ofMillis, whole, TimeOfDay.ofMillis, TimeOfDay.whole, toMillis]
    omega
  · simp only [ofMillis, whole, TimeOfDay.ofMillis, TimeOfDay.whole, toMillis]
    omega

/-- **From milliseconds to a date and time and back**, before 1970 as well as after it. -/
theorem toMillis_ofMillis (n : Int) : (ofMillis n).toMillis = n := by
  simp only [ofMillis, toMillis, Date.toDays_ofDays, TimeOfDay.toMillis, TimeOfDay.ofMillis]
  omega

/-- A number of milliseconds stands for no leap second. -/
theorem carried_ofMillis (n : Int) : (ofMillis n).carried = ofMillis n := by
  refine carried_of_lt ?_
  simp only [ofMillis, TimeOfDay.ofMillis]
  omega

theorem whole_ofMillis (n : Int) : (ofMillis n).whole = ofMillis n := by
  rw [← carried_ofMillis, ← ofMillis_toMillis, toMillis_ofMillis, carried_ofMillis]

/-- The date is one of the years that are shown. -/
def InYears : Prop := -262143 ≤ d.date.year ∧ d.date.year ≤ 262142

end DateTime

/-- The milliseconds of the years that are shown are those that stand for a date in these years. -/
theorem shown_iff_inYears (n : Int) : Shown n ↔ (DateTime.ofMillis n).InYears := by
  have hfirst := yearStart_le_iff (-262143) (n / 86400000)
  have hlast := yearStart_le_iff 262143 (n / 86400000)
  have hyear : (DateTime.ofMillis n).date.year = yearOf (n / 86400000) := rfl
  rw [Shown, DateTime.InYears, hyear]
  omega

/-- **The years that are shown**, in milliseconds. -/
theorem shown_toMillis (d : DateTime) : Shown d.toMillis ↔ d.carried.InYears := by
  rw [shown_iff_inYears, DateTime.ofMillis_toMillis]
  rfl

/-! ### Clocks -/

namespace Clock

/-- The instant is one of the years that are shown, but not the one that is as much later as the offset. -/
def Stranded (c : Clock) : Prop := Shown c.now.toInt ∧ ¬ Shown (c.now.toInt + c.offset.millis)

/-- The years that are shown begin and end more than a day away from 1970. -/
theorem shown_iff (n : Int) : Shown n ↔ -8334601228800000 ≤ n ∧ n < 8210266876800000 := by
  have hfirst : yearStart (-262143) = -96465292 := by decide
  have hlast : yearStart 262143 = 95026237 := by decide
  rw [Shown, hfirst, hlast]
  omega

theorem local?_error_iff (c : Clock) (a : Abort) :
    c.local? = .error a ↔ c.Stranded ∧ a = .localTime := by
  have hwest := c.offset.gt
  have heast := c.offset.lt
  have hnear : Shown (0 + c.offset.millis) := by
    rw [shown_iff, Offset.millis]
    omega
  rw [local?, shownInstant, Stranded]
  by_cases hnow : Shown c.now.toInt
  · by_cases hlocal : Shown (c.now.toInt + c.offset.millis)
    · simp [hnow, hlocal]
    · simp [hnow, hlocal, eq_comm]
  · rw [if_neg hnow, if_pos hnear]
    simp [hnow]

/-- Where there is a local time it is the one as much later as the offset. -/
theorem local?_of_shown {c : Clock} (h : Shown c.now.toInt) (hlocal : Shown (c.now.toInt + c.offset.millis)) :
    c.local? = .ok (DateTime.ofMillis (c.now.toInt + c.offset.millis)) := by
  rw [local?, shownInstant, if_pos h]
  exact if_pos hlocal

/-- A clock can be put to any date and time that is shown. -/
theorem toInt_now_atLocal {d : DateTime} (h : Shown d.toMillis) (offset : Offset) :
    (atLocal d offset).now.toInt = d.toMillis - offset.millis := by
  have hwest := offset.gt
  have heast := offset.lt
  rw [shown_iff] at h
  rw [atLocal, Offset.millis]
  exact Int64.toInt_ofInt_of_le (by omega) (by omega)

/-- A clock can be put to any date and time whose instant is shown. -/
theorem toInt_now_atLocal_of_shown {d : DateTime} {offset : Offset}
    (h : Shown (d.toMillis - offset.millis)) :
    (atLocal d offset).now.toInt = d.toMillis - offset.millis := by
  rw [shown_iff] at h
  exact Int64.toInt_ofInt_of_le (by omega) (by omega)

/-- **A clock shows the local time that it was put to**, without a leap second and in whole milliseconds, if
there is such a local time. -/
theorem local?_atLocal {d : DateTime} {offset : Offset} (h : Shown (d.toMillis - offset.millis)) :
    (d.carried.InYears → (atLocal d offset).local? = .ok d.carried.whole) ∧
    (¬ d.carried.InYears → (atLocal d offset).local? = .error .localTime) := by
  have hnow := toInt_now_atLocal_of_shown h
  have hlocal : (atLocal d offset).now.toInt + (atLocal d offset).offset.millis = d.toMillis := by
    rw [hnow]
    exact Int.sub_add_cancel _ _
  rw [← shown_toMillis]
  constructor
  · intro hyears
    rw [local?_of_shown (by rwa [hnow]) (by rwa [hlocal]), hlocal, DateTime.ofMillis_toMillis]
  · intro hyears
    exact (local?_error_iff _ _).2 ⟨⟨by rwa [hnow], by rwa [hlocal]⟩, rfl⟩

/-- **A clock that is put to the local time of another one** shows the same instant. -/
theorem now_atLocal_ofMillis (now : Int64) (offset : Offset) :
    (atLocal (DateTime.ofMillis (now.toInt + offset.millis)) offset).now = now := by
  rw [atLocal, DateTime.toMillis_ofMillis, Int.add_sub_cancel]
  exact Int64.ofInt_toInt now

/-- The instants that clocks at an offset show together with their local times. -/
def instants (offset : Offset) : Set Int64 :=
  {now | Shown now.toInt ∧ Shown (now.toInt + offset.millis)}

/-- The local times that they show: whole milliseconds outside of leap seconds. -/
def localTimes (offset : Offset) : Set DateTime :=
  {d | d.time.nano < 1000000000 ∧ d.whole = d ∧ d.InYears ∧ Shown (d.toMillis - offset.millis)}

/-- The instants and the local times that go with each other. -/
theorem bijOn_atLocal (offset : Offset) :
    Set.BijOn (fun d => (atLocal d offset).now) (localTimes offset) (instants offset) := by
  have hinverse : Set.InvOn (fun now : Int64 => DateTime.ofMillis (now.toInt + offset.millis))
      (fun d => (atLocal d offset).now) (localTimes offset) (instants offset) := by
    constructor
    · rintro d ⟨hnano, hwhole, -, hinstant⟩
      dsimp only
      rw [toInt_now_atLocal_of_shown hinstant, Int.sub_add_cancel, DateTime.ofMillis_toMillis,
        DateTime.carried_of_lt hnano, hwhole]
    · intro now _
      exact now_atLocal_ofMillis now offset
  refine hinverse.bijOn ?_ ?_
  · rintro d ⟨hnano, -, hyears, hinstant⟩
    have hnow := toInt_now_atLocal_of_shown hinstant
    rw [← DateTime.carried_of_lt hnano, ← shown_toMillis] at hyears
    constructor
    · rwa [hnow]
    · rwa [hnow, Int.sub_add_cancel]
  · rintro now ⟨hinstant, hlocal⟩
    have hnano := DateTime.nano_carried_lt (.ofMillis (now.toInt + offset.millis))
    rw [DateTime.carried_ofMillis] at hnano
    refine ⟨hnano, DateTime.whole_ofMillis _, (shown_iff_inYears _).1 hlocal, ?_⟩
    rwa [DateTime.toMillis_ofMillis, Int.add_sub_cancel]

/-- **Clocks show the local times that they are put to**, at every offset, as long as the instant and the
local time are in the years that are shown: a local time outside of leap seconds up to the millisecond, and
one in a leap second as the time that is as far into the next second.  A clock that is put to the local time
of an instant shows this instant.  So the local times of whole milliseconds and the instants correspond one
to one. -/
theorem local_time_bijective (offset : Offset) :
    (∀ l : DateTime, l.time.nano < 1000000000 → Shown (l.toMillis - offset.millis) →
      (l.InYears → (atLocal l offset).local? = .ok l.whole) ∧
      (¬ l.InYears → (atLocal l offset).local? = .error .localTime)) ∧
    (∀ l : DateTime, 1000000000 ≤ l.time.nano → Shown (l.toMillis - offset.millis) →
      l.carried.InYears → (atLocal l offset).local? = .ok l.carried.whole) ∧
    (∀ now : Int64, Shown now.toInt → Shown (now.toInt + offset.millis) →
      ∃ d, local? ⟨now, offset⟩ = .ok d ∧ (atLocal d offset).now = now) ∧
    Set.BijOn (fun d => (atLocal d offset).now) (localTimes offset) (instants offset) := by
  refine ⟨?_, ?_, ?_, bijOn_atLocal offset⟩
  · intro l hnano hinstant
    have hshows := local?_atLocal hinstant
    rwa [DateTime.carried_of_lt hnano] at hshows
  · intro l _ hinstant
    exact (local?_atLocal hinstant).1
  · intro now hinstant hlocal
    exact ⟨_, local?_of_shown hinstant hlocal, now_atLocal_ofMillis now offset⟩

/-- A leap second at the end of a leap year, east of Greenwich, and the last millisecond before 1970, west
of it. -/
theorem local_time_bijective_around_new_year :
    let india : Offset := ⟨19800, by decide, by decide⟩
    let canada : Offset := ⟨-12600, by decide, by decide⟩
    let leap : DateTime := ⟨⟨2016, 12, 31, by decide, by decide, by decide, by decide⟩,
      ⟨86399, 1500999999, by decide, by decide, by decide⟩⟩
    let after : DateTime := ⟨⟨2017, 1, 1, by decide, by decide, by decide, by decide⟩,
      ⟨0, 500000000, by decide, by decide, by decide⟩⟩
    let evening : DateTime := ⟨⟨1969, 12, 31, by decide, by decide, by decide, by decide⟩,
      ⟨73799, 999000001, by decide, by decide, by decide⟩⟩
    (atLocal leap india).local? = .ok after ∧ (atLocal evening canada).local? = .ok evening.whole ∧
    ∃ d, local? ⟨-1, canada⟩ = .ok d ∧ (atLocal d canada).now = -1 := by
  intro india canada leap after evening
  have hafter : leap.carried.whole = after := by decide +kernel
  refine ⟨?_, ?_, ?_⟩
  · rw [← hafter]
    exact (local_time_bijective india).2.1 leap (by decide) (by decide +kernel) ⟨by decide, by decide⟩
  · exact ((local_time_bijective canada).1 evening (by decide) (by decide +kernel)).1 ⟨by decide, by decide⟩
  · exact (local_time_bijective canada).2.2.1 (-1) (by decide +kernel) (by decide +kernel)

end Clock

end StudyTime
