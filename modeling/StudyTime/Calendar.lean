/-
**Dates of the Gregorian calendar, counted in days.**

The calendar is extended without end in both directions, with a year 0 before year 1.  Every date
has a number, the days since 1 January 1970, and every number has a date.

Main definitions:

* `isLeapYear`, `monthLengths` — the shape of a year;
* `yearStart`, `yearOf` — the number of the first day of a year, and the year of a day;
* `Date` — dates that exist;
* `Date.toDays`, `Date.ofDays` — the number of a date and the date of a number.

Main results:

* `yearStart_succ` — a year is followed by the next one after its 365 or 366 days;
* `Date.toDays_ofDays`, `Date.ofDays_toDays` — **dates and day numbers correspond one to one**.
-/

set_option relaxedAutoImplicit false
set_option autoImplicit false

namespace StudyTime

/-! ### Years -/

/-- Every fourth year is a leap year, but of the full centuries only every fourth. -/
def isLeapYear (y : Int) : Bool := y % 4 = 0 && (y % 100 ≠ 0 || y % 400 = 0)

/-- The number of leap years from year 1 up to this year. -/
def leapYearsTo (y : Int) : Int := y / 4 - y / 100 + y / 400

/-- The number of days in a year. -/
def yearLength (y : Int) : Int := if isLeapYear y then 366 else 365

/-- The number of the first day of a year. -/
def yearStart (y : Int) : Int := 365 * (y - 1970) + leapYearsTo (y - 1) - leapYearsTo 1969

/-- **A year is followed by the next one after its last day.** -/
theorem yearStart_succ (y : Int) : yearStart (y + 1) = yearStart y + yearLength y := by
  have h : leapYearsTo y = leapYearsTo (y - 1) + (if isLeapYear y then 1 else 0) := by
    simp only [leapYearsTo, isLeapYear, Bool.and_eq_true, Bool.or_eq_true, decide_eq_true_eq]
    split <;> omega
  simp only [yearStart, yearLength, show y + 1 - 1 = y by omega, h]
  split <;> omega

/-- The year of a day.  The mean length of a year gives a guess that is at most one year off. -/
def yearOf (n : Int) : Int :=
  let guess := 1970 + n * 400 / 146097
  if n < yearStart guess then guess - 1
  else if yearStart (guess + 1) ≤ n then guess + 1
  else guess

/-- A day lies in its year. -/
theorem yearOf_bounds (n : Int) :
    yearStart (yearOf n) ≤ n ∧ n < yearStart (yearOf n + 1) := by
  -- four centuries have 146097 days, and no year starts far from where that mean puts it
  have bound : ∀ y : Int, 146097 * (y - 1970) - 506 ≤ 400 * yearStart y ∧
      400 * yearStart y ≤ 146097 * (y - 1970) + 589 := by
    intro y
    simp only [yearStart, leapYearsTo]
    omega
  simp only [yearOf]
  generalize hg : 1970 + n * 400 / 146097 = g
  -- so the year before the guess has begun and the second one behind it has not
  have h₁ := bound (g - 1)
  have h₂ := bound (g + 2)
  have h₃ : 146097 * (g - 1970) ≤ n * 400 ∧ n * 400 < 146097 * (g - 1970) + 146097 := by omega
  split
  · exact ⟨by omega, by rw [show g - 1 + 1 = g by omega]; assumption⟩
  · split
    · exact ⟨by assumption, by rw [show g + 1 + 1 = g + 2 by omega]; omega⟩
    · exact ⟨by omega, by omega⟩

theorem yearStart_add_le (y : Int) (k : Nat) : yearStart y + k ≤ yearStart (y + k) := by
  induction k with
  | zero => simp
  | succ k ih =>
    have h := yearStart_succ (y + k)
    have : 365 ≤ yearLength (y + k) := by
      unfold yearLength
      split <;> omega
    rw [show y + ((k + 1 : Nat) : Int) = y + k + 1 by omega]
    omega

theorem yearStart_le_of_le {y z : Int} (h : y ≤ z) : yearStart y ≤ yearStart z := by
  have := yearStart_add_le y (z - y).toNat
  rw [show y + ((z - y).toNat : Int) = z by omega] at this
  omega

/-- No other year holds a day. -/
theorem yearOf_eq_of_bounds {n y : Int} (h₁ : yearStart y ≤ n) (h₂ : n < yearStart (y + 1)) :
    yearOf n = y := by
  have ⟨hl, hu⟩ := yearOf_bounds n
  rcases Int.lt_trichotomy (yearOf n) y with hlt | heq | hgt
  · have := yearStart_le_of_le (show yearOf n + 1 ≤ y by omega)
    omega
  · exact heq
  · have := yearStart_le_of_le (show y + 1 ≤ yearOf n by omega)
    omega

/-! ### Months -/

/-- The lengths of the months. -/
def monthLengths (leap : Bool) : List Nat :=
  [31, if leap then 29 else 28, 31, 30, 31, 30, 31, 31, 30, 31, 30, 31]

/-- The days of consecutive stretches of these lengths. -/
def totalDays : List Nat → Nat
  | [] => 0
  | l :: ls => l + totalDays ls

theorem totalDays_append (ls ls' : List Nat) :
    totalDays (ls ++ ls') = totalDays ls + totalDays ls' := by
  induction ls with
  | nil => exact (Nat.zero_add _).symm
  | cons l ls ih => rw [List.cons_append, totalDays, totalDays, ih, Nat.add_assoc]

/-- Where a day falls among consecutive stretches of these lengths: how many it has behind it, and
how many days of its own. -/
def splitDays : List Nat → Nat → Nat × Nat
  | [], d => (0, d)
  | l :: ls, d => if d < l then (0, d) else ((splitDays ls (d - l)).1 + 1, (splitDays ls (d - l)).2)

theorem splitDays_of_totalDays_take :
    ∀ (ls : List Nat) (m r : Nat), r < ls[m]?.getD 0 →
      splitDays ls (totalDays (ls.take m) + r) = (m, r)
  | [], m, r, h => by simp at h
  | l :: ls, 0, r, h => by
    have h : r < l := by simpa using h
    simp [splitDays, totalDays, h]
  | l :: ls, m + 1, r, h => by
    have ih := splitDays_of_totalDays_take ls m r (by simpa using h)
    simp only [List.take_succ_cons, totalDays]
    rw [splitDays, if_neg (by omega), Nat.add_assoc, Nat.add_sub_cancel_left, ih]

theorem splitDays_bounds :
    ∀ (ls : List Nat) (d : Nat), d < totalDays ls →
      (splitDays ls d).1 < ls.length ∧
      (splitDays ls d).2 < ls[(splitDays ls d).1]?.getD 0 ∧
      totalDays (ls.take (splitDays ls d).1) + (splitDays ls d).2 = d
  | [], d, h => absurd h (Nat.not_lt_zero d)
  | l :: ls, d, h => by
    simp only [splitDays]
    split
    next hd => simp [totalDays, hd]
    next hd =>
      have ⟨h₁, h₂, h₃⟩ := splitDays_bounds ls (d - l) (by simp only [totalDays] at h; omega)
      refine ⟨by simpa using h₁, by simpa using h₂, ?_⟩
      simp only [List.take_succ_cons, totalDays]
      omega

theorem totalDays_monthLengths (y : Int) :
    (totalDays (monthLengths (isLeapYear y)) : Int) = yearLength y := by
  cases h : isLeapYear y <;> simp [monthLengths, totalDays, yearLength, h]

@[simp] theorem length_monthLengths (leap : Bool) : (monthLengths leap).length = 12 := rfl

/-! ### Dates -/

/-- The number of days in the month before which `m` months of the year have passed. -/
def monthLength (year : Int) (m : Nat) : Nat := (monthLengths (isLeapYear year))[m]?.getD 0

/-- A date.  Months and days are counted from one. -/
@[ext] structure Date where
  /-- The year; year 0 is the one before year 1. -/
  year : Int
  month : Nat
  day : Nat
  month_pos : 0 < month
  month_le : month ≤ 12
  day_pos : 0 < day
  /-- The month has this day. -/
  day_le : day ≤ monthLength year (month - 1)
  deriving DecidableEq, Repr

namespace Date

/-- The date with these parts, if there is one. -/
def of? (year : Int) (month day : Nat) : Option Date :=
  if h : (0 < month ∧ month ≤ 12) ∧ 0 < day ∧ day ≤ monthLength year (month - 1) then
    some ⟨year, month, day, h.1.1, h.1.2, h.2.1, h.2.2⟩
  else none

/-- The number of days since 1 January 1970. -/
def toDays (d : Date) : Int :=
  yearStart d.year + (totalDays ((monthLengths (isLeapYear d.year)).take (d.month - 1)) : Int) +
    ((d.day - 1 : Nat) : Int)

/-- The number of days that have passed of the year of a day. -/
def dayOfYear (n : Int) : Nat := (n - yearStart (yearOf n)).toNat

theorem dayOfYear_lt (n : Int) :
    dayOfYear n < totalDays (monthLengths (isLeapYear (yearOf n))) := by
  have hb := yearOf_bounds n
  have hs := yearStart_succ (yearOf n)
  have hm := totalDays_monthLengths (yearOf n)
  unfold dayOfYear
  omega

/-- The date of a day. -/
def ofDays (n : Int) : Date :=
  let md := splitDays (monthLengths (isLeapYear (yearOf n))) (dayOfYear n)
  have h := splitDays_bounds _ _ (dayOfYear_lt n)
  { year := yearOf n
    month := md.1 + 1
    day := md.2 + 1
    month_pos := Nat.succ_pos _
    month_le := h.1
    day_pos := Nat.succ_pos _
    day_le := h.2.1 }

/-- The date of a day has its number. -/
theorem toDays_ofDays (n : Int) : (ofDays n).toDays = n := by
  have h := (splitDays_bounds _ _ (dayOfYear_lt n)).2.2
  have hb := yearOf_bounds n
  simp only [toDays, ofDays, Nat.add_sub_cancel]
  generalize splitDays (monthLengths (isLeapYear (yearOf n))) (dayOfYear n) = md at h
  have : ((dayOfYear n : Nat) : Int) = n - yearStart (yearOf n) := by
    unfold dayOfYear
    omega
  omega

theorem toDays_bounds (d : Date) :
    yearStart d.year ≤ d.toDays ∧ d.toDays < yearStart (d.year + 1) := by
  have hs := yearStart_succ d.year
  have hm := totalDays_monthLengths d.year
  have hlen : d.month - 1 < (monthLengths (isLeapYear d.year)).length := by
    have := d.month_le
    have := d.month_pos
    simp only [length_monthLengths]
    omega
  have hday : d.day ≤ (monthLengths (isLeapYear d.year))[d.month - 1] := by
    have := d.day_le
    simpa [monthLength, List.getElem?_eq_getElem hlen] using this
  -- the year consists of the months before, the month itself and the months behind
  have hsplit : totalDays (monthLengths (isLeapYear d.year)) =
      totalDays ((monthLengths (isLeapYear d.year)).take (d.month - 1)) +
        ((monthLengths (isLeapYear d.year))[d.month - 1] +
          totalDays ((monthLengths (isLeapYear d.year)).drop (d.month - 1 + 1))) := by
    have := List.take_append_drop (d.month - 1) (monthLengths (isLeapYear d.year))
    rw [List.drop_eq_getElem_cons hlen] at this
    have hsum := congrArg totalDays this
    rw [totalDays_append, totalDays] at hsum
    exact hsum.symm
  have := d.day_pos
  unfold toDays
  constructor <;> omega

/-- The number of a date has its date. -/
theorem ofDays_toDays (d : Date) : ofDays d.toDays = d := by
  -- the year is right because the day lies in it, month and day because the lengths add up
  have ⟨hl, hu⟩ := d.toDays_bounds
  have hy : yearOf d.toDays = d.year := yearOf_eq_of_bounds hl hu
  have hd : dayOfYear d.toDays =
      totalDays ((monthLengths (isLeapYear d.year)).take (d.month - 1)) + (d.day - 1) := by
    unfold dayOfYear
    rw [hy]
    unfold toDays
    omega
  have hlt : d.day - 1 < (monthLengths (isLeapYear d.year))[d.month - 1]?.getD 0 := by
    have h₁ := d.day_le
    have h₂ := d.day_pos
    unfold monthLength at h₁
    omega
  have hsplit := splitDays_of_totalDays_take _ _ _ hlt
  apply Date.ext
  · exact hy
  · simp only [ofDays, hy, hd, hsplit]
    exact Nat.sub_add_cancel d.month_pos
  · simp only [ofDays, hy, hd, hsplit]
    exact Nat.sub_add_cancel d.day_pos

end Date

end StudyTime
