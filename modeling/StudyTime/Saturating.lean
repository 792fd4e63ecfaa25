/-
**Sixty-four bit amounts that stop at their bounds.**

Durations are unsigned 64-bit numbers of milliseconds and instants are signed ones.  Adding
durations never wraps: a sum that does not fit is held at the largest duration.  The time between
two instants is held at the bounds of an instant in the same way, and only where a caller asks for
the exact difference can the answer be missing.

Main definitions:

* `Saturating.add` — the sum of two durations, held at the largest one;
* `Saturating.sub` — the signed time from one instant to another, held at the bounds;
* `Saturating.elapsed` — the same, and nothing if it would be negative;
* `Saturating.sub?` — the exact difference, if it is an instant.

Main results: each operation is described by its value as an unbounded integer.
-/

set_option relaxedAutoImplicit false
set_option autoImplicit false

namespace StudyTime.Saturating

/-- The largest duration. -/
abbrev longest : Nat := 0xFFFFFFFFFFFFFFFF

/-- The first instant. -/
abbrev earliest : Int := -0x8000000000000000

/-- The last instant. -/
abbrev latest : Int := 0x7FFFFFFFFFFFFFFF

/-- The sum of two durations, held at the largest duration. -/
def add (a b : UInt64) : UInt64 :=
  UInt64.ofNat (min (a.toNat + b.toNat) longest)

/-- An integer moved to the nearest instant. -/
def clamp (n : Int) : Int64 :=
  Int64.ofInt (max earliest (min n latest))

/-- The signed time from `start` to `stop`, held at the bounds of an instant. -/
def sub (stop start : Int64) : Int64 :=
  clamp (stop.toInt - start.toInt)

/-- The time from `start` to `stop`, or nothing if `stop` is the earlier one. -/
def elapsed (stop start : Int64) : UInt64 :=
  UInt64.ofNat (sub stop start).toInt.toNat

/-- The exact difference, if it is itself an instant. -/
def sub? (stop start : Int64) : Option Int64 :=
  let d := stop.toInt - start.toInt
  if earliest ≤ d ∧ d ≤ latest then some (Int64.ofInt d) else none

theorem toNat_add (a b : UInt64) :
    (add a b).toNat = min (a.toNat + b.toNat) longest := by
  simp only [add, UInt64.toNat_ofNat', longest]
  omega

theorem toInt_clamp (n : Int) : (clamp n).toInt = max earliest (min n latest) :=
  Int64.toInt_ofInt_of_le (by simp only [earliest]; omega) (by simp only [earliest, latest]; omega)

theorem toInt_sub (stop start : Int64) :
    (sub stop start).toInt = max earliest (min (stop.toInt - start.toInt) latest) :=
  toInt_clamp _

theorem toNat_elapsed (stop start : Int64) :
    (elapsed stop start).toNat = min (stop.toInt - start.toInt).toNat latest.toNat := by
  have h := toInt_sub stop start
  simp only [earliest, latest] at h
  simp only [elapsed, UInt64.toNat_ofNat', latest]
  omega

theorem sub?_eq_some_iff {stop start d : Int64} :
    sub? stop start = some d ↔ d.toInt = stop.toInt - start.toInt := by
  have hl := Int64.le_toInt d
  have hu := Int64.toInt_lt d
  simp only [sub?, earliest, latest]
  split
  next h =>
    rw [Option.some.injEq, ← Int64.toInt_inj, Int64.toInt_ofInt_of_le (by omega) (by omega)]
    exact eq_comm
  next h =>
    constructor
    · intro e
      simp at e
    · intro e
      exact absurd ⟨by omega, by omega⟩ h

theorem sub?_eq_none_iff {stop start : Int64} :
    sub? stop start = none ↔
      stop.toInt - start.toInt < earliest ∨ latest < stop.toInt - start.toInt := by
  simp only [sub?, earliest, latest]
  split <;> simp <;> omega

end StudyTime.Saturating
