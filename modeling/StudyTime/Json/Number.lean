/-
**Numbers.**

A number is read in full before its type is judged.  What the library keeps are whole numbers, so
of a number with a fraction or an exponent only its size matters: one beyond the largest double is
no number at all, any other is a number of the wrong type.  The size is judged on a significand of
sixty-four bits and one multiplication by a power of ten, both rounded to double precision.

Main definitions:

* `writeInt` — the written form of whole numbers;
* `Numeral`, `numeral` — the parts of a number as they stand in the text;
* `Numeral.integer?`, `Numeral.isFinite` — its value, if it is whole, and whether it has a size;
* `readNumber`, `skipNumber` — reading a number, and passing over one.
-/

import StudyTime.Digits
import StudyTime.Json.Reader

set_option relaxedAutoImplicit false
set_option autoImplicit false

namespace StudyTime.Json

/-! ### Writing -/

/-- The written form of a whole number. -/
def writeInt (n : Int) : List Char :=
  if n < 0 then '-' :: decimal n.natAbs else decimal n.natAbs

/-! ### The parts of a number -/

/-- A number as it stands in the text. -/
structure Numeral where
  /-- Whether a minus sign stands in front. -/
  negative : Bool
  whole : List Nat
  /-- The digits behind the point; none if there is no point. -/
  fraction : List Nat
  /-- The power of ten, if one is given. -/
  exponent : Option Int
  deriving DecidableEq, Repr

/-- Passes over the sign of an exponent and tells whether it is a minus. -/
def exponentSign : List Char → Bool × List Char
  | '+' :: cs => (false, cs)
  | '-' :: cs => (true, cs)
  | cs => (false, cs)

/-- Reads the digits of an exponent. -/
def exponentDigits (n : Numeral) (down : Bool) (cs : List Char) :
    Except ReadError (Numeral × List Char) :=
  match leadingDigits cs with
  | ([], []) => .error .ended
  | ([], _ :: _) => .error .malformed
  | (d :: ds, rest) =>
    let e : Int := ofDigits (d :: ds)
    .ok (⟨n.negative, n.whole, n.fraction, some (if down then -e else e)⟩, rest)

/-- Reads the exponent, if there is one. -/
def exponentPart (n : Numeral) : List Char → Except ReadError (Numeral × List Char)
  | [] => .ok (n, [])
  | c :: cs =>
    if c = 'e' ∨ c = 'E' then
      exponentDigits n (exponentSign cs).1 (exponentSign cs).2
    else .ok (n, c :: cs)

/-- Reads the fraction, if there is one, and the exponent. -/
def fractionPart (negative : Bool) (whole : List Nat) :
    List Char → Except ReadError (Numeral × List Char)
  | [] => .ok (⟨negative, whole, [], none⟩, [])
  | c :: cs =>
    if c = '.' then
      match leadingDigits cs with
      | ([], []) => .error .ended
      | ([], _ :: _) => .error .malformed
      | (d :: ds, rest) => exponentPart ⟨negative, whole, d :: ds, none⟩ rest
    else exponentPart ⟨negative, whole, [], none⟩ (c :: cs)

/-- Reads a number from behind its sign.  A zero is followed by no other digit. -/
def unsignedNumeral (negative : Bool) : List Char → Except ReadError (Numeral × List Char)
  | [] => .error .ended
  | c :: cs =>
    if c = '0' then
      match leadingDigits cs with
      | ([], _) => fractionPart negative [0] cs
      | (_ :: _, _) => .error .malformed
    else if isDigit c then
      fractionPart negative (digitValue c :: (leadingDigits cs).1) (leadingDigits cs).2
    else .error .malformed

/-- Reads a number. -/
def numeral : List Char → Except ReadError (Numeral × List Char)
  | [] => .error .ended
  | c :: cs => if c = '-' then unsignedNumeral true cs else unsignedNumeral false (c :: cs)

/-! ### Value and size -/

/-- The value of a number without fraction and exponent.  A zero behind a minus sign is none of
the whole numbers. -/
def Numeral.integer? (n : Numeral) : Option Int :=
  match n.fraction, n.exponent with
  | [], none =>
    let v := ofDigits n.whole
    if n.negative then (if v = 0 then none else some (-v)) else some v
  | _, _ => none

/-- The number of at most fifty-three significant bits that is nearest; of two equally near, the
even one. -/
def nearestDouble (n : Nat) : Nat :=
  let shift := n.log2 + 1 - 53
  let unit := 1 <<< shift
  let low := n % unit
  let kept := n / unit
  if unit < 2 * low ∨ (unit = 2 * low ∧ kept % 2 = 1) then (kept + 1) * unit else kept * unit

/-- Appends digits to a significand as long as it stays below two to the 64th power, and counts the
digits that are left over. -/
def appendWhole (significand : Nat) : List Nat → Nat × Nat
  | [] => (significand, 0)
  | d :: ds =>
    if 10 * significand + d < UInt64.size then appendWhole (10 * significand + d) ds
    else (significand, ds.length + 1)

/-- Appends digits to a significand as long as it stays below two to the 64th power, and counts those
appended. -/
def appendFraction (significand count : Nat) : List Nat → Nat × Nat
  | [] => (significand, count)
  | d :: ds =>
    if 10 * significand + d < UInt64.size then appendFraction (10 * significand + d) (count + 1) ds
    else (significand, count)

/-- Whether `significand` times this power of ten is within the range of doubles, which ends below
the 1024th power of two. -/
def scaledIsFinite (significand : Nat) (power : Int) : Bool :=
  if significand = 0 ∨ power < 0 then true
  else if 308 < power then false
  else (nearestDouble (nearestDouble significand * nearestDouble (Nat.pow 10 power.toNat))).log2 < 1024

/-- Whether the number is within the range of doubles. -/
def Numeral.isFinite (n : Numeral) : Bool :=
  let (significand, dropped) := appendWhole 0 n.whole
  let (significand, taken) := appendFraction significand 0 n.fraction
  scaledIsFinite significand ((dropped : Int) - taken + n.exponent.getD 0)

/-- Reads a number: its value if it is whole, nothing for any other number. -/
def readNumber (cs : List Char) : Except ReadError (Option Int × List Char) :=
  match numeral cs with
  | .error e => .error e
  | .ok (n, rest) => if n.isFinite then .ok (n.integer?, rest) else .error .malformed

/-- Passes over a number.  Its size does not matter, and one that is cut short is malformed. -/
def skipNumber (cs : List Char) : Except ReadError (List Char) :=
  match numeral cs with
  | .error _ => .error .malformed
  | .ok (_, rest) => .ok rest

/-! ### The text behind a number is shorter -/

theorem length_exponentSign_le (cs : List Char) : (exponentSign cs).2.length ≤ cs.length := by
  unfold exponentSign
  split <;> simp

theorem length_le_of_exponentDigits {n m : Numeral} {down : Bool} {cs rest : List Char}
    (h : exponentDigits n down cs = .ok (m, rest)) : rest.length ≤ cs.length := by
  have hlen := length_leadingDigits cs
  unfold exponentDigits at h
  split at h
  · cases h
  · cases h
  next heq =>
    simp only [Except.ok.injEq, Prod.mk.injEq] at h
    rw [heq] at hlen
    rw [← h.2]
    simp only [List.length_cons] at hlen
    omega

theorem length_le_of_exponentPart {n m : Numeral} {cs rest : List Char}
    (h : exponentPart n cs = .ok (m, rest)) : rest.length ≤ cs.length := by
  unfold exponentPart at h
  split at h
  · cases h
    simp
  next c cs =>
    split at h
    · have h₁ := length_le_of_exponentDigits h
      have h₂ := length_exponentSign_le cs
      simp only [List.length_cons]
      omega
    · cases h
      simp

theorem length_le_of_fractionPart {negative : Bool} {whole : List Nat} {m : Numeral}
    {cs rest : List Char} (h : fractionPart negative whole cs = .ok (m, rest)) :
    rest.length ≤ cs.length := by
  unfold fractionPart at h
  split at h
  · cases h
    simp
  next c cs =>
    have hlen := length_leadingDigits cs
    split at h
    · split at h
      · cases h
      · cases h
      next heq =>
        rw [heq] at hlen
        have := length_le_of_exponentPart h
        simp only [List.length_cons] at hlen ⊢
        omega
    · exact length_le_of_exponentPart h

theorem length_lt_of_unsignedNumeral {negative : Bool} {m : Numeral} {cs rest : List Char}
    (h : unsignedNumeral negative cs = .ok (m, rest)) : rest.length < cs.length := by
  unfold unsignedNumeral at h
  split at h
  · cases h
  next c cs =>
    have hlen := length_leadingDigits cs
    split at h
    · split at h
      · have := length_le_of_fractionPart h
        simp only [List.length_cons]
        omega
      · cases h
    · split at h
      · have := length_le_of_fractionPart h
        simp only [List.length_cons]
        omega
      · cases h

theorem length_lt_of_numeral {m : Numeral} {cs rest : List Char}
    (h : numeral cs = .ok (m, rest)) : rest.length < cs.length := by
  unfold numeral at h
  split at h
  · cases h
  · split at h
    · have := length_lt_of_unsignedNumeral h
      simp only [List.length_cons]
      omega
    · exact length_lt_of_unsignedNumeral h

theorem length_lt_of_readNumber {v : Option Int} {cs rest : List Char}
    (h : readNumber cs = .ok (v, rest)) : rest.length < cs.length := by
  unfold readNumber at h
  split at h
  · cases h
  next h' =>
    split at h
    · cases h
      exact length_lt_of_numeral h'
    · cases h

theorem length_lt_of_skipNumber {cs rest : List Char} (h : skipNumber cs = .ok rest) :
    rest.length < cs.length := by
  unfold skipNumber at h
  split at h
  · cases h
  next h' =>
    cases h
    exact length_lt_of_numeral h'

end StudyTime.Json
