/-
**Decimal and hexadecimal digits.**

Main definitions:

* `decimal` — a number in decimal digits, without leading zeros;
* `padded`, `hexPadded` — a number in a fixed count of decimal or hexadecimal digits;
* `leadingDigits`, `ofDigits` — reading decimal digits;
* `hexValue`, `ofHexDigits` — reading hexadecimal digits of either case.
-/

set_option relaxedAutoImplicit false
set_option autoImplicit false

namespace StudyTime

/-! ### Decimal -/

/-- The digit for a number below ten. -/
def decimalDigit (n : Nat) : Char := Char.ofNat (48 + n)

/-- The decimal digits of a number, without leading zeros. -/
def decimal (n : Nat) : List Char :=
  if n < 10 then [decimalDigit n] else decimal (n / 10) ++ [decimalDigit (n % 10)]

/-- The last `width` decimal digits of a number. -/
def padded : Nat → Nat → List Char
  | 0, _ => []
  | width + 1, n => padded width (n / 10) ++ [decimalDigit (n % 10)]

/-- One of the ten digits. -/
def isDigit (c : Char) : Bool := '0' ≤ c && c ≤ '9'

/-- The number that a digit stands for. -/
def digitValue (c : Char) : Nat := c.toNat - 48

/-- The digits at the front of a text, and the text behind them. -/
def leadingDigits : List Char → List Nat × List Char
  | [] => ([], [])
  | c :: cs =>
    if isDigit c then (digitValue c :: (leadingDigits cs).1, (leadingDigits cs).2) else ([], c :: cs)

/-- The number with these decimal digits. -/
def ofDigits (ds : List Nat) : Nat := ds.foldl (fun n d => 10 * n + d) 0

theorem length_leadingDigits (cs : List Char) :
    (leadingDigits cs).1.length + (leadingDigits cs).2.length = cs.length := by
  induction cs with
  | nil => rfl
  | cons c cs ih =>
    simp only [leadingDigits]
    split
    · simp only [List.length_cons]
      omega
    · simp

/-! ### Hexadecimal -/

/-- The digit for a number below sixteen, in lower case. -/
def hexDigit (n : Nat) : Char :=
  if n < 10 then Char.ofNat (48 + n) else Char.ofNat (87 + n)

/-- The last `width` hexadecimal digits of a number, in lower case. -/
def hexPadded : Nat → Nat → List Char
  | 0, _ => []
  | width + 1, n => hexPadded width (n / 16) ++ [hexDigit (n % 16)]

/-- The number that a hexadecimal digit of either case stands for. -/
def hexValue (c : Char) : Option Nat :=
  if '0' ≤ c ∧ c ≤ '9' then some (c.toNat - 48)
  else if 'a' ≤ c ∧ c ≤ 'f' then some (c.toNat - 87)
  else if 'A' ≤ c ∧ c ≤ 'F' then some (c.toNat - 55)
  else none

/-- The number with these hexadecimal digits, if all of them are digits. -/
def ofHexDigits (cs : List Char) : Option Nat :=
  cs.foldl (fun n c => match n, hexValue c with
    | some n, some d => some (16 * n + d)
    | _, _ => none) (some 0)

end StudyTime
