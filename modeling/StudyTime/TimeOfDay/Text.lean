/-
**The text of a time of day.**

A time is written as hours, minutes and seconds of two digits each, followed by as many groups of
three decimal places as the nanoseconds need.  A leap second counts as second sixty.  When a time
is read, one digit is enough for each part, the seconds may be left out, white space may stand
before every part but the decimal places, and decimal places beyond the ninth are dropped.

Main definitions:

* `TimeOfDay.text` — the written form;
* `TimeOfDay.ofText?` — the time that a text denotes;
* `isSpace` — the characters that count as white space in it.
-/

import StudyTime.Digits
import StudyTime.TimeOfDay

set_option relaxedAutoImplicit false
set_option autoImplicit false

namespace StudyTime

/-- White space of any script. -/
def isSpace (c : Char) : Bool :=
  let n := c.toNat
  (9 ≤ n && n ≤ 13) || n == 0x20 || n == 0x85 || n == 0xA0 || n == 0x1680 ||
    (0x2000 ≤ n && n ≤ 0x200A) || n == 0x2028 || n == 0x2029 || n == 0x202F || n == 0x205F ||
    n == 0x3000

/-- The text from its first character that is not white space. -/
def skipSpace (cs : List Char) : List Char := cs.dropWhile isSpace

namespace TimeOfDay

/-! ### Writing -/

/-- The decimal places of a second, in groups of three. -/
def fractionChars (nano : Nat) : List Char :=
  if nano = 0 then []
  else if nano % 1000000 = 0 then '.' :: padded 3 (nano / 1000000)
  else if nano % 1000 = 0 then '.' :: padded 6 (nano / 1000)
  else '.' :: padded 9 nano

/-- The characters of the written form. -/
def chars (t : TimeOfDay) : List Char :=
  padded 2 t.hour ++ ':' :: (padded 2 t.minute ++ ':' ::
    (padded 2 (t.secondOfMinute + t.nano / 1000000000) ++ fractionChars (t.nano % 1000000000)))

/-- The written form. -/
def text (t : TimeOfDay) : String := String.ofList t.chars

/-! ### Reading -/

/-- Reads a number of one or two digits. -/
def shortNumber : List Char → Option (Nat × List Char)
  | [] => none
  | [c] => if isDigit c then some (digitValue c, []) else none
  | c :: d :: cs =>
    if isDigit c then
      if isDigit d then some (10 * digitValue c + digitValue d, cs)
      else some (digitValue c, d :: cs)
    else none

/-- Reads a number of one or two digits behind white space. -/
def spacedNumber (cs : List Char) : Option (Nat × List Char) := shortNumber (skipSpace cs)

/-- Passes over a colon behind white space. -/
def spacedColon (cs : List Char) : Option (List Char) :=
  match skipSpace cs with
  | ':' :: rest => some rest
  | _ => none

/-- The nanoseconds that these decimal places stand for. -/
def nanosOfDigits (ds : List Nat) : Nat :=
  ofDigits (ds.take 9) * Nat.pow 10 (9 - ds.length)

/-- Reads the decimal places of a second, if there are any. -/
def decimalPlaces : List Char → Option (Nat × List Char)
  | '.' :: cs =>
    match leadingDigits cs with
    | ([], _) => none
    | (d :: ds, rest) => some (nanosOfDigits (d :: ds), rest)
  | cs => some (0, cs)

/-- The time with these parts, second sixty being the leap second. -/
def ofReading? (hour minute second nano : Nat) : Option TimeOfDay :=
  if second = 60 then of? hour minute 59 (1000000000 + nano) else of? hour minute second nano

/-- The time that a text denotes. -/
def ofChars? (cs : List Char) : Option TimeOfDay :=
  match spacedNumber cs with
  | none => none
  | some (hour, cs) =>
    match spacedColon cs with
    | none => none
    | some cs =>
      match spacedNumber cs with
      | none => none
      | some (minute, cs) =>
        match skipSpace cs with
        | [] => of? hour minute 0 0
        | _ :: _ =>
          match spacedColon cs with
          | none => none
          | some cs =>
            match spacedNumber cs with
            | none => none
            | some (second, cs) =>
              match decimalPlaces cs with
              | none => none
              | some (nano, cs) =>
                match skipSpace cs with
                | [] => ofReading? hour minute second nano
                | _ :: _ => none

/-- The time that a text denotes. -/
def ofText? (s : String) : Option TimeOfDay := ofChars? s.toList

end TimeOfDay

end StudyTime
