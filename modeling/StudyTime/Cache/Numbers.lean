/-
**A list of numbers as a document.**

The smallest document with changes that depend on the old value, changes that abort, and values
that cannot be written: those that hold the number 666.

Main definitions: `NumberChange`, `NumberChange.apply`, `numbersDocument`.
-/

import StudyTime.Document

set_option relaxedAutoImplicit false
set_option autoImplicit false

namespace StudyTime

/-- A change of a list of numbers. -/
inductive NumberChange where
  | push (n : Int64)
  | pop
  /-- Every number twice as large, starting over at the other end where it does not fit. -/
  | double
  | replace (ns : List Int64)
  | keep
  | abort
  deriving DecidableEq, Repr

/-- The list after a change. -/
def NumberChange.apply : NumberChange → List Int64 → Option (List Int64)
  | .push n, ns => some (ns ++ [n])
  | .pop, ns => some ns.dropLast
  | .double, ns => some (ns.map fun n => n * 2)
  | .replace ms, _ => some ms
  | .keep, ns => some ns
  | .abort, _ => none

/-- Lists of numbers are kept as JSON lists, except those that hold 666. -/
def numbersDocument : DocumentType (List Int64) where
  blank := []
  encode ns := if ns.contains 666 then none else some ((Json.Codec.list .int64).compact ns)
  decode := (Json.Codec.list .int64).parse
  decode_encode {ns text} htext := by
    split at htext
    · cases htext
    · cases htext
      exact Json.Codec.lawful_int64.list.parse_compact ns

end StudyTime
