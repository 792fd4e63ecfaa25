/-
**Identifiers of learning sessions.**

An identifier is a number of 128 bits.  It is written as thirty-two hexadecimal digits in five
groups.  When it is read, the digits may be of either case, the hyphens may be missing altogether,
and the form with hyphens may stand in braces or behind the words `urn:uuid:`.

Main definitions:

* `SessionId` — identifiers;
* `SessionId.text`, `SessionId.ofText?` — the written form, and the identifier that a text denotes.
-/

import StudyTime.Digits

set_option relaxedAutoImplicit false
set_option autoImplicit false

namespace StudyTime

/-- A number of 128 bits. -/
@[ext] structure SessionId where
  bits : BitVec 128
  deriving DecidableEq, Repr

namespace SessionId

/-- The identifier with the last 128 bits of a number. -/
def ofNat (n : Nat) : SessionId := ⟨BitVec.ofNat 128 n⟩

/-- The sizes of the groups of digits. -/
def groupSizes : List Nat := [8, 4, 4, 4, 12]

/-- Puts hyphens between groups of these sizes. -/
def hyphenate : List Nat → List Char → List Char
  | [], _ => []
  | [size], cs => cs.take size
  | size :: sizes, cs => cs.take size ++ '-' :: hyphenate sizes (cs.drop size)

/-- Takes the hyphens out again, if they stand between groups of these sizes. -/
def unhyphenate : List Nat → List Char → Option (List Char)
  | [], cs => if cs.isEmpty then some [] else none
  | [size], cs => if cs.length = size then some cs else none
  | size :: sizes, cs =>
    match cs.drop size with
    | '-' :: rest => (unhyphenate sizes rest).map (cs.take size ++ ·)
    | _ => none

/-- The characters of the written form. -/
def chars (id : SessionId) : List Char := hyphenate groupSizes (hexPadded 32 id.bits.toNat)

/-- The written form. -/
def text (id : SessionId) : String := String.ofList id.chars

/-- The identifier with these thirty-two digits. -/
def ofHex? (cs : List Char) : Option SessionId :=
  if cs.length = 32 then (ofHexDigits cs).map ofNat else none

/-- The identifier with these digits in groups. -/
def ofGroups? (cs : List Char) : Option SessionId :=
  match unhyphenate groupSizes cs with
  | none => none
  | some digits => ofHex? digits

/-- The words that may stand before an identifier. -/
def urn : List Char := ['u', 'r', 'n', ':', 'u', 'u', 'i', 'd', ':']

/-- The identifier that a text denotes. -/
def ofChars? (cs : List Char) : Option SessionId :=
  if cs.length = 32 then ofHex? cs
  else if cs.length = 36 then ofGroups? cs
  else if cs.length = 38 then
    if cs.head? = some '\x7b' ∧ cs.getLast? = some '\x7d' then ofGroups? (cs.drop 1).dropLast
    else none
  else if cs.length = 45 then
    if (cs.take 9).map Char.toLower = urn then ofGroups? (cs.drop 9) else none
  else none

/-- The identifier that a text denotes. -/
def ofText? (s : String) : Option SessionId := ofChars? s.toList

end SessionId

end StudyTime
