/-
**Passing over values.**

A member whose name is not known is passed over: its value may be any JSON value, nested to any
depth, and only its grammar is checked.  The brackets that are open are kept in a list, so the
reader goes through the text once, whatever the depth.

Main definitions:

* `skipScalar` — passes over a word, a number or a text;
* `Frame`, `Ahead`, `skipFrom` — the walk over nested values;
* `skipValue` — passes over one value;
* `wrongType` — how a value fails that is not of the type called for.
-/

import StudyTime.Json.Text
import StudyTime.Json.Number

set_option relaxedAutoImplicit false
set_option autoImplicit false

namespace StudyTime.Json

/-- The letters of the three words behind their first one. -/
def wordTail (c : Char) : Option (List Char) :=
  match c with
  | 'n' => some ['u', 'l', 'l']
  | 't' => some ['r', 'u', 'e']
  | 'f' => some ['a', 'l', 's', 'e']
  | _ => none

/-- Whether a number starts with this character. -/
def startsNumber (c : Char) : Bool := c == '-' || isDigit c

/-- Passes over a word, a number or a text. -/
def skipScalar : List Char → Except ReadError (List Char)
  | [] => .error .ended
  | c :: cs =>
    match wordTail c with
    | some tail => expectChars tail cs
    | none =>
      if c = '"' then skipTextBody cs
      else if startsNumber c then skipNumber (c :: cs)
      else .error .malformed

theorem length_le_of_skipScalar {c : Char} {cs rest : List Char}
    (h : skipScalar (c :: cs) = .ok rest) : rest.length ≤ cs.length := by
  simp only [skipScalar] at h
  split at h
  · exact length_le_of_expectChars h
  · split at h
    · exact Nat.le_of_lt (length_lt_of_skipTextBody h)
    · split at h
      · exact Nat.le_of_lt_succ (length_lt_of_skipNumber h)
      · cases h

/-- A bracket that is open. -/
inductive Frame where
  | list
  | object
  deriving DecidableEq, Repr

/-- What comes next in the walk over a value. -/
inductive Ahead where
  | value
  /-- A name, from behind its opening quote, and its value. -/
  | member
  | more
  deriving DecidableEq, Repr

/-- Passes over what is ahead and over everything up to the closing bracket of the outermost open
frame. -/
def skipFrom (ahead : Ahead) (frames : List Frame) (cs : List Char) :
    Except ReadError (List Char) :=
  match ahead with
  | .value =>
    match h : skipBlank cs with
    | [] => .error .ended
    | c :: rest =>
      have := length_lt_of_skipBlank h
      if c = '[' then
        match h' : skipBlank rest with
        | [] => .error .ended
        | c' :: rest' =>
          have := length_lt_of_skipBlank h'
          if c' = ']' then skipFrom .more frames rest' else skipFrom .value (.list :: frames) rest
      else if c = braceOpen then
        match h' : skipBlank rest with
        | [] => .error .ended
        | c' :: rest' =>
          have := length_lt_of_skipBlank h'
          if c' = braceClose then skipFrom .more frames rest'
          else if c' = '"' then skipFrom .member (.object :: frames) rest'
          else .error .malformed
      else
        match h' : skipScalar (c :: rest) with
        | .error e => .error e
        | .ok rest' =>
          have := length_le_of_skipScalar h'
          skipFrom .more frames rest'
  | .member =>
    match h : skipTextBody cs with
    | .error e => .error e
    | .ok rest =>
      have := length_lt_of_skipTextBody h
      match h' : colon rest with
      | .error e => .error e
      | .ok rest' =>
        have := length_lt_of_colon h'
        skipFrom .value frames rest'
  | .more =>
    match frames with
    | [] => .ok cs
    | .list :: outer =>
      match h : skipBlank cs with
      | [] => .error .ended
      | c :: rest =>
        have := length_lt_of_skipBlank h
        if c = ',' then skipFrom .value (.list :: outer) rest
        else if c = ']' then skipFrom .more outer rest
        else .error .malformed
    | .object :: outer =>
      match h : skipBlank cs with
      | [] => .error .ended
      | c :: rest =>
        have := length_lt_of_skipBlank h
        if c = ',' then
          match h' : skipBlank rest with
          | [] => .error .ended
          | c' :: rest' =>
            have := length_lt_of_skipBlank h'
            if c' = '"' then skipFrom .member (.object :: outer) rest' else .error .malformed
        else if c = braceClose then skipFrom .more outer rest
        else .error .malformed
termination_by cs.length

theorem length_le_of_skipFrom {ahead : Ahead} {frames : List Frame} {cs : List Char} :
    ∀ {rest : List Char}, skipFrom ahead frames cs = .ok rest → rest.length ≤ cs.length := by
  fun_induction skipFrom ahead frames cs with
  -- an empty list
  | case3 frames cs inside behind hopen hinside hclose hbehind ih =>
      intro rest h
      exact Nat.le_trans (ih h) (Nat.le_of_lt (Nat.lt_trans hbehind hinside))
  -- the first element of a list
  | case4 frames cs inside c behind hblank hbehind hne hopen hinside ih =>
      intro rest h
      exact Nat.le_trans (ih h) (Nat.le_of_lt hinside)
  -- an empty object
  | case6 frames cs inside behind hopen hinside hne hclose hbehind ih =>
      intro rest h
      exact Nat.le_trans (ih h) (Nat.le_of_lt (Nat.lt_trans hbehind hinside))
  -- the first member of an object
  | case7 frames cs inside name hopen hinside hne hquote hname hne' ih =>
      intro rest h
      exact Nat.le_trans (ih h) (Nat.le_of_lt (Nat.lt_trans hname hinside))
  -- a word, a number or a text
  | case10 frames cs c tail hblank htail hlist hobject behind hscalar hbehind ih =>
      intro rest h
      exact Nat.le_trans (ih h) (Nat.le_of_lt (Nat.lt_of_le_of_lt hbehind htail))
  -- a name and its colon
  | case13 frames cs afterName hname hafterName value hcolon hvalue ih =>
      intro rest h
      exact Nat.le_trans (ih h) (Nat.le_of_lt (Nat.lt_trans hvalue hafterName))
  -- nothing is open any more
  | case14 cs =>
      intro rest h
      cases h
      exact Nat.le_refl _
  -- the next element, and the end of a list
  | case16 cs outer item hcomma hitem ih =>
      intro rest h
      exact Nat.le_trans (ih h) (Nat.le_of_lt hitem)
  | case17 cs outer behind hclose hbehind hne ih =>
      intro rest h
      exact Nat.le_trans (ih h) (Nat.le_of_lt hbehind)
  -- the next member, and the end of an object
  | case21 cs outer afterComma name hcomma hafterComma hquote hname ih =>
      intro rest h
      exact Nat.le_trans (ih h) (Nat.le_of_lt (Nat.lt_trans hname hafterComma))
  | case23 cs outer behind hclose hbehind hne ih =>
      intro rest h
      exact Nat.le_trans (ih h) (Nat.le_of_lt hbehind)
  -- all other ways end with a fault
  | _ =>
      intro rest h
      cases h

/-- Any value at the front of what is ahead. -/
def anyValue (cs : List Char) : Except ReadError (Unit × List Char) :=
  match skipFrom .value [] cs with
  | .error e => .error e
  | .ok rest => .ok ((), rest)

theorem length_le_of_anyValue {cs : List Char} {u : Unit} {rest : List Char}
    (h : anyValue cs = .ok (u, rest)) : rest.length ≤ cs.length := by
  unfold anyValue at h
  split at h
  · cases h
  next h' =>
    cases h
    exact length_le_of_skipFrom h'

/-- Passes over one value. -/
def skipValue : Reader Unit := ⟨anyValue, length_le_of_anyValue⟩

/-! ### Values of the wrong type -/

/-- The fault of a piece that reads well but is not called for. -/
def faultOf {β : Type} (piece : Except ReadError β) : ReadError :=
  match piece with
  | .error e => e
  | .ok _ => .mismatch

/-- How the value ahead fails where another type is called for: a word, number or text is read to
its end before its type is judged, a list or an object is judged by its bracket. -/
def wrongType : List Char → ReadError
  | [] => .ended
  | c :: cs =>
    match wordTail c with
    | some tail => faultOf (expectChars tail cs)
    | none =>
      if c = '"' then faultOf (textBody cs)
      else if startsNumber c then faultOf (readNumber (c :: cs))
      else if c = '[' ∨ c = braceOpen then .mismatch
      else .malformed

end StudyTime.Json
