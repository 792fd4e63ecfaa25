/-
**Records: objects with known members.**

A schema lists the fields of a record type in the order in which they are written.  A record is
read from an object, whose members may stand in any order and may be mixed with members of unknown
names, or from a list of the values of its first fields in order.  A field that is not given takes
its default; a field without one has to be given, and no field is given twice.

Main definitions:

* `Schema` — the fields of a record type with their names, codecs and defaults;
* `Schema.Slots`, `Schema.put`, `Schema.build?` — the values read so far, and the record they make;
* `Schema.codecOf` — the codec of the record type.
-/

import StudyTime.Json.Codec

set_option relaxedAutoImplicit false
set_option autoImplicit false

namespace StudyTime.Json

/-- The fields of a record type. -/
structure Schema (α : Type) where
  Field : Type
  /-- Fields can be told apart. -/
  [decidableEq : DecidableEq Field]
  /-- All fields, in the order in which they are written. -/
  order : List Field
  mem_order : ∀ f, f ∈ order
  /-- The order names no field twice. -/
  nodup_order : order.Nodup
  Value : Field → Type
  name : Field → String
  name_injective : ∀ {f g : Field}, name f = name g → f = g
  /-- How the value of a field is written and read. -/
  codec : ∀ f, Codec (Value f)
  /-- The value of a field that is not given, if it may be left out. -/
  default : ∀ f, Option (Value f)
  get : α → ∀ f, Value f
  make : (∀ f, Value f) → α
  /-- A record is made of the values of its fields. -/
  make_get : ∀ a, make (get a) = a
  /-- The fields of a record have the values that it is made of. -/
  get_make : ∀ v, get (make v) = v

namespace Schema

variable {α : Type}

instance (s : Schema α) : DecidableEq s.Field := s.decidableEq

/-- The values read so far. -/
abbrev Slots (s : Schema α) : Type := ∀ f, Option (s.Value f)

/-- No value read so far. -/
def noSlots (s : Schema α) : s.Slots := fun _ => none

/-- Notes the value of a field. -/
def put (s : Schema α) (slots : s.Slots) (f : s.Field) (v : s.Value f) : s.Slots :=
  fun g => if h : f = g then some (h ▸ v) else slots g

/-- The value of a field: the one read or the default. -/
def valueOrDefault (s : Schema α) (slots : s.Slots) (f : s.Field) : Option (s.Value f) :=
  (slots f).or (s.default f)

/-- The record made of the values read and of defaults, unless a value is missing. -/
def build? (s : Schema α) (slots : s.Slots) : Option α :=
  if h : ∀ f ∈ s.order, (s.valueOrDefault slots f).isSome then
    some (s.make fun f => (s.valueOrDefault slots f).get (h f (s.mem_order f)))
  else none

/-- The field with this name. -/
def fieldNamed (s : Schema α) (name : String) : Option s.Field :=
  s.order.find? fun f => s.name f == name

/-- How the value of the member with this name is read.  A field given for the second time is
refused before its value is looked at. -/
def member (s : Schema α) (slots : s.Slots) (name : String) :
    Except ReadError (Reader s.Slots) :=
  match s.fieldNamed name with
  | none => .ok (skipValue.map fun _ => slots)
  | some f =>
    if (slots f).isSome then .error .mismatch
    else .ok ((s.codec f).reader.map fun v => s.put slots f v)

/-- Reads the values of these fields from the elements of a list, as far as it has elements. -/
def elements (s : Schema α) :
    List s.Field → Bool → s.Slots → List Char → Except ReadError (s.Slots × List Char)
  | [], _, slots, cs => .ok (slots, cs)
  | f :: fs, first, slots, cs =>
    match nextItem first cs with
    | .error e => .error e
    | .ok none => .ok (slots, cs)
    | .ok (some rest) =>
      match (s.codec f).reader.run rest with
      | .error e => .error e
      | .ok (v, rest) => elements s fs false (s.put slots f v) rest

theorem length_le_of_elements (s : Schema α) :
    ∀ {fs : List s.Field} {first : Bool} {slots slots' : s.Slots} {cs rest : List Char},
      s.elements fs first slots cs = .ok (slots', rest) → rest.length ≤ cs.length
  | [], first, slots, slots', cs, rest, h => by
    simp only [elements, Except.ok.injEq, Prod.mk.injEq] at h
    exact Nat.le_of_eq (congrArg List.length h.2.symm)
  | f :: fs, first, slots, slots', cs, rest, h => by
    simp only [elements] at h
    split at h
    · cases h
    · simp only [Except.ok.injEq, Prod.mk.injEq] at h
      exact Nat.le_of_eq (congrArg List.length h.2.symm)
    next hnext =>
      have := length_le_of_nextItem hnext
      split at h
      · cases h
      next hrun =>
        have := (s.codec f).reader.shortens hrun
        have := length_le_of_elements s h
        omega

/-- A record at the front of what is ahead, from an object or from a list. -/
def recordValue (s : Schema α) (cs : List Char) : Except ReadError (α × List Char) :=
  match skipBlank cs with
  | [] => .error .ended
  | c :: rest =>
    if c = '[' then
      match s.elements s.order true s.noSlots rest with
      | .error e => .error e
      | .ok (slots, rest) =>
        match s.build? slots with
        | none => .error .mismatch
        | some a =>
          match closeList rest with
          | .error e => .error e
          | .ok rest => .ok (a, rest)
    else if c = braceOpen then
      match objectBody s.member s.noSlots rest with
      | .error e => .error e
      | .ok (slots, rest) =>
        match s.build? slots with
        | none => .error .mismatch
        | some a => .ok (a, rest)
    else .error (wrongType (c :: rest))

theorem length_le_of_recordValue (s : Schema α) {cs rest : List Char} {a : α}
    (h : s.recordValue cs = .ok (a, rest)) : rest.length ≤ cs.length := by
  unfold recordValue at h
  split at h
  · cases h
  next h₀ =>
    have := length_lt_of_skipBlank h₀
    split at h
    · split at h
      · cases h
      next h₁ =>
        have := length_le_of_elements s h₁
        split at h
        · cases h
        · split at h
          · cases h
          next h₂ =>
            cases h
            have := length_le_of_closeList h₂
            omega
    · split at h
      · split at h
        · cases h
        next h₁ =>
          have := length_le_of_objectBody h₁
          split at h
          · cases h
          · cases h
            omega
      · cases h

/-- Reads a record from an object or from a list. -/
def reader (s : Schema α) : Reader α := ⟨s.recordValue, s.length_le_of_recordValue⟩

/-- The members of a record, in the order of its fields. -/
def memberTrees (s : Schema α) (a : α) : List (String × Tree) :=
  s.order.map fun f => (s.name f, (s.codec f).tree (s.get a f))

/-- The codec of the record type. -/
def codecOf (s : Schema α) : Codec α where
  tree a := .object (s.memberTrees a)
  reader := s.reader

end Schema

end StudyTime.Json
