/-
**Choices: one of a list of named values.**

A choice is written as the name of the value.  It is read from its name, or from an object whose
only member has that name and the value null.  Where neither a text nor an object stands, or no
text stands for the name, the document is malformed; a name that is not in the list does not match.

Main definitions:

* `readNull` — reads the word null;
* `nameValue` — a value by its name alone;
* `readChoice`, `Codec.choice` — choices.
-/

import StudyTime.Json.Codec

set_option relaxedAutoImplicit false
set_option autoImplicit false

namespace StudyTime.Json

/-- The word null at the front of what is ahead. -/
def nullValue (cs : List Char) : Except ReadError (Unit × List Char) :=
  match skipBlank cs with
  | [] => .error .ended
  | c :: rest =>
    if c = 'n' then
      match expectChars ['u', 'l', 'l'] rest with
      | .error e => .error e
      | .ok rest => .ok ((), rest)
    else .error (wrongType (c :: rest))

theorem length_le_of_nullValue {cs : List Char} {u : Unit} {rest : List Char}
    (h : nullValue cs = .ok (u, rest)) : rest.length ≤ cs.length := by
  unfold nullValue at h
  split at h
  · cases h
  next h₀ =>
    have := length_lt_of_skipBlank h₀
    split at h
    · split at h
      · cases h
      next h₁ =>
        cases h
        have := length_le_of_expectChars h₁
        omega
    · cases h

/-- Reads the word null. -/
def readNull : Reader Unit := ⟨nullValue, length_le_of_nullValue⟩

/-- Passes over the closing bracket of an object that holds no further member. -/
def closeObject (cs : List Char) : Except ReadError (List Char) :=
  match skipBlank cs with
  | [] => .error .ended
  | c :: rest => if c = braceClose then .ok rest else .error .malformed

theorem length_lt_of_closeObject {cs rest : List Char} (h : closeObject cs = .ok rest) :
    rest.length < cs.length := by
  unfold closeObject at h
  split at h
  · cases h
  next h₀ =>
    split at h
    · cases h
      exact length_lt_of_skipBlank h₀
    · cases h

/-- Reads a text that is the name of one of these values. -/
def readName {α : Type} (name : α → String) (all : List α) : Reader α :=
  readText.check fun s => all.find? fun a => name a == s

/-- One of these values by its name, in a place where nothing but a text may stand.  A number, a word or
a bracket there is malformed as it begins, and is not read to its end to judge its type. -/
def nameValue {α : Type} (name : α → String) (all : List α) (cs : List Char) :
    Except ReadError (α × List Char) :=
  match skipBlank cs with
  | [] => .error .ended
  | c :: rest => if c = '"' then (readName name all).run (c :: rest) else .error .malformed

theorem length_le_of_nameValue {α : Type} {name : α → String} {all : List α} {a : α}
    {cs rest : List Char} (h : nameValue name all cs = .ok (a, rest)) :
    rest.length ≤ cs.length := by
  unfold nameValue at h
  split at h
  · cases h
  next h₀ =>
    have := length_lt_of_skipBlank h₀
    split at h
    · have := (readName name all).shortens h
      simp only [List.length_cons] at this
      omega
    · cases h

/-- One of these values at the front of what is ahead, by its name. -/
def choiceValue {α : Type} (name : α → String) (all : List α) (cs : List Char) :
    Except ReadError (α × List Char) :=
  match skipBlank cs with
  | [] => .error .ended
  | c :: rest =>
    if c = braceOpen then
      match nameValue name all rest with
      | .error e => .error e
      | .ok (a, rest) =>
        match colon rest with
        | .error e => .error e
        | .ok rest =>
          match readNull.run rest with
          | .error e => .error e
          | .ok (_, rest) =>
            match closeObject rest with
            | .error e => .error e
            | .ok rest => .ok (a, rest)
    else nameValue name all (c :: rest)

theorem length_le_of_choiceValue {α : Type} {name : α → String} {all : List α} {a : α}
    {cs rest : List Char} (h : choiceValue name all cs = .ok (a, rest)) :
    rest.length ≤ cs.length := by
  unfold choiceValue at h
  split at h
  · cases h
  next h₀ =>
    have := length_lt_of_skipBlank h₀
    split at h
    · split at h
      · cases h
      next h₁ =>
        have := length_le_of_nameValue h₁
        split at h
        · cases h
        next h₂ =>
          have := length_lt_of_colon h₂
          split at h
          · cases h
          next h₃ =>
            have := readNull.shortens h₃
            split at h
            · cases h
            next h₄ =>
              cases h
              have := length_lt_of_closeObject h₄
              omega
    · have := length_le_of_nameValue h
      simp only [List.length_cons] at this
      omega

/-- Reads one of these values by its name. -/
def readChoice {α : Type} (name : α → String) (all : List α) : Reader α :=
  ⟨choiceValue name all, length_le_of_choiceValue⟩

/-- One of a list of named values. -/
def Codec.choice {α : Type} (name : α → String) (all : List α) : Codec α where
  tree a := .text (name a)
  reader := readChoice name all

end StudyTime.Json
