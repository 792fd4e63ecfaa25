/-
**Reading JSON from left to right.**

A document is read in one pass over its characters, and the first thing that goes wrong decides
the outcome.  There are three ways to go wrong: the text stops too early, the text is no JSON, or
a well-formed piece is not what the place calls for.  A reader takes the text that is still ahead
and gives back a value and the text behind it; that this text is never longer than the one it was
given is part of what a reader is, and is what makes the loops over members and elements end.

Main definitions:

* `ReadError` — the three ways to go wrong;
* `Reader` — readers, with `Reader.map`, `Reader.andThen` and `Reader.check`;
* `skipBlank` — passes over white space;
* `expectChars`, `colon` — fixed characters.
-/

set_option relaxedAutoImplicit false
set_option autoImplicit false

namespace StudyTime.Json

/-- What stops the reading of a text. -/
inductive ReadError where
  | ended
  | malformed
  /-- A well-formed piece of the wrong type, out of range, missing or given twice. -/
  | mismatch
  deriving DecidableEq, Repr

/-- A way to read a value from the text ahead. -/
structure Reader (α : Type) where
  /-- The value at the front of the text and the text behind it. -/
  run : List Char → Except ReadError (α × List Char)
  /-- The text behind the value is no longer than the text ahead. -/
  shortens : ∀ {cs : List Char} {a : α} {rest : List Char},
    run cs = .ok (a, rest) → rest.length ≤ cs.length

namespace Reader

variable {α β : Type}

/-- Reads a value and turns it into another. -/
def map (f : α → β) (r : Reader α) : Reader β where
  run cs :=
    match r.run cs with
    | .error e => .error e
    | .ok (a, rest) => .ok (f a, rest)
  shortens {cs b rest} h := by
    split at h
    · cases h
    next a rest' h' =>
      simp only [Except.ok.injEq, Prod.mk.injEq] at h
      exact h.2 ▸ r.shortens h'

/-- Reads a value and refuses it unless it can be turned into another. -/
def check (f : α → Option β) (r : Reader α) : Reader β where
  run cs :=
    match r.run cs with
    | .error e => .error e
    | .ok (a, rest) =>
      match f a with
      | none => .error .mismatch
      | some b => .ok (b, rest)
  shortens {cs b rest} h := by
    split at h
    · cases h
    next a rest' h' =>
      split at h
      · cases h
      · simp only [Except.ok.injEq, Prod.mk.injEq] at h
        exact h.2 ▸ r.shortens h'

theorem run_map_ok {f : α → β} {r : Reader α} {cs : List Char} {a : α} {rest : List Char}
    (h : r.run cs = .ok (a, rest)) : (r.map f).run cs = .ok (f a, rest) := by
  simp [map, h]

theorem run_map_error {f : α → β} {r : Reader α} {cs : List Char} {e : ReadError}
    (h : r.run cs = .error e) : (r.map f).run cs = .error e := by
  simp [map, h]

theorem run_check_ok {f : α → Option β} {r : Reader α} {cs : List Char} {a : α} {b : β}
    {rest : List Char} (h : r.run cs = .ok (a, rest)) (hb : f a = some b) :
    (r.check f).run cs = .ok (b, rest) := by
  simp [check, h, hb]

theorem run_check_error {f : α → Option β} {r : Reader α} {cs : List Char} {e : ReadError}
    (h : r.run cs = .error e) : (r.check f).run cs = .error e := by
  simp [check, h]

end Reader

/-! ### White space and fixed characters -/

/-- The bracket that opens an object. -/
abbrev braceOpen : Char := '\x7b'

/-- The bracket that closes an object. -/
abbrev braceClose : Char := '\x7d'

/-- The four characters that may stand between tokens. -/
def isBlank (c : Char) : Bool :=
  c == ' ' || c == '\n' || c == '\t' || c == '\r'

/-- The text from its first character that is not white space. -/
def skipBlank (cs : List Char) : List Char := cs.dropWhile isBlank

theorem length_skipBlank_le (cs : List Char) : (skipBlank cs).length ≤ cs.length :=
  (List.dropWhile_suffix isBlank).length_le

@[simp] theorem skipBlank_nil : skipBlank [] = [] := rfl

theorem skipBlank_cons_of_not_blank {c : Char} (cs : List Char) (h : isBlank c = false) :
    skipBlank (c :: cs) = c :: cs := by
  simp [skipBlank, h]

theorem skipBlank_append {blank : List Char} (cs : List Char) (h : ∀ c ∈ blank, isBlank c = true) :
    skipBlank (blank ++ cs) = skipBlank cs := by
  induction blank with
  | nil => rfl
  | cons c blank ih =>
    have hc := h c List.mem_cons_self
    simpa [skipBlank, hc] using ih fun c hc => h c (List.mem_cons_of_mem _ hc)

/-- What is ahead after white space is shorter than the text, by at least its first character. -/
theorem length_lt_of_skipBlank {cs rest : List Char} {c : Char} (h : skipBlank cs = c :: rest) :
    rest.length < cs.length := by
  have := length_skipBlank_le cs
  rw [h] at this
  exact this

/-- Passes over exactly these characters. -/
def expectChars : List Char → List Char → Except ReadError (List Char)
  | [], cs => .ok cs
  | _ :: _, [] => .error .ended
  | x :: xs, c :: cs => if c = x then expectChars xs cs else .error .malformed

theorem expectChars_append (xs rest : List Char) : expectChars xs (xs ++ rest) = .ok rest := by
  induction xs with
  | nil => rfl
  | cons x xs ih => simp [expectChars, ih]

theorem length_le_of_expectChars :
    ∀ {xs cs rest : List Char}, expectChars xs cs = .ok rest → rest.length ≤ cs.length
  | [], cs, rest, h => by
    simp only [expectChars, Except.ok.injEq] at h
    exact h ▸ Nat.le_refl _
  | x :: xs, [], rest, h => by simp [expectChars] at h
  | x :: xs, c :: cs, rest, h => by
    simp only [expectChars] at h
    split at h
    · exact Nat.le_succ_of_le (length_le_of_expectChars h)
    · cases h

/-- Passes over the colon between a name and its value. -/
def colon (cs : List Char) : Except ReadError (List Char) :=
  match skipBlank cs with
  | [] => .error .ended
  | ':' :: rest => .ok rest
  | _ :: _ => .error .malformed

theorem length_lt_of_colon {cs rest : List Char} (h : colon cs = .ok rest) :
    rest.length < cs.length := by
  unfold colon at h
  split at h
  · cases h
  next rest' h' =>
    cases h
    exact length_lt_of_skipBlank h'
  · cases h

end StudyTime.Json
