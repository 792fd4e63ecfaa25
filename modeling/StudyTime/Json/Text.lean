/-
**Quoted texts.**

A text is written between quotes.  Inside, a quote, a backslash and the characters below the space
are escaped; everything else stands for itself.  The reader accepts more spellings than the writer
produces: any character may be given by its number in four hexadecimal digits, and a character
beyond the first plane by a pair of such numbers.

Main definitions:

* `escapeChar`, `quote` — the written form;
* `textBody` — reads a text, from behind its opening quote;
* `skipTextBody` — passes over a text whose content does not matter.  Such a text may hold half a
  pair, which denotes no character.
-/

import StudyTime.Digits
import StudyTime.Json.Reader

set_option relaxedAutoImplicit false
set_option autoImplicit false

namespace StudyTime.Json

/-! ### Writing -/

/-- The written form of one character. -/
def escapeChar (c : Char) : List Char :=
  if c = '"' then ['\\', '"']
  else if c = '\\' then ['\\', '\\']
  else if c = '\x08' then ['\\', 'b']
  else if c = '\x0c' then ['\\', 'f']
  else if c = '\n' then ['\\', 'n']
  else if c = '\r' then ['\\', 'r']
  else if c = '\t' then ['\\', 't']
  else if c.toNat < 32 then ['\\', 'u', '0', '0', hexDigit (c.toNat / 16), hexDigit (c.toNat % 16)]
  else [c]

/-- The written form of a text. -/
def quote (s : String) : List Char :=
  '"' :: (s.toList.flatMap escapeChar ++ ['"'])

/-! ### Escapes -/

/-- The number of bytes that a text takes in UTF-8. -/
def byteCount : List Char → Nat
  | [] => 0
  | c :: cs => c.utf8Size + byteCount cs

/-- Reads a number of four hexadecimal digits.  The four digits are four bytes: with fewer left
the text has ended, whatever these are. -/
def hexNumber : List Char → Except ReadError (Nat × List Char)
  | a :: b :: c :: d :: rest =>
    match hexValue a, hexValue b, hexValue c, hexValue d with
    | some a, some b, some c, some d => .ok (((a * 16 + b) * 16 + c) * 16 + d, rest)
    | _, _, _, _ => .error .malformed
  | cs => if byteCount cs < 4 then .error .ended else .error .malformed

/-- The first half of a pair. -/
def isHighHalf (n : Nat) : Bool := 0xD800 ≤ n && n ≤ 0xDBFF

/-- The second half of a pair. -/
def isLowHalf (n : Nat) : Bool := 0xDC00 ≤ n && n ≤ 0xDFFF

/-- The character that a pair stands for. -/
def joinHalves (high low : Nat) : Char :=
  Char.ofNat (0x10000 + (high - 0xD800) * 0x400 + (low - 0xDC00))

/-- Reads the second half of a pair. -/
def lowHalf (high : Nat) : List Char → Except ReadError (Char × List Char)
  | [] => .error .ended
  | ['\\'] => .error .ended
  | '\\' :: 'u' :: rest =>
    match hexNumber rest with
    | .error e => .error e
    | .ok (low, rest) => if isLowHalf low then .ok (joinHalves high low, rest) else .error .malformed
  | _ => .error .malformed

/-- Reads a character given by number, from behind the letter `u`. -/
def numberedChar (cs : List Char) : Except ReadError (Char × List Char) :=
  match hexNumber cs with
  | .error e => .error e
  | .ok (n, rest) =>
    if isLowHalf n then .error .malformed
    else if isHighHalf n then lowHalf n rest
    else .ok (Char.ofNat n, rest)

/-- The character that a one-letter escape stands for. -/
def shortEscape (c : Char) : Option Char :=
  match c with
  | '"' => some '"'
  | '\\' => some '\\'
  | '/' => some '/'
  | 'b' => some '\x08'
  | 'f' => some '\x0c'
  | 'n' => some '\n'
  | 'r' => some '\r'
  | 't' => some '\t'
  | _ => none

/-- Reads an escaped character, from behind the backslash. -/
def escaped : List Char → Except ReadError (Char × List Char)
  | [] => .error .ended
  | c :: rest =>
    match shortEscape c with
    | some x => .ok (x, rest)
    | none => if c = 'u' then numberedChar rest else .error .malformed

theorem length_lt_of_hexNumber {cs rest : List Char} {n : Nat}
    (h : hexNumber cs = .ok (n, rest)) : rest.length < cs.length := by
  unfold hexNumber at h
  split at h
  · split at h
    · simp only [Except.ok.injEq, Prod.mk.injEq] at h
      rw [← h.2]
      simp only [List.length_cons]
      omega
    · cases h
  · split at h <;> cases h

theorem length_lt_of_lowHalf {high : Nat} {cs rest : List Char} {c : Char}
    (h : lowHalf high cs = .ok (c, rest)) : rest.length < cs.length := by
  unfold lowHalf at h
  split at h
  · cases h
  · cases h
  · split at h
    · cases h
    next h' =>
      split at h
      · simp only [Except.ok.injEq, Prod.mk.injEq] at h
        have := length_lt_of_hexNumber h'
        rw [← h.2]
        simp only [List.length_cons]
        omega
      · cases h
  · cases h

theorem length_lt_of_numberedChar {cs rest : List Char} {c : Char}
    (h : numberedChar cs = .ok (c, rest)) : rest.length < cs.length := by
  unfold numberedChar at h
  split at h
  · cases h
  next h' =>
    have hlt := length_lt_of_hexNumber h'
    split at h
    · cases h
    · split at h
      · exact Nat.lt_trans (length_lt_of_lowHalf h) hlt
      · cases h
        exact hlt

theorem length_lt_of_escaped {cs rest : List Char} {c : Char}
    (h : escaped cs = .ok (c, rest)) : rest.length < cs.length := by
  unfold escaped at h
  split at h
  · cases h
  · split at h
    · cases h
      simp
    · split at h
      · have := length_lt_of_numberedChar h
        simp only [List.length_cons]
        omega
      · cases h

/-! ### Reading -/

/-- Reads the characters of a text up to its closing quote, and passes over that quote. -/
def textBody : List Char → Except ReadError (List Char × List Char)
  | [] => .error .ended
  | c :: cs =>
    if c = '"' then .ok ([], cs)
    else if c = '\\' then
      match h : escaped cs with
      | .error e => .error e
      | .ok (x, rest) =>
        have := length_lt_of_escaped h
        match textBody rest with
        | .error e => .error e
        | .ok (xs, rest) => .ok (x :: xs, rest)
    else if c.toNat < 32 then .error .malformed
    else
      match textBody cs with
      | .error e => .error e
      | .ok (xs, rest) => .ok (c :: xs, rest)
termination_by cs => cs.length

theorem length_lt_of_textBody {cs : List Char} :
    ∀ {xs rest : List Char}, textBody cs = .ok (xs, rest) → rest.length < cs.length := by
  fun_induction textBody cs with
  | case1 => simp
  | case2 => simp
  | case3 => simp
  | case4 => simp
  | case5 cs x rest₀ hesc hlt xs₀ rest₁ hbody hnq ih =>
    intro xs rest h
    cases h
    have h₁ := length_lt_of_escaped hesc
    have h₂ := ih hbody
    simp only [List.length_cons]
    omega
  | case6 => simp
  | case7 => simp
  | case8 c cs hq hb hc xs₀ rest₀ hbody ih =>
    intro xs rest h
    cases h
    have h₂ := ih hbody
    simp only [List.length_cons]
    omega

/-- Passes over an escape, from behind the backslash. -/
def skipEscaped : List Char → Except ReadError (List Char)
  | [] => .error .ended
  | c :: rest =>
    match shortEscape c with
    | some _ => .ok rest
    | none =>
      if c = 'u' then
        match hexNumber rest with
        | .error e => .error e
        | .ok (_, rest) => .ok rest
      else .error .malformed

theorem length_lt_of_skipEscaped {cs rest : List Char}
    (h : skipEscaped cs = .ok rest) : rest.length < cs.length := by
  unfold skipEscaped at h
  split at h
  · cases h
  · split at h
    · cases h
      simp
    · split at h
      · split at h
        · cases h
        next h' =>
          cases h
          have := length_lt_of_hexNumber h'
          simp only [List.length_cons]
          omega
      · cases h

/-- Passes over a text and its closing quote. -/
def skipTextBody : List Char → Except ReadError (List Char)
  | [] => .error .ended
  | c :: cs =>
    if c = '"' then .ok cs
    else if c = '\\' then
      match h : skipEscaped cs with
      | .error e => .error e
      | .ok rest =>
        have := length_lt_of_skipEscaped h
        skipTextBody rest
    else if c.toNat < 32 then .error .malformed
    else skipTextBody cs
termination_by cs => cs.length

theorem length_lt_of_skipTextBody {cs : List Char} :
    ∀ {rest : List Char}, skipTextBody cs = .ok rest → rest.length < cs.length := by
  fun_induction skipTextBody cs with
  | case1 => simp
  | case2 => simp
  | case3 => simp
  | case4 cs rest₀ hesc hlt hnq ih =>
    intro rest h
    have h₁ := length_lt_of_skipEscaped hesc
    have h₂ := ih h
    simp only [List.length_cons]
    omega
  | case5 => simp
  | case6 c cs hq hb hc ih =>
    intro rest h
    have h₂ := ih h
    simp only [List.length_cons]
    omega

end StudyTime.Json
