/-
**Quoted texts are read back.**

The writer escapes a quote, a backslash and the characters below the space.  For the reader, the
written form of one character is one character, whatever stands behind it; so a text is read back
up to its closing quote.

Main results:

* `Json.textBody_escapeChar` — the written form of one character is read as this character;
* `Json.textBody_escape` — **a text is read back**.
-/

import StudyTime.Json.Text

set_option relaxedAutoImplicit false
set_option autoImplicit false

namespace StudyTime.Json

/-! ### Escapes -/

theorem hexValue_hexDigit_of_lt : ∀ n, n < 16 → hexValue (hexDigit n) = some n := by decide

/-- Behind the letter `u`, a character below the space is read from its number. -/
theorem numberedChar_of_lt {c : Char} (h : c.toNat < 32) (cs : List Char) :
    numberedChar ('0' :: '0' :: hexDigit (c.toNat / 16) :: hexDigit (c.toNat % 16) :: cs) =
      .ok (c, cs) := by
  have hzero : hexValue '0' = some 0 := by decide
  have hnumber : ((0 * 16 + 0) * 16 + c.toNat / 16) * 16 + c.toNat % 16 = c.toNat := by omega
  have hlow : isLowHalf c.toNat = false := by simp [isLowHalf]; omega
  have hhigh : isHighHalf c.toNat = false := by simp [isHighHalf]; omega
  simp only [numberedChar, hexNumber, hzero, hexValue_hexDigit_of_lt _ (by omega : c.toNat / 16 < 16),
    hexValue_hexDigit_of_lt _ (by omega : c.toNat % 16 < 16), hnumber, hlow, hhigh]
  simp [Char.ofNat_toNat]

/-- Reading an escape gives the character in front of the rest of the text. -/
theorem textBody_of_escaped {cs rest : List Char} {c : Char} (h : escaped cs = .ok (c, rest)) :
    textBody ('\\' :: cs) = (textBody rest).map fun read => (c :: read.1, read.2) := by
  rw [textBody, if_neg (by decide), if_pos rfl]
  split
  next e he => rw [h] at he; cases he
  next x rest' he =>
    rw [h] at he
    cases he
    cases textBody rest <;> rfl

/-- A character that needs no escape is read as itself. -/
theorem textBody_of_plain {c : Char} (hquote : c ≠ '"') (hslash : c ≠ '\\') (h : ¬ c.toNat < 32)
    (cs : List Char) :
    textBody (c :: cs) = (textBody cs).map fun read => (c :: read.1, read.2) := by
  rw [textBody, if_neg hquote, if_neg hslash, if_neg h]
  cases textBody cs <;> rfl

/-- The written form of one character is read as this character. -/
theorem textBody_escapeChar (c : Char) (cs : List Char) :
    textBody (escapeChar c ++ cs) = (textBody cs).map fun read => (c :: read.1, read.2) := by
  -- one case for each line of the definition; the short escapes differ in their letter only
  unfold escapeChar
  split
  next hc => subst hc; exact textBody_of_escaped rfl
  next hquote =>
    split
    next hc => subst hc; exact textBody_of_escaped rfl
    next hslash =>
      split
      next hc => subst hc; exact textBody_of_escaped rfl
      split
      next hc => subst hc; exact textBody_of_escaped rfl
      split
      next hc => subst hc; exact textBody_of_escaped rfl
      split
      next hc => subst hc; exact textBody_of_escaped rfl
      split
      next hc => subst hc; exact textBody_of_escaped rfl
      split
      next hlow =>
        refine textBody_of_escaped ?_
        have hu : shortEscape 'u' = none := by decide
        simp [escaped, hu, numberedChar_of_lt hlow]
      next hplain => exact textBody_of_plain hquote hslash hplain cs

/-! ### Reading back -/

/-- **A text is read back** up to its closing quote. -/
theorem textBody_escape (s rest : List Char) :
    textBody (s.flatMap escapeChar ++ '"' :: rest) = .ok (s, rest) := by
  induction s with
  | nil => rw [List.flatMap_nil, List.nil_append, textBody, if_pos rfl]
  | cons c s ih =>
      rw [List.flatMap_cons, List.append_assoc, textBody_escapeChar, ih]
      rfl

end StudyTime.Json
