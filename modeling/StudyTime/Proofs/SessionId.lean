/-
**Identifiers of sessions are read back from their texts.**

Main results:

* `ofHexDigits_hexPadded` — the hexadecimal digits of a number give the number;
* `SessionId.unhyphenate_hyphenate` — hyphens between groups are taken out again;
* `SessionId.ofText?_text` — **an identifier is the one that its text denotes**.
-/

import StudyTime.SessionId
import StudyTime.Proofs.Json.Texts

set_option relaxedAutoImplicit false
set_option autoImplicit false

namespace StudyTime

/-! ### Hexadecimal digits -/

@[simp] theorem length_hexPadded (width n : Nat) : (hexPadded width n).length = width := by
  induction width generalizing n with
  | zero => rfl
  | succ width ih => simp [hexPadded, ih]

theorem ofHexDigits_append_singleton {cs : List Char} {c : Char} {n d : Nat}
    (hcs : ofHexDigits cs = some n) (hc : hexValue c = some d) :
    ofHexDigits (cs ++ [c]) = some (16 * n + d) := by
  rw [ofHexDigits] at hcs ⊢
  simp [hcs, hc]

/-- The hexadecimal digits of a number give the number, if there are enough of them. -/
theorem ofHexDigits_hexPadded (width : Nat) :
    ∀ n, n < Nat.pow 16 width → ofHexDigits (hexPadded width n) = some n := by
  induction width with
  | zero =>
      intro n hn
      have hn : n < 1 := hn
      rw [Nat.lt_one_iff.1 hn]
      rfl
  | succ width ih =>
      intro n hn
      have hn : n < Nat.pow 16 width * 16 := hn
      have hlast := Json.hexValue_hexDigit_of_lt (n % 16) (by omega)
      rw [hexPadded, ofHexDigits_append_singleton (ih (n / 16) (by omega)) hlast]
      exact congrArg some (by omega)

namespace SessionId

/-! ### Groups of digits -/

/-- Hyphens between groups are taken out again. -/
theorem unhyphenate_hyphenate (sizes : List Nat) :
    ∀ cs : List Char, cs.length = sizes.foldr (· + ·) 0 →
      unhyphenate sizes (hyphenate sizes cs) = some cs := by
  induction sizes with
  | nil =>
      intro cs h
      rw [List.length_eq_zero_iff.1 h]
      rfl
  | cons size sizes ih =>
      intro cs h
      rw [List.foldr_cons] at h
      cases sizes with
      | nil =>
          have hsize : cs.length = size := h
          simp [hyphenate, unhyphenate, ← hsize]
      | cons size' sizes =>
          have hgroup : (cs.take size).length = size := by
            rw [List.length_take]
            omega
          have hrest := ih (cs.drop size) (by rw [List.length_drop]; omega)
          rw [hyphenate, unhyphenate]
          · generalize hyphenate (size' :: sizes) (cs.drop size) = others at hrest
            simp [List.drop_left' hgroup, List.take_left' hgroup, hrest]
          all_goals simp

theorem length_chars (id : SessionId) : id.chars.length = 36 := by
  simp [chars, groupSizes, hyphenate]

/-- **An identifier is the one that its text denotes.** -/
theorem ofText?_text (id : SessionId) : ofText? id.text = some id := by
  have hbits : id.bits.toNat < Nat.pow 16 32 := id.bits.isLt
  have hdigits := ofHexDigits_hexPadded 32 id.bits.toNat hbits
  have hgroups := unhyphenate_hyphenate groupSizes (hexPadded 32 id.bits.toNat) (by simp [groupSizes])
  have hid : ofNat id.bits.toNat = id := by simp [ofNat]
  rw [text, ofText?, String.toList_ofList, ofChars?, id.length_chars, if_neg (by decide), if_pos rfl,
    chars, ofGroups?, hgroups]
  simp only [ofHex?, length_hexPadded, hdigits, Option.map_some, hid, if_true]

end SessionId

end StudyTime
