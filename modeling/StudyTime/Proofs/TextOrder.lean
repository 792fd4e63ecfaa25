/-
**Texts stand in the order of their bytes.**

The keys of a map are compared by the code points of their characters.  In UTF-8 a character takes
one to four bytes: a leading byte, which is the larger the more bytes follow it, and then the digits
of the code point to the base sixty-four.  A larger code point therefore has the larger bytes, at the
first one that differs, and comparing texts by code points or by bytes comes to the same.

Main definitions:

* `utf8`, `BytesBefore` — the bytes of a text, and the order of byte strings.

Main results:

* `bytesBefore_encode` — a larger code point has the larger bytes, whatever stands behind;
* `bytesBefore_utf8` — **texts stand in the order of their bytes**.
-/

import StudyTime.SortedMap

set_option relaxedAutoImplicit false
set_option autoImplicit false

namespace StudyTime

/-- The bytes of a text in UTF-8. -/
def utf8 (s : String) : List UInt8 := s.toUTF8.data.toList

theorem utf8_eq_flatMap (s : String) : utf8 s = s.toList.flatMap String.utf8EncodeChar := by
  rw [utf8, String.toUTF8_eq_toByteArray, ← String.utf8Encode_toList, List.utf8Encode,
    List.data_toByteArray]

/-- The order of byte strings: the first difference decides, and a string that ends where the other
one goes on comes first. -/
def BytesBefore (as bs : List UInt8) : Prop := List.Lex (· < ·) as bs

theorem BytesBefore.append_left (cs : List UInt8) {as bs : List UInt8} (h : BytesBefore as bs) :
    BytesBefore (cs ++ as) (cs ++ bs) := by
  induction cs with
  | nil => exact h
  | cons c cs ih => exact .cons ih

/-! ### The bytes of a character -/

section Characters

variable {m n : Nat} {as bs : List UInt8}

theorem bytesBefore_of_lt (h : m < n) (hn : n < 256) :
    BytesBefore (UInt8.ofNat m :: as) (UInt8.ofNat n :: bs) := by
  refine .rel ?_
  rw [UInt8.lt_iff_toNat_lt, UInt8.toNat_ofNat', UInt8.toNat_ofNat']
  omega

theorem bytesBefore_of_eq (h : m = n) (hbytes : BytesBefore as bs) :
    BytesBefore (UInt8.ofNat m :: as) (UInt8.ofNat n :: bs) := by
  rw [h]
  exact .cons hbytes

/-- The last digits to the base 64 of two numbers that agree in all the others. -/
theorem bytesBefore_last (h : m < n) (hhigh : m / 64 = n / 64) :
    BytesBefore (UInt8.ofNat (m % 64 + 128) :: as) (UInt8.ofNat (n % 64 + 128) :: bs) :=
  bytesBefore_of_lt (by omega) (by omega)

theorem bytesBefore_lastTwo (h : m < n) (hhigh : m / 4096 = n / 4096) :
    BytesBefore (UInt8.ofNat (m / 64 % 64 + 128) :: UInt8.ofNat (m % 64 + 128) :: as)
      (UInt8.ofNat (n / 64 % 64 + 128) :: UInt8.ofNat (n % 64 + 128) :: bs) := by
  by_cases hnext : m / 64 < n / 64
  · exact bytesBefore_of_lt (by omega) (by omega)
  · exact bytesBefore_of_eq (by omega) (bytesBefore_last h (by omega))

theorem bytesBefore_lastThree (h : m < n) (hhigh : m / 262144 = n / 262144) :
    BytesBefore
      (UInt8.ofNat (m / 4096 % 64 + 128) :: UInt8.ofNat (m / 64 % 64 + 128) ::
        UInt8.ofNat (m % 64 + 128) :: as)
      (UInt8.ofNat (n / 4096 % 64 + 128) :: UInt8.ofNat (n / 64 % 64 + 128) ::
        UInt8.ofNat (n % 64 + 128) :: bs) := by
  by_cases hnext : m / 4096 < n / 4096
  · exact bytesBefore_of_lt (by omega) (by omega)
  · exact bytesBefore_of_eq (by omega) (bytesBefore_lastTwo h (by omega))

theorem toNat_lt_of_char (c : Char) : c.toNat < 0x110000 := by
  rcases c.valid with h | h
  · exact Nat.lt_trans h (by decide)
  · exact h.2

/-- **A larger code point has the larger bytes**, whatever stands behind them. -/
theorem bytesBefore_encode {a b : Char} (h : a.toNat < b.toNat) :
    BytesBefore (String.utf8EncodeChar a ++ as) (String.utf8EncodeChar b ++ bs) := by
  have hb := toNat_lt_of_char b
  simp only [Char.toNat] at h hb
  rw [String.utf8EncodeChar.eq_1, String.utf8EncodeChar.eq_1]
  generalize a.val.toNat = m at *
  generalize b.val.toNat = n at *
  -- one case for each length of the smaller one; the other one is as long, or its leading byte is larger
  by_cases hone : m ≤ 127
  · rw [if_pos hone]
    split
    · exact bytesBefore_of_lt h (by omega)
    · split
      · exact bytesBefore_of_lt (by omega) (by omega)
      · split <;> exact bytesBefore_of_lt (by omega) (by omega)
  rw [if_neg hone, if_neg (by omega : ¬ n ≤ 127)]
  by_cases htwo : m ≤ 2047
  · rw [if_pos htwo]
    split
    · by_cases hlead : m / 64 < n / 64
      · exact bytesBefore_of_lt (by omega) (by omega)
      · exact bytesBefore_of_eq (by omega) (bytesBefore_last h (by omega))
    · split <;> exact bytesBefore_of_lt (by omega) (by omega)
  rw [if_neg htwo, if_neg (by omega : ¬ n ≤ 2047)]
  by_cases hthree : m ≤ 65535
  · rw [if_pos hthree]
    split
    · by_cases hlead : m / 4096 < n / 4096
      · exact bytesBefore_of_lt (by omega) (by omega)
      · exact bytesBefore_of_eq (by omega) (bytesBefore_lastTwo h (by omega))
    · exact bytesBefore_of_lt (by omega) (by omega)
  rw [if_neg hthree, if_neg (by omega : ¬ n ≤ 65535)]
  by_cases hlead : m / 262144 < n / 262144
  · exact bytesBefore_of_lt (by omega) (by omega)
  · exact bytesBefore_of_eq (by omega) (bytesBefore_lastThree h (by omega))

end Characters

/-! ### The bytes of a text -/

theorem bytesBefore_of_compareChars :
    ∀ {s t : List Char}, compareChars s t = .lt →
      BytesBefore (s.flatMap String.utf8EncodeChar) (t.flatMap String.utf8EncodeChar)
  | [], [], h => by simp [compareChars] at h
  | _ :: _, [], h => by simp [compareChars] at h
  | [], b :: bs, _ => by
    -- a character takes at least one byte
    have hne : String.utf8EncodeChar b ≠ [] := String.utf8EncodeChar_ne_nil
    obtain ⟨x, xs, hxs⟩ := List.exists_cons_of_ne_nil hne
    rw [List.flatMap_nil, List.flatMap_cons, hxs]
    exact .nil
  | a :: as, b :: bs, h => by
    rw [List.flatMap_cons, List.flatMap_cons]
    simp only [compareChars] at h
    split at h
    next hlt => exact bytesBefore_encode hlt
    next hle =>
      split at h
      · cases h
      next hge =>
        have hab : a = b := Char.toNat_inj.1 (by omega)
        rw [hab]
        exact .append_left _ (bytesBefore_of_compareChars h)

/-- **Texts stand in the order of their bytes.** -/
theorem bytesBefore_utf8 {s t : String} (h : KeyOrder.cmp s t = .lt) :
    BytesBefore (utf8 s) (utf8 t) := by
  rw [utf8_eq_flatMap, utf8_eq_flatMap]
  exact bytesBefore_of_compareChars h

end StudyTime
