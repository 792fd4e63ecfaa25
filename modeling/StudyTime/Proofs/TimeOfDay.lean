/-
**Times of day are read back from their texts.**

The writer gives two digits to each part, as many groups of three decimal places as the nanoseconds
need, and counts a leap second as second sixty.  The reader would take much more than that, but in what
was written nothing is left open: two digits are one number, and where the decimal places end the text
ends.  So a text belongs to one time only.

Main results:

* `TimeOfDay.decimalPlaces_fractionChars` — nanoseconds are read back, whatever the count of places;
* `TimeOfDay.ofReading?_parts` — the leap second is told from the second that it prolongs;
* `TimeOfDay.ofText?_text` — **a time is the one that its text denotes**;
* `TimeOfDay.eq_of_text_eq` — **different times have different texts**.
-/

import StudyTime.TimeOfDay.Text
import StudyTime.Proofs.Json.Numbers

set_option relaxedAutoImplicit false
set_option autoImplicit false

namespace StudyTime

/-! ### Digits in a fixed count -/

@[simp] theorem length_padded (width n : Nat) : (padded width n).length = width := by
  induction width generalizing n with
  | zero => rfl
  | succ width ih => simp [padded, ih]

theorem isDigit_of_mem_padded (width : Nat) :
    ∀ n, ∀ c ∈ padded width n, isDigit c = true := by
  induction width with
  | zero =>
      intro n c hc
      cases hc
  | succ width ih =>
      intro n c hc
      rw [padded, List.mem_append, List.mem_singleton] at hc
      rcases hc with hc | rfl
      · exact ih (n / 10) c hc
      · exact isDigit_decimalDigit_of_lt _ (by omega)

/-- The digits of a number give the number, if there are enough of them. -/
theorem ofDigits_padded (width : Nat) :
    ∀ n, n < Nat.pow 10 width → ofDigits ((padded width n).map digitValue) = n := by
  induction width with
  | zero =>
      intro n hn
      have hn : n < 1 := hn
      rw [Nat.lt_one_iff.1 hn]
      rfl
  | succ width ih =>
      intro n hn
      have hn : n < Nat.pow 10 width * 10 := hn
      rw [padded, List.map_append, List.map_singleton, ofDigits_append_singleton,
        ih (n / 10) (by omega), digitValue_decimalDigit_of_lt _ (by omega)]
      omega

/-! ### White space -/

/-- A digit is no white space. -/
theorem isSpace_of_isDigit {c : Char} (h : isDigit c = true) : isSpace c = false := by
  simp only [isDigit, Bool.and_eq_true, decide_eq_true_eq, Char.le_def, UInt32.le_iff_toNat_le] at h
  have hlow : 48 ≤ c.toNat := h.1
  have hhigh : c.toNat ≤ 57 := h.2
  simp only [isSpace, Bool.or_eq_false_iff, Bool.and_eq_false_iff, decide_eq_false_iff_not,
    beq_eq_false_iff_ne]
  omega

theorem skipSpace_cons_of_not_space {c : Char} (cs : List Char) (h : isSpace c = false) :
    skipSpace (c :: cs) = c :: cs := by
  simp [skipSpace, h]

namespace TimeOfDay

/-! ### The parts of a text -/

theorem padded_two (n : Nat) :
    padded 2 n = [decimalDigit (n / 10 % 10), decimalDigit (n % 10)] := rfl

/-- Two digits are read as their number, whatever stands behind them. -/
theorem spacedNumber_padded {n : Nat} (h : n < 100) (rest : List Char) :
    spacedNumber (padded 2 n ++ rest) = some (n, rest) := by
  have htens := isDigit_decimalDigit_of_lt (n / 10 % 10) (by omega)
  have hones := isDigit_decimalDigit_of_lt (n % 10) (by omega)
  have hvalue : 10 * (n / 10 % 10) + n % 10 = n := by omega
  rw [padded_two, List.cons_append, List.singleton_append, spacedNumber,
    skipSpace_cons_of_not_space _ (isSpace_of_isDigit htens)]
  simp [shortNumber, htens, hones, digitValue_decimalDigit_of_lt (n / 10 % 10) (by omega),
    digitValue_decimalDigit_of_lt (n % 10) (by omega), hvalue]

theorem spacedColon_colon (rest : List Char) : spacedColon (':' :: rest) = some rest := by
  rw [spacedColon, skipSpace_cons_of_not_space _ (by decide)]
  rfl

/-- Up to nine decimal places are read as their part of a second. -/
theorem decimalPlaces_padded {width n : Nat} (hpos : 0 < width) (hwidth : width ≤ 9)
    (hn : n < Nat.pow 10 width) :
    decimalPlaces ('.' :: padded width n) = some (n * Nat.pow 10 (9 - width), []) := by
  have hread : leadingDigits (padded width n ++ []) = ((padded width n).map digitValue, []) :=
    leadingDigits_append (isDigit_of_mem_padded width n) (by simp)
  have hvalue := ofDigits_padded width n hn
  have hlength : ((padded width n).map digitValue).length = width := by simp
  rw [List.append_nil] at hread
  simp only [decimalPlaces, hread]
  generalize (padded width n).map digitValue = ds at hvalue hlength
  cases ds with
  | nil =>
      rw [List.length_nil] at hlength
      omega
  | cons d ds =>
      have htake : (d :: ds).take 9 = d :: ds := List.take_of_length_le (by omega)
      simp only [nanosOfDigits, htake, hlength, hvalue]

/-- Nanoseconds are read back, whatever the count of places. -/
theorem decimalPlaces_fractionChars {nano : Nat} (h : nano < 1000000000) :
    decimalPlaces (fractionChars nano) = some (nano, []) := by
  have hthree : Nat.pow 10 3 = 1000 := rfl
  have hsix : Nat.pow 10 6 = 1000000 := rfl
  have hnine : Nat.pow 10 9 = 1000000000 := rfl
  unfold fractionChars
  split
  next hzero =>
    rw [hzero]
    rfl
  split
  next hmillis =>
    rw [decimalPlaces_padded (by decide) (by decide) (by omega), hsix,
      Nat.div_mul_cancel (Nat.dvd_of_mod_eq_zero hmillis)]
  split
  next hmicros =>
    rw [decimalPlaces_padded (by decide) (by decide) (by omega), hthree,
      Nat.div_mul_cancel (Nat.dvd_of_mod_eq_zero hmicros)]
  next =>
    rw [decimalPlaces_padded (by decide) (by decide) (by omega), Nat.sub_self]
    exact congrArg (fun n => some (n, [])) (Nat.mul_one nano)

/-! ### Reading back -/

/-- A time is made of its parts. -/
theorem of?_parts (t : TimeOfDay) : of? t.hour t.minute t.secondOfMinute t.nano = some t := by
  have hsecond := t.second_lt
  have hnano := t.nano_lt
  have hleap := t.leap
  rw [of?, dif_pos]
  · congr 1
    apply TimeOfDay.ext
    · simp only [hour, minute, secondOfMinute]
      omega
    · rfl
  · simp only [hour, minute, secondOfMinute]
    omega

/-- The leap second is told from the second that it prolongs. -/
theorem ofReading?_parts (t : TimeOfDay) :
    ofReading? t.hour t.minute (t.secondOfMinute + t.nano / 1000000000) (t.nano % 1000000000) =
      some t := by
  have hnano := t.nano_lt
  have hsecond : t.secondOfMinute < 60 := by
    simp only [secondOfMinute]
    omega
  unfold ofReading?
  by_cases hleap : 1000000000 ≤ t.nano
  · have hlast : t.secondOfMinute = 59 := t.leap hleap
    have hsum : 1000000000 + t.nano % 1000000000 = t.nano := by omega
    rw [if_pos (by omega), hsum, ← hlast, t.of?_parts]
  · have hsum : t.secondOfMinute + t.nano / 1000000000 = t.secondOfMinute := by omega
    rw [if_neg (by omega), hsum, Nat.mod_eq_of_lt (by omega), t.of?_parts]

/-- **A time is the one that its text denotes.** -/
theorem ofText?_text (t : TimeOfDay) : ofText? t.text = some t := by
  have hbound := t.second_lt
  have hnano := t.nano_lt
  have hhour : t.hour < 100 := by
    simp only [hour]
    omega
  have hminute : t.minute < 100 := by
    simp only [minute]
    omega
  have hsecond : t.secondOfMinute + t.nano / 1000000000 < 100 := by
    simp only [secondOfMinute]
    omega
  have hplaces : decimalPlaces (fractionChars (t.nano % 1000000000)) =
      some (t.nano % 1000000000, []) := decimalPlaces_fractionChars (by omega)
  rw [ofText?, text, String.toList_ofList, ofChars?, chars]
  simp only [spacedNumber_padded hhour, spacedColon_colon, spacedNumber_padded hminute,
    skipSpace_cons_of_not_space _ (by decide : isSpace ':' = false), spacedNumber_padded hsecond,
    hplaces]
  exact t.ofReading?_parts

/-- **Different times have different texts.** -/
theorem eq_of_text_eq {t t' : TimeOfDay} (h : t.text = t'.text) : t = t' := by
  have ht := t.ofText?_text
  rw [h, t'.ofText?_text] at ht
  exact (Option.some.inj ht).symm

end TimeOfDay

end StudyTime
