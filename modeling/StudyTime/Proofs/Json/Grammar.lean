/-
**The grammar of values.**

What a value is, said without a reader: words, numbers and texts, and lists and objects of values
to any depth, with white space between the tokens.  A text may spell a character in several ways, and
`Spelled` says which content it has.  Where its content does not matter, a text may also hold half of a
pair, which stands for no character.

Main definitions:

* `Json.Spelled`, `Json.IsText` — texts that spell a content, and texts;
* `Json.IsNumber` — numbers;
* `Json.Row`, `Json.Enclosed` — pieces with commas between them, and brackets around them;
* `Json.ListText`, `Json.ObjectText` — lists and objects with the texts of their parts;
* `Json.Grammatical` — **values of any nesting depth**.

Main results:

* `Json.Spelled.textBody_append` — a text is read as the content that it spells;
* `Json.IsText.skipTextBody_append`, `Json.IsNumber.skipNumber_append` — texts and numbers are passed
  over.
-/

import StudyTime.Proofs.Json.Codecs

set_option relaxedAutoImplicit false
set_option autoImplicit false

namespace StudyTime.Json

/-! ### Texts -/

/-- A character that stands for itself: no quote, no backslash and none below the space. -/
def isPlain (c : Char) : Bool := c != '"' && c != '\\' && !decide (c.toNat < 32)

theorem isPlain_iff {c : Char} : isPlain c = true ↔ c ≠ '"' ∧ c ≠ '\\' ∧ ¬ c.toNat < 32 := by
  simp [isPlain, and_assoc]

/-- Four hexadecimal digits of this number. -/
inductive Hex : List Char → Nat → Prop
  | mk {a b c d : Char} {p q r t : Nat} : hexValue a = some p → hexValue b = some q →
      hexValue c = some r → hexValue d = some t →
      Hex [a, b, c, d] (((p * 16 + q) * 16 + r) * 16 + t)

/-- What stands between the quotes spells this content. -/
inductive Spelled : List Char → List Char → Prop
  | nil : Spelled [] []
  | plain {c : Char} {cs content : List Char} : isPlain c = true → Spelled cs content →
      Spelled (c :: cs) (c :: content)
  | short {letter c : Char} {cs content : List Char} : shortEscape letter = some c →
      Spelled cs content → Spelled ('\\' :: letter :: cs) (c :: content)
  | number {n : Nat} {digits cs content : List Char} : Hex digits n → isHighHalf n = false →
      isLowHalf n = false → Spelled cs content →
      Spelled ('\\' :: 'u' :: (digits ++ cs)) (Char.ofNat n :: content)
  /-- A character by the numbers of a pair. -/
  | pair {high low : Nat} {digits digits' cs content : List Char} : Hex digits high →
      isHighHalf high = true → Hex digits' low → isLowHalf low = true → Spelled cs content →
      Spelled ('\\' :: 'u' :: (digits ++ '\\' :: 'u' :: (digits' ++ cs)))
        (joinHalves high low :: content)

/-- What stands between the quotes of a text. -/
inductive IsText : List Char → Prop
  | nil : IsText []
  | plain {c : Char} {cs : List Char} : isPlain c = true → IsText cs → IsText (c :: cs)
  | short {letter c : Char} {cs : List Char} : shortEscape letter = some c → IsText cs →
      IsText ('\\' :: letter :: cs)
  | number {n : Nat} {digits cs : List Char} : Hex digits n → IsText cs →
      IsText ('\\' :: 'u' :: (digits ++ cs))

/-- A content of characters that stand for themselves is spelled by itself. -/
theorem spelled_self {cs : List Char} (h : cs.all isPlain = true) : Spelled cs cs := by
  induction cs with
  | nil => exact .nil
  | cons c cs ih =>
      rw [List.all_cons, Bool.and_eq_true] at h
      exact .plain h.1 (ih h.2)

theorem Hex.hexNumber_append {digits : List Char} {n : Nat} (h : Hex digits n) (cs : List Char) :
    hexNumber (digits ++ cs) = .ok (n, cs) := by
  cases h with
  | mk ha hb hc hd => simp [hexNumber, ha, hb, hc, hd]

theorem escaped_short {letter c : Char} (h : shortEscape letter = some c) (cs : List Char) :
    escaped (letter :: cs) = .ok (c, cs) := by
  simp [escaped, h]

theorem escaped_number {digits : List Char} {n : Nat} (h : Hex digits n) (hhigh : isHighHalf n = false)
    (hlow : isLowHalf n = false) (cs : List Char) :
    escaped ('u' :: (digits ++ cs)) = .ok (Char.ofNat n, cs) := by
  have hu : shortEscape 'u' = none := by decide
  simp [escaped, hu, numberedChar, h.hexNumber_append, hhigh, hlow]

theorem escaped_pair {digits digits' : List Char} {high low : Nat} (h : Hex digits high)
    (hhigh : isHighHalf high = true) (h' : Hex digits' low) (hlow : isLowHalf low = true)
    (cs : List Char) :
    escaped ('u' :: (digits ++ '\\' :: 'u' :: (digits' ++ cs))) = .ok (joinHalves high low, cs) := by
  have hu : shortEscape 'u' = none := by decide
  -- a first half is no second half
  have hnot : isLowHalf high = false := by
    simp only [isHighHalf, isLowHalf, Bool.and_eq_true, decide_eq_true_eq] at hhigh ⊢
    simp
    omega
  simp [escaped, hu, numberedChar, h.hexNumber_append, hhigh, hnot, lowHalf, h'.hexNumber_append, hlow]

/-- **A text is read as the content that it spells.** -/
theorem Spelled.textBody_append {cs content : List Char} (h : Spelled cs content)
    (rest : List Char) : textBody (cs ++ '"' :: rest) = .ok (content, rest) := by
  induction h with
  | nil => rw [List.nil_append, textBody, if_pos rfl]
  | plain hplain _ ih =>
      obtain ⟨hquote, hslash, hlow⟩ := isPlain_iff.1 hplain
      rw [List.cons_append, textBody_of_plain hquote hslash hlow, ih]
      rfl
  | short hletter _ ih =>
      simp only [List.cons_append]
      rw [textBody_of_escaped (escaped_short hletter _), ih]
      rfl
  | number hdigits hhigh hlow _ ih =>
      simp only [List.cons_append, List.append_assoc]
      rw [textBody_of_escaped (escaped_number hdigits hhigh hlow _), ih]
      rfl
  | pair hdigits hhigh hdigits' hlow _ ih =>
      simp only [List.cons_append, List.append_assoc]
      rw [textBody_of_escaped (escaped_pair hdigits hhigh hdigits' hlow _), ih]
      rfl

theorem skipTextBody_of_escaped {cs rest : List Char} (h : skipEscaped cs = .ok rest) :
    skipTextBody ('\\' :: cs) = skipTextBody rest := by
  rw [skipTextBody, if_neg (by decide), if_pos rfl]
  split
  next e he => rw [h] at he; cases he
  next rest' he =>
    rw [h] at he
    cases he
    rfl

/-- A text is passed over. -/
theorem IsText.skipTextBody_append {cs : List Char} (h : IsText cs) (rest : List Char) :
    skipTextBody (cs ++ '"' :: rest) = .ok rest := by
  induction h with
  | nil => rw [List.nil_append, skipTextBody, if_pos rfl]
  | plain hplain _ ih =>
      obtain ⟨hquote, hslash, hlow⟩ := isPlain_iff.1 hplain
      rw [List.cons_append, skipTextBody, if_neg hquote, if_neg hslash, if_neg hlow, ih]
  | short hletter _ ih =>
      simp only [List.cons_append]
      rw [skipTextBody_of_escaped (by simp [skipEscaped, hletter]; rfl), ih]
  | number hdigits _ ih =>
      have hu : shortEscape 'u' = none := by decide
      simp only [List.cons_append, List.append_assoc]
      rw [skipTextBody_of_escaped (by simp [skipEscaped, hu, hdigits.hexNumber_append]; rfl), ih]

/-! ### Numbers -/

/-- Nothing but digits, and at least one of them. -/
inductive Digits : List Char → Prop
  | mk {c : Char} {cs : List Char} : isDigit c = true → (∀ d ∈ cs, isDigit d = true) →
      Digits (c :: cs)

/-- The whole part of a number: a zero, or digits that start with no zero. -/
inductive IsWhole : List Char → Prop
  | zero : IsWhole ['0']
  | digits {c : Char} {cs : List Char} : c ≠ '0' → Digits (c :: cs) → IsWhole (c :: cs)

/-- The fraction of a number, if there is one. -/
inductive IsFraction : List Char → Prop
  | none : IsFraction []
  | point {cs : List Char} : Digits cs → IsFraction ('.' :: cs)

/-- The exponent of a number, if there is one. -/
inductive IsExponent : List Char → Prop
  | none : IsExponent []
  | power {letter : Char} {sign cs : List Char} : letter = 'e' ∨ letter = 'E' →
      sign = [] ∨ sign = ['+'] ∨ sign = ['-'] → Digits cs → IsExponent (letter :: (sign ++ cs))

/-- Numbers of any size. -/
inductive IsNumber : List Char → Prop
  | mk {sign whole fraction exponent : List Char} : sign = [] ∨ sign = ['-'] → IsWhole whole →
      IsFraction fraction → IsExponent exponent →
      IsNumber (sign ++ (whole ++ (fraction ++ exponent)))

/-- Digits in front of a text that goes on with none are taken together. -/
theorem Digits.leadingDigits_append {cs rest : List Char} (h : Digits cs)
    (hrest : ∀ c, rest.head? = some c → isDigit c = false) :
    ∃ d ds, leadingDigits (cs ++ rest) = (d :: ds, rest) := by
  cases h with
  | mk hc hcs => exact ⟨_, _, StudyTime.leadingDigits_append (List.forall_mem_cons.2 ⟨hc, hcs⟩) hrest⟩

/-- The sign of an exponent is passed over. -/
theorem exponentSign_append {sign cs : List Char} (hsign : sign = [] ∨ sign = ['+'] ∨ sign = ['-'])
    (h : Digits cs) (rest : List Char) : (exponentSign (sign ++ (cs ++ rest))).2 = cs ++ rest := by
  rcases hsign with rfl | rfl | rfl
  · cases h with
    | mk hc _ =>
        -- a digit is no sign
        rw [List.nil_append, List.cons_append, exponentSign]
        · rintro _ ⟨⟩
          exact absurd hc (by decide)
        · rintro _ ⟨⟩
          exact absurd hc (by decide)
  · rfl
  · rfl

namespace IsExponent

variable {cs rest : List Char}

theorem exponentPart_append (h : IsExponent cs) (hrest : Delimits rest) (n : Numeral) :
    ∃ m, exponentPart n (cs ++ rest) = .ok (m, rest) := by
  cases h with
  | none =>
      cases rest with
      | nil => exact ⟨n, rfl⟩
      | cons c rest =>
          obtain ⟨-, -, he, hE⟩ := hrest c rfl
          exact ⟨n, by simp [exponentPart, he, hE]⟩
  | power hletter hsign hdigits =>
      obtain ⟨d, ds, hread⟩ := hdigits.leadingDigits_append hrest.not_digit
      rw [List.cons_append, List.append_assoc, exponentPart, if_pos hletter,
        exponentSign_append hsign hdigits, exponentDigits, hread]
      exact ⟨_, rfl⟩

/-- What starts with the exponent starts neither with a digit nor with a point. -/
theorem head_append (h : IsExponent cs) (hrest : Delimits rest) {c : Char}
    (hc : (cs ++ rest).head? = some c) : isDigit c = false ∧ c ≠ '.' := by
  cases h with
  | none => exact ⟨(hrest c hc).1, (hrest c hc).2.1⟩
  | power hletter _ _ =>
      cases hc
      rcases hletter with rfl | rfl <;> decide

end IsExponent

theorem fractionPart_of_ne {cs : List Char} (h : ∀ c, cs.head? = some c → c ≠ '.') (negative : Bool)
    (whole : List Nat) :
    fractionPart negative whole cs = exponentPart ⟨negative, whole, [], none⟩ cs := by
  cases cs with
  | nil => rfl
  | cons c cs => rw [fractionPart, if_neg (h c rfl)]

namespace IsFraction

variable {fraction exponent rest : List Char}

theorem fractionPart_append (h : IsFraction fraction) (hexponent : IsExponent exponent)
    (hrest : Delimits rest) (negative : Bool) (whole : List Nat) :
    ∃ m, fractionPart negative whole (fraction ++ (exponent ++ rest)) = .ok (m, rest) := by
  cases h with
  | none =>
      rw [List.nil_append, fractionPart_of_ne fun c hc => (hexponent.head_append hrest hc).2]
      exact hexponent.exponentPart_append hrest _
  | point hdigits =>
      obtain ⟨d, ds, hread⟩ :=
        hdigits.leadingDigits_append fun c hc => (hexponent.head_append hrest hc).1
      rw [List.cons_append, fractionPart, if_pos rfl, hread]
      exact hexponent.exponentPart_append hrest _

/-- What starts with the fraction does not start with a digit. -/
theorem head_append (h : IsFraction fraction) (hexponent : IsExponent exponent)
    (hrest : Delimits rest) {c : Char} (hc : (fraction ++ (exponent ++ rest)).head? = some c) :
    isDigit c = false := by
  cases h with
  | none => exact (hexponent.head_append hrest hc).1
  | point _ =>
      cases hc
      decide

end IsFraction

theorem IsWhole.unsignedNumeral_append {whole fraction exponent rest : List Char} (h : IsWhole whole)
    (hfraction : IsFraction fraction) (hexponent : IsExponent exponent) (hrest : Delimits rest)
    (negative : Bool) :
    ∃ m, unsignedNumeral negative (whole ++ (fraction ++ (exponent ++ rest))) = .ok (m, rest) := by
  have hhead : ∀ c, (fraction ++ (exponent ++ rest)).head? = some c → isDigit c = false :=
    fun c hc => hfraction.head_append hexponent hrest hc
  cases h with
  | zero =>
      have hnone : leadingDigits (fraction ++ (exponent ++ rest)) = ([], _) :=
        StudyTime.leadingDigits_append (List.forall_mem_nil _) hhead
      rw [List.cons_append, List.nil_append, unsignedNumeral, if_pos rfl, hnone]
      exact hfraction.fractionPart_append hexponent hrest negative [0]
  | digits hzero hdigits =>
      cases hdigits with
      | mk hc hcs =>
          rw [List.cons_append, unsignedNumeral, if_neg hzero, if_pos hc,
            StudyTime.leadingDigits_append hcs hhead]
          exact hfraction.fractionPart_append hexponent hrest negative _

theorem IsWhole.eq_cons {cs : List Char} (h : IsWhole cs) :
    ∃ c tail, cs = c :: tail ∧ isDigit c = true := by
  cases h with
  | zero => exact ⟨'0', [], rfl, by decide⟩
  | digits _ hdigits =>
      cases hdigits with
      | mk hc _ => exact ⟨_, _, rfl, hc⟩

namespace IsNumber

/-- A number starts with a minus sign or with a digit. -/
theorem eq_cons {cs : List Char} (h : IsNumber cs) :
    ∃ c tail, cs = c :: tail ∧ startsNumber c = true := by
  cases h with
  | mk hsign hwhole _ _ =>
      rcases hsign with rfl | rfl
      · obtain ⟨c, tail, rfl, hc⟩ := hwhole.eq_cons
        exact ⟨c, _, rfl, by simp [startsNumber, hc]⟩
      · exact ⟨'-', _, rfl, by decide⟩

theorem numeral_append {cs rest : List Char} (h : IsNumber cs) (hrest : Delimits rest) :
    ∃ m, numeral (cs ++ rest) = .ok (m, rest) := by
  cases h with
  | mk hsign hwhole hfraction hexponent =>
      have hunsigned (negative : Bool) :=
        hwhole.unsignedNumeral_append hfraction hexponent hrest negative
      simp only [List.append_assoc]
      rcases hsign with rfl | rfl
      · obtain ⟨c, tail, rfl, hc⟩ := hwhole.eq_cons
        have hne : c ≠ '-' := by
          rintro rfl
          exact absurd hc (by decide)
        rw [List.nil_append, List.cons_append, numeral, if_neg hne]
        exact hunsigned false
      · exact hunsigned true

/-- **A number is passed over**, whatever its size. -/
theorem skipNumber_append {cs rest : List Char} (h : IsNumber cs) (hrest : Delimits rest) :
    skipNumber (cs ++ rest) = .ok rest := by
  obtain ⟨m, hm⟩ := h.numeral_append hrest
  rw [skipNumber, hm]

end IsNumber

/-! ### Pieces between brackets -/

section Rows

variable {ι : Type}

/-- Pieces with commas between them and white space around each. -/
inductive Row (P : List Char → ι → Prop) : List Char → List ι → Prop
  | one {front cs back : List Char} {i : ι} : Blank front → P cs i → Blank back →
      Row P (front ++ (cs ++ back)) [i]
  | cons {front cs back rest : List Char} {i : ι} {is : List ι} : Blank front → P cs i →
      Blank back → Row P rest is → Row P (front ++ (cs ++ (back ++ ',' :: rest))) (i :: is)

/-- Brackets around pieces, or around white space. -/
inductive Enclosed (opening closing : Char) (P : List Char → ι → Prop) : List Char → List ι → Prop
  | none {blank : List Char} : Blank blank →
      Enclosed opening closing P (opening :: (blank ++ [closing])) []
  | row {cs : List Char} {is : List ι} : Row P cs is →
      Enclosed opening closing P (opening :: (cs ++ [closing])) is

end Rows

/-- A list whose elements are such pieces. -/
abbrev ListText {ι : Type} (P : List Char → ι → Prop) : List Char → List ι → Prop :=
  Enclosed '[' ']' P

/-- A member with such a name and with the text of its value. -/
inductive MemberText {ν : Type} (N : List Char → ν → Prop) : List Char → ν × List Char → Prop
  | mk {name between front value : List Char} {n : ν} : N name n → Blank between → Blank front →
      MemberText N ('"' :: (name ++ '"' :: (between ++ ':' :: (front ++ value)))) (n, value)

/-- An object whose members have such names, with the texts of their values. -/
abbrev ObjectText {ν : Type} (N : List Char → ν → Prop) : List Char → List (ν × List Char) → Prop :=
  Enclosed braceOpen braceClose (MemberText N)

/-! ### Values -/

/-- A value: a word, a number, a text, or a list or an object of values. -/
inductive Grammatical : List Char → Prop
  | word {w : String} : w ∈ ["null", "true", "false"] → Grammatical w.toList
  | number {cs : List Char} : IsNumber cs → Grammatical cs
  | text {cs : List Char} : IsText cs → Grammatical ('"' :: (cs ++ ['"']))
  | list {cs : List Char} {items : List (List Char)} : ListText Eq cs items →
      (∀ item ∈ items, Grammatical item) → Grammatical cs
  | object {cs : List Char} {members : List (List Char × List Char)} :
      ObjectText (fun name n => name = n ∧ IsText n) cs members →
      (∀ m ∈ members, Grammatical m.2) → Grammatical cs

end StudyTime.Json
