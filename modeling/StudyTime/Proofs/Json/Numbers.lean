/-
**Whole numbers are read back.**

The written form of a whole number is a sign and decimal digits without leading zeros.  The reader
takes digits as long as there are any, so a number is only read back if the text behind it does not
go on with a digit, a point or the letter of an exponent.  It also judges the size of a number by
its double, and a number of sixty-four bits is far below the largest one.

Main definitions:

* `Json.Delimits` — what may stand behind a number.

Main results:

* `leadingDigits_decimal`, `ofDigits_decimal` — the decimal digits of a number are found and give the
  number;
* `Json.readNumber_writeInt` — **a number of sixty-four bits is read back**.
-/

import StudyTime.Json.Skip

set_option relaxedAutoImplicit false
set_option autoImplicit false

namespace StudyTime

/-! ### Decimal digits -/

theorem isDigit_decimalDigit_of_lt : ∀ n, n < 10 → isDigit (decimalDigit n) = true := by decide

theorem digitValue_decimalDigit_of_lt : ∀ n, n < 10 → digitValue (decimalDigit n) = n := by decide

theorem decimal_of_lt {n : Nat} (h : n < 10) : decimal n = [decimalDigit n] := by
  rw [decimal, if_pos h]

theorem decimal_of_le {n : Nat} (h : 10 ≤ n) :
    decimal n = decimal (n / 10) ++ [decimalDigit (n % 10)] := by
  rw [decimal, if_neg (by omega)]

/-- A decimal number consists of digits. -/
theorem isDigit_of_mem_decimal (n : Nat) : ∀ c ∈ decimal n, isDigit c = true := by
  -- induction on the size of the number, since the last digit is split off and not the first
  induction n using Nat.strongRecOn with
  | _ n ih =>
      intro c hc
      by_cases h : n < 10
      · rw [decimal_of_lt h, List.mem_singleton] at hc
        rw [hc]
        exact isDigit_decimalDigit_of_lt n h
      · rw [decimal_of_le (by omega), List.mem_append, List.mem_singleton] at hc
        rcases hc with hc | rfl
        · exact ih (n / 10) (by omega) c hc
        · exact isDigit_decimalDigit_of_lt _ (by omega)

theorem ofDigits_append_singleton (ds : List Nat) (d : Nat) :
    ofDigits (ds ++ [d]) = 10 * ofDigits ds + d := by
  simp [ofDigits]

/-- The decimal digits of a number give the number. -/
theorem ofDigits_decimal (n : Nat) : ofDigits ((decimal n).map digitValue) = n := by
  induction n using Nat.strongRecOn with
  | _ n ih =>
      by_cases h : n < 10
      · rw [decimal_of_lt h, List.map_singleton, digitValue_decimalDigit_of_lt n h]
        simp [ofDigits]
      · rw [decimal_of_le (by omega), List.map_append, List.map_singleton,
          ofDigits_append_singleton, ih (n / 10) (by omega),
          digitValue_decimalDigit_of_lt _ (by omega)]
        omega

/-- A decimal number starts with a digit, and not with a zero unless it is zero. -/
theorem decimal_eq_cons (n : Nat) :
    ∃ c cs, decimal n = c :: cs ∧ isDigit c = true ∧ (0 < n → c ≠ '0') := by
  induction n using Nat.strongRecOn with
  | _ n ih =>
      by_cases hn : n < 10
      · refine ⟨_, _, decimal_of_lt hn, isDigit_decimalDigit_of_lt n hn, ?_⟩
        have hne : ∀ m, m < 10 → 0 < m → decimalDigit m ≠ '0' := by decide
        exact hne n hn
      · obtain ⟨c, cs, hcs, hc, hne⟩ := ih (n / 10) (by omega)
        refine ⟨c, cs ++ [decimalDigit (n % 10)], ?_, hc, fun _ => hne (by omega)⟩
        rw [decimal_of_le (by omega), hcs, List.cons_append]

/-- Digits are taken as long as there are any. -/
theorem leadingDigits_append {cs rest : List Char} (hcs : ∀ c ∈ cs, isDigit c = true)
    (hrest : ∀ c, rest.head? = some c → isDigit c = false) :
    leadingDigits (cs ++ rest) = (cs.map digitValue, rest) := by
  induction cs with
  | nil =>
      cases rest with
      | nil => rfl
      | cons c rest => simp [leadingDigits, hrest c rfl]
  | cons c cs ih =>
      have hc := hcs c List.mem_cons_self
      have ih := ih fun c hc => hcs c (List.mem_cons_of_mem _ hc)
      simp [leadingDigits, hc, ih]

/-- The digits of a decimal number are found in front of a text that goes on with none. -/
theorem leadingDigits_decimal (n : Nat) {rest : List Char}
    (hrest : ∀ c, rest.head? = some c → isDigit c = false) :
    leadingDigits (decimal n ++ rest) = ((decimal n).map digitValue, rest) :=
  leadingDigits_append (isDigit_of_mem_decimal n) hrest

namespace Json

/-! ### The parts of a whole number -/

/-- The text does not go on with a part of a number. -/
def Delimits (rest : List Char) : Prop :=
  ∀ c, rest.head? = some c → isDigit c = false ∧ c ≠ '.' ∧ c ≠ 'e' ∧ c ≠ 'E'

theorem delimits_nil : Delimits [] := by
  intro c h
  cases h

theorem delimits_cons {c : Char} (rest : List Char)
    (h : isDigit c = false ∧ c ≠ '.' ∧ c ≠ 'e' ∧ c ≠ 'E') : Delimits (c :: rest) := by
  intro c' h'
  cases h'
  exact h

theorem Delimits.not_digit {rest : List Char} (h : Delimits rest) :
    ∀ c, rest.head? = some c → isDigit c = false :=
  fun c hc => (h c hc).1

theorem fractionPart_of_delimits {negative : Bool} {whole : List Nat} {rest : List Char}
    (h : Delimits rest) :
    fractionPart negative whole rest = .ok (⟨negative, whole, [], none⟩, rest) := by
  cases rest with
  | nil => rfl
  | cons c rest =>
      obtain ⟨-, hpoint, he, hE⟩ := h c rfl
      simp [fractionPart, exponentPart, hpoint, he, hE]

/-- The digits of a number are read as its whole part. -/
theorem unsignedNumeral_decimal (negative : Bool) (n : Nat) {rest : List Char}
    (h : Delimits rest) :
    unsignedNumeral negative (decimal n ++ rest) =
      .ok (⟨negative, (decimal n).map digitValue, [], none⟩, rest) := by
  have hdigits := leadingDigits_decimal n h.not_digit
  by_cases hn : n = 0
  · rw [hn, decimal_of_lt (by omega)]
    have hrest : leadingDigits rest = ([], rest) := by
      have hnone : ∀ c ∈ ([] : List Char), isDigit c = true := by simp
      exact leadingDigits_append hnone h.not_digit
    have hzero : decimalDigit 0 = '0' := by decide
    simp [unsignedNumeral, hzero, hrest, fractionPart_of_delimits h, digitValue]
  · obtain ⟨c, cs, hcs, hc, hne⟩ := decimal_eq_cons n
    have hne : c ≠ '0' := hne (by omega)
    rw [hcs, List.cons_append] at hdigits ⊢
    simp only [leadingDigits, hc, if_true, List.map_cons, Prod.mk.injEq, List.cons.injEq] at hdigits
    obtain ⟨⟨-, hds⟩, hrest⟩ := hdigits
    simp [unsignedNumeral, hne, hc, hds, hrest, fractionPart_of_delimits h]

/-! ### The size of a whole number -/

/-- Rounding to a double at most doubles a number. -/
theorem nearestDouble_le (n : Nat) : nearestDouble n ≤ 2 * n := by
  unfold nearestDouble
  by_cases hn : n = 0
  · simp [hn]
  by_cases hshift : n.log2 + 1 - 53 = 0
  · -- the number has at most fifty-three bits and is its own double
    simp [hshift, Nat.mod_one]
    omega
  · have hunit : 1 <<< (n.log2 + 1 - 53) ≤ n := by
      rw [Nat.one_shiftLeft]
      calc 2 ^ (n.log2 + 1 - 53) ≤ 2 ^ n.log2 := Nat.pow_le_pow_right (by omega) (by omega)
        _ ≤ n := Nat.log2_self_le hn
    have hkept : n / (1 <<< (n.log2 + 1 - 53)) * (1 <<< (n.log2 + 1 - 53)) ≤ n :=
      Nat.div_mul_le_self _ _
    simp only
    split
    · rw [Nat.add_mul]
      omega
    · omega

theorem scaledIsFinite_of_lt {n : Nat} (h : n < UInt64.size) : scaledIsFinite n 0 = true := by
  unfold scaledIsFinite
  split
  · rfl
  next hn =>
    have hone : nearestDouble (Nat.pow 10 (0 : Int).toNat) = 1 := by decide
    have h₁ := nearestDouble_le n
    have h₂ := nearestDouble_le (nearestDouble n)
    have hsize : UInt64.size = 18446744073709551616 := rfl
    have hbound : nearestDouble (nearestDouble n) < 2 ^ 67 := by omega
    rw [if_neg (by omega), hone, Nat.mul_one, decide_eq_true_iff]
    by_cases hzero : nearestDouble (nearestDouble n) = 0
    · simp [hzero]
    · exact Nat.lt_trans ((Nat.log2_lt hzero).2 hbound) (by omega)

/-- More digits do not make a number smaller. -/
theorem le_foldl_digits (ds : List Nat) : ∀ n, n ≤ ds.foldl (fun n d => 10 * n + d) n := by
  induction ds with
  | nil =>
      intro n
      exact Nat.le_refl n
  | cons d ds ih =>
      intro n
      calc n ≤ 10 * n + d := by omega
        _ ≤ ds.foldl (fun n d => 10 * n + d) (10 * n + d) := ih (10 * n + d)

theorem appendWhole_of_lt (ds : List Nat) (n : Nat)
    (h : ds.foldl (fun n d => 10 * n + d) n < UInt64.size) :
    appendWhole n ds = (ds.foldl (fun n d => 10 * n + d) n, 0) := by
  induction ds generalizing n with
  | nil => rfl
  | cons d ds ih =>
      rw [List.foldl_cons] at h ⊢
      -- the digits that follow only make the number larger, so it is in range already
      have hd : 10 * n + d < UInt64.size := Nat.lt_of_le_of_lt (le_foldl_digits ds (10 * n + d)) h
      rw [appendWhole, if_pos hd, ih _ h]

/-- A whole number of sixty-four bits is within the range of doubles. -/
theorem isFinite_of_lt (negative : Bool) (ds : List Nat) (h : ofDigits ds < UInt64.size) :
    (⟨negative, ds, [], none⟩ : Numeral).isFinite = true := by
  have happend : appendWhole 0 ds = (ofDigits ds, 0) := appendWhole_of_lt ds 0 h
  simp only [Numeral.isFinite, happend, appendFraction]
  exact scaledIsFinite_of_lt h

/-! ### Reading back -/

/-- **A number of sixty-four bits is read back.** -/
theorem readNumber_writeInt (n : Int) (hn : n.natAbs < UInt64.size) {rest : List Char}
    (h : Delimits rest) : readNumber (writeInt n ++ rest) = .ok (some n, rest) := by
  -- the digits are those of the distance from zero, whatever the sign
  have hdigits := ofDigits_decimal n.natAbs
  have hfinite (negative : Bool) :=
    isFinite_of_lt negative ((decimal n.natAbs).map digitValue) (hdigits.symm ▸ hn)
  unfold writeInt readNumber
  generalize hm : n.natAbs = m at hdigits hfinite ⊢
  by_cases hneg : n < 0
  · have hvalue : ¬ m = 0 ∧ -(m : Int) = n := by omega
    simp [hneg, numeral, unsignedNumeral_decimal true m h, hfinite, Numeral.integer?, hdigits, hvalue]
  · -- a digit is no minus sign
    have hnumeral : numeral (decimal m ++ rest) = unsignedNumeral false (decimal m ++ rest) := by
      obtain ⟨c, cs, hcs, hc, -⟩ := decimal_eq_cons m
      have hne : c ≠ '-' := by
        rintro rfl
        exact absurd hc (by decide)
      simp [hcs, numeral, hne]
    have hvalue : (m : Int) = n := by omega
    simp [hneg, hnumeral, unsignedNumeral_decimal false m h, hfinite, Numeral.integer?, hdigits,
      hvalue]

/-- The written form of a number starts like a number. -/
theorem writeInt_eq_cons (n : Int) : ∃ c cs, writeInt n = c :: cs ∧ startsNumber c = true := by
  unfold writeInt
  split
  · exact ⟨'-', _, rfl, by decide⟩
  · obtain ⟨c, cs, hcs, hc, -⟩ := decimal_eq_cons n.natAbs
    exact ⟨c, cs, hcs, by simp [startsNumber, hc]⟩

end Json

end StudyTime
