import Storyboard.Number.Layout
import Storyboard.Proofs.Number.Readings
import Storyboard.Proofs.Number.Shortest
/-!
# Numbers as they are written

A number is written with digits, more digits behind a point, and an exponent. Whatever layout is
chosen, the text of a decimal number is one number of this form, of the same value.

Main statements: the layouts keep the value of a decimal number (`Layout.exists_numeral`); a style
value spells the double that it is the text of (`Number.exists_numeral_cssText`).
-/
namespace Storyboard

open Binary64

/-- A number as it is written. -/
structure Numeral where
  /-- Whether a minus stands in front. -/
  negative : Bool
  /-- The digits in front of the point. -/
  whole : List Char
  /-- The digits behind the point, which is left out with them. -/
  fraction : List Char
  /-- Whether a minus stands in front of the exponent, which may be left out, and its digits. -/
  exponent : Option (Bool × List Char)
  /-- There are digits in front of the point. -/
  some_digits : whole ≠ []
  /-- All of them are digits. -/
  digits : ∀ c ∈ whole ++ fraction, c.isDigit = true
  /-- There are digits in the exponent, and nothing else. -/
  exponent_digits : ∀ part ∈ exponent, part.2 ≠ [] ∧ ∀ c ∈ part.2, c.isDigit = true

namespace Numeral

/-- The text of a number behind its sign. -/
def body (n : Numeral) : List Char :=
  n.whole ++ (if n.fraction = [] then [] else '.' :: n.fraction) ++
    match n.exponent with
    | none => []
    | some (below, digits) => 'e' :: (if below = true then '-' else '+') :: digits

/-- The text of a number. -/
def text (n : Numeral) : List Char := (if n.negative = true then ['-'] else []) ++ n.body

/-- The exponent of a number. -/
def power (n : Numeral) : Int :=
  match n.exponent with
  | none => 0
  | some (below, digits) =>
    if below = true then -(Nat.ofDigitChars 10 digits 0 : Int) else Nat.ofDigitChars 10 digits 0

/-- The value of a number without its sign. -/
def size (n : Numeral) : ℚ :=
  Nat.ofDigitChars 10 (n.whole ++ n.fraction) 0 * 10 ^ (n.power - n.fraction.length)

/-- The value of a number. -/
def value (n : Numeral) : ℚ := if n.negative = true then -n.size else n.size

/-- The same digits behind a minus, or without one. -/
def signed (n : Numeral) (negative : Bool) : Numeral := { n with negative := negative }

/-- The size of a number is not below zero. -/
theorem size_nonneg (n : Numeral) : 0 ≤ n.size := by
  rw [size]
  positivity

/-- Behind its sign a number begins with a digit. -/
theorem exists_digit (n : Numeral) : ∃ c rest, c.isDigit = true ∧ n.body = c :: rest := by
  obtain ⟨c, rest, same⟩ := List.exists_cons_of_ne_nil n.some_digits
  have digit : c.isDigit = true := n.digits c (by
    rw [same]
    exact List.mem_cons_self)
  rw [body, same]
  exact ⟨c, _, digit, rfl⟩

end Numeral

/-! ## Layouts -/

variable {digits : List Char}

/-- Zeros in front of digits do not count. -/
theorem ofDigitChars_zeros_append (n : Nat) (digits : List Char) :
    Nat.ofDigitChars 10 (List.replicate n '0' ++ digits) 0 = Nat.ofDigitChars 10 digits 0 := by
  rw [Nat.ofDigitChars_append, Nat.ofDigitChars_replicate_zero, Nat.mul_zero]

/-- Zeros behind digits count as a power of ten. -/
theorem ofDigitChars_append_zeros (digits : List Char) (n : Nat) :
    Nat.ofDigitChars 10 (digits ++ List.replicate n '0') 0 =
      Nat.ofDigitChars 10 digits 0 * 10 ^ n := by
  rw [Nat.ofDigitChars_append, Nat.ofDigitChars_replicate_zero, Nat.mul_comm]

/-- Zeros are digits. -/
theorem isDigit_zeros (n : Nat) : ∀ c ∈ List.replicate n '0', c.isDigit = true := by
  intro c member
  rw [List.eq_of_mem_replicate member]
  rfl

namespace Layout

/-- Digits with a plain point among them are a number. -/
theorem exists_numeral_of_lt (keepsPoint : Bool) (all : ∀ c ∈ digits, c.isDigit = true) {l : Nat}
    (short : l + 1 < digits.length) :
    ∃ n : Numeral, n.body = plainText keepsPoint digits l ∧
      n.size = Nat.ofDigitChars 10 digits 0 * 10 ^ ((l : Int) + 1 - digits.length) := by
  have taken : (digits.take (l + 1)).length = l + 1 := List.length_take_of_le short.le
  have left : (digits.drop (l + 1)).length = digits.length - (l + 1) := List.length_drop
  have some_left : digits.drop (l + 1) ≠ [] := by
    rw [← List.length_pos_iff]
    omega
  refine ⟨⟨false, digits.take (l + 1), digits.drop (l + 1), none, ?_, ?_, ?_⟩, ?_, ?_⟩
  · rw [← List.length_pos_iff]
    omega
  · rwa [List.take_append_drop]
  · rintro _ ⟨⟩
  · simp [Numeral.body, plainText, taken, some_left]
  · simp only [Numeral.size, Numeral.power, List.take_append_drop, left]
    congr 2
    omega

/-- Digits that all stand in front of the point, with zeros behind them, are a number. -/
theorem exists_numeral_of_le (keepsPoint : Bool) (some_digits : digits ≠ [])
    (all : ∀ c ∈ digits, c.isDigit = true) {l : Nat} (long : digits.length ≤ l + 1) :
    ∃ n : Numeral, n.body = plainText keepsPoint digits l ∧
      n.size = Nat.ofDigitChars 10 digits 0 * 10 ^ ((l : Int) + 1 - digits.length) := by
  have taken : digits.take (l + 1) = digits := List.take_of_length_le long
  have left : digits.drop (l + 1) = [] := List.drop_eq_nil_of_le long
  obtain ⟨zeros, same⟩ : ∃ zeros, l + 1 = digits.length + zeros :=
    ⟨l + 1 - digits.length, by omega⟩
  have places : (l : Int) + 1 - digits.length = zeros := by omega
  have enough : l + 1 - digits.length = zeros := by omega
  have padded := List.forall_mem_append.mpr ⟨all, isDigit_zeros zeros⟩
  rw [places]
  cases keepsPoint with
  | false =>
    refine ⟨⟨false, digits ++ List.replicate zeros '0', [], none, ?_, ?_, ?_⟩, ?_, ?_⟩
    · exact List.append_ne_nil_of_left_ne_nil some_digits _
    · rwa [List.append_nil]
    · rintro _ ⟨⟩
    · simp [Numeral.body, plainText, taken, left, enough]
    · simp [Numeral.size, Numeral.power, ofDigitChars_append_zeros]
  | true =>
    refine ⟨⟨false, digits ++ List.replicate zeros '0', ['0'], none, ?_, ?_, ?_⟩, ?_, ?_⟩
    · exact List.append_ne_nil_of_left_ne_nil some_digits _
    · exact List.forall_mem_append.mpr ⟨padded, isDigit_zeros 1⟩
    · rintro _ ⟨⟩
    · simp [Numeral.body, plainText, taken, left, enough]
    · have value : Nat.ofDigitChars 10 (digits ++ List.replicate zeros '0' ++ ['0']) 0 =
          Nat.ofDigitChars 10 digits 0 * 10 ^ zeros * 10 ^ 1 := by
        rw [← ofDigitChars_append_zeros, ← ofDigitChars_append_zeros]
        rfl
      rw [Numeral.size, value]
      simp [Numeral.power]

/-- Digits that all stand behind the point, with zeros in front of them, are a number. -/
theorem exists_numeral_of_negSucc (keepsPoint : Bool) (some_digits : digits ≠ [])
    (all : ∀ c ∈ digits, c.isDigit = true) (zeros : Nat) :
    ∃ n : Numeral, n.body = plainText keepsPoint digits (.negSucc zeros) ∧
      n.size = Nat.ofDigitChars 10 digits 0 * 10 ^ (.negSucc zeros + 1 - digits.length : Int) := by
  refine ⟨⟨false, ['0'], List.replicate zeros '0' ++ digits, none, ?_, ?_, ?_⟩, ?_, ?_⟩
  · exact List.cons_ne_nil _ _
  · exact List.forall_mem_append.mpr
      ⟨isDigit_zeros 1, List.forall_mem_append.mpr ⟨isDigit_zeros zeros, all⟩⟩
  · rintro _ ⟨⟩
  · simp [Numeral.body, plainText, some_digits]
  · have value : Nat.ofDigitChars 10 (['0'] ++ (List.replicate zeros '0' ++ digits)) 0 =
        Nat.ofDigitChars 10 digits 0 :=
      (ofDigitChars_zeros_append 1 _).trans (ofDigitChars_zeros_append zeros digits)
    rw [Numeral.size, value, Int.negSucc_eq]
    simp only [Numeral.power, List.length_append, List.length_replicate]
    congr 2
    push_cast
    ring

/-- Digits with a plain point are a number. -/
theorem exists_numeral_plainText (keepsPoint : Bool) (some_digits : digits ≠ [])
    (all : ∀ c ∈ digits, c.isDigit = true) (leading : Int) :
    ∃ n : Numeral, n.body = plainText keepsPoint digits leading ∧
      n.size = Nat.ofDigitChars 10 digits 0 * 10 ^ (leading + 1 - digits.length) := by
  cases leading with
  | ofNat l =>
    rcases Nat.lt_or_ge (l + 1) digits.length with short | long
    · exact exists_numeral_of_lt keepsPoint all short
    · exact exists_numeral_of_le keepsPoint some_digits all long
  | negSucc zeros => exact exists_numeral_of_negSucc keepsPoint some_digits all zeros

/-- Digits with an exponent are a number. -/
theorem exists_numeral_exponentForm (width : Nat) (some_digits : digits ≠ [])
    (all : ∀ c ∈ digits, c.isDigit = true) (leading : Int) :
    ∃ n : Numeral, n.body = exponentForm width digits leading ∧
      n.size = Nat.ofDigitChars 10 digits 0 * 10 ^ (leading + 1 - digits.length) := by
  obtain ⟨first, rest, rfl⟩ := List.exists_cons_of_ne_nil some_digits
  refine ⟨⟨false, [first], rest, some (decide (leading < 0),
    List.replicate (width - (Nat.toDigits 10 leading.natAbs).length) '0' ++
      Nat.toDigits 10 leading.natAbs), ?_, ?_, ?_⟩, ?_, ?_⟩
  · exact List.cons_ne_nil _ _
  · exact all
  · rintro _ ⟨⟩
    exact ⟨List.append_ne_nil_of_right_ne_nil _ Nat.toDigits_ne_nil,
      List.forall_mem_append.mpr ⟨isDigit_zeros _, fun _ => Nat.isDigit_of_mem_toDigits
        (by decide) (by decide)⟩⟩
  · simp [Numeral.body, exponentForm, exponentText]
  · simp only [Numeral.size, Numeral.power, ofDigitChars_zeros_append,
      Nat.ofDigitChars_ten_toDigits, decide_eq_true_iff, List.length_cons]
    have exponent :
        (if leading < 0 then -(leading.natAbs : Int) else leading.natAbs) = leading := by
      split_ifs <;> omega
    rw [exponent]
    congr 2
    push_cast
    ring

end Layout

namespace Decimal

/-- The zeros at the end of the digits are left out, and nothing else. -/
theorem exists_digits_eq (d : Decimal) :
    ∃ zeros, d.digits = d.significant ++ List.replicate zeros '0' := by
  have split : d.digits.reverse.takeWhile (· == '0') ++ d.digits.reverse.dropWhile (· == '0') =
      d.digits.reverse := List.takeWhile_append_dropWhile
  have zeros : d.digits.reverse.takeWhile (· == '0') =
      List.replicate (d.digits.reverse.takeWhile (· == '0')).length '0' :=
    List.eq_replicate_of_mem fun c member =>
      beq_iff_eq.mp (List.mem_takeWhile_imp (p := (· == '0')) member)
  refine ⟨(d.digits.reverse.takeWhile (· == '0')).length, ?_⟩
  rw [zeros] at split
  rw [significant, ← List.reverse_inj, List.reverse_append, List.reverse_reverse,
    List.reverse_replicate]
  exact split.symm

variable {d : Decimal}

/-- The digits that are written are digits. -/
theorem isDigit_significant (d : Decimal) : ∀ c ∈ d.significant, c.isDigit = true := by
  intro c member
  obtain ⟨zeros, same⟩ := d.exists_digits_eq
  have inside : c ∈ d.digits := by
    rw [same]
    exact List.mem_append_left _ member
  exact Nat.isDigit_of_mem_toDigits (by decide) (by decide) inside

/-- Behind its first digit a positive number has the value of its digits. -/
theorem significant_spec (positive : 0 < d.coefficient) : d.significant ≠ [] ∧
    (Nat.ofDigitChars 10 d.significant 0 : ℚ) * 10 ^ (d.leading + 1 - d.significant.length) =
      d.coefficient * 10 ^ d.exponent := by
  obtain ⟨zeros, same⟩ := d.exists_digits_eq
  have total : d.coefficient = Nat.ofDigitChars 10 d.significant 0 * 10 ^ zeros := by
    rw [← ofDigitChars_append_zeros, ← same]
    exact Nat.ofDigitChars_ten_toDigits.symm
  constructor
  · intro none
    rw [none, Nat.ofDigitChars_nil, Nat.zero_mul] at total
    omega
  · have places : d.leading + 1 - d.significant.length = d.exponent + zeros := by
      rw [leading, same, List.length_append, List.length_replicate]
      push_cast
      ring
    rw [places, zpow_add₀ (by norm_num), zpow_natCast, total]
    push_cast
    ring

end Decimal

/-- A positive decimal number is written as one number of its value. -/
theorem Layout.exists_numeral (layout : Layout) {d : Decimal} (positive : 0 < d.coefficient) :
    ∃ n : Numeral, n.body = layout.decimalText d ∧ n.size = d.coefficient * 10 ^ d.exponent := by
  obtain ⟨some_digits, value⟩ := Decimal.significant_spec positive
  rw [Layout.decimalText, ← value]
  split_ifs
  · exact exists_numeral_plainText _ some_digits d.isDigit_significant _
  · exact exists_numeral_exponentForm _ some_digits d.isDigit_significant _

namespace Number

/-! ## Style values -/

/-- The digits of a natural number are a number. -/
theorem exists_numeral_toDigits (k : Nat) :
    ∃ n : Numeral, n.body = Nat.toDigits 10 k ∧ n.size = k := by
  refine ⟨⟨false, Nat.toDigits 10 k, [], none, Nat.toDigits_ne_nil, ?_, ?_⟩, ?_, ?_⟩
  · rw [List.append_nil]
    exact fun _ => Nat.isDigit_of_mem_toDigits (by decide) (by decide)
  · rintro _ ⟨⟩
  · simp [Numeral.body]
  · simp [Numeral.size, Numeral.power, Nat.ofDigitChars_ten_toDigits]

/-- The text of an integer is a number behind a minus if it is below zero. -/
theorem toList_intText (k : Int) :
    (intText k).toList = (if k < 0 then ['-'] else []) ++ Nat.toDigits 10 k.natAbs := by
  rw [intText, String.toList_ofList]

variable {x : Float}

/-- An integer that a double is, is written as its digits behind a minus if it is below zero. -/
theorem exists_numeral_intText (finite : x.isFinite = true) {k : Int}
    (same : units x = k * whole) :
    ∃ n : Numeral, (intText k).toList = (if units x < 0 then ['-'] else []) ++ n.body ∧
      RoundsTo (n.size * whole) (units x).natAbs := by
  have room : (0 : Int) < whole := Int.natCast_pos.mpr whole_pos
  have sign : units x < 0 ↔ k < 0 := by
    rw [same, ← not_le, ← not_le, Int.mul_nonneg_iff_of_pos_right room]
  have distance : (units x).natAbs = k.natAbs * whole := by
    rw [same, Int.natAbs_mul, Int.natAbs_natCast]
  obtain ⟨n, text, size⟩ := exists_numeral_toDigits k.natAbs
  refine ⟨n, ?_, ?_⟩
  · rw [toList_intText, text, if_congr sign rfl rfl]
  · have rounds := roundsTo_units finite
    rw [distance] at rounds ⊢
    rwa [size, ← Nat.cast_mul]

/-- The shortest text of a double that is not zero is one number, behind a minus if it is below
zero, that is rounded to the double. -/
theorem exists_numeral_text (finite : x.isFinite = true) (some_units : ¬ units x = 0) :
    ∃ n : Numeral, (text x).toList = (if units x < 0 then ['-'] else []) ++ n.body ∧
      RoundsTo (n.size * whole) (units x).natAbs := by
  obtain ⟨negative, m, e, read⟩ := exists_read_finite finite
  have canonical := canonical_of_read read
  obtain ⟨_, _, total⟩ := units_of_read_finite read
  have positive : 0 < m := by
    rw [Nat.pos_iff_ne_zero]
    rintro rfl
    refine some_units ?_
    rw [total]
    cases negative <;> exact Int.zero_mul _
  have some_places : (0 : Int) < (2 ^ (e + 1074).toNat : Nat) :=
    Int.natCast_pos.mpr (Nat.two_pow_pos _)
  have sign : units x < 0 ↔ negative = true := by
    rw [total, ← signed_neg_iff positive, ← not_le, ← not_le,
      Int.mul_nonneg_iff_of_pos_right some_places]
  have distance : (units x).natAbs = Binary64.magnitude m e := by
    rw [total, Int.natAbs_mul, Int.natAbs_natCast, natAbs_signed, Binary64.magnitude]
  obtain ⟨n, shown, size⟩ :=
    Layout.answer.exists_numeral (Decimal.coefficient_shortest_pos canonical positive)
  refine ⟨n, ?_, ?_⟩
  · rw [text, Layout.render, read]
    simp only [if_neg positive.ne', String.toList_ofList, shown, sign]
    cases negative <;> rfl
  · rw [distance, size]
    exact Decimal.roundsTo_shortest canonical positive

/-- A style value is one number, behind a minus if it is below zero, that is rounded to the double
it is the text of. -/
theorem exists_numeral_cssText (finite : x.isFinite = true) :
    ∃ n : Numeral, (cssText x).toList = (if units x < 0 then ['-'] else []) ++ n.body ∧
      RoundsTo (n.size * whole) (units x).natAbs := by
  have number := isNaN_of_isFinite finite
  rw [cssText]
  split
  · rename_i none
    rw [beq_iff_units number isNaN_zero, units_zero] at none
    obtain ⟨n, shown, size⟩ := exists_numeral_toDigits 0
    refine ⟨n, ?_, ?_⟩
    · rw [none, shown]
      rfl
    · rw [none, size, Nat.cast_zero, zero_mul, ← Nat.cast_zero]
      exact roundsTo_nearest 0
  · rename_i some_units
    rw [beq_iff_units number isNaN_zero, units_zero] at some_units
    split
    · rename_i k read
      exact exists_numeral_intText finite (units_of_whole finite read)
    · exact exists_numeral_text finite some_units

end Number
end Storyboard
