import Storyboard.Number.Literal
import Storyboard.Proofs.Number.Naturals
/-!
# Decimal numbers as doubles

A decimal number is read as the double nearest to it. Numbers that are far beyond the range, and
those that are far below the least double, are told from their first digit without a power of ten
being formed; all others are a product or a quotient of whole numbers, rounded once.

Main statements: reading is exact but for that one rounding (`Decimal.isRoundingOf_toFloat`); digits
of any script with an optional fraction are read as the decimal number that they write
(`Number.ofText?_digits`).
-/
namespace Storyboard

open Float.Model (Format UnpackedFloat)
open Float.Model.UnpackedFloat

namespace Binary64

/-! ## Both ends of the range -/

/-- Every exact number that is not below zero is rounded to some number of units. -/
theorem exists_roundsTo {q : ℚ} (nonneg : 0 ≤ q) : ∃ k, RoundsTo q k := by
  obtain ⟨shift, target⟩ := exists_shift (p := q.num.toNat / q.den) (f := -1074) (.inl le_rfl)
  have rounds := roundsTo_rounded (liesAt_fraction q.num.toNat q.den_pos) target
  have same : (q.num.toNat : ℚ) / q.den = q := by
    have numerator : ((q.num.toNat : Int) : ℚ) = q.num := by
      rw [Int.toNat_of_nonneg (Rat.num_nonneg.mpr nonneg)]
    rw [← Int.cast_natCast, numerator, Rat.num_div_den]
  rw [same, neg_add_cancel, zpow_zero, mul_one] at rounds
  exact ⟨_, rounds⟩

/-- What is at least the limit is rounded to the infinity above all numbers. -/
theorem isRoundingOf_infinity {q : ℚ} (large : (limit : ℚ) ≤ q) :
    IsRoundingOf Number.infinity q := by
  have nonneg : 0 ≤ q := (Nat.cast_nonneg _).trans large
  obtain ⟨k, rounds⟩ := exists_roundsTo nonneg
  have lowest : RoundsTo limit limit := roundsTo_magnitude canonical_limit.bits 972
  have beyond : limit ≤ k := lowest.mono rounds large
  have top : units Number.infinity = limit := by rfl
  exact isRoundingOf_of_size rfl nonneg rounds (by omega) (.inl ⟨rfl, by omega⟩)

/-- What is at most half a unit is rounded to zero. -/
theorem isRoundingOf_zero_of_le {q : ℚ} (nonneg : 0 ≤ q) (small : q ≤ 1 / 2) :
    IsRoundingOf 0.0 q := by
  have rounds : RoundsTo q 0 := by
    refine ⟨0, 0, rfl, ⟨?_, ?_, fun _ => rfl⟩, ?_, fun above => absurd above (lt_irrefl 0)⟩
    · rw [pow_zero, div_one, Nat.cast_zero]
      linarith
    · rw [pow_zero, div_one, Nat.cast_zero]
      linarith
    · norm_num
      linarith
  have size : (units 0.0).natAbs = min limit 0 := by
    rw [units_zero, Nat.min_zero, Int.natAbs_zero]
  exact isRoundingOf_of_size isNaN_zero nonneg rounds size (.inl ⟨rfl, units_zero.ge⟩)

/-! ## Powers of ten -/

/-- The first powers of ten are doubles. -/
theorem units_powerOfTen : ∀ e : Fin 23,
    (Float.exactlyRepresentablePowersOfTen[e]).isFinite = true ∧
      units Float.exactlyRepresentablePowersOfTen[e] = 10 ^ e.val * whole := by
  decide +kernel

variable {m e : Nat}

/-- A whole number times a power of ten, as it is packed and unpacked again where the numbers are
not small. -/
theorem unpack_ofScientific_false (positive : 0 < m) (large : ¬ (m < 2 ^ 53 ∧ e ≤ 22))
    (small : e ≤ 2048) :
    (Float.ofScientific m false e).toModel.unpack = unpack .binary64 (pack .binary64
      (roundWithAccuracy .binary64 .positive (m * 2 ^ 53 * 10 ^ e) (-53) .exact)) := by
  rw [Float.ofScientific, dif_neg large]
  change unpack .binary64 (pack .binary64 (UnpackedFloat.ofScientific .binary64 m e)) = _
  have notHuge : ¬ (e : Int) > (2 : Int) ^ 11 := by omega
  have notTiny : ¬ (e : Int) < -((2 : Int) ^ 11 + m.log2) := by omega
  have whole_power : 0 ≤ (e : Int) := by omega
  rw [UnpackedFloat.ofScientific, dif_neg positive.ne', if_neg notHuge, if_neg notTiny,
    if_pos whole_power]
  simp only [UnpackedFloat.mul, Nat.shiftLeft_eq, Int.add_zero, Int.toNat_natCast]
  rfl

/-- A whole number over a power of ten, as it is packed and unpacked again where the numbers are not
small and the power is not one. -/
theorem unpack_ofScientific_true (positive : 0 < m) (tens : 0 < 10 ^ e)
    (large : ¬ (m < 2 ^ 53 ∧ e ≤ 22)) (some_places : e ≠ 0) (small : e ≤ 2048 + m.log2) :
    (Float.ofScientific m true e).toModel.unpack = unpack .binary64 (pack .binary64
      (.div .binary64 (.finite .positive m 0 positive) (.finite .positive (10 ^ e) 0 tens))) := by
  rw [Float.ofScientific, dif_neg large]
  change unpack .binary64 (pack .binary64
    (UnpackedFloat.ofScientific .binary64 m (Int.negOfNat e))) = _
  have opposite : Int.negOfNat e = -(e : Int) := Int.negOfNat_eq
  have notHuge : ¬ -(e : Int) > (2 : Int) ^ 11 := by omega
  have notTiny : ¬ -(e : Int) < -((2 : Int) ^ 11 + m.log2) := by omega
  have below : ¬ 0 ≤ -(e : Int) := by omega
  rw [opposite, UnpackedFloat.ofScientific, dif_neg positive.ne', if_neg notHuge, if_neg notTiny,
    if_neg below]
  simp only [neg_neg, Int.toNat_natCast]

/-- A whole number times a power of ten is rounded once. -/
theorem isRoundingOf_ofScientific_false (positive : 0 < m) (small : e ≤ 2048) :
    IsRoundingOf (Float.ofScientific m false e) (m * 10 ^ e * whole) := by
  by_cases fast : m < 2 ^ 53 ∧ e ≤ 22
  · obtain ⟨finite, same⟩ := units_toUInt64 fast.1
    obtain ⟨finitePower, power⟩ := units_powerOfTen ⟨e, by omega⟩
    have rounding := isRoundingOf_mul finite finitePower
    have room : (whole : ℚ) ≠ 0 := by exact_mod_cast whole_pos.ne'
    rw [same, power] at rounding
    push_cast at rounding
    rw [← mul_assoc, mul_div_cancel_right₀ _ room, mul_right_comm] at rounding
    rw [Float.ofScientific, dif_pos fast]
    exact rounding
  · have packed := unpack_ofScientific_false positive fast small
    have many : 2 ^ 52 ≤ m * 2 ^ 53 * 10 ^ e := by
      have tens : 0 < 10 ^ e := Nat.pow_pos (by decide)
      have product : 0 < m * 10 ^ e := Nat.mul_pos positive tens
      rw [Nat.mul_right_comm]
      omega
    obtain ⟨shift, target⟩ := exists_shift (f := -53) (.inr many)
    have rounding := isRoundingOf_factor packed (liesAt_exactly _) (Nat.cast_nonneg _) target
    have same : factorOf .positive * ((m * 2 ^ 53 * 10 ^ e : Nat) * (2 : ℚ) ^ (-53 + 1074 : Int)) =
        m * 10 ^ e * whole := by
      have scale : (2 : ℚ) ^ 53 * 2 ^ (-53 + 1074 : Int) = whole := by
        rw [cast_whole, ← zpow_natCast 2 53, ← two_zpow_add]
        rfl
      have parts : (1 : ℚ) * ((m * 2 ^ 53 * 10 ^ e : Nat) * 2 ^ (-53 + 1074 : Int)) =
          m * 10 ^ e * (2 ^ 53 * 2 ^ (-53 + 1074 : Int)) := by
        generalize (2 : ℚ) ^ (-53 + 1074 : Int) = unit
        push_cast
        ring
      rw [factorOf, parts, scale]
    rwa [same] at rounding

/-- A whole number over a power of ten is rounded once. -/
theorem isRoundingOf_ofScientific_true (positive : 0 < m) (small : e ≤ 2048 + m.log2) :
    IsRoundingOf (Float.ofScientific m true e) (m * whole / 10 ^ e) := by
  have room : (whole : ℚ) ≠ 0 := by exact_mod_cast whole_pos.ne'
  have tens : 0 < 10 ^ e := Nat.pow_pos (by decide)
  by_cases fast : m < 2 ^ 53 ∧ e ≤ 22
  · obtain ⟨finite, same⟩ := units_toUInt64 fast.1
    obtain ⟨finitePower, power⟩ := units_powerOfTen ⟨e, by omega⟩
    have some_units :
        0 < units Float.exactlyRepresentablePowersOfTen[(⟨e, by omega⟩ : Fin 23)] := by
      rw [power]
      exact_mod_cast Nat.mul_pos tens whole_pos
    have rounding := isRoundingOf_div finite finitePower some_units
    rw [same, power] at rounding
    push_cast at rounding
    rw [mul_div_mul_right _ _ room] at rounding
    rw [Float.ofScientific, dif_pos fast]
    exact rounding
  · by_cases none : e = 0
    · -- The power is one, which is taken as a factor.
      rw [none]
      have rounding := isRoundingOf_ofScientific_false (e := 0) positive (by decide)
      rw [pow_zero, mul_one] at rounding
      rw [pow_zero, div_one]
      have same : Float.ofScientific m true 0 = Float.ofScientific m false 0 := by
        rw [none] at fast
        rw [Float.ofScientific, Float.ofScientific, dif_neg fast, dif_neg fast]
        rfl
      rwa [same]
    · have packed := unpack_ofScientific_true positive tens fast none small
      have rounding := isRoundingOf_quotient packed
      have same : factorOf .positive * (m * (2 : ℚ) ^ (0 + 1074 : Int) * whole /
          ((10 ^ e : Nat) * (2 : ℚ) ^ (0 + 1074 : Int))) = m * whole / 10 ^ e := by
        rw [factorOf, one_mul, zero_add, ← cast_whole, mul_right_comm, mul_div_mul_right _ _ room]
        push_cast
        rfl
      rwa [same] at rounding

end Binary64

namespace Decimal

open Binary64

variable {d : Decimal}

/-- The value of a decimal number. -/
def value (d : Decimal) : ℚ := d.coefficient * 10 ^ d.exponent

/-- The value of a decimal number is not below zero. -/
theorem value_nonneg (d : Decimal) : 0 ≤ d.value := by
  unfold value
  positivity

/-- The first digit of a positive number tells its power of ten. -/
theorem value_bounds (positive : 0 < d.coefficient) :
    10 ^ d.leading ≤ d.value ∧ d.value < 10 ^ (d.leading + 1) := by
  obtain ⟨n, length⟩ : ∃ n, d.digits.length = n + 1 :=
    Nat.exists_eq_succ_of_ne_zero Nat.length_toDigits_pos.ne'
  have upper : d.coefficient < 10 ^ (n + 1) :=
    (Nat.length_toDigits_le_iff (by decide) (Nat.succ_pos n)).mp length.le
  have lower : 10 ^ n ≤ d.coefficient := by
    rcases Nat.eq_zero_or_pos n with rfl | more
    · exact positive
    · by_contra short
      have fewer := (Nat.length_toDigits_le_iff (b := 10) (by decide) more).mpr (not_le.mp short)
      have same : d.digits.length ≤ n := fewer
      omega
  have scale : (0 : ℚ) < 10 ^ d.exponent := by positivity
  have first : d.leading = n + d.exponent := by
    rw [leading, length]
    push_cast
    ring
  have behind : d.leading + 1 = (n + 1 : Nat) + d.exponent := by
    rw [first]
    push_cast
    ring
  rw [behind, first, zpow_add₀ (by norm_num), zpow_add₀ (by norm_num), zpow_natCast, zpow_natCast,
    value]
  constructor
  · exact mul_le_mul_of_nonneg_right (by exact_mod_cast lower) scale.le
  · exact mul_lt_mul_of_pos_right (by exact_mod_cast upper) scale

/-- There are no more digits than bits. -/
theorem length_digits_le (d : Decimal) : d.digits.length ≤ d.coefficient.log2 + 1 := by
  refine (Nat.length_toDigits_le_iff (by decide) (Nat.succ_pos _)).mpr ?_
  calc d.coefficient < 2 ^ (d.coefficient.log2 + 1) := Nat.lt_log2_self
    _ ≤ 10 ^ (d.coefficient.log2 + 1) := Nat.pow_le_pow_left (by decide) _

/-- The limit lies below all numbers of three hundred and ten digits more than one. -/
theorem limit_le_ten_pow : limit ≤ 10 ^ 310 * whole := by decide +kernel

/-- The units of numbers that begin at the three hundred and thirtieth place behind the point are
less than a half. -/
theorem two_mul_whole_le : 2 * whole ≤ 10 ^ 330 := by decide +kernel

/-- A decimal number is read as the nearest double, an infinity beyond the range. -/
theorem isRoundingOf_toFloat (d : Decimal) : IsRoundingOf d.toFloat (d.value * whole) := by
  have room : (0 : ℚ) ≤ whole := Nat.cast_nonneg _
  have nonneg := mul_nonneg d.value_nonneg room
  rw [toFloat]
  split_ifs with none large small
  · have zero : d.value = 0 := by rw [value, none, Nat.cast_zero, zero_mul]
    rw [zero, zero_mul]
    exact isRoundingOf_zero_of_le le_rfl (by norm_num)
  · -- Beyond the range.
    refine isRoundingOf_infinity ?_
    have bound : (limit : ℚ) ≤ 10 ^ 310 * whole := by exact_mod_cast limit_le_ten_pow
    have power : (10 : ℚ) ^ ((310 : Nat) : Int) ≤ 10 ^ d.leading :=
      zpow_le_zpow_right₀ (by norm_num) (by omega)
    rw [zpow_natCast] at power
    calc (limit : ℚ) ≤ 10 ^ 310 * whole := bound
      _ ≤ d.value * whole := mul_le_mul_of_nonneg_right
          (power.trans (value_bounds (Nat.pos_of_ne_zero none)).1) room
  · -- Below half a unit.
    refine isRoundingOf_zero_of_le nonneg ?_
    have bound : (2 : ℚ) * whole ≤ 10 ^ 330 := by exact_mod_cast two_mul_whole_le
    have power : (10 : ℚ) ^ (d.leading + 1) ≤ 10 ^ (-330 : Int) :=
      zpow_le_zpow_right₀ (by norm_num) (by omega)
    have inverse : (10 : ℚ) ^ (-330 : Int) * 10 ^ 330 = 1 := by
      rw [zpow_neg]
      exact inv_mul_cancel₀ (by positivity)
    have tiny : (0 : ℚ) ≤ 10 ^ (-330 : Int) := by positivity
    have half : (whole : ℚ) ≤ 10 ^ 330 / 2 := (le_div_iff₀' two_pos).mpr bound
    calc d.value * whole ≤ 10 ^ (-330 : Int) * whole := mul_le_mul_of_nonneg_right
          ((value_bounds (Nat.pos_of_ne_zero none)).2.le.trans power) room
      _ ≤ 10 ^ (-330 : Int) * (10 ^ 330 / 2) := mul_le_mul_of_nonneg_left half tiny
      _ = 1 / 2 := by rw [← mul_div_assoc, inverse]
  · have positive := Nat.pos_of_ne_zero none
    have digits := d.length_digits_le
    have some_digits : 0 < d.digits.length := Nat.length_toDigits_pos
    rw [leading] at large small
    cases same : d.exponent with
    | ofNat n =>
      rw [same, Int.ofNat_eq_natCast] at large small
      have rounding := isRoundingOf_ofScientific_false (e := n) positive (by omega)
      rw [value, same, Int.ofNat_eq_natCast, zpow_natCast]
      exact rounding
    | negSucc n =>
      rw [same, Int.negSucc_eq] at large small
      have rounding := isRoundingOf_ofScientific_true (e := n + 1) positive (by omega)
      rw [value, same, zpow_negSucc, mul_right_comm, ← div_eq_mul_inv]
      exact rounding

end Decimal

/-! ## Digits as they are read -/

namespace Text

variable {c : Char}

/-- A decimal digit lies behind the zero of its script. -/
theorem exists_zero_of_isDecimal (digit : isDecimal c = true) :
    ∃ first ∈ decimalZeros, first ≤ c.toNat ∧ c.toNat ≤ first + 9 := by
  rw [isDecimal, decimalValue, Option.isSome_map] at digit
  obtain ⟨first, found⟩ := Option.isSome_iff_exists.mp digit
  have near := List.find?_some found
  simp only [Bool.and_eq_true, decide_eq_true_eq] at near
  exact ⟨first, List.mem_of_find?_eq_some found, near⟩

/-- A blank is no decimal digit. -/
theorem isBlank_eq_false_of_isDecimal (digit : isDecimal c = true) : isBlank c = false := by
  obtain ⟨first, member, lower, upper⟩ := exists_zero_of_isDecimal digit
  have apart : ∀ first ∈ decimalZeros, 0x1f < first ∧
      ∀ range ∈ spacingRanges, range.2 < first ∨ first + 9 < range.1 := by decide
  obtain ⟨above, away⟩ := apart first member
  rw [isBlank, Bool.or_eq_false_iff]
  constructor
  · refine List.any_eq_false.mpr fun range inside => ?_
    have side := away range inside
    simp only [Bool.and_eq_true, decide_eq_true_eq, not_and]
    omega
  · simp only [Bool.and_eq_false_iff, decide_eq_false_iff_not]
    omega

/-- A decimal digit has no upper and lower case. -/
theorem toLower_of_isDecimal (digit : isDecimal c = true) : c.toLower = c := by
  obtain ⟨first, member, lower, upper⟩ := exists_zero_of_isDecimal digit
  have apart : ∀ first ∈ decimalZeros, first + 9 < 65 ∨ 90 < first := by decide
  have side := apart first member
  refine dif_neg fun upperCase => ?_
  have least : 65 ≤ c.toNat := UInt32.le_iff_toNat_le.mp upperCase.1
  have most : c.toNat ≤ 90 := UInt32.le_iff_toNat_le.mp upperCase.2
  omega

end Text

namespace Number

variable {value : Char → Option Nat} {digits rest : List Char} {c : Char}

/-- A run of digits does not begin with anything else. -/
theorem digitRun_of_none (none_read : value c = none) :
    digitRun value (c :: rest) = ([], c :: rest) := by
  rw [digitRun.eq_def]
  split
  · rename_i same
    obtain ⟨rfl, rfl⟩ := List.cons.inj same
    rw [none_read]
  · rename_i same
    obtain ⟨rfl, rfl⟩ := List.cons.inj same
    rw [none_read]
  · rename_i same
    cases same

/-- A run of digits goes on behind a digit, unless an underscore follows. -/
theorem digitRun_of_some {n : Nat} (read : value c = some n)
    (plain : ∀ d ∈ rest.head?, d ≠ '_') :
    digitRun value (c :: rest) = (n :: (digitRun value rest).1, (digitRun value rest).2) := by
  rw [digitRun.eq_def]
  split
  · rename_i same
    obtain ⟨rfl, rfl⟩ := List.cons.inj same
    exact absurd rfl (plain '_' rfl)
  · rename_i same
    obtain ⟨rfl, rfl⟩ := List.cons.inj same
    rw [read]
  · rename_i same
    cases same

/-- A run of digits is read up to what is no digit. -/
theorem digitRun_append (underscore : value '_' = none)
    (all : ∀ c ∈ digits, (value c).isSome = true) (rest : List Char)
    (stops : ∀ c ∈ rest.head?, value c = none ∧ c ≠ '_') :
    digitRun value (digits ++ rest) = (digits.filterMap value, rest) := by
  induction digits with
  | nil =>
    cases rest with
    | nil => rfl
    | cons c rest => exact digitRun_of_none (stops c rfl).1
  | cons c digits ih =>
    obtain ⟨first, others⟩ := List.forall_mem_cons.mp all
    obtain ⟨n, read⟩ := Option.isSome_iff_exists.mp first
    have plain : ∀ d ∈ (digits ++ rest).head?, d ≠ '_' := by
      cases digits with
      | nil => exact fun d behind => (stops d behind).2
      | cons d digits =>
        rintro _ ⟨⟩ rfl
        have digit := others '_' List.mem_cons_self
        rw [underscore] at digit
        cases digit
    rw [List.cons_append, digitRun_of_some read plain, ih others, List.filterMap_cons_some read]

/-- Digits, with more of them behind a point or without a point, write a decimal number. -/
theorem unsigned?_digits (underscore : value '_' = none) (point : value '.' = none)
    {whole fraction : List Char} (some_digits : whole ≠ [])
    (all : ∀ c ∈ whole ++ fraction, (value c).isSome = true) :
    unsigned? value (whole ++ if fraction = [] then [] else '.' :: fraction) =
      some ⟨ofDigits ((whole ++ fraction).filterMap value), -(fraction.length : Int)⟩ := by
  obtain ⟨allWhole, allFraction⟩ := List.forall_mem_append.mp all
  have front := digitRun_append underscore allWhole
  obtain ⟨first, more, rfl⟩ := List.exists_cons_of_ne_nil some_digits
  obtain ⟨n, read⟩ := Option.isSome_iff_exists.mp (allWhole first List.mem_cons_self)
  rw [unsigned?]
  by_cases without : fraction = []
  · rw [if_pos without, front [] (by rintro _ ⟨⟩), without, List.append_nil,
      List.filterMap_cons_some read]
    simp [exponentOf]
  · have behind := digitRun_append underscore allFraction [] (by rintro _ ⟨⟩)
    rw [List.append_nil] at behind
    have stops : ∀ c ∈ ('.' :: fraction).head?, value c = none ∧ c ≠ '_' := by
      rintro _ ⟨⟩
      exact ⟨point, by decide⟩
    rw [if_neg without, front _ stops, List.filterMap_append, List.filterMap_cons_some read]
    have count : (fraction.filterMap value).length = fraction.length :=
      List.filterMap_length_eq_length.mpr allFraction
    simp [behind, exponentOf, count]

/-- What begins with neither a digit nor a point writes no decimal number. -/
theorem unsigned?_of_none (none_read : value c = none) (noPoint : c ≠ '.') :
    unsigned? value (c :: rest) = none := by
  simp [unsigned?, digitRun_of_none none_read, noPoint]

/-- What begins with neither a sign nor a letter of the words for numbers is read as digits are. -/
theorem ofText?_eq_unsigned? {first : Char} (minus : first ≠ '-') (plus : first ≠ '+')
    (notI : first.toLower ≠ 'i') (notN : first.toLower ≠ 'n') (behind : List Char) :
    ofText? (first :: behind) =
      (unsigned? Text.decimalValue (first :: behind)).map Decimal.toFloat := by
  have unsigned : takeSign (first :: behind) = (false, first :: behind) := by
    unfold takeSign
    split
    · rename_i same
      exact absurd (List.cons.inj same).1 minus
    · rename_i same
      exact absurd (List.cons.inj same).1 plus
    · rfl
  have noWord : ∀ letter others, first.toLower ≠ letter →
      ¬ String.ofList ((first :: behind).map Char.toLower) = String.ofList (letter :: others) :=
    fun letter others apart same => apart (List.cons.inj (String.ofList_injective same)).1
  have notInf : ¬ String.ofList ((first :: behind).map Char.toLower) = "inf" :=
    noWord 'i' ['n', 'f'] notI
  have notInfinity : ¬ String.ofList ((first :: behind).map Char.toLower) = "infinity" :=
    noWord 'i' ['n', 'f', 'i', 'n', 'i', 't', 'y'] notI
  have notNan : ¬ String.ofList ((first :: behind).map Char.toLower) = "nan" :=
    noWord 'n' ['a', 'n'] notN
  rw [ofText?, read?, unsigned]
  simp only [notInf, notInfinity, notNan, decide_false, Bool.or_false, Bool.false_eq_true, if_false,
    Option.map_id']

/-- Digits of any script, with more of them behind a point or without a point, are read as the
double of the decimal number that they write. -/
theorem ofText?_digits {whole fraction : List Char} (some_digits : whole ≠ [])
    (all : ∀ c ∈ whole ++ fraction, Text.isDecimal c = true) :
    ofText? (whole ++ if fraction = [] then [] else '.' :: fraction) = some (Decimal.toFloat
      ⟨ofDigits ((whole ++ fraction).filterMap Text.decimalValue), -(fraction.length : Int)⟩) := by
  have written := unsigned?_digits (by decide) (by decide) some_digits all
  obtain ⟨first, more, rfl⟩ := List.exists_cons_of_ne_nil some_digits
  have digit : Text.isDecimal first = true := all first List.mem_cons_self
  have apart : ∀ c, Text.isDecimal c = false → first ≠ c := by
    rintro c noDigit rfl
    rw [digit] at noDigit
    cases noDigit
  have same := Text.toLower_of_isDecimal digit
  rw [List.cons_append] at written ⊢
  rw [ofText?_eq_unsigned? (apart _ (by decide)) (apart _ (by decide))
    (by rw [same]; exact apart _ (by decide)) (by rw [same]; exact apart _ (by decide)), written,
    Option.map_some]

end Number
end Storyboard
