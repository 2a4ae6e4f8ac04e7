import Storyboard.Number.Decimal
import Storyboard.Proofs.Number.Product
/-!
# Digits that read back

The digits of a double are sought on decimal grids of growing fineness, in the interval of the exact
numbers that are rounded to it. The grid of seventeen digits is fine enough for every double, so
that the search always ends in the interval.

Main statements: every number of the interval is rounded to the double (`roundsTo_of_covers`); the
digits that are found lie in the interval (`covers_shortest`), and so they are rounded to the double
(`roundsTo_shortest`).
-/
namespace Storyboard

open Binary64

namespace Ratio

/-! ## Fractions -/

/-- The fraction as an exact number. -/
def value (r : Ratio) : ℚ := r.numerator / r.denominator

/-- Nothing is divided by zero in a scaled number. -/
theorem denominator_scaled_pos {b : Nat} (positive : 0 < b) (coefficient : Nat)
    (exponent : Int) : 0 < (scaled b coefficient exponent).denominator := by
  cases exponent with
  | ofNat n => exact Nat.one_pos
  | negSucc n => exact Nat.pow_pos positive

/-- Powers of two below the line have as many bits as their exponents tell. -/
theorem log2_denominator_scaled (coefficient : Nat) (exponent : Int) :
    (scaled 2 coefficient exponent).denominator.log2 = (-exponent).toNat := by
  cases exponent with
  | ofNat n =>
    have none : (-Int.ofNat n).toNat = 0 := by cases n <;> rfl
    rw [none]
    exact Nat.log2_two_pow (n := 0)
  | negSucc n => exact Nat.log2_two_pow

/-- What is not zero stays so in a scaled number. -/
theorem numerator_scaled_pos {b coefficient : Nat} (positive : 0 < b)
    (some_units : 0 < coefficient) (exponent : Int) :
    0 < (scaled b coefficient exponent).numerator := by
  cases exponent with
  | ofNat n => exact Nat.mul_pos some_units (Nat.pow_pos positive)
  | negSucc n => exact some_units

/-- The value of a scaled number. -/
theorem value_scaled (base coefficient : Nat) (exponent : Int) :
    (scaled base coefficient exponent).value = coefficient * (base : ℚ) ^ exponent := by
  cases exponent with
  | ofNat n =>
    simp only [value, scaled, Nat.pow_eq, Nat.cast_mul, Nat.cast_pow, Nat.cast_one, div_one,
      Int.ofNat_eq_natCast, zpow_natCast]
  | negSucc n =>
    simp only [value, scaled, Nat.pow_eq, Nat.cast_pow, zpow_negSucc, div_eq_mul_inv]

variable {r : Ratio}

/-- Nothing is divided by zero in a shifted fraction. -/
theorem denominator_shift_pos (positive : 0 < r.denominator) (places : Int) :
    0 < (r.shift places).denominator := by
  cases places with
  | ofNat n => exact positive
  | negSucc n => exact Nat.mul_pos positive (Nat.pow_pos (by decide))

/-- The value of a shifted fraction. -/
theorem value_shift (r : Ratio) (places : Int) :
    (r.shift places).value = r.value * 10 ^ places := by
  cases places with
  | ofNat n =>
    simp only [value, shift, Nat.pow_eq, Nat.cast_mul, Nat.cast_pow, Nat.cast_ofNat,
      Int.ofNat_eq_natCast, zpow_natCast]
    ring
  | negSucc n =>
    simp only [value, shift, Nat.pow_eq, Nat.cast_mul, Nat.cast_pow, Nat.cast_ofNat, zpow_negSucc,
      div_eq_mul_inv, mul_inv, mul_assoc]

/-- The nearest whole number is the closest. -/
theorem isClosest_nearest (positive : 0 < r.denominator) : IsClosest r.value r.nearest := by
  have split : r.floor * r.denominator + r.numerator % r.denominator = r.numerator :=
    Nat.div_add_mod' _ _
  have rest := Nat.mod_lt r.numerator positive
  have next : (r.floor + 1) * r.denominator = r.floor * r.denominator + r.denominator :=
    Nat.succ_mul _ _
  rw [nearest, value]
  split_ifs with less more even <;> refine isClosest_div positive ?_ ?_ ?_ <;> omega

/-- A power of ten is reached by what it is at most. -/
theorem reaches_iff (positive : 0 < r.denominator) {place : Int} :
    r.reaches place = true ↔ (10 : ℚ) ^ place ≤ r.value := by
  have parts : (0 : ℚ) < r.denominator := by exact_mod_cast positive
  cases place with
  | ofNat n =>
    rw [reaches, decide_eq_true_iff, value, le_div_iff₀ parts, Int.ofNat_eq_natCast, zpow_natCast]
    exact_mod_cast Iff.rfl
  | negSucc n =>
    have scale : (0 : ℚ) < 10 ^ (n + 1) := by positivity
    rw [reaches, decide_eq_true_iff, value, le_div_iff₀ parts, zpow_negSucc, inv_mul_le_iff₀ scale,
      mul_comm ((10 : ℚ) ^ (n + 1))]
    exact_mod_cast Iff.rfl

/-- Powers of ten and of two between which there are bounds at one place are bounded everywhere. -/
theorem ten_zpow_le {p q r b x : Int} (lower : (10 : ℚ) ^ p ≤ 2 ^ r)
    (upper : (2 : ℚ) ^ r ≤ 10 ^ q) (above : 0 ≤ b → x ≤ p * b - q)
    (below : b ≤ 0 → x ≤ q * b - q) : (10 : ℚ) ^ x ≤ 2 ^ (r * (b - 1)) := by
  have ten_pos (a : Int) : (0 : ℚ) < 10 ^ a := zpow_pos (by norm_num) a
  have two_pos (a : Int) : (0 : ℚ) < 2 ^ a := zpow_pos (by norm_num) a
  have ten_mono {a c : Int} (le : a ≤ c) : (10 : ℚ) ^ a ≤ 10 ^ c :=
    zpow_le_zpow_right₀ (by norm_num) le
  have small : (10 : ℚ) ^ (-q) ≤ 2 ^ (-r) := by
    rw [zpow_neg, zpow_neg]
    exact inv_anti₀ (two_pos _) upper
  have split : (2 : ℚ) ^ (r * (b - 1)) = 2 ^ (r * b) * 2 ^ (-r) := by
    rw [← zpow_add₀ (by norm_num)]
    congr 1
    ring
  rw [split]
  rcases Int.le_total 0 b with nonneg | negative
  · have most := above nonneg
    obtain ⟨n, rfl⟩ := Int.eq_ofNat_of_zero_le nonneg
    have powers : (10 : ℚ) ^ (p * (n : Int)) ≤ 2 ^ (r * (n : Int)) := by
      rw [zpow_mul, zpow_mul, zpow_natCast, zpow_natCast]
      exact pow_le_pow_left₀ (ten_pos _).le lower n
    calc (10 : ℚ) ^ x ≤ 10 ^ (p * (n : Int) + -q) := ten_mono most
      _ = 10 ^ (p * (n : Int)) * 10 ^ (-q) := zpow_add₀ (by norm_num) _ _
      _ ≤ 2 ^ (r * (n : Int)) * 2 ^ (-r) := mul_le_mul powers small (ten_pos _).le (two_pos _).le
  · have most := below negative
    obtain ⟨n, rfl⟩ : ∃ n : Nat, b = -n := ⟨b.natAbs, by omega⟩
    have powers : (10 : ℚ) ^ (q * -(n : Int)) ≤ 2 ^ (r * -(n : Int)) := by
      rw [mul_neg, mul_neg, zpow_neg, zpow_neg, zpow_mul, zpow_mul, zpow_natCast, zpow_natCast]
      exact inv_anti₀ (pow_pos (two_pos _) n) (pow_le_pow_left₀ (two_pos _).le upper n)
    calc (10 : ℚ) ^ x ≤ 10 ^ (q * -(n : Int) + -q) := ten_mono most
      _ = 10 ^ (q * -(n : Int)) * 10 ^ (-q) := zpow_add₀ (by norm_num) _ _
      _ ≤ 2 ^ (r * -(n : Int)) * 2 ^ (-r) := mul_le_mul powers small (ten_pos _).le (two_pos _).le

/-- The digits of a power of two are told well enough by their share of its bits. -/
theorem ten_pow_le_two_pow {bits : Int} (least : -6900 ≤ bits) :
    (10 : ℚ) ^ (bits * 1233 / 4096 - 2) ≤ 2 ^ (bits - 1) := by
  have guess : bits * 1233 / 4096 * 4096 ≤ bits * 1233 := Int.ediv_mul_le _ (by decide)
  have lower : (10 : ℚ) ^ (1233 : Int) ≤ 2 ^ (4096 : Int) := by
    exact_mod_cast (show 10 ^ 1233 ≤ 2 ^ 4096 by decide +kernel)
  have upper : (2 : ℚ) ^ (4096 : Int) ≤ 10 ^ (1234 : Int) := by
    exact_mod_cast (show 2 ^ 4096 ≤ 10 ^ 1234 by decide +kernel)
  have powers := ten_zpow_le (b := bits) (x := (bits * 1233 / 4096 - 2) * 4096) lower upper
    (by omega) (by omega)
  rw [mul_comm 4096 (bits - 1), zpow_mul, zpow_mul] at powers
  exact (zpow_le_zpow_iff_left₀ (zpow_pos (by norm_num) _).le (zpow_pos (by norm_num) _).le
    (by decide)).mp powers
/-- A fraction is more than its guessed power of two. -/
theorem two_pow_lt_value (some_parts : 0 < r.numerator) (positive : 0 < r.denominator) :
    (2 : ℚ) ^ ((r.numerator.log2 : Int) - r.denominator.log2 - 1) < r.value := by
  have parts : (0 : ℚ) < r.denominator := by exact_mod_cast positive
  have above : (2 : ℚ) ^ r.numerator.log2 ≤ r.numerator := by
    exact_mod_cast Nat.log2_self_le some_parts.ne'
  have below : (r.denominator : ℚ) < 2 ^ (r.denominator.log2 + 1) := by
    exact_mod_cast Nat.lt_log2_self (n := r.denominator)
  have split : (2 : ℚ) ^ ((r.numerator.log2 : Int) - r.denominator.log2 - 1) =
      2 ^ r.numerator.log2 / 2 ^ (r.denominator.log2 + 1) := by
    rw [sub_sub, zpow_sub₀ (by norm_num), ← Nat.cast_one (R := Int), ← Nat.cast_add, zpow_natCast,
      zpow_natCast]
  rw [split, value]
  calc (2 : ℚ) ^ r.numerator.log2 / 2 ^ (r.denominator.log2 + 1)
      ≤ r.numerator / 2 ^ (r.denominator.log2 + 1) :=
        div_le_div_of_nonneg_right above (by positivity)
    _ < r.numerator / r.denominator :=
        div_lt_div_of_pos_left (by exact_mod_cast some_parts) parts below

/-- A fraction is not less than the power of ten below its place. -/
theorem ten_pow_place_le (some_parts : 0 < r.numerator) (positive : 0 < r.denominator)
    (least : -6900 ≤ (r.numerator.log2 : Int) - r.denominator.log2) :
    (10 : ℚ) ^ (r.place - 1) ≤ r.value := by
  have close := (ten_pow_le_two_pow least).trans (two_pow_lt_value some_parts positive).le
  rw [place]
  change (10 : ℚ) ^ (r.digitGuess - 2) ≤ r.value at close
  generalize r.digitGuess = guess at close ⊢
  split_ifs with next here before
  · have reached := (reaches_iff positive).mp next
    rwa [show guess + 2 - 1 = guess + 1 by omega]
  · have reached := (reaches_iff positive).mp here
    rwa [show guess + 1 - 1 = guess by omega]
  · exact (reaches_iff positive).mp before
  · rwa [show guess - 1 - 1 = guess - 2 by omega]

end Ratio

namespace Neighbourhood

/-! ## Intervals -/

/-- Whether an exact number lies in a neighbourhood. -/
def Covers (n : Neighbourhood) (q : ℚ) : Prop :=
  if n.closed = true then n.low ≤ q * n.value.denominator ∧ q * n.value.denominator ≤ n.high
  else n.low < q * n.value.denominator ∧ q * n.value.denominator < n.high

/-- A decimal number is in a neighbourhood exactly if its value lies in it. -/
theorem contains_iff (n : Neighbourhood) (coefficient : Nat) (exponent : Int) :
    n.contains coefficient exponent = true ↔ n.Covers (coefficient * 10 ^ exponent) := by
  have positive := Ratio.denominator_scaled_pos (b := 10) (by decide) coefficient exponent
  have same := Ratio.value_scaled 10 coefficient exponent
  rw [contains, Covers]
  generalize Ratio.scaled 10 coefficient exponent = point at positive same
  have parts : (0 : ℚ) < point.denominator := by exact_mod_cast positive
  have here : (coefficient * (10 : ℚ) ^ exponent) * n.value.denominator * point.denominator =
      point.numerator * n.value.denominator := by
    rw [Ratio.value, Nat.cast_ofNat] at same
    rw [← same]
    field_simp
  generalize (coefficient * (10 : ℚ) ^ exponent) * n.value.denominator = q at here ⊢
  have low_le : n.low * point.denominator ≤ point.numerator * n.value.denominator ↔ n.low ≤ q := by
    rw [← mul_le_mul_iff_left₀ parts, here]
    exact_mod_cast Iff.rfl
  have le_high : point.numerator * n.value.denominator ≤ n.high * point.denominator ↔
      q ≤ n.high := by
    rw [← mul_le_mul_iff_left₀ parts, here]
    exact_mod_cast Iff.rfl
  have low_lt : n.low * point.denominator < point.numerator * n.value.denominator ↔ n.low < q := by
    rw [← mul_lt_mul_iff_left₀ parts, here]
    exact_mod_cast Iff.rfl
  have lt_high : point.numerator * n.value.denominator < n.high * point.denominator ↔
      q < n.high := by
    rw [← mul_lt_mul_iff_left₀ parts, here]
    exact_mod_cast Iff.rfl
  cases n.closed with
  | false =>
    simp only [Bool.false_eq_true, if_false, Bool.and_eq_true, decide_eq_true_iff, low_lt, lt_high]
  | true => simp only [if_true, Bool.and_eq_true, decide_eq_true_iff, low_le, le_high]

/-- How far down the neighbourhood reaches, in units of the last place: below a power of two the
places are half as large. -/
def reach (significand : Nat) (exponent : Int) : ℚ :=
  if significand = 2 ^ 52 ∧ -1074 < exponent then 1 / 4 else 1 / 2

variable {m : Nat} {e : Int} {q : ℚ}

/-- The neighbourhood of a significand as an interval. -/
theorem covers_iff (positive : 0 < m) : (ofSignificand m e).Covers q ↔
    if m % 2 = 0 then (m - reach m e) * 2 ^ e ≤ q ∧ q ≤ (m + 1 / 2) * 2 ^ e
    else (m - reach m e) * 2 ^ e < q ∧ q < (m + 1 / 2) * 2 ^ e := by
  obtain ⟨unit, sameUnit⟩ : ∃ unit, unit = (Ratio.scaled 2 1 (e - 2)).numerator := ⟨_, rfl⟩
  have total : (Ratio.scaled 2 (4 * m) (e - 2)).numerator = 4 * m * unit := by
    rw [sameUnit]
    cases e - 2 with
    | ofNat n => simp only [Ratio.scaled, Nat.one_mul]
    | negSucc n => simp only [Ratio.scaled, Nat.mul_one]
  have shared : (Ratio.scaled 2 (4 * m) (e - 2)).denominator =
      (Ratio.scaled 2 1 (e - 2)).denominator := by
    cases e - 2 <;> rfl
  have positiveParts := Ratio.denominator_scaled_pos (b := 2) (by decide) 1 (e - 2)
  have parts : (0 : ℚ) < (Ratio.scaled 2 1 (e - 2)).denominator := by exact_mod_cast positiveParts
  have scale := Ratio.value_scaled 2 1 (e - 2)
  rw [Ratio.value, ← sameUnit, div_eq_iff parts.ne', Nat.cast_one, one_mul, Nat.cast_ofNat] at scale
  have quarters (x : ℚ) : 4 * x * unit =
      x * 2 ^ e * (Ratio.scaled 2 1 (e - 2)).denominator := by
    rw [scale, zpow_sub₀ (by norm_num)]
    ring
  have low : ((ofSignificand m e).low : ℚ) = 4 * (m - reach m e) * unit := by
    have room : 2 * unit ≤ 4 * m * unit := Nat.mul_le_mul_right _ (by omega)
    simp only [ofSignificand, total, ← sameUnit, reach, Nat.pow_eq]
    split_ifs
    · rw [Nat.cast_sub (by omega)]
      push_cast
      ring
    · rw [Nat.cast_sub (by omega)]
      push_cast
      ring
  have high : ((ofSignificand m e).high : ℚ) = 4 * (m + 1 / 2) * unit := by
    simp only [ofSignificand, total, ← sameUnit]
    push_cast
    ring
  have closed : (ofSignificand m e).closed = true ↔ m % 2 = 0 := decide_eq_true_iff
  rw [Covers, if_congr closed rfl rfl, low, high, quarters, quarters, ofSignificand, shared,
    mul_le_mul_iff_left₀ parts, mul_le_mul_iff_left₀ parts, mul_lt_mul_iff_left₀ parts,
    mul_lt_mul_iff_left₀ parts]

/-! ## Rounding in the interval -/

/-- What is less than a power of two by half a place at most is rounded to it. -/
theorem roundsTo_two_pow {s : Nat} (lower : (2 ^ 53 - 1 / 2) * 2 ^ s ≤ q)
    (upper : q < 2 ^ 53 * 2 ^ s) : RoundsTo q (2 ^ 53 * 2 ^ s) := by
  have power : (0 : ℚ) < 2 ^ s := by positivity
  refine ⟨s, 2 ^ 53, rfl, ⟨?_, ?_, fun _ => rfl⟩, ?_, fun _ => ?_⟩
  · have near := (le_div_iff₀ power).mpr lower
    push_cast
    linarith
  · have near := (div_lt_iff₀ power).mpr upper
    push_cast
    linarith
  · rwa [pow_add]
  · rw [pow_add]
    exact (mul_le_mul_of_nonneg_right (by norm_num) power.le).trans lower

/-- No neighbourhood reaches further down than half a place. -/
theorem reach_le (m : Nat) (e : Int) : reach m e ≤ 1 / 2 := by
  rw [reach]
  split_ifs <;> norm_num

/-- The neighbourhood in units; its ends belong to it only if the significand is even. -/
theorem scaled_of_covers {t : Nat} (place : e + 1074 = t) (positive : 0 < m)
    (covers : (ofSignificand m e).Covers q) :
    (m - reach m e) * 2 ^ t ≤ q * whole ∧ q * whole ≤ (m + 1 / 2) * 2 ^ t ∧
      ((m - reach m e) * 2 ^ t = q * whole ∨ q * whole = (m + 1 / 2) * 2 ^ t → m % 2 = 0) := by
  have scale : (2 : ℚ) ^ e * whole = 2 ^ t := by
    rw [cast_whole, ← two_zpow_add, place, zpow_natCast]
  have room : (0 : ℚ) < whole := by exact_mod_cast whole_pos
  have scaled (x : ℚ) : x * 2 ^ t = x * 2 ^ e * whole := by rw [mul_assoc, scale]
  rw [covers_iff positive] at covers
  rw [scaled, scaled]
  split_ifs at covers with parity
  · exact ⟨mul_le_mul_of_nonneg_right covers.1 room.le,
      mul_le_mul_of_nonneg_right covers.2 room.le, fun _ => parity⟩
  · have first := mul_lt_mul_of_pos_right covers.1 room
    have second := mul_lt_mul_of_pos_right covers.2 room
    refine ⟨first.le, second.le, ?_⟩
    rintro (tie | tie) <;> exfalso <;> linarith

/-- A number that is half a place away at most, and less below the significand if the neighbourhood
reaches less far there, has the significand as the closest number of places. -/
theorem isClosest_of_reach {t : Nat} {r : ℚ} (lower : (m - reach m e) * 2 ^ t ≤ r)
    (upper : r ≤ (m + 1 / 2) * 2 ^ t)
    (even : (m - reach m e) * 2 ^ t = r ∨ r = (m + 1 / 2) * 2 ^ t → m % 2 = 0) :
    IsClosest (r / 2 ^ t) m := by
  have power : (0 : ℚ) < 2 ^ t := by positivity
  have near := reach_le m e
  refine ⟨?_, ?_, fun tie => even ?_⟩
  · have least : (m : ℚ) - 1 / 2 ≤ r / 2 ^ t := by
      rw [le_div_iff₀ power]
      exact (mul_le_mul_of_nonneg_right (by linarith) power.le).trans lower
    linarith
  · rwa [div_le_iff₀ power]
  · rcases tie with below | above
    · left
      have exactly_below : r = (m - 1 / 2) * 2 ^ t := by
        rw [below, add_sub_cancel_right, div_mul_cancel₀ _ power.ne']
      rcases near.eq_or_lt with wide | narrow
      · rw [wide, exactly_below]
      · have more : (m - 1 / 2 : ℚ) * 2 ^ t < (m - reach m e) * 2 ^ t :=
          mul_lt_mul_of_pos_right (by linarith) power
        linarith
    · right
      rw [← above, div_mul_cancel₀ _ power.ne']

/-- Only the neighbourhood of a power of two reaches down to numbers with fewer bits. -/
theorem eq_two_pow_of_reach {t : Nat} {r : ℚ} (full : 2 ^ 52 ≤ m)
    (lower : (m - reach m e) * 2 ^ t ≤ r) (less : r < 2 ^ (52 + t)) : m = 2 ^ 52 := by
  by_contra other
  have near := reach_le m e
  have more : (2 : ℚ) ^ 52 + 1 ≤ m := by exact_mod_cast (show 2 ^ 52 + 1 ≤ m by omega)
  have many : (2 : ℚ) ^ 52 * 2 ^ t ≤ (m - reach m e) * 2 ^ t :=
    mul_le_mul_of_nonneg_right (by linarith) (by positivity)
  rw [← pow_add] at many
  linarith

/-- Every number of the neighbourhood is rounded to the significand. -/
theorem roundsTo_of_covers (canonical : Canonical m e) (positive : 0 < m)
    (covers : (ofSignificand m e).Covers q) : RoundsTo (q * whole) (magnitude m e) := by
  obtain ⟨t, place⟩ : ∃ t : Nat, e + 1074 = t :=
    ⟨(e + 1074).toNat, by have := canonical.least; omega⟩
  have same : magnitude m e = m * 2 ^ t := by rw [magnitude, place, Int.toNat_natCast]
  obtain ⟨lower, upper, even⟩ := scaled_of_covers place positive covers
  generalize q * whole = r at lower upper even
  have bits : (m : ℚ) + 1 ≤ 2 ^ 53 := by exact_mod_cast Nat.succ_le_of_lt canonical.bits
  have short : r < 2 ^ (53 + t) := by
    calc r ≤ (m + 1 / 2) * 2 ^ t := upper
      _ < 2 ^ 53 * 2 ^ t := mul_lt_mul_of_pos_right (by linarith) (by positivity)
      _ = 2 ^ (53 + t) := (pow_add 2 53 t).symm
  by_cases long : 0 < t → 2 ^ (52 + t) ≤ r
  · exact ⟨t, m, same, isClosest_of_reach lower upper even, short, long⟩
  · -- Only below a power of two there is less than all bits, and the places are half as large.
    push Not at long
    obtain ⟨some_places, less⟩ := long
    obtain ⟨s, rfl⟩ : ∃ s, t = s + 1 := ⟨t - 1, by omega⟩
    have least := eq_two_pow_of_reach (canonical.full (by omega)) lower less
    have narrow : reach m e = 1 / 4 := if_pos ⟨least, by omega⟩
    have halves : ((2 : ℚ) ^ 52 - 1 / 4) * 2 ^ (s + 1) = (2 ^ 53 - 1 / 2) * 2 ^ s := by ring
    rw [narrow, least, Nat.cast_pow, Nat.cast_ofNat, halves] at lower
    rw [same, least, Nat.pow_succ' (n := s), ← Nat.mul_assoc]
    refine roundsTo_two_pow lower (less.trans_le ?_)
    rw [← pow_add]
    exact pow_le_pow_right₀ (by norm_num) (by omega)

/-! ## The search -/

/-- What is found on a grid lies in the neighbourhood. -/
theorem covers_of_onGrid {n : Neighbourhood} {d : Decimal} (found : n.onGrid? e = some d) :
    n.Covers (d.coefficient * 10 ^ d.exponent) := by
  simp only [onGrid?] at found
  split_ifs at found with near same here here <;> cases found
  · exact (contains_iff n _ _).mp near
  · exact (contains_iff n _ _).mp here
  · exact (contains_iff n _ _).mp here

/-- If the finest grid has a number in the neighbourhood, one is found. -/
theorem covers_search {n : Neighbourhood} {place : Int} {most : Nat}
    (finest : n.Covers ((n.value.shift (most - place)).nearest * 10 ^ (place - most)))
    (digits used : Nat) (total : digits + used = most) :
    n.Covers ((n.search place digits used).coefficient *
      10 ^ (n.search place digits used).exponent) := by
  induction digits generalizing used with
  | zero =>
    rw [Nat.zero_add] at total
    subst total
    exact finest
  | succ digits ih =>
    rw [search]
    split
    · rename_i found
      exact covers_of_onGrid found
    · exact ih (used + 1) (by omega)

/-- What differs from a significand by less than a share of fifty-four bits lies in its
neighbourhood. -/
theorem covers_of_close (canonical : Canonical m e) (positive : 0 < m)
    (close : |q - m * 2 ^ e| * 2 ^ 54 < m * 2 ^ e) : (ofSignificand m e).Covers q := by
  have power : (0 : ℚ) < 2 ^ e := by positivity
  have bits : (m : ℚ) ≤ 2 ^ 53 := by exact_mod_cast canonical.bits.le
  have below : (m : ℚ) ≤ reach m e * 2 ^ 54 := by
    rw [reach]
    split_ifs with narrow
    · rw [narrow.1]
      norm_num
    · linarith
  have share := mul_le_mul_of_nonneg_right below power.le
  have above := mul_le_mul_of_nonneg_right bits power.le
  have left := neg_abs_le (q - m * 2 ^ e)
  have right := le_abs_self (q - m * 2 ^ e)
  have lower : (m - reach m e) * 2 ^ e < q := by linarith
  have upper : q < (m + 1 / 2) * 2 ^ e := by linarith
  rw [covers_iff positive]
  split_ifs
  · exact ⟨lower.le, upper.le⟩
  · exact ⟨lower, upper⟩

end Neighbourhood

namespace Decimal

open Neighbourhood

variable {m : Nat} {e : Int}

/-- The digits that are found for a double lie in its neighbourhood. -/
theorem covers_shortest (canonical : Canonical m e) (positive : 0 < m) :
    (ofSignificand m e).Covers ((shortest m e).coefficient * 10 ^ (shortest m e).exponent) := by
  have least := canonical.least
  have fraction : (ofSignificand m e).value = Ratio.scaled 2 (4 * m) (e - 2) := rfl
  have exactly_value : (ofSignificand m e).value.value = m * 2 ^ e := by
    rw [fraction, Ratio.value_scaled, zpow_sub₀ (by norm_num)]
    push_cast
    ring
  have parts : 0 < (ofSignificand m e).value.denominator := by
    rw [fraction]
    exact Ratio.denominator_scaled_pos (by decide) _ _
  have some_parts : 0 < (ofSignificand m e).value.numerator := by
    rw [fraction]
    exact Ratio.numerator_scaled_pos (by decide) (by omega) _
  have few : -6900 ≤ ((ofSignificand m e).value.numerator.log2 : Int) -
      (ofSignificand m e).value.denominator.log2 := by
    rw [fraction, Ratio.log2_denominator_scaled]
    omega
  have place := Ratio.ten_pow_place_le some_parts parts few
  rw [shortest]
  refine covers_search ?_ 16 1 (show 16 + 1 = 17 from rfl)
  generalize (ofSignificand m e).value.place = k at place ⊢
  rw [exactly_value] at place
  -- With seventeen digits the error is at most a half of the last digit.
  refine covers_of_close canonical positive ?_
  have nearest := Ratio.isClosest_nearest (Ratio.denominator_shift_pos parts ((17 : Nat) - k))
  rw [Ratio.value_shift, exactly_value] at nearest
  generalize ((ofSignificand m e).value.shift ((17 : Nat) - k)).nearest = n at nearest ⊢
  have scale : (0 : ℚ) < 10 ^ (k - (17 : Nat)) := by positivity
  have inverse : (10 : ℚ) ^ ((17 : Nat) - k) * 10 ^ (k - (17 : Nat)) = 1 := by
    rw [← zpow_add₀ (by norm_num), sub_add_sub_cancel, sub_self, zpow_zero]
  have ten : (10 : ℚ) ^ (k - 1) = 10 ^ 16 * 10 ^ (k - (17 : Nat)) := by
    rw [← zpow_natCast, ← zpow_add₀ (by norm_num)]
    congr 1
    push_cast
    ring
  rw [ten] at place
  generalize (10 : ℚ) ^ (k - (17 : Nat)) = s at scale inverse place ⊢
  generalize (10 : ℚ) ^ ((17 : Nat) - k : Int) = s' at inverse nearest
  generalize (m : ℚ) * 2 ^ e = v at place nearest ⊢
  have lower := mul_le_mul_of_nonneg_right nearest.lower scale.le
  have upper := mul_le_mul_of_nonneg_right nearest.upper scale.le
  have same : v * s' * s = v := by rw [mul_assoc, inverse, mul_one]
  rw [add_mul, same] at lower upper
  have error : |n * s - v| ≤ s / 2 := abs_le.mpr ⟨by linarith, by linarith⟩
  linarith

/-- The digits that are found for a double are rounded to it. -/
theorem roundsTo_shortest (canonical : Canonical m e) (positive : 0 < m) :
    RoundsTo ((shortest m e).coefficient * 10 ^ (shortest m e).exponent * whole) (magnitude m e) :=
  roundsTo_of_covers canonical positive (covers_shortest canonical positive)

/-- There are digits that are not zero. -/
theorem coefficient_shortest_pos (canonical : Canonical m e) (positive : 0 < m) :
    0 < (shortest m e).coefficient := by
  have rounds := roundsTo_shortest canonical positive
  have some_units := magnitude_pos positive e
  by_contra! none
  rw [Nat.le_zero.mp none, Nat.cast_zero, zero_mul, zero_mul] at rounds
  have nothing := rounds.eq_zero
  omega

end Decimal
end Storyboard
