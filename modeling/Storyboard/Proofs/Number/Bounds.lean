import Storyboard.Number.Scalar
import Storyboard.Proofs.Number.Naturals
import Storyboard.Proofs.Number.Sum
/-!
# Bounds of doubles

Rounding cannot make a quotient one if its numerator is smaller than its denominator, as doubles are
that differ (`units_div_lt`). Small calculations with natural numbers stay finite (`IsWithin`), and
so do differences of numbers up to a finite bound (`LiesUpTo`). Sums and differences of whole
numbers with few bits are exact (`cut_whole`). An infinity stays what it is if something finite is
added, and turns over if it is taken away.
-/
namespace Storyboard.Binary64

open Float.Model (Format UnpackedFloat)
open Float.Model.UnpackedFloat

/-! ## Fractions -/

/-- Of two significands that make different numbers the smaller number is less by one of fifty-three
bits at least. -/
theorem Canonical.magnitude_mul_le {m n : Nat} {e f : Int} (small : Canonical m e)
    (large : Canonical n f) (less : magnitude m e < magnitude n f) :
    magnitude m e * 2 ^ 53 ≤ (2 ^ 53 - 1) * magnitude n f := by
  have bits := small.bits
  have bitsOther := large.bits
  have least := small.least
  have leastOther := large.least
  rcases lt_or_ge e f with below | above
  · -- The smaller number has at most all bits, and the larger one has them all.
    obtain ⟨more, scale⟩ : ∃ more, (f + 1074).toNat = (e + 1074).toNat + 1 + more :=
      ⟨(f - e - 1).toNat, by omega⟩
    have full := large.full (by omega)
    have twice : 2 ^ 53 * 2 ^ (e + 1074).toNat ≤ magnitude n f := by
      calc 2 ^ 53 * 2 ^ (e + 1074).toNat = 2 ^ 52 * 2 ^ ((e + 1074).toNat + 1) := by
            rw [Nat.pow_succ]
            omega
        _ ≤ n * 2 ^ (f + 1074).toNat :=
          Nat.mul_le_mul full (Nat.pow_le_pow_right (by decide) (by omega))
    have most : magnitude m e ≤ (2 ^ 53 - 1) * 2 ^ (e + 1074).toNat :=
      Nat.mul_le_mul_right _ (by omega)
    calc magnitude m e * 2 ^ 53 ≤ (2 ^ 53 - 1) * 2 ^ (e + 1074).toNat * 2 ^ 53 :=
          Nat.mul_le_mul_right _ most
      _ = (2 ^ 53 - 1) * (2 ^ 53 * 2 ^ (e + 1074).toNat) := by
        rw [Nat.mul_assoc, Nat.mul_comm (2 ^ (e + 1074).toNat)]
      _ ≤ (2 ^ 53 - 1) * magnitude n f := Nat.mul_le_mul_left _ twice
  · obtain ⟨more, scale⟩ : ∃ more, (e + 1074).toNat = more + (f + 1074).toNat :=
      ⟨(e - f).toNat, by omega⟩
    have aligned : magnitude m e = m * 2 ^ more * 2 ^ (f + 1074).toNat := by
      rw [magnitude, scale, Nat.pow_add, Nat.mul_assoc]
    rw [aligned] at less ⊢
    have fewer : m * 2 ^ more < n := Nat.lt_of_mul_lt_mul_right less
    have bound : m * 2 ^ more * 2 ^ 53 ≤ (2 ^ 53 - 1) * n := by omega
    calc m * 2 ^ more * 2 ^ (f + 1074).toNat * 2 ^ 53
        = m * 2 ^ more * 2 ^ 53 * 2 ^ (f + 1074).toNat := Nat.mul_right_comm _ _ _
      _ ≤ (2 ^ 53 - 1) * n * 2 ^ (f + 1074).toNat := Nat.mul_le_mul_right _ bound
      _ = (2 ^ 53 - 1) * magnitude n f := Nat.mul_assoc _ _ _

variable {x y : Float}

/-- Of two finite numbers that are not below zero the smaller one is less by one of fifty-three bits
at least. -/
theorem units_mul_le (finite : x.isFinite = true) (finiteOther : y.isFinite = true)
    (nonneg : 0 ≤ units x) (less : units x < units y) :
    (units x).natAbs * 2 ^ 53 ≤ (2 ^ 53 - 1) * (units y).toNat := by
  obtain ⟨m, e, small, same⟩ := exists_canonical finite nonneg
  obtain ⟨n, f, large, sameOther⟩ := exists_canonical finiteOther (by omega)
  rw [same, sameOther] at less ⊢
  exact small.magnitude_mul_le large (Int.ofNat_lt.mp less)

/-- The quotient by a larger number is less than one. -/
theorem units_div_lt (finite : x.isFinite = true) (finiteOther : y.isFinite = true)
    (nonneg : 0 ≤ units x) (less : units x < units y) :
    (x / y).isNaN = false ∧ 0 ≤ units (x / y) ∧ units (x / y) < whole := by
  have near := isNear_div finite finiteOther (by omega)
  have parts : ∀ n : Nat, magnitude n (-53) * 2 ^ 53 = n * whole := fun n =>
    magnitude_neg_mul (k := 53) n (by decide)
  have scaled := units_mul_le finite finiteOther nonneg less
  have bound : (units x * whole).natAbs ≤ magnitude (2 ^ 53 - 1) (-53) * (units y).toNat := by
    refine Nat.le_of_mul_le_mul_right ?_ (Nat.two_pow_pos 53)
    calc (units x * whole).natAbs * 2 ^ 53 = (units x).natAbs * 2 ^ 53 * whole := by
          rw [Int.natAbs_mul, Int.natAbs_natCast, Nat.mul_right_comm]
      _ ≤ (2 ^ 53 - 1) * (units y).toNat * whole := Nat.mul_le_mul_right _ scaled
      _ = (2 ^ 53 - 1) * whole * (units y).toNat := Nat.mul_right_comm _ _ _
      _ = magnitude (2 ^ 53 - 1) (-53) * 2 ^ 53 * (units y).toNat := by rw [parts]
      _ = magnitude (2 ^ 53 - 1) (-53) * (units y).toNat * 2 ^ 53 := Nat.mul_right_comm _ _ _
  have below : magnitude (2 ^ 53 - 1) (-53) < whole := by
    refine Nat.lt_of_mul_lt_mul_right (a := 2 ^ 53) ?_
    rw [parts, Nat.mul_comm]
    exact Nat.mul_lt_mul_of_pos_left (by decide) whole_pos
  have most := near.le (by decide) (by decide) bound
  exact ⟨near.number, near.nonneg (Int.mul_nonneg nonneg (Int.natCast_nonneg _)),
    Int.lt_of_le_of_lt most (Int.ofNat_lt.mpr below)⟩

/-- What is not below zero and less than a finite number is finite. -/
theorem isFinite_of_lt (finite : y.isFinite = true) (nonneg : 0.0 ≤ x) (less : x < y) :
    x.isFinite = true := by
  obtain ⟨number, nonnegUnits⟩ := nonneg_iff.mp nonneg
  rw [lt_iff_units number (isNaN_of_isFinite finite)] at less
  have inside := units_lt_limit finite
  exact isFinite_of_units number (by omega)

/-- The quotient of what is not below zero by a larger number lies between zero and one. -/
theorem div_lt_one (finite : y.isFinite = true) (nonneg : 0.0 ≤ x) (less : x < y) :
    x.isFinite = true ∧ 0.0 ≤ x / y ∧ x / y < 1.0 := by
  have finiteFirst := isFinite_of_lt finite nonneg less
  obtain ⟨number, nonnegUnits⟩ := nonneg_iff.mp nonneg
  rw [lt_iff_units number (isNaN_of_isFinite finite)] at less
  obtain ⟨numberPart, nonnegPart, lessPart⟩ := units_div_lt finiteFirst finite nonnegUnits less
  refine ⟨finiteFirst, nonneg_iff.mpr ⟨numberPart, nonnegPart⟩, ?_⟩
  rwa [lt_iff_units numberPart (isNaN_of_isFinite isFinite_one), units_one]

/-- By a number that is larger than what is not below zero can be divided. -/
theorem divide_of_lt (nonneg : 0.0 ≤ x) (less : x < y) : Number.divide x y = .ok (x / y) := by
  obtain ⟨number, nonnegUnits⟩ := nonneg_iff.mp nonneg
  have numberOther := (isNaN_of_le (le_of_lt less)).2
  have positive : 0.0 < y := by
    rw [lt_iff_units isNaN_zero numberOther, units_zero]
    rw [lt_iff_units number numberOther] at less
    omega
  rw [Number.divide, if_neg (ne_zero_of_pos positive)]

/-- Dividing a number not below zero by one or more does not make it larger. -/
theorem units_div_le (finite : x.isFinite = true) (finiteOther : y.isFinite = true)
    (nonneg : 0 ≤ units x) (large : whole ≤ units y) :
    (x / y).isNaN = false ∧ 0 ≤ units (x / y) ∧ units (x / y) ≤ units x := by
  have some_units := whole_pos
  have rounding := isRoundingOf_div finite finiteOther (by omega)
  have dividend : (0 : ℚ) ≤ units x := by exact_mod_cast nonneg
  have divisor : (whole : ℚ) ≤ units y := by exact_mod_cast large
  have positive : (0 : ℚ) < units y := by exact_mod_cast (show 0 < units y by omega)
  exact ⟨rounding.number, rounding.nonneg (by positivity),
    rounding.mono (isRoundingOf_units finite)
      ((div_le_iff₀ positive).mpr (mul_le_mul_of_nonneg_left divisor dividend))⟩

/-- Dividing a number not below zero by one or more leaves it finite. -/
theorem isFinite_div (finite : x.isFinite = true) (finiteOther : y.isFinite = true)
    (nonneg : 0 ≤ units x) (large : whole ≤ units y) : (x / y).isFinite = true := by
  obtain ⟨number, above, below⟩ := units_div_le finite finiteOther nonneg large
  have inside := units_lt_limit finite
  exact isFinite_of_units number (by omega)

/-! ## Small numbers -/

/-- Whether a double is finite and no further from zero than a natural number. -/
def IsWithin (most : Nat) (x : Float) : Prop :=
  x.isFinite = true ∧ (units x).natAbs ≤ most * whole

variable {most more n : Nat}

/-- Numbers that are near a fraction of small units are small. -/
theorem isWithin_of_natAbs (few : most < 2 ^ 53) (number : x.isNaN = false)
    (bound : (units x).natAbs ≤ most * whole) : IsWithin most x := by
  have room := mul_whole_lt_limit few
  exact ⟨isFinite_of_units number (by omega), bound⟩

/-- A natural number is as small as any larger one. -/
theorem isWithin_ofNat (few : most < 2 ^ 53) (le : n ≤ most) : IsWithin most (Number.ofNat n) := by
  obtain ⟨finite, same⟩ := units_ofNat_of_bits (Nat.lt_of_le_of_lt le few)
  refine ⟨finite, ?_⟩
  rw [same, ← Int.natCast_mul, Int.natAbs_natCast]
  exact Nat.mul_le_mul_right _ le

/-- Whole numbers of few bits are neither rounded nor cut off. -/
theorem cut_whole {k : Int} (few : k.natAbs < 2 ^ 53) :
    max (-(limit : Int)) (min limit (nearestInt (k * whole))) = k * whole := by
  have room := mul_whole_lt_limit few
  obtain ⟨sign, same⟩ : ∃ sign : Sign, k = sign.apply (k.natAbs : Int) := by
    rcases Int.natAbs_eq k with positive | negative
    · exact ⟨.positive, positive⟩
    · exact ⟨.negative, negative⟩
  rw [same, ← apply_mul, nearestInt_apply, nearest_whole few]
  generalize k.natAbs * whole = m at room
  cases sign <;> simp only [Sign.apply] <;> omega

/-- Rounding keeps a bound that needs no rounding. -/
theorem natAbs_nearestInt_le {k : Int} {bound : Nat} (stored : nearest bound = bound)
    (le : k.natAbs ≤ bound) : (nearestInt k).natAbs ≤ bound := by
  cases k with
  | ofNat m =>
    change nearest m ≤ bound
    rw [← stored]
    exact nearest_mono le
  | negSucc m =>
    change (-(nearest (m + 1) : Int)).natAbs ≤ bound
    rw [Int.natAbs_neg, Int.natAbs_natCast, ← stored]
    exact nearest_mono le

/-- What lies between small numbers is small. -/
theorem isWithin_of_le (few : most < 2 ^ 53) {low high : Float} (least : IsWithin most low)
    (greatest : IsWithin most high) (above : low ≤ x) (below : x ≤ high) : IsWithin most x := by
  have numbers := isNaN_of_le above
  rw [le_iff_units numbers.1 numbers.2] at above
  rw [le_iff_units numbers.2 (isNaN_of_le below).2] at below
  have bound := least.2
  have boundOther := greatest.2
  exact isWithin_of_natAbs few numbers.2 (by omega)

/-- The product of small numbers is small. -/
theorem IsWithin.mul (few : most * more < 2 ^ 53) (small : IsWithin most x)
    (smallOther : IsWithin more y) : IsWithin (most * more) (x * y) := by
  have near := isNear_mul small.1 smallOther.1
  refine isWithin_of_natAbs few near.number ?_
  rw [← magnitude_zero]
  refine near.bounded few (by decide) ?_
  rw [magnitude_zero, Int.natAbs_mul]
  calc (units x).natAbs * (units y).natAbs ≤ most * whole * (more * whole) :=
        Nat.mul_le_mul small.2 smallOther.2
    _ = most * more * whole * whole := by ring

/-- The opposite of a small number is small. -/
theorem IsWithin.neg (few : most < 2 ^ 53) (small : IsWithin most x) : IsWithin most (-x) := by
  obtain ⟨number, same⟩ := units_neg (isNaN_of_isFinite small.1)
  refine isWithin_of_natAbs few number ?_
  rw [same, Int.natAbs_neg]
  exact small.2

/-! ## Numbers up to a bound -/

/-- Whether a number lies between zero and a bound. -/
structure LiesUpTo (bound x : Float) : Prop where
  /-- It is a number. -/
  number : x.isNaN = false
  /-- It is not below zero. -/
  nonneg : 0 ≤ units x
  /-- It is not above the bound. -/
  below : units x ≤ units bound

namespace LiesUpTo

variable {bound : Float}

/-- A number up to a finite bound is finite. -/
theorem isFinite (finite : bound.isFinite = true) (lies : LiesUpTo bound x) :
    x.isFinite = true := by
  obtain ⟨number, nonneg, below⟩ := lies
  have inside := units_lt_limit finite
  exact isFinite_of_units number (by omega)

/-- The half of a number up to a finite bound. -/
theorem half (finite : bound.isFinite = true) (lies : LiesUpTo bound x) :
    LiesUpTo bound (x / 2.0) := by
  have two : units 2.0 = (2 * whole : Nat) := by
    have parts : units 2.0 = magnitude (2 * 2 ^ 51) (-(51 : Nat)) := by rfl
    rw [parts, magnitude_parts 2 (by decide)]
  obtain ⟨number, nonneg, less⟩ := units_div_le (lies.isFinite finite)
    (show (2.0 : Float).isFinite = true by rfl) lies.nonneg (by omega)
  exact ⟨number, nonneg, less.trans lies.below⟩

/-- Two numbers up to a finite bound are no further apart than the bound. -/
theorem units_sub_le (finite : bound.isFinite = true) (lies : LiesUpTo bound x)
    (liesOther : LiesUpTo bound y) :
    (x - y).isNaN = false ∧ (units (x - y)).natAbs ≤ (units bound).natAbs := by
  obtain ⟨number, same⟩ := units_sub (lies.isFinite finite) (liesOther.isFinite finite)
  have stored : nearest (units bound).natAbs = (units bound).natAbs := by
    rw [← natAbs_nearestInt, nearestInt_units finite]
  have near := natAbs_nearestInt_le stored (k := units x - units y) (by
    have := lies.nonneg
    have := lies.below
    have := liesOther.nonneg
    have := liesOther.below
    omega)
  refine ⟨number, ?_⟩
  rw [same]
  generalize nearestInt (units x - units y) = k at near
  omega

/-- The difference of two numbers up to a finite bound is finite. -/
theorem isFinite_sub (finite : bound.isFinite = true) (lies : LiesUpTo bound x)
    (liesOther : LiesUpTo bound y) : (x - y).isFinite = true := by
  obtain ⟨number, near⟩ := lies.units_sub_le finite liesOther
  have inside := units_lt_limit finite
  exact isFinite_of_units number (by omega)

/-- The distance of two numbers up to a finite bound. -/
theorem magnitude_sub (finite : bound.isFinite = true) (lies : LiesUpTo bound x)
    (liesOther : LiesUpTo bound y) : LiesUpTo bound (Number.magnitude (x - y)) := by
  obtain ⟨number, near⟩ := lies.units_sub_le finite liesOther
  have room := lies.nonneg.trans lies.below
  unfold Number.magnitude
  split
  · rename_i negative
    obtain ⟨numberToo, same⟩ := units_neg number
    change x - y < 0.0 at negative
    rw [lt_iff_units number isNaN_zero, units_zero] at negative
    exact ⟨numberToo, by omega, by omega⟩
  · rename_i nonneg
    change ¬ x - y < 0.0 at nonneg
    rw [lt_iff_units number isNaN_zero, units_zero] at nonneg
    exact ⟨number, by omega, by omega⟩

end LiesUpTo

/-- A natural number lies up to any larger one. -/
theorem liesUpTo_ofNat {m n : Nat} (le : m ≤ n) :
    LiesUpTo (Number.ofNat n) (Number.ofNat m) := by
  obtain ⟨number, same⟩ := units_ofNat m
  have near := nearest_mono (Nat.mul_le_mul_right whole le)
  refine ⟨number, ?_, ?_⟩
  · rw [same]
    omega
  · rw [same, (units_ofNat n).2]
    omega

/-! ## Infinities -/

/-- A finite number added to an infinity leaves it as it is. -/
theorem units_infinite_add (number : x.isNaN = false) (infinite : x.isFinite = false)
    (finite : y.isFinite = true) : (x + y).isNaN = false ∧ units (x + y) = units x := by
  have defined : (x + y).isNaN = false := by
    rw [add_comm]
    exact isNaN_add finite number
  exact ⟨defined, (units_add_of_infinite defined infinite).2⟩

/-- An infinity taken away from a finite number leaves the opposite one. -/
theorem units_sub_infinite (finite : x.isFinite = true) (number : y.isNaN = false)
    (infinite : y.isFinite = false) : (x - y).isNaN = false ∧ units (x - y) = -units y := by
  obtain ⟨sign, same⟩ := exists_eq_infinity number infinite
  have packed := unpack_toModel_sub x y
  rw [same, sub_eq_add_neg, UnpackedFloat.neg, add_infinity_of_isFinite finite] at packed
  obtain ⟨defined, _, turned⟩ := unpack_of_infinity packed
  refine ⟨defined, ?_⟩
  rw [turned, apply_neg, units, same, unitsOf]

end Storyboard.Binary64
