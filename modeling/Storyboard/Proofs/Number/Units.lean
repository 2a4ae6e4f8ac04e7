import Mathlib
import Storyboard.Proofs.Number.Rounding
/-!
# Doubles as whole numbers

Every finite double is a whole multiple of the least positive one. Counted in that unit doubles are
integers, an infinity being one unit step beyond the largest finite ones, and the comparisons of
doubles are those of integers.

Main statements: packing and unpacking again keeps a double that is not too large and makes it
infinite else (`unpack_pack`); doubles are ordered as their units (`lt_iff_units`, `le_iff_units`).
-/
namespace Storyboard.Binary64

open Float.Model (Format UnpackedFloat)
open Float.Model.UnpackedFloat

/-! ## Significand and exponent -/

/-- The units of a significand with its exponent. -/
def magnitude (m : Nat) (e : Int) : Nat := m * 2 ^ (e + 1074).toNat

/-- Whether a significand with its exponent is in the form that rounding gives: it has fifty-three
bits at most, and as many above the least exponent. -/
structure Canonical (m : Nat) (e : Int) : Prop where
  /-- There are not too many bits. -/
  bits : m < 2 ^ 53
  /-- No bit stands below the unit. -/
  least : -1074 ≤ e
  /-- There are enough bits. -/
  full : -1074 < e → 2 ^ 52 ≤ m

/-- A larger exponent makes a larger number. -/
theorem Canonical.magnitude_lt {m n : Nat} {e f : Int} (small : Canonical m e)
    (large : Canonical n f) (less : e < f) : magnitude m e < magnitude n f := by
  have least := small.least
  have twice : 2 ^ (e + 1074).toNat * 2 ≤ 2 ^ (f + 1074).toNat := by
    rw [← Nat.pow_succ]
    exact Nat.pow_le_pow_right (by omega) (by omega)
  have positive := Nat.two_pow_pos (e + 1074).toNat
  calc m * 2 ^ (e + 1074).toNat
      < 2 ^ 53 * 2 ^ (e + 1074).toNat := Nat.mul_lt_mul_of_pos_right small.bits positive
    _ = 2 ^ 52 * (2 ^ (e + 1074).toNat * 2) := by omega
    _ ≤ n * 2 ^ (f + 1074).toNat := Nat.mul_le_mul (large.full (by omega)) twice

/-- Numbers are ordered by their exponents, and with equal exponents by their significands. -/
theorem Canonical.compare_magnitude {m n : Nat} {e f : Int} (first : Canonical m e)
    (second : Canonical n f) :
    compare (magnitude m e : Int) (magnitude n f) = (compare e f).then (compare m n) := by
  rcases lt_trichotomy e f with less | rfl | more
  · rw [compare_lt_iff_lt.mpr less, Ordering.lt_then, compare_lt_iff_lt]
    exact Int.ofNat_lt.mpr (first.magnitude_lt second less)
  · rw [compare_eq_iff_eq.mpr rfl, Ordering.eq_then]
    have positive := Nat.two_pow_pos (e + 1074).toNat
    rcases lt_trichotomy m n with less | rfl | more
    · rw [compare_lt_iff_lt.mpr less, compare_lt_iff_lt]
      exact Int.ofNat_lt.mpr (Nat.mul_lt_mul_of_pos_right less positive)
    · rw [compare_eq_iff_eq.mpr rfl, compare_eq_iff_eq.mpr rfl]
    · rw [compare_gt_iff_gt.mpr more, compare_gt_iff_gt]
      exact Int.ofNat_lt.mpr (Nat.mul_lt_mul_of_pos_right more positive)
  · rw [compare_gt_iff_gt.mpr more, Ordering.gt_then, compare_gt_iff_gt]
    exact Int.ofNat_lt.mpr (second.magnitude_lt first more)

/-- The units that an infinity counts as: those of the least number whose exponent is too large to
be stored. -/
def limit : Nat := magnitude (2 ^ 52) 972

/-- The limit is in canonical form. -/
theorem canonical_limit : Canonical (2 ^ 52) 972 := ⟨by decide, by decide, fun _ => Nat.le_refl _⟩

/-- The limit is not zero. -/
theorem limit_pos : 0 < limit := Nat.mul_pos (by decide) (Nat.two_pow_pos _)

/-- What can be stored lies below the limit. -/
theorem Canonical.magnitude_lt_limit {m : Nat} {e : Int} (canonical : Canonical m e)
    (storable : e ≤ 971) : magnitude m e < limit :=
  canonical.magnitude_lt canonical_limit (by omega)

/-- What cannot be stored does not. -/
theorem Canonical.limit_le_magnitude {m : Nat} {e : Int} (canonical : Canonical m e)
    (large : ¬ e ≤ 971) : limit ≤ magnitude m e :=
  Nat.mul_le_mul (canonical.full (by omega)) (Nat.pow_le_pow_right (by omega) (by omega))

/-! ## Unpacked doubles -/

/-- The units of an unpacked double. What is no number has none. -/
def unitsOf : UnpackedFloat → Int
  | .notANumber => 0
  | .infinity sign => sign.apply limit
  | .zero _ => 0
  | .finite sign m e _ => sign.apply (magnitude m e)

/-- Whether an unpacked double is in the form that rounding gives. -/
def IsRounded : UnpackedFloat → Prop
  | .finite _ m e _ => Canonical m e
  | _ => True

/-- Whether an unpacked double is in the form that unpacking gives. -/
def IsStored : UnpackedFloat → Prop
  | .finite _ m e _ => Canonical m e ∧ e ≤ 971
  | _ => True

/-- An unpacked double that is infinite if its exponent is too large to be stored. -/
def capped : UnpackedFloat → UnpackedFloat
  | .finite sign m e positive => if e ≤ 971 then .finite sign m e positive else .infinity sign
  | other => other

/-- A positive significand makes a positive number. -/
theorem magnitude_pos {m : Nat} (positive : 0 < m) (e : Int) : 0 < magnitude m e :=
  Nat.mul_pos positive (Nat.two_pow_pos _)

/-- Below zero integers are compared the other way round. -/
theorem compare_neg (a b : Int) : compare (-a) (-b) = (compare a b).swap := by
  rcases lt_trichotomy a b with less | rfl | more
  · rw [compare_lt_iff_lt.mpr less, Ordering.swap_lt, compare_gt_iff_gt]
    exact Int.neg_lt_neg less
  · rw [compare_eq_iff_eq.mpr rfl, compare_eq_iff_eq.mpr rfl, Ordering.swap_eq]
  · rw [compare_gt_iff_gt.mpr more, Ordering.swap_gt, compare_lt_iff_lt]
    exact Int.neg_lt_neg more

/-- Whether unpacked doubles are compared as their units are. -/
def ComparesByUnits (u v : UnpackedFloat) : Prop :=
  u.compare v = some (compare (unitsOf u) (unitsOf v))

namespace ComparesByUnits

variable {u v : UnpackedFloat}

/-- What is compared as less has fewer units. -/
theorem of_lt (same : u.compare v = some .lt) (less : unitsOf u < unitsOf v) :
    ComparesByUnits u v := by
  rw [ComparesByUnits, same, compare_lt_iff_lt.mpr less]

/-- What is compared as more has more units. -/
theorem of_gt (same : u.compare v = some .gt) (more : unitsOf v < unitsOf u) :
    ComparesByUnits u v := by
  rw [ComparesByUnits, same, compare_gt_iff_gt.mpr more]

/-- What is compared as equal has as many units. -/
theorem of_eq (same : u.compare v = some .eq) (equal : unitsOf u = unitsOf v) :
    ComparesByUnits u v := by
  rw [ComparesByUnits, same, compare_eq_iff_eq.mpr equal]

/-- An infinity is beyond all that is stored. -/
theorem infinity (s : Sign) (stored : IsStored v) (number : v.isNaN = false) :
    ComparesByUnits (.infinity s) v := by
  have positive := limit_pos
  cases v with
  | notANumber => cases number
  | infinity t =>
    cases s <;> cases t
    · exact of_eq rfl rfl
    · exact of_lt rfl (by simp only [unitsOf, Sign.apply]; omega)
    · exact of_gt rfl (by simp only [unitsOf, Sign.apply]; omega)
    · exact of_eq rfl rfl
  | zero t =>
    cases s
    · exact of_lt rfl (by simp only [unitsOf, Sign.apply]; omega)
    · exact of_gt rfl (by simp only [unitsOf, Sign.apply]; omega)
  | finite t n f fpos =>
    have small := stored.1.magnitude_lt_limit stored.2
    cases s
    · exact of_lt rfl (by cases t <;> simp only [unitsOf, Sign.apply] <;> omega)
    · exact of_gt rfl (by cases t <;> simp only [unitsOf, Sign.apply] <;> omega)

/-- A zero lies between the signs. -/
theorem zero (s : Sign) (number : v.isNaN = false) : ComparesByUnits (.zero s) v := by
  have positive := limit_pos
  cases v with
  | notANumber => cases number
  | infinity t =>
    cases t
    · exact of_gt rfl (by simp only [unitsOf, Sign.apply]; omega)
    · exact of_lt rfl (by simp only [unitsOf, Sign.apply]; omega)
  | zero t => exact of_eq rfl rfl
  | finite t n f fpos =>
    have large := magnitude_pos fpos f
    cases t
    · exact of_gt rfl (by simp only [unitsOf, Sign.apply]; omega)
    · exact of_lt rfl (by simp only [unitsOf, Sign.apply]; omega)

/-- What is finite is compared by its sign first, and then by its significand and exponent. -/
theorem finite (s : Sign) {m : Nat} {e : Int} (epos : 0 < m)
    (storedFirst : IsStored (.finite s m e epos)) (stored : IsStored v) (number : v.isNaN = false) :
    ComparesByUnits (.finite s m e epos) v := by
  have positive := limit_pos
  have small := storedFirst.1.magnitude_lt_limit storedFirst.2
  have large := magnitude_pos epos e
  cases v with
  | notANumber => cases number
  | infinity t =>
    cases t
    · exact of_gt (by cases s <;> rfl) (by cases s <;> simp only [unitsOf, Sign.apply] <;> omega)
    · exact of_lt (by cases s <;> rfl) (by cases s <;> simp only [unitsOf, Sign.apply] <;> omega)
  | zero t =>
    cases s
    · exact of_lt rfl (by simp only [unitsOf, Sign.apply]; omega)
    · exact of_gt rfl (by simp only [unitsOf, Sign.apply]; omega)
  | finite t n f fpos =>
    have largeOther := magnitude_pos fpos f
    have same := storedFirst.1.compare_magnitude stored.1
    cases s <;> cases t
    · exact congrArg some ((congrArg Ordering.swap same).symm.trans (compare_neg _ _).symm)
    · exact of_lt rfl (by simp only [unitsOf, Sign.apply]; omega)
    · exact of_gt rfl (by simp only [unitsOf, Sign.apply]; omega)
    · exact congrArg some same.symm

end ComparesByUnits

/-- Doubles are compared as their units are. -/
theorem compare_eq_units {u v : UnpackedFloat} (stored : IsStored u) (storedOther : IsStored v)
    (number : u.isNaN = false) (numberOther : v.isNaN = false) :
    u.compare v = some (compare (unitsOf u) (unitsOf v)) := by
  cases u with
  | notANumber => cases number
  | infinity s => exact ComparesByUnits.infinity s storedOther numberOther
  | zero s => exact ComparesByUnits.zero s numberOther
  | finite s m e epos => exact ComparesByUnits.finite s epos stored storedOther numberOther

/-! ## Packing -/

/-- The implicit bit adds the power of two that it stands for. -/
theorem toNat_implicit {w : Nat} (v : BitVec w) : (1#1 ++ v).toNat = 2 ^ w + v.toNat := by
  have high : (1#1).toNat <<< w = 2 ^ w := Nat.one_shiftLeft w
  have disjoint := Nat.two_pow_add_eq_or_of_lt v.isLt 1
  rw [Nat.mul_one] at disjoint
  rw [BitVec.toNat_append, high, disjoint]

/-- What is unpacked is in canonical form, with an exponent that can be stored. -/
theorem isStored_unpack (b : BitVec Format.binary64.numBits) : IsStored (unpack .binary64 b) := by
  have few : (unpackMantissa b).toNat < 2 ^ 52 := (unpackMantissa b).isLt
  have small : (unpackExponent b).toNat < 2 ^ 11 := (unpackExponent b).isLt
  have bias : (Format.binary64.exponentBias : Int) = 1023 := rfl
  rw [unpack]
  split
  · split <;> trivial
  · rename_i finite
    have notLast : (unpackExponent b).toNat ≠ 2 ^ 11 - 1 := fun last =>
      finite (BitVec.eq_of_toNat_eq (by rw [last]; rfl))
    split
    · rename_i zero
      have first : (unpackExponent b).toNat = 0 := congrArg BitVec.toNat zero
      split
      · trivial
      · refine ⟨⟨?_, ?_, ?_⟩, ?_⟩ <;> simp only [first, bias] <;> omega
    · rename_i normal
      have notFirst : (unpackExponent b).toNat ≠ 0 := fun zero =>
        normal (BitVec.eq_of_toNat_eq zero)
      refine ⟨⟨?_, ?_, fun _ => ?_⟩, ?_⟩ <;> simp only [toNat_implicit, bias] <;> omega

/-- A number of all bits is unpacked as it was packed, the first bit being implicit. -/
theorem unpack_normal (sign : Sign) {m : Nat} {e : Int} (full : 2 ^ 52 ≤ m) (bits : m < 2 ^ 53)
    (least : -1074 ≤ e) (storable : e ≤ 971) :
    unpack .binary64 (packComponents .binary64 sign (BitVec.ofNat 11 (e + 1023 + 52).toNat)
      (BitVec.ofNat 52 m)) = .finite sign m e (by omega) := by
  have biased : (BitVec.ofNat 11 (e + 1023 + 52).toNat).toNat = (e + 1023 + 52).toNat := by
    rw [BitVec.toNat_ofNat]
    omega
  have notLast : BitVec.ofNat 11 (e + 1023 + 52).toNat ≠ -1#11 := by
    intro last
    have same := congrArg BitVec.toNat last
    rw [biased, show (-1#11 : BitVec 11).toNat = 2047 from rfl] at same
    omega
  have notFirst : BitVec.ofNat 11 (e + 1023 + 52).toNat ≠ 0#11 := by
    intro first
    have same := congrArg BitVec.toNat first
    rw [biased, show (0#11 : BitVec 11).toNat = 0 from rfl] at same
    omega
  have whole : (1#1 ++ BitVec.ofNat 52 m).toNat = m := by
    rw [toNat_implicit, BitVec.toNat_ofNat]
    omega
  have exponent : ((e + 1023 + 52).toNat : Int) - (1023 + 52) = e := by omega
  rw [unpack]
  simp only [unpackMantissa_packComponents, unpackExponent_packComponents,
    unpackSign_packComponents, Sign.ofBitVec_toBitVec]
  rw [if_neg notLast, if_neg notFirst]
  simp only [whole, biased]
  congr 1

/-- A number of fewer bits is unpacked as it was packed. -/
theorem unpack_subnormal (sign : Sign) {m : Nat} (positive : 0 < m) (few : m < 2 ^ 52) :
    unpack .binary64 (packComponents .binary64 sign 0#11 (BitVec.ofNat 52 m)) =
      .finite sign m (-1074) positive := by
  have whole : (BitVec.ofNat 52 m).toNat = m := by
    rw [BitVec.toNat_ofNat]
    omega
  have nonzero : BitVec.ofNat 52 m ≠ 0#52 := by
    intro zero
    have same := congrArg BitVec.toNat zero
    rw [whole, show (0#52 : BitVec 52).toNat = 0 from rfl] at same
    omega
  rw [unpack]
  simp only [unpackMantissa_packComponents, unpackExponent_packComponents,
    unpackSign_packComponents, Sign.ofBitVec_toBitVec]
  rw [if_neg (by decide), if_pos trivial, dif_neg nonzero]
  simp only [whole]
  rfl

/-- Packing keeps what can be stored, and makes infinite what is too large. -/
theorem unpack_pack {u : UnpackedFloat} (rounded : IsRounded u) :
    unpack .binary64 (pack .binary64 u) = capped u := by
  cases u with
  | notANumber => rfl
  | infinity sign => cases sign <;> rfl
  | zero sign => cases sign <;> rfl
  | finite sign m e positive =>
    have least := rounded.least
    change unpack .binary64 (if 2 ^ 11 ≤ (e + 1023 + 52).toNat + 1 then packedInfinity _ sign
      else if m.log2 + 1 = 53 then
        packComponents _ sign (BitVec.ofNat 11 (e + 1023 + 52).toNat) (BitVec.ofNat 52 m)
      else packComponents _ sign 0#11 (BitVec.ofNat 52 m)) = capped (.finite sign m e positive)
    rw [capped]
    by_cases storable : e ≤ 971
    · rw [if_neg (by omega), if_pos storable]
      by_cases full : 2 ^ 52 ≤ m
      · have bits : m.log2 = 52 := (Nat.log2_eq_iff positive.ne').mpr ⟨full, rounded.bits⟩
        rw [if_pos (by omega), unpack_normal sign full rounded.bits least storable]
      · have bits : m.log2 < 52 := (Nat.log2_lt positive.ne').mpr (by omega)
        have lowest : e = -1074 := by
          have := rounded.full
          omega
        subst lowest
        rw [if_neg (by omega), unpack_subnormal sign positive (by omega)]
    · rw [if_pos (by omega), if_neg storable]
      cases sign <;> rfl

/-- The units of what is rounded and then stored lie between both limits. -/
theorem unitsOf_capped {u : UnpackedFloat} (rounded : IsRounded u) :
    unitsOf (capped u) = max (-(limit : Int)) (min limit (unitsOf u)) := by
  have positive := limit_pos
  cases u with
  | notANumber | zero _ =>
    simp only [capped, unitsOf]
    omega
  | infinity sign =>
    cases sign <;> simp only [capped, unitsOf, Sign.apply] <;> omega
  | finite sign m e large =>
    have above := magnitude_pos large e
    rw [capped]
    split
    · rename_i storable
      have below := rounded.magnitude_lt_limit storable
      cases sign <;> simp only [unitsOf, Sign.apply] <;> omega
    · rename_i beyond
      have most := rounded.limit_le_magnitude beyond
      cases sign <;> simp only [unitsOf, Sign.apply] <;> omega

/-- Becoming infinite is no loss of a number. -/
theorem isNaN_capped (u : UnpackedFloat) : (capped u).isNaN = u.isNaN := by
  cases u with
  | notANumber | infinity _ | zero _ => rfl
  | finite sign m e positive =>
    rw [capped]
    split <;> rfl

/-! ## Doubles -/

/-- A double is stored. -/
theorem isStored_toModel (x : Float) : IsStored x.toModel.unpack := isStored_unpack _

/-- The units of a double. -/
def units (x : Float) : Int := unitsOf x.toModel.unpack

/-- Doubles that are numbers are compared as their units are. -/
theorem compare_toModel {x y : Float} (number : x.isNaN = false) (numberOther : y.isNaN = false) :
    x.toModel.unpack.compare y.toModel.unpack = some (compare (units x) (units y)) :=
  compare_eq_units (isStored_toModel x) (isStored_toModel y) number numberOther

/-- One double is less than another exactly if it has fewer units. -/
theorem lt_iff_units {x y : Float} (number : x.isNaN = false) (numberOther : y.isNaN = false) :
    x < y ↔ units x < units y := by
  have same : x < y ↔ x.toModel.unpack.lt y.toModel.unpack = true := decide_eq_true_iff
  rw [same, UnpackedFloat.lt, compare_toModel number numberOther, beq_iff_eq, Option.some_inj,
    compare_lt_iff_lt]

/-- One double is at most another exactly if it has no more units. -/
theorem le_iff_units {x y : Float} (number : x.isNaN = false) (numberOther : y.isNaN = false) :
    x ≤ y ↔ units x ≤ units y := by
  have same : x ≤ y ↔ x.toModel.unpack.le y.toModel.unpack = true := decide_eq_true_iff
  rw [same, UnpackedFloat.le, compare_toModel number numberOther, Option.any_some,
    Std.isLE_compare]

/-- Doubles that are numbers are equal exactly if they have as many units. -/
theorem beq_iff_units {x y : Float} (number : x.isNaN = false) (numberOther : y.isNaN = false) :
    (x == y) = true ↔ units x = units y := by
  change (x.toModel.unpack.compare y.toModel.unpack == some .eq) = true ↔ _
  rw [compare_toModel number numberOther, beq_iff_eq, Option.some_inj, compare_eq_iff_eq]

/-- Of two numbers one is at most the other, unless it is larger. -/
theorem le_of_not_lt {x y : Float} (number : x.isNaN = false) (numberOther : y.isNaN = false)
    (notLess : ¬ y < x) : x ≤ y := by
  rw [lt_iff_units numberOther number] at notLess
  rw [le_iff_units number numberOther]
  omega

/-- Of two numbers the first is less than the second, or not less than it. -/
theorem lt_of_not_le {x y : Float} (number : x.isNaN = false) (numberOther : y.isNaN = false)
    (notLe : ¬ y ≤ x) : x < y := by
  rw [le_iff_units numberOther number] at notLe
  rw [lt_iff_units number numberOther]
  omega

/-- A number is not larger than one that it is at most. -/
theorem not_lt_of_le {x y : Float} (number : x.isNaN = false) (numberOther : y.isNaN = false)
    (le : x ≤ y) : ¬ y < x := by
  rw [le_iff_units number numberOther] at le
  rw [lt_iff_units numberOther number]
  omega

/-- A number is at most itself. -/
theorem le_refl {x : Float} (number : x.isNaN = false) : x ≤ x :=
  (le_iff_units number number).mpr (Int.le_refl _)

/-- What is at most another number is at most all that this one is at most. -/
theorem le_trans {x y z : Float} (number : x.isNaN = false) (middle : y.isNaN = false)
    (numberOther : z.isNaN = false) (first : x ≤ y) (second : y ≤ z) : x ≤ z := by
  rw [le_iff_units number middle] at first
  rw [le_iff_units middle numberOther] at second
  rw [le_iff_units number numberOther]
  omega

/-- Of two doubles of which one is at most the other both are numbers. -/
theorem isNaN_of_le {x y : Float} (le : x ≤ y) : x.isNaN = false ∧ y.isNaN = false := by
  have same : x ≤ y ↔ x.toModel.unpack.le y.toModel.unpack = true := decide_eq_true_iff
  have compared := same.mp le
  change x.toModel.unpack.isNaN = false ∧ y.toModel.unpack.isNaN = false
  cases first : x.toModel.unpack with
  | notANumber =>
    rw [first] at compared
    cases compared
  | infinity _ | zero _ | finite _ _ _ _ =>
    refine ⟨rfl, ?_⟩
    cases second : y.toModel.unpack with
    | notANumber =>
      rw [first, second] at compared
      cases compared
    | infinity _ | zero _ | finite _ _ _ _ => rfl

/-- What is less is not at least as large. -/
theorem not_le_of_lt {x y : Float} (less : x < y) : ¬ y ≤ x := fun le =>
  not_lt_of_le (isNaN_of_le le).1 (isNaN_of_le le).2 le less

/-- Comparisons of doubles chain. -/
instance transLe : Trans (α := Float) (· ≤ ·) (· ≤ ·) (· ≤ ·) where
  trans first second :=
    le_trans (isNaN_of_le first).1 (isNaN_of_le first).2 (isNaN_of_le second).2 first second

/-- What is less than another number is at most that number. -/
theorem le_of_lt {x y : Float} (less : x < y) : x ≤ y := by
  have same : x < y ↔ x.toModel.unpack.lt y.toModel.unpack = true := decide_eq_true_iff
  have weak : x ≤ y ↔ x.toModel.unpack.le y.toModel.unpack = true := decide_eq_true_iff
  rw [same, UnpackedFloat.lt, beq_iff_eq] at less
  rw [weak, UnpackedFloat.le, less]
  rfl

/-- Zero is finite. -/
theorem isFinite_zero : (0.0 : Float).isFinite = true := by rfl

/-- Zero is a number. -/
theorem isNaN_zero : (0.0 : Float).isNaN = false := by rfl

/-- Zero has no units. -/
theorem units_zero : units 0.0 = 0 := by rfl

/-- What is positive is not zero. -/
theorem ne_zero_of_pos {x : Float} (positive : 0.0 < x) : ¬ (x == 0.0) = true := by
  have number : x.isNaN = false := (isNaN_of_le (le_of_lt positive)).2
  rw [lt_iff_units isNaN_zero number] at positive
  rw [beq_iff_units number isNaN_zero]
  omega

/-- A double is not below zero exactly if it is a number without units below zero. -/
theorem nonneg_iff {x : Float} : 0.0 ≤ x ↔ x.isNaN = false ∧ 0 ≤ units x := by
  constructor
  · intro nonneg
    have number := (isNaN_of_le nonneg).2
    rw [le_iff_units isNaN_zero number, units_zero] at nonneg
    exact ⟨number, nonneg⟩
  · rintro ⟨number, nonneg⟩
    rwa [le_iff_units isNaN_zero number, units_zero]

/-- What is finite is a zero, or has a significand and an exponent in canonical form that can be
stored. -/
theorem unpack_of_isFinite {x : Float} (finite : x.isFinite = true) :
    (∃ sign, x.toModel.unpack = .zero sign ∧ units x = 0) ∨
      ∃ sign m e positive, x.toModel.unpack = .finite sign m e positive ∧ Canonical m e ∧
        e ≤ 971 ∧ units x = sign.apply (magnitude m e) := by
  have stored := isStored_toModel x
  change x.toModel.unpack.isFinite = true at finite
  rw [units]
  cases same : x.toModel.unpack with
  | notANumber | infinity _ =>
    rw [same] at finite
    cases finite
  | zero sign => exact .inl ⟨sign, rfl, rfl⟩
  | finite sign m e positive =>
    rw [same] at stored
    exact .inr ⟨sign, m, e, positive, rfl, stored.1, stored.2, rfl⟩

/-- What is finite lies between both limits. -/
theorem units_lt_limit {x : Float} (finite : x.isFinite = true) :
    -(limit : Int) < units x ∧ units x < limit := by
  have room := limit_pos
  rcases unpack_of_isFinite finite with
    ⟨_, _, none⟩ | ⟨sign, m, e, _, _, canonical, storable, same⟩
  · omega
  · have small := canonical.magnitude_lt_limit storable
    cases sign <;> simp only [Sign.apply] at same <;> omega

/-- A double that is packed from what is rounded has its units, cut off at the limits. -/
theorem units_of_rounded {x : Float} {u : UnpackedFloat} (rounded : IsRounded u)
    (number : u.isNaN = false) (packed : x.toModel.unpack = unpack .binary64 (pack .binary64 u)) :
    x.isNaN = false ∧ units x = max (-(limit : Int)) (min limit (unitsOf u)) := by
  rw [unpack_pack rounded] at packed
  constructor
  · change x.toModel.unpack.isNaN = false
    rw [packed, isNaN_capped]
    exact number
  · rw [units, packed, unitsOf_capped rounded]

/-- What is finite is a number. -/
theorem isNaN_of_isFinite {x : Float} (finite : x.isFinite = true) : x.isNaN = false := by
  change x.toModel.unpack.isFinite = true at finite
  change x.toModel.unpack.isNaN = false
  cases same : x.toModel.unpack with
  | notANumber =>
    rw [same] at finite
    cases finite
  | infinity _ | zero _ | finite _ _ _ _ => rfl

/-- What is neither finite nor undefined is an infinity. -/
theorem exists_eq_infinity {x : Float} (number : x.isNaN = false) (infinite : x.isFinite = false) :
    ∃ sign, x.toModel.unpack = .infinity sign := by
  change x.toModel.unpack.isNaN = false at number
  change x.toModel.unpack.isFinite = false at infinite
  cases same : x.toModel.unpack with
  | notANumber =>
    rw [same] at number
    cases number
  | infinity sign => exact ⟨sign, rfl⟩
  | zero _ | finite _ _ _ _ =>
    rw [same] at infinite
    cases infinite

/-- What is infinite lies at a limit. -/
theorem units_of_infinite {x : Float} (number : x.isNaN = false) (infinite : x.isFinite = false) :
    units x = limit ∨ units x = -limit := by
  obtain ⟨sign, same⟩ := exists_eq_infinity number infinite
  rw [units, same]
  cases sign with
  | negative => exact .inr rfl
  | positive => exact .inl rfl

/-- A double that is packed from an infinity is that infinity. -/
theorem unpack_of_infinity {x : Float} {sign : Sign}
    (packed : x.toModel.unpack = unpack .binary64 (pack .binary64 (.infinity sign))) :
    x.isNaN = false ∧ x.isFinite = false ∧ units x = sign.apply limit := by
  rw [unpack_pack (u := .infinity sign) trivial] at packed
  exact ⟨congrArg UnpackedFloat.isNaN packed, congrArg UnpackedFloat.isFinite packed,
    congrArg unitsOf packed⟩

/-- No number lies beyond the limits. -/
theorem units_le_limit {x : Float} (number : x.isNaN = false) :
    -(limit : Int) ≤ units x ∧ units x ≤ limit := by
  have positive := limit_pos
  cases finiteness : x.isFinite with
  | true =>
    have inside := units_lt_limit finiteness
    omega
  | false =>
    have top_or_bottom := units_of_infinite number finiteness
    omega

end Storyboard.Binary64
