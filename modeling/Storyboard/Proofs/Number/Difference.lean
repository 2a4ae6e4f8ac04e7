import Storyboard.Proofs.Number.Units
/-!
# Differences of doubles

Sums and differences of doubles are exact in units and then rounded once: to fifty-three bits, and
to an infinity from the limit on. Both roundings are monotone, and so is the difference.

Main statements: the units of a difference (`units_sub`); with a finite number taken away a larger
number is left of a larger one (`sub_le_sub`), no more than there was if that number is not below
zero (`sub_le_self`), and no less than another number if both fit (`le_sub_of_units_le`).
-/
namespace Storyboard.Binary64

open Float.Model (Format UnpackedFloat totalExponent)
open Float.Model.UnpackedFloat

/-! ## Rounding integers -/

/-- The nearest integer of fifty-three bits. -/
def nearestInt : Int → Int
  | .ofNat m => nearest m
  | .negSucc m => -(nearest (m + 1) : Int)

/-- The opposite sign gives the opposite integer. -/
theorem apply_neg (sign : Sign) (n : Int) : (-sign).apply n = -sign.apply n := by
  cases sign with
  | negative => exact (Int.neg_neg n).symm
  | positive => rfl

/-- A sign may be given to a product or to its first factor. -/
theorem apply_mul (sign : Sign) (m k : Nat) :
    sign.apply ((m * k : Nat) : Int) = sign.apply m * (k : Int) := by
  cases sign with
  | negative => exact (congrArg Neg.neg (Int.natCast_mul m k)).trans (Int.neg_mul _ _).symm
  | positive => exact Int.natCast_mul m k

/-- Rounding does not see the sign. -/
theorem nearestInt_apply (sign : Sign) (m : Nat) :
    nearestInt (sign.apply m) = sign.apply (nearest m) := by
  cases sign with
  | positive => rfl
  | negative => cases m <;> rfl

/-- The nearest integer is as far from zero as the nearest natural number. -/
theorem natAbs_nearestInt (n : Int) : (nearestInt n).natAbs = nearest n.natAbs := by
  cases n with
  | ofNat m => rfl
  | negSucc m => exact Int.natAbs_neg _

/-- A larger integer has no smaller nearest one. -/
theorem nearestInt_mono {a b : Int} (le : a ≤ b) : nearestInt a ≤ nearestInt b := by
  cases a with
  | ofNat m =>
    cases b with
    | ofNat n => exact Int.ofNat_le.mpr (nearest_mono (Int.ofNat_le.mp le))
    | negSucc n =>
      exact absurd (Int.le_trans (Int.natCast_nonneg m) le) (Int.negSucc_not_nonneg n).mp
  | negSucc m =>
    cases b with
    | ofNat n =>
      have below := Int.neg_nonpos_of_nonneg (Int.natCast_nonneg (nearest (m + 1)))
      exact Int.le_trans below (Int.natCast_nonneg (nearest n))
    | negSucc n =>
      have larger : n + 1 ≤ m + 1 := by omega
      exact Int.neg_le_neg (Int.ofNat_le.mpr (nearest_mono larger))

/-- What is stored is the nearest to itself. -/
theorem nearestInt_unitsOf {u : UnpackedFloat} (stored : IsStored u) (finite : u.isFinite = true) :
    nearestInt (unitsOf u) = unitsOf u := by
  cases u with
  | notANumber | infinity _ => cases finite
  | zero sign => rfl
  | finite sign m e positive =>
    rw [unitsOf, nearestInt_apply, magnitude, nearest_of_bits stored.1.bits]

/-! ## Rounding significands -/

/-- The exponent that a significand is rounded to. -/
theorem targetExponent_eq (m : Nat) (e : Int) :
    Format.binary64.targetExponent (totalExponent m e) = max (m.log2 + 1 + e - 53) (-1074) := rfl

/-- Rounding shifts twice, once to drop bits and once more where rounding up took one. -/
theorem roundWithAccuracy_of_shifts {sign : Sign} {m : Nat} {e f g : Int}
    {accuracy : Accuracy} {first second : ExtendedMantissa}
    (shifted : shiftToTargetExponent .binary64 m e accuracy = (first, f))
    (again : shiftToTargetExponent .binary64 first.roundedMantissa f .exact = (second, g))
    (many : 0 < second.mantissa) :
    roundWithAccuracy .binary64 sign m e accuracy = .finite sign second.mantissa g many := by
  simp only [roundWithAccuracy, shifted, again]
  exact dif_neg many.ne'

/-- A significand that rounding up took one bit too far loses its last zero; any other stays. -/
theorem shift_rounded {r : Nat} {f : Int} (positive : 0 < r) (most : r ≤ 2 ^ 53)
    (least : -1074 ≤ f) (full : -1074 < f → 2 ^ 52 ≤ r) :
    ∃ em g, shiftToTargetExponent .binary64 r f .exact = (em, g) ∧ 0 < em.mantissa ∧
      Canonical em.mantissa g ∧ magnitude em.mantissa g = magnitude r f := by
  rcases Nat.eq_or_lt_of_le most with rfl | few
  · have more : (max (((2 ^ 53 : Nat).log2 : Int) + 1 + f - 53) (-1074) - f).toNat = 1 := by
      rw [Nat.log2_two_pow]
      omega
    refine ⟨⟨2 ^ 52, false, false⟩, f + 1, ?_, by decide,
      ⟨by decide, by omega, fun _ => Nat.le_refl _⟩, ?_⟩
    · simp only [shiftToTargetExponent, shiftToExponent, targetExponent_eq, more]
      rfl
    · have double : 2 ^ (f + 1 + 1074).toNat = 2 ^ (f + 1074).toNat * 2 := by
        rw [← Nat.pow_succ]
        congr 1
        omega
      show 2 ^ 52 * 2 ^ (f + 1 + 1074).toNat = 2 ^ 53 * 2 ^ (f + 1074).toNat
      omega
  · have bits : r.log2 < 53 := (Nat.log2_lt positive.ne').mpr few
    have none_more : (max ((r.log2 : Int) + 1 + f - 53) (-1074) - f).toNat = 0 := by omega
    refine ⟨⟨r, false, false⟩, f, ?_, positive, ⟨few, least, full⟩, rfl⟩
    simp only [shiftToTargetExponent, shiftToExponent, targetExponent_eq, none_more]
    rw [Int.natCast_zero, Int.add_zero]
    rfl

/-- Rounding a significand whose exponent is not above its target: the units are the nearest. -/
theorem roundWithAccuracy_eq (sign : Sign) {m : Nat} {e : Int} (positive : 0 < m)
    (least : -1074 ≤ e) (below : e ≤ max (m.log2 + 1 + e - 53) (-1074)) :
    ∃ n f, ∃ many : 0 < n, roundWithAccuracy .binary64 sign m e .exact = .finite sign n f many ∧
      Canonical n f ∧ magnitude n f = nearest (magnitude m e) := by
  obtain ⟨shift, target⟩ := Int.eq_ofNat_of_zero_le (Int.sub_nonneg_of_le below)
  have first : shiftToTargetExponent .binary64 m e .exact = (exactly m >>> shift, e + shift) := by
    simp only [shiftToTargetExponent, shiftToExponent, targetExponent_eq, target,
      Int.toNat_natCast]
    rfl
  -- What is dropped are the bits that are too many in units.
  have dropped : excess (magnitude m e) = (e + 1074).toNat + shift := by
    rw [excess, magnitude, log2_mul_pow positive]
    omega
  have near : magnitude (kept shift m) (e + shift) = nearest (magnitude m e) := by
    rw [nearest, dropped, magnitude, magnitude, kept_mul]
    congr 2
    omega
  have most : kept shift m ≤ 2 ^ 53 := kept_excess_le (by
    unfold excess
    omega)
  have full : -1074 < e + shift → 2 ^ 52 ≤ kept shift m := fun above =>
    le_kept positive (by omega)
  have some_kept : 0 < kept shift m := by
    by_cases above : -1074 < e + shift
    · exact Nat.lt_of_lt_of_le (by decide) (full above)
    · have none_dropped : shift = 0 := by omega
      rwa [none_dropped, kept_zero]
  obtain ⟨em, g, second, many, canonical, same⟩ := shift_rounded some_kept most (by omega) full
  exact ⟨em.mantissa, g, many, roundWithAccuracy_of_shifts first second many, canonical,
    same.trans near⟩

/-- Rounding a significand: the units are the nearest. -/
theorem round_eq (sign : Sign) {m : Nat} {e : Int} (positive : 0 < m) (least : -1074 ≤ e) :
    ∃ n f, ∃ many : 0 < n, UnpackedFloat.round .binary64 sign m e = .finite sign n f many ∧
      Canonical n f ∧ magnitude n f = nearest (magnitude m e) := by
  -- First the exponent is lowered to its target, which changes no value.
  obtain ⟨zeros, lowered⟩ : ∃ zeros : Nat,
      (e - max ((m.log2 : Int) + 1 + e - 53) (-1074)).toNat = zeros := ⟨_, rfl⟩
  have log := log2_mul_pow positive zeros
  obtain ⟨n, f, many, rounded, canonical, near⟩ := roundWithAccuracy_eq sign
    (Nat.mul_pos positive (Nat.two_pow_pos zeros)) (e := e - zeros) (by omega) (by omega)
  refine ⟨n, f, many, ?_, canonical, ?_⟩
  · rw [← rounded, UnpackedFloat.round]
    simp only [decreaseExponent, targetExponent_eq, lowered, Nat.shiftLeft_eq]
  · rw [near, magnitude, magnitude, Nat.mul_assoc, ← Nat.pow_add]
    congr 3
    omega

/-- Rounding a significand with its sign: the units are the nearest. -/
theorem normalize_eq (n : Int) {e : Int} (least : -1074 ≤ e) (zeroSign : Sign) :
    IsRounded (UnpackedFloat.normalize .binary64 n e zeroSign) ∧
      (UnpackedFloat.normalize .binary64 n e zeroSign).isNaN = false ∧
      unitsOf (UnpackedFloat.normalize .binary64 n e zeroSign) =
        nearestInt (n * (2 ^ (e + 1074).toNat : Nat)) := by
  have signed : ∀ (sign : Sign) {m : Nat}, 0 < m → sign.apply m = n →
      IsRounded (UnpackedFloat.round .binary64 sign m e) ∧
        (UnpackedFloat.round .binary64 sign m e).isNaN = false ∧
        unitsOf (UnpackedFloat.round .binary64 sign m e) =
          nearestInt (n * (2 ^ (e + 1074).toNat : Nat)) := by
    intro sign m positive same
    obtain ⟨k, f, many, rounded, canonical, near⟩ := round_eq sign positive least
    rw [rounded, ← same, ← apply_mul, nearestInt_apply]
    exact ⟨canonical, rfl, by rw [unitsOf, near, magnitude]⟩
  rcases lt_trichotomy n 0 with negative | rfl | positive
  · rw [UnpackedFloat.normalize, compare_lt_iff_lt.mpr negative]
    exact signed .negative (by omega) (by simp only [Sign.apply]; omega)
  · rw [Int.zero_mul]
    exact ⟨trivial, rfl, rfl⟩
  · rw [UnpackedFloat.normalize, compare_gt_iff_gt.mpr positive]
    exact signed .positive (by omega) (by simp only [Sign.apply]; omega)

/-! ## Sums -/

/-- The units of the opposite. -/
theorem unitsOf_neg (u : UnpackedFloat) : unitsOf u.neg = -unitsOf u := by
  cases u with
  | notANumber | zero _ => rfl
  | infinity sign | finite sign _ _ _ => exact apply_neg sign _

/-- The sum of what is finite is exact in units and then rounded. -/
theorem add_eq {u v : UnpackedFloat} (stored : IsStored u) (storedOther : IsStored v)
    (finite : u.isFinite = true) (finiteOther : v.isFinite = true) :
    IsRounded (UnpackedFloat.add .binary64 u v) ∧
      (UnpackedFloat.add .binary64 u v).isNaN = false ∧
      unitsOf (UnpackedFloat.add .binary64 u v) = nearestInt (unitsOf u + unitsOf v) := by
  have same := nearestInt_unitsOf stored finite
  have sameOther := nearestInt_unitsOf storedOther finiteOther
  cases u with
  | notANumber | infinity _ => cases finite
  | zero sign =>
    cases v with
    | notANumber | infinity _ => cases finiteOther
    | zero other => cases sign <;> cases other <;> exact ⟨trivial, rfl, rfl⟩
    | finite other n f fpos =>
      rw [show unitsOf (.zero sign) = 0 from rfl, Int.zero_add, sameOther]
      exact ⟨storedOther.1, rfl, rfl⟩
  | finite sign m e positive =>
    cases v with
    | notANumber | infinity _ => cases finiteOther
    | zero other =>
      rw [show unitsOf (.zero other) = 0 from rfl, Int.add_zero, same]
      exact ⟨stored.1, rfl, rfl⟩
    | finite other n f positiveOther =>
      -- Both significands are shifted to the lower exponent, where their sum is exact.
      have least := stored.1.least
      have leastOther := storedOther.1.least
      have aligned : ∀ (sign : Sign) (m : Nat) {e : Int} {zeros more : Nat},
          zeros + more = (e + 1074).toNat →
          sign.apply ((m <<< zeros : Nat) : Int) * (2 ^ more : Nat) =
            sign.apply (magnitude m e) := by
        intro sign m e zeros more whole
        rw [← apply_mul, Nat.shiftLeft_eq, Nat.mul_assoc, ← Nat.pow_add, whole, magnitude]
      have whole := normalize_eq
        (sign.apply ((m <<< (e - min e f).toNat : Nat) : Int) +
          other.apply ((n <<< (f - min e f).toNat : Nat) : Int))
        (e := min e f) (by omega) .positive
      rw [Int.add_mul, aligned sign m (e := e) (by omega), aligned other n (e := f) (by omega)]
        at whole
      exact whole

/-! ## Infinities -/

/-- An infinity stays what it is if something finite is added. -/
theorem infinity_add_of_isFinite {u : UnpackedFloat} (finite : u.isFinite = true) {sign : Sign} :
    UnpackedFloat.add .binary64 (.infinity sign) u = .infinity sign := by
  cases u with
  | notANumber | infinity _ => cases finite
  | zero _ | finite _ _ _ _ => rfl

/-- Something finite with an infinity added is that infinity. -/
theorem add_infinity_of_isFinite {u : UnpackedFloat} (finite : u.isFinite = true) {sign : Sign} :
    UnpackedFloat.add .binary64 u (.infinity sign) = .infinity sign := by
  cases u with
  | notANumber | infinity _ => cases finite
  | zero _ | finite _ _ _ _ => rfl

/-! ## Differences -/

/-- A difference is the sum with the opposite. -/
theorem sub_eq_add_neg (u v : UnpackedFloat) :
    UnpackedFloat.sub .binary64 u v = UnpackedFloat.add .binary64 u v.neg := by
  cases u with
  | notANumber => rfl
  | infinity sign | zero sign => cases v <;> rfl
  | finite sign m e positive =>
    cases v with
    | notANumber | infinity _ | zero _ => rfl
    | finite other n f positiveOther =>
      simp only [UnpackedFloat.sub, UnpackedFloat.add, UnpackedFloat.neg, apply_neg,
        Int.sub_eq_add_neg]

/-- The opposite is stored as well. -/
theorem isStored_neg {u : UnpackedFloat} (stored : IsStored u) : IsStored u.neg := by
  cases u with
  | notANumber | infinity _ | zero _ => trivial
  | finite sign m e positive => exact stored

/-- The opposite of what is finite is finite. -/
theorem isFinite_neg (u : UnpackedFloat) : u.neg.isFinite = u.isFinite := by
  cases u <;> rfl

/-- A difference is packed and unpacked again. -/
theorem unpack_toModel_sub (x y : Float) :
    (x - y).toModel.unpack =
      unpack .binary64 (pack .binary64 (.sub .binary64 x.toModel.unpack y.toModel.unpack)) := rfl

variable {x y c : Float}

/-- The opposite is packed and unpacked again. -/
theorem unpack_toModel_neg (x : Float) :
    (-x).toModel.unpack = unpack .binary64 (pack .binary64 x.toModel.unpack.neg) := rfl

/-- The opposite of a number has the opposite units. -/
theorem units_neg (number : x.isNaN = false) : (-x).isNaN = false ∧ units (-x) = -units x := by
  have stored := isStored_neg (isStored_toModel x)
  have rounded : IsRounded x.toModel.unpack.neg := by
    cases same : x.toModel.unpack.neg with
    | notANumber | infinity _ | zero _ => trivial
    | finite sign m e positive =>
      rw [same] at stored
      exact stored.1
  have defined : x.toModel.unpack.neg.isNaN = false := by
    change x.toModel.unpack.isNaN = false at number
    cases same : x.toModel.unpack with
    | notANumber =>
      rw [same] at number
      cases number
    | infinity _ | zero _ | finite _ _ _ _ => rfl
  obtain ⟨numberCut, cut⟩ := units_of_rounded rounded defined (unpack_toModel_neg x)
  have inside := units_le_limit number
  refine ⟨numberCut, ?_⟩
  rw [cut, unitsOf_neg]
  change max (-(limit : Int)) (min limit (-units x)) = -units x
  omega

/-- The units of what is finite are rounded already. -/
theorem nearestInt_units (finite : x.isFinite = true) : nearestInt (units x) = units x :=
  nearestInt_unitsOf (isStored_toModel x) finite

/-- The difference of what is finite is exact in units, then rounded, and cut off at the limits. -/
theorem units_sub (finite : x.isFinite = true) (finiteOther : y.isFinite = true) :
    (x - y).isNaN = false ∧
      units (x - y) = max (-(limit : Int)) (min limit (nearestInt (units x - units y))) := by
  obtain ⟨rounded, number, exact_units⟩ := add_eq (isStored_toModel x)
    (isStored_neg (isStored_toModel y)) finite ((isFinite_neg _).trans finiteOther)
  rw [← sub_eq_add_neg] at rounded number exact_units
  rw [unitsOf_neg, ← Int.sub_eq_add_neg] at exact_units
  have cut := units_of_rounded rounded number (unpack_toModel_sub x y)
  rwa [exact_units] at cut

/-- What is infinite stays so, whatever finite number is taken away. -/
theorem units_sub_of_infinite (number : x.isNaN = false) (infinite : x.isFinite = false)
    (finite : c.isFinite = true) : (x - c).isNaN = false ∧ units (x - c) = units x := by
  obtain ⟨sign, same⟩ := exists_eq_infinity number infinite
  have packed := unpack_toModel_sub x c
  rw [same, sub_eq_add_neg, infinity_add_of_isFinite ((isFinite_neg _).trans finite)] at packed
  obtain ⟨defined, _, kept⟩ := unpack_of_infinity packed
  refine ⟨defined, ?_⟩
  rw [kept, units, same, unitsOf]

/-- With a finite number taken away a number is a number. -/
theorem isNaN_sub (number : x.isNaN = false) (finite : c.isFinite = true) :
    (x - c).isNaN = false := by
  cases finiteness : x.isFinite with
  | true => exact (units_sub finiteness finite).1
  | false => exact (units_sub_of_infinite number finiteness finite).1

/-- With a finite number taken away no less is left of what is larger. -/
theorem sub_le_sub (number : x.isNaN = false) (numberOther : y.isNaN = false)
    (finite : c.isFinite = true) (le : x ≤ y) : x - c ≤ y - c := by
  rw [le_iff_units (isNaN_sub number finite) (isNaN_sub numberOther finite)]
  rw [le_iff_units number numberOther] at le
  have inside := units_le_limit (isNaN_sub number finite)
  have insideOther := units_le_limit (isNaN_sub numberOther finite)
  cases finiteness : x.isFinite <;> cases finitenessOther : y.isFinite
  · rwa [(units_sub_of_infinite number finiteness finite).2,
      (units_sub_of_infinite numberOther finitenessOther finite).2]
  · have below := units_lt_limit finitenessOther
    rw [(units_sub_of_infinite number finiteness finite).2] at inside ⊢
    have := units_of_infinite number finiteness
    omega
  · have above := units_lt_limit finiteness
    rw [(units_sub_of_infinite numberOther finitenessOther finite).2] at insideOther ⊢
    have := units_of_infinite numberOther finitenessOther
    omega
  · have near := nearestInt_mono (Int.sub_le_sub_right le (units c))
    rw [(units_sub finiteness finite).2, (units_sub finitenessOther finite).2]
    omega

/-- With a finite number not below zero taken away no more is left. -/
theorem sub_le_self (number : x.isNaN = false) (finite : c.isFinite = true) (nonneg : 0.0 ≤ c) :
    x - c ≤ x := by
  have above := (nonneg_iff.mp nonneg).2
  rw [le_iff_units (isNaN_sub number finite) number]
  cases finiteness : x.isFinite with
  | false => rw [(units_sub_of_infinite number finiteness finite).2]
  | true =>
    have inside := units_lt_limit finiteness
    have near := nearestInt_mono (Int.sub_le_self (units x) above)
    rw [nearestInt_units finiteness] at near
    rw [(units_sub finiteness finite).2]
    omega

/-- Where a number and what is taken away fit, taken exactly, no less than that number is left. -/
theorem le_sub_of_units_le (finite : x.isFinite = true) (finiteOther : y.isFinite = true)
    (finiteAway : c.isFinite = true) (fits : units x + units c ≤ units y) : x ≤ y - c := by
  have number := isNaN_sub (isNaN_of_isFinite finiteOther) finiteAway
  have inside := units_lt_limit finite
  have near := nearestInt_mono (show units x ≤ units y - units c by omega)
  rw [nearestInt_units finite] at near
  rw [le_iff_units (isNaN_of_isFinite finite) number, (units_sub finiteOther finiteAway).2]
  omega

/-- The nearest integer of fifty-three bits is zero only of zero. -/
theorem nearestInt_eq_zero {n : Int} : nearestInt n = 0 ↔ n = 0 := by
  constructor
  · intro zero
    rcases Int.lt_trichotomy n 0 with below | same | above
    · have near : nearestInt n ≤ nearestInt (-1) := nearestInt_mono (by omega)
      rw [show nearestInt (-1) = -1 from rfl] at near
      omega
    · exact same
    · have near : nearestInt 1 ≤ nearestInt n := nearestInt_mono (by omega)
      rw [show nearestInt 1 = 1 from rfl] at near
      omega
  · rintro rfl
    rfl

/-- The difference of what is finite is zero exactly if both are equal: it does not underflow. -/
theorem sub_eq_zero_iff (finite : x.isFinite = true) (finiteOther : y.isFinite = true) :
    (x - y == 0.0) = true ↔ units x = units y := by
  obtain ⟨number, difference⟩ := units_sub finite finiteOther
  have room := limit_pos
  rw [beq_iff_units number isNaN_zero, difference, units_zero]
  have near := nearestInt_eq_zero (n := units x - units y)
  omega

/-- The difference of what is finite is below zero exactly if the second is larger. -/
theorem sub_lt_zero_iff (finite : x.isFinite = true) (finiteOther : y.isFinite = true) :
    x - y < 0.0 ↔ x < y := by
  obtain ⟨number, difference⟩ := units_sub finite finiteOther
  have room := limit_pos
  rw [lt_iff_units number isNaN_zero, difference, units_zero,
    lt_iff_units (isNaN_of_isFinite finite) (isNaN_of_isFinite finiteOther)]
  have near := nearestInt_eq_zero (n := units x - units y)
  have zeroNear := nearestInt_eq_zero.mpr (rfl : (0 : Int) = 0)
  rcases Int.lt_or_le (units x) (units y) with less | more
  · have below := nearestInt_mono (show units x - units y ≤ 0 by omega)
    omega
  · have above := nearestInt_mono (show 0 ≤ units x - units y by omega)
    omega

end Storyboard.Binary64
