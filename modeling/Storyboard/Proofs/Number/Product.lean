import Storyboard.Proofs.Number.Fractions
import Storyboard.Proofs.Number.Readings
/-!
# Products and quotients of doubles

A product of doubles is exact before it is rounded; of a quotient so many bits are known, with what
is left of it, that rounding comes out as if it were exact. So either is the exact result rounded
once, and at most every double that it is at most when it is taken exactly.

Main statements: products and quotients of what is finite are the exact ones rounded
(`isRoundingOf_mul`, `isRoundingOf_div`); they are numbers, not below zero if both operands are not,
and keep below a bound that is a double (`isNear_mul`, `isNear_div`).
-/
namespace Storyboard.Binary64

open Float.Model (Format UnpackedFloat totalExponent)
open Float.Model.UnpackedFloat

variable {m : Nat} {e : Int} {shift : Nat}

/-! ## Bounds of what is rounded -/

/-- Whether a double is a number that is near a fraction of units: not below zero if the fraction
is not, and no further from zero than any double that the fraction is no further from zero than. -/
structure IsNear (x : Float) (num : Int) (den : Nat) : Prop where
  /-- The double is a number. -/
  number : x.isNaN = false
  /-- It keeps the sign. -/
  nonneg : 0 ≤ num → 0 ≤ units x
  /-- It keeps bounds. -/
  bounded : ∀ {n : Nat} {f : Int}, n < 2 ^ 53 → -1074 ≤ f → num.natAbs ≤ magnitude n f * den →
    (units x).natAbs ≤ magnitude n f

/-- What is near a fraction that is not below zero keeps a bound of it. -/
theorem IsNear.le {x : Float} {num : Int} {den n : Nat} {f : Int} (near : IsNear x num den)
    (bits : n < 2 ^ 53) (least : -1074 ≤ f) (bound : num.natAbs ≤ magnitude n f * den) :
    units x ≤ magnitude n f :=
  Int.le_trans Int.le_natAbs (Int.ofNat_le.mpr (near.bounded bits least bound))

/-- A sign does not count in the distance from zero. -/
theorem natAbs_apply (sign : Sign) (n : Nat) : (sign.apply (n : Int)).natAbs = n := by
  cases sign with
  | negative => exact (Int.natAbs_neg n).trans (Int.natAbs_natCast n)
  | positive => exact Int.natAbs_natCast n

/-- What is rounded once keeps its bounds. -/
theorem IsRoundingOf.natAbs_le {x : Float} {q : ℚ} {n : Nat} {f : Int}
    (rounding : IsRoundingOf x q) (bits : n < 2 ^ 53) (bound : |q| ≤ magnitude n f) :
    (units x).natAbs ≤ magnitude n f := by
  obtain ⟨k, rounds, size⟩ := rounding.size
  have order := rounds.mono (roundsTo_magnitude bits f) bound
  omega

/-- What is rounded once keeps its sign and its bounds. -/
theorem IsRoundingOf.isNear {x : Float} {num : Int} {den : Nat}
    (rounding : IsRoundingOf x (num / den)) (positive : 0 < den) : IsNear x num den := by
  have parts : (0 : ℚ) < den := by exact_mod_cast positive
  refine ⟨rounding.number, fun nonneg => rounding.nonneg ?_, fun {n f} bits _ bound => ?_⟩
  · exact div_nonneg (by exact_mod_cast nonneg) parts.le
  · refine rounding.natAbs_le bits ?_
    rw [abs_div, abs_of_pos parts, div_le_iff₀ parts, ← Int.cast_abs, Int.abs_eq_natAbs]
    exact_mod_cast bound

/-! ## Zeros and signs -/

/-- What is zero is zero rounded. -/
theorem isRoundingOf_zero {x : Float} {sign : Sign} (packed : x.toModel.unpack =
    unpack .binary64 (pack .binary64 (.zero sign))) : IsRoundingOf x 0 := by
  have unpacked : x.toModel.unpack = .zero sign := packed.trans (unpack_pack trivial)
  have none : units x = 0 := by rw [units, unpacked, unitsOf]
  refine ⟨?_, fun _ => none.ge, fun _ => none.le, 0, ?_, ?_⟩
  · change x.toModel.unpack.isNaN = false
    rw [unpacked]
    rfl
  · rw [abs_zero, ← Nat.cast_zero]
    exact roundsTo_nearest 0
  · rw [none, Nat.min_zero, Int.natAbs_zero]

/-- A sign as a factor. -/
def factorOf : Sign → ℚ
  | .negative => -1
  | .positive => 1

/-- A sign is given to a number by its factor. -/
theorem cast_apply (sign : Sign) (n : Int) : ((sign.apply n : Int) : ℚ) = factorOf sign * n := by
  cases sign <;> simp [Sign.apply, factorOf]

/-- The factor of a product of signs. -/
theorem factorOf_mul (sign other : Sign) :
    factorOf (sign * other) = factorOf sign * factorOf other := by
  cases sign <;> cases other
  · exact ((neg_mul_neg (1 : ℚ) 1).trans (one_mul 1)).symm
  · exact (mul_one (-1 : ℚ)).symm
  · exact (one_mul (-1 : ℚ)).symm
  · exact (one_mul (1 : ℚ)).symm

/-- A double that is packed from a rounded significand is the rounding of what the significand
stands for, with its sign. -/
theorem isRoundingOf_factor {x : Float} {p : ℚ} {sign : Sign} {accuracy : Accuracy}
    (packed : x.toModel.unpack =
      unpack .binary64 (pack .binary64 (roundWithAccuracy .binary64 sign m e accuracy)))
    (place : LiesAt (extended m accuracy) p) (nonneg : 0 ≤ p)
    (target : max ((m.log2 : Int) + 1 + e - 53) (-1074) = e + shift) :
    IsRoundingOf x (factorOf sign * (p * 2 ^ (e + 1074))) := by
  have scale : (0 : ℚ) < 2 ^ (e + 1074) := by positivity
  obtain ⟨canonical, number, same⟩ := roundWithAccuracy_units sign accuracy target
  obtain ⟨numberCut, cut⟩ := units_of_rounded canonical number packed
  have rounds := roundsTo_rounded place target
  have room := limit_pos
  rw [same] at cut
  generalize magnitude (rounded shift m accuracy) (e + shift) = k at rounds cut
  refine isRoundingOf_of_size numberCut (mul_nonneg nonneg scale.le) rounds ?_ ?_
  · rw [cut]
    cases sign <;> simp only [Sign.apply] <;> omega
  · cases sign with
    | negative =>
      rw [Sign.apply] at cut
      exact .inr ⟨neg_one_mul _, by omega⟩
    | positive =>
      rw [Sign.apply] at cut
      exact .inl ⟨one_mul _, by omega⟩

/-- The units of a significand as a fraction. -/
theorem cast_magnitude (m : Nat) {e : Int} (least : -1074 ≤ e) :
    (magnitude m e : ℚ) = m * 2 ^ (e + 1074) := by
  obtain ⟨s, same⟩ : ∃ s : Nat, e + 1074 = s := ⟨(e + 1074).toNat, by omega⟩
  rw [magnitude, same, Int.toNat_natCast, zpow_natCast]
  push_cast
  rfl

/-- The units of one as a power of two. -/
theorem cast_whole : (whole : ℚ) = 2 ^ (1074 : Int) := by
  rw [whole, Nat.cast_pow, Nat.cast_ofNat]
  exact (zpow_natCast 2 1074).symm

/-- Powers of two of integers are multiplied by adding the exponents. -/
theorem two_zpow_add (a b : Int) : (2 : ℚ) ^ (a + b) = 2 ^ a * 2 ^ b := zpow_add₀ (by norm_num) a b

/-! ## Products -/

variable {x y : Float}

/-- A product is packed and unpacked again. -/
theorem unpack_toModel_mul (x y : Float) :
    (x * y).toModel.unpack =
      unpack .binary64 (pack .binary64 (.mul .binary64 x.toModel.unpack y.toModel.unpack)) := rfl

/-- A significand of all bits, or one at the lowest exponent, has an exponent that is low enough. -/
theorem exists_shift {p : Nat} {f : Int} (enough : f ≤ -1074 ∨ 2 ^ 52 ≤ p) :
    ∃ shift : Nat, max ((p.log2 : Int) + 1 + f - 53) (-1074) = f + shift := by
  refine ⟨(max ((p.log2 : Int) + 1 + f - 53) (-1074) - f).toNat, ?_⟩
  rcases enough with lowest | full
  · omega
  · have some_bits : p ≠ 0 := by
      rintro rfl
      exact absurd full (by decide)
    have many := (Nat.le_log2 some_bits).mpr full
    omega

/-- The product of significands has an exponent that is low enough. -/
theorem exists_shift_of_product {n : Nat} {f : Int} (positive : 0 < m) (positiveOther : 0 < n)
    (canonical : Canonical m e) (canonicalOther : Canonical n f) :
    ∃ shift : Nat, max (((m * n).log2 : Int) + 1 + (e + f) - 53) (-1074) = e + f + shift := by
  have least := canonical.least
  have leastOther := canonicalOther.least
  apply exists_shift
  by_cases lowest : e = -1074 ∧ f = -1074
  · exact .inl (by omega)
  · -- One of the factors has all bits, and so has the product.
    right
    by_cases first : e = -1074
    · exact Nat.le_trans (canonicalOther.full (by omega)) (Nat.le_mul_of_pos_left n positive)
    · exact Nat.le_trans (canonical.full (by omega)) (Nat.le_mul_of_pos_right m positiveOther)

/-- The product of what is finite is the exact one rounded. -/
theorem isRoundingOf_mul (finite : x.isFinite = true) (finiteOther : y.isFinite = true) :
    IsRoundingOf (x * y) (units x * units y / whole) := by
  have packed := unpack_toModel_mul x y
  rcases unpack_of_isFinite finite with
    ⟨sign, first, none⟩ | ⟨sign, m, e, positive, first, canonical, _, same⟩
  · rw [none, Int.cast_zero, zero_mul, zero_div]
    rw [first] at packed
    rcases unpack_of_isFinite finiteOther with ⟨_, second, _⟩ | ⟨_, _, _, _, second, _⟩
    all_goals
      rw [second] at packed
      exact isRoundingOf_zero packed
  · rcases unpack_of_isFinite finiteOther with
      ⟨_, second, none⟩ | ⟨other, n, f, positiveOther, second, canonicalOther, _, sameOther⟩
    · rw [none, Int.cast_zero, mul_zero, zero_div]
      rw [first, second] at packed
      exact isRoundingOf_zero packed
    · rw [first, second] at packed
      obtain ⟨shift, target⟩ :=
        exists_shift_of_product positive positiveOther canonical canonicalOther
      have rounding :=
        isRoundingOf_factor packed (liesAt_exactly (m * n)) (Nat.cast_nonneg _) target
      have exactly_units : (units x * units y / whole : ℚ) =
          factorOf (sign * other) * ((m * n : Nat) * 2 ^ (e + f + 1074)) := by
        have scale : (2 : ℚ) ^ (e + f + 1074) * whole = 2 ^ (e + 1074) * 2 ^ (f + 1074) := by
          rw [cast_whole, ← two_zpow_add, ← two_zpow_add]
          congr 1
          omega
        have room : (0 : ℚ) < whole := by exact_mod_cast whole_pos
        rw [div_eq_iff room.ne', same, sameOther, cast_apply, cast_apply, Int.cast_natCast,
          Int.cast_natCast, cast_magnitude m canonical.least,
          cast_magnitude n canonicalOther.least, factorOf_mul,
          mul_assoc (factorOf sign * factorOf other), mul_assoc ((m * n : Nat) : ℚ), scale]
        push_cast
        ring
      rwa [exactly_units]

/-- The product of what is finite is near the exact one. -/
theorem isNear_mul (finite : x.isFinite = true) (finiteOther : y.isFinite = true) :
    IsNear (x * y) (units x * units y) whole := by
  have rounding := isRoundingOf_mul finite finiteOther
  rw [← Int.cast_mul] at rounding
  exact rounding.isNear whole_pos

/-- Multiplying with a number not below zero keeps the order. -/
theorem units_mul_mono {c : Float} (finite : x.isFinite = true) (finiteOther : y.isFinite = true)
    (finiteFactor : c.isFinite = true) (nonneg : 0 ≤ units c) (le : units x ≤ units y) :
    units (x * c) ≤ units (y * c) := by
  refine (isRoundingOf_mul finite finiteFactor).mono (isRoundingOf_mul finiteOther finiteFactor)
    (div_le_div_of_nonneg_right (mul_le_mul_of_nonneg_right ?_ ?_) (Nat.cast_nonneg _))
  · exact_mod_cast le
  · exact_mod_cast nonneg

/-! ## Quotients -/

/-- A quotient is packed and unpacked again. -/
theorem unpack_toModel_div (x y : Float) :
    (x / y).toModel.unpack =
      unpack .binary64 (pack .binary64 (.div .binary64 x.toModel.unpack y.toModel.unpack)) := rfl

/-- The quotient of significands, taken far enough, has an exponent that is low enough. -/
theorem exists_shift_of_quotient {n : Nat} {f : Int} (positive : 0 < m) (positiveOther : 0 < n)
    {zeros : Nat} {t : Int} (lowered : t = min (e - f) (max
      (((m.log2 : Int) + 1 + e - (n.log2 + 1 + f)) - 53) (-1074))) (shifted : e - f = t + zeros) :
    ∃ shift : Nat,
      max (((m * 2 ^ zeros / n).log2 : Int) + 1 + t - 53) (-1074) = t + shift := by
  apply exists_shift
  by_cases lowest : t ≤ -1074
  · exact .inl lowest
  · right
    rw [Nat.le_div_iff_mul_le positiveOther]
    calc 2 ^ 52 * n ≤ 2 ^ 52 * 2 ^ (n.log2 + 1) :=
          Nat.mul_le_mul_left _ (Nat.le_of_lt Nat.lt_log2_self)
      _ = 2 ^ (52 + (n.log2 + 1)) := (Nat.pow_add 2 52 _).symm
      _ ≤ 2 ^ (m.log2 + zeros) := Nat.pow_le_pow_right (by omega) (by omega)
      _ = 2 ^ m.log2 * 2 ^ zeros := Nat.pow_add 2 _ _
      _ ≤ m * 2 ^ zeros := Nat.mul_le_mul_right _ (Nat.log2_self_le positive.ne')

/-- A quotient of significands is taken as far as its exponent is lowered. -/
theorem div_eq_round {sign : Sign} {n : Nat} {f : Int} {positive : 0 < m} {positiveOther : 0 < n}
    {zeros : Nat} {t : Int} (lowered : t = min (e - f) (max
      (((m.log2 : Int) + 1 + e - (n.log2 + 1 + f)) - 53) (-1074))) (shifted : e - f = t + zeros) :
    UnpackedFloat.div .binary64 (.finite sign m e positive) (.finite .positive n f positiveOther) =
      roundWithAccuracy .binary64 sign (m * 2 ^ zeros / n) t
        (accuracyOfFraction (m * 2 ^ zeros % n) n) := by
  have target : min (e - f) (Format.binary64.targetExponent
      (totalExponent m e - totalExponent n f)) = t := lowered.symm
  have enough : (e - f - t).toNat = zeros := by omega
  have core : divCore .binary64 m e n f =
      (m * 2 ^ zeros / n, t, accuracyOfFraction (m * 2 ^ zeros % n) n) := by
    simp only [divCore, target, enough, Nat.shiftLeft_eq]
  rw [UnpackedFloat.div, core]
  cases sign <;> rfl

/-- The quotient of significands is the exact one rounded. -/
theorem isRoundingOf_quotient {z : Float} {sign : Sign} {n : Nat} {f : Int} {positive : 0 < m}
    {positiveOther : 0 < n} (packed : z.toModel.unpack = unpack .binary64 (pack .binary64
      (.div .binary64 (.finite sign m e positive) (.finite .positive n f positiveOther)))) :
    IsRoundingOf z (factorOf sign * (m * 2 ^ (e + 1074) * whole / (n * 2 ^ (f + 1074)))) := by
  obtain ⟨t, lowered⟩ : ∃ t : Int, t = min (e - f) (max
      (((m.log2 : Int) + 1 + e - (n.log2 + 1 + f)) - 53) (-1074)) := ⟨_, rfl⟩
  obtain ⟨zeros, shifted⟩ : ∃ zeros : Nat, e - f = t + zeros := ⟨(e - f - t).toNat, by omega⟩
  rw [div_eq_round lowered shifted] at packed
  obtain ⟨shift, target⟩ := exists_shift_of_quotient positive positiveOther lowered shifted
  have rounding := isRoundingOf_factor packed (liesAt_fraction (m * 2 ^ zeros) positiveOther)
    (by positivity) target
  have parts : (n : ℚ) ≠ 0 := by exact_mod_cast positiveOther.ne'
  have scale : (2 : ℚ) ^ (e + 1074) * whole = 2 ^ zeros * 2 ^ (t + 1074) * 2 ^ (f + 1074) := by
    rw [cast_whole, ← zpow_natCast 2 zeros, ← two_zpow_add, ← two_zpow_add, ← two_zpow_add]
    congr 1
    omega
  have same : (m : ℚ) * 2 ^ (e + 1074) * whole / (n * 2 ^ (f + 1074)) =
      (m * 2 ^ zeros : Nat) / n * 2 ^ (t + 1074) := by
    rw [mul_assoc, scale]
    push_cast
    field_simp
  rwa [same]

/-- The quotient of what is finite and what is finite and positive is the exact one rounded. -/
theorem isRoundingOf_div (finite : x.isFinite = true) (finiteOther : y.isFinite = true)
    (positive : 0 < units y) : IsRoundingOf (x / y) (units x * whole / units y) := by
  have packed := unpack_toModel_div x y
  rcases unpack_of_isFinite finiteOther with
    ⟨_, _, none⟩ | ⟨other, n, f, positiveOther, second, canonicalOther, _, sameOther⟩
  · omega
  have above := magnitude_pos positiveOther f
  cases other with
  | negative =>
    rw [sameOther, Sign.apply] at positive
    omega
  | positive =>
    rw [second] at packed
    rcases unpack_of_isFinite finite with
      ⟨_, first, none⟩ | ⟨sign, m, e, positiveFirst, first, canonical, _, same⟩
    · rw [none, Int.cast_zero, zero_mul, zero_div]
      rw [first] at packed
      exact isRoundingOf_zero packed
    · rw [first] at packed
      have rounding := isRoundingOf_quotient packed
      have exactly_units : (units x * whole / units y : ℚ) =
          factorOf sign * (m * 2 ^ (e + 1074) * whole / (n * 2 ^ (f + 1074))) := by
        rw [same, sameOther, cast_apply, Sign.apply, Int.cast_natCast, Int.cast_natCast,
          cast_magnitude m canonical.least, cast_magnitude n canonicalOther.least]
        ring
      rwa [exactly_units]

/-- The quotient of what is finite and what is finite and positive is near the exact one. -/
theorem isNear_div (finite : x.isFinite = true) (finiteOther : y.isFinite = true)
    (positive : 0 < units y) : IsNear (x / y) (units x * whole) (units y).toNat := by
  have rounding := isRoundingOf_div finite finiteOther positive
  have parts : (units y : ℚ) = ((units y).toNat : ℚ) := by
    exact_mod_cast (Int.toNat_of_nonneg positive.le).symm
  rw [parts, ← Int.cast_natCast whole, ← Int.cast_mul] at rounding
  exact rounding.isNear (by omega)

end Storyboard.Binary64
