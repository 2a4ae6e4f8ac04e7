import Storyboard.Proofs.Number.Fractions
/-!
# Sums of doubles

A sum of doubles is exact in units and then rounded once, like a difference.

Main statements: the units of a sum (`units_add`); adding a number not below zero never gives a
smaller number (`le_add_right`, `le_add_left`).
-/
namespace Storyboard.Binary64

open Float.Model (Format UnpackedFloat)
open Float.Model.UnpackedFloat

variable {x y z : Float}

/-- A sum is packed and unpacked again. -/
theorem unpack_toModel_add (x y : Float) :
    (x + y).toModel.unpack =
      unpack .binary64 (pack .binary64 (.add .binary64 x.toModel.unpack y.toModel.unpack)) := rfl

/-- The sum of what is finite is exact in units, then rounded, and cut off at the limits. -/
theorem units_add (finite : x.isFinite = true) (finiteOther : y.isFinite = true) :
    (x + y).isNaN = false ∧
      units (x + y) = max (-(limit : Int)) (min limit (nearestInt (units x + units y))) := by
  obtain ⟨rounded, number, exact_units⟩ := add_eq (isStored_toModel x) (isStored_toModel y)
    finite finiteOther
  have cut := units_of_rounded rounded number (unpack_toModel_add x y)
  rwa [exact_units] at cut

/-- The sum of what is finite is the exact one rounded. -/
theorem isRoundingOf_add (finite : x.isFinite = true) (finiteOther : y.isFinite = true) :
    IsRoundingOf (x + y) (units x + units y : Int) := by
  obtain ⟨number, same⟩ := units_add finite finiteOther
  have room := limit_pos
  have rounds := roundsTo_nearest (units x + units y).natAbs
  rw [Nat.cast_natAbs, Int.cast_abs] at rounds
  refine ⟨number, fun nonneg => ?_, fun nonpos => ?_, _, rounds, ?_⟩ <;> rw [same]
  · have above : 0 ≤ units x + units y := by exact_mod_cast nonneg
    have near : nearestInt 0 ≤ _ := nearestInt_mono above
    rw [nearestInt_eq_zero.mpr rfl] at near
    omega
  · have below : units x + units y ≤ 0 := by exact_mod_cast nonpos
    have near : _ ≤ nearestInt 0 := nearestInt_mono below
    rw [nearestInt_eq_zero.mpr rfl] at near
    omega
  · rw [← natAbs_nearestInt]
    omega

/-- What is unpacked is added either way round. -/
theorem unpacked_add_comm (u v : UnpackedFloat) :
    UnpackedFloat.add .binary64 u v = UnpackedFloat.add .binary64 v u := by
  cases u with
  | notANumber => cases v <;> rfl
  | infinity sign =>
    cases v with
    | infinity other => cases sign <;> cases other <;> rfl
    | notANumber | zero _ | finite _ _ _ _ => rfl
  | zero sign =>
    cases v with
    | zero other => cases sign <;> cases other <;> rfl
    | notANumber | infinity _ | finite _ _ _ _ => rfl
  | finite sign m e positive =>
    cases v with
    | finite other n f positiveOther =>
      simp only [UnpackedFloat.add, Int.min_comm e f, Int.add_comm]
    | notANumber | infinity _ | zero _ => rfl

/-- Doubles are added either way round. -/
theorem add_comm (x y : Float) : x + y = y + x :=
  congrArg (fun u => Float.ofModel (.pack u)) (unpacked_add_comm x.toModel.unpack y.toModel.unpack)

/-- An infinity stays what it is, or is no number any more, whatever is added. -/
theorem infinity_add (sign : Sign) (v : UnpackedFloat) :
    UnpackedFloat.add .binary64 (.infinity sign) v = .infinity sign ∨
      UnpackedFloat.add .binary64 (.infinity sign) v = .notANumber := by
  cases v with
  | notANumber => exact .inr rfl
  | infinity other => cases sign <;> cases other <;> simp [UnpackedFloat.add]
  | zero _ | finite _ _ _ _ => exact .inl rfl

/-- A sum that is a number is one of numbers. -/
theorem isNaN_of_isNaN_add (number : (x + y).isNaN = false) : x.isNaN = false := by
  change (x + y).toModel.unpack.isNaN = false at number
  change x.toModel.unpack.isNaN = false
  rw [unpack_toModel_add] at number
  cases first : x.toModel.unpack with
  | notANumber =>
    have lost : UnpackedFloat.add .binary64 .notANumber y.toModel.unpack = .notANumber := by
      cases y.toModel.unpack <;> rfl
    rw [first, lost] at number
    cases number
  | infinity _ | zero _ | finite _ _ _ _ => rfl

/-- What is infinite stays so in a sum that is a number. -/
theorem units_add_of_infinite (number : (x + y).isNaN = false) (infinite : x.isFinite = false) :
    (x + y).isFinite = false ∧ units (x + y) = units x := by
  obtain ⟨sign, same⟩ := exists_eq_infinity (isNaN_of_isNaN_add number) infinite
  have packed := unpack_toModel_add x y
  rw [same] at packed
  rcases infinity_add sign y.toModel.unpack with kept | lost
  · rw [kept] at packed
    obtain ⟨_, still, kept⟩ := unpack_of_infinity packed
    refine ⟨still, ?_⟩
    rw [kept, units, same, unitsOf]
  · change (x + y).toModel.unpack.isNaN = false at number
    rw [packed, lost] at number
    cases number

/-- A number added to what is finite is a number, also if it is infinite. -/
theorem isNaN_add (finite : x.isFinite = true) (number : y.isNaN = false) :
    (x + y).isNaN = false := by
  cases finiteness : y.isFinite with
  | true => exact (units_add finite finiteness).1
  | false =>
    obtain ⟨sign, same⟩ := exists_eq_infinity number finiteness
    have packed := unpack_toModel_add x y
    rw [same, add_infinity_of_isFinite finite] at packed
    exact (unpack_of_infinity packed).1

/-- A sum that is finite is one of finite numbers. -/
theorem isFinite_of_isFinite_add (finite : (x + y).isFinite = true) : x.isFinite = true := by
  cases finiteness : x.isFinite with
  | true => rfl
  | false =>
    rw [(units_add_of_infinite (isNaN_of_isFinite finite) finiteness).1] at finite
    cases finite

/-- With a number added that is not below zero there is no less than before. -/
theorem le_add_right (number : (x + y).isNaN = false) (nonneg : 0.0 ≤ y) : x ≤ x + y := by
  have defined := isNaN_of_isNaN_add number
  have above := (nonneg_iff.mp nonneg).2
  rw [le_iff_units defined number]
  cases finiteness : x.isFinite with
  | false => rw [(units_add_of_infinite number finiteness).2]
  | true =>
    cases finitenessOther : y.isFinite with
    | false =>
      -- What is infinite and not below zero is the largest of all numbers.
      have inside := units_le_limit defined
      have top_or_bottom := units_of_infinite (nonneg_iff.mp nonneg).1 finitenessOther
      have positive := limit_pos
      rw [add_comm] at number ⊢
      rw [(units_add_of_infinite number finitenessOther).2]
      omega
    | true =>
      have inside := units_lt_limit finiteness
      have near := nearestInt_mono (show units x ≤ units x + units y by omega)
      rw [nearestInt_units finiteness] at near
      rw [(units_add finiteness finitenessOther).2]
      omega

/-- Added to a number not below zero there is no less than before. -/
theorem le_add_left (number : (x + y).isNaN = false) (nonneg : 0.0 ≤ x) : y ≤ x + y := by
  rw [add_comm] at number ⊢
  exact le_add_right number nonneg

/-- What a sum with a number not below zero is at most, the other summand is at most. -/
theorem le_of_add_le (nonneg : 0.0 ≤ y) (le : x + y ≤ z) : x ≤ z :=
  Trans.trans (le_add_right (isNaN_of_le le).1 nonneg) le

end Storyboard.Binary64
