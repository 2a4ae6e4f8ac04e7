import Storyboard.Number.Fault
import Storyboard.Proofs.Number.Units
/-!
# Which doubles have a floor

`Number.floor` takes a double apart by its bits, while the arithmetic of doubles has a model that
takes them apart by itself. Both agree on what is a number (`classes`), so that a floor is missing
only of an infinity and of no number, each with its own fault (`floor_eq_error`).
-/
namespace Storyboard.Binary64

open Float.Model (Format)
open Float.Model.UnpackedFloat

/-! ## The fields of a bit pattern -/

/-- The eleven bits behind the sign are the exponent. -/
theorem toNat_exponent (bits : UInt64) :
    ((bits >>> 52) &&& 0x7ff).toNat = (@unpackExponent .binary64 bits.toBitVec).toNat := by
  change bits.toNat >>> 52 &&& (2 ^ 11 - 1) = bits.toNat >>> 52 % 2 ^ 11
  rw [Nat.and_two_pow_sub_one_eq_mod]

/-- The last fifty-two bits are the mantissa. -/
theorem toNat_mantissa (bits : UInt64) :
    (bits &&& 0xfffffffffffff).toNat = (@unpackMantissa .binary64 bits.toBitVec).toNat := by
  change bits.toNat &&& (2 ^ 52 - 1) = bits.toNat >>> 0 % 2 ^ 52
  rw [Nat.and_two_pow_sub_one_eq_mod, Nat.shiftRight_zero]

/-! ## Numbers, infinities, and no number -/

/-- A double is no number, an infinity or a number, whichever way its bits are read. -/
theorem classes (x : Float) :
    (x.isNaN = true ∧ Reading.ofFloat x = .undefined) ∨
      (x.isInf = true ∧ ∃ negative, Reading.ofFloat x = .infinite negative) ∨
      (x.isFinite = true ∧ ∃ negative significand exponent,
        Reading.ofFloat x = .finite negative significand exponent) := by
  change ((unpack .binary64 x.toBits.toBitVec).isNaN = true ∧ _) ∨
    ((unpack .binary64 x.toBits.toBitVec).isInf = true ∧ _) ∨
    ((unpack .binary64 x.toBits.toBitVec).isFinite = true ∧ _)
  rw [Reading.ofFloat, Reading.ofBits, unpack]
  simp only [toNat_exponent, toNat_mantissa]
  by_cases last : @unpackExponent .binary64 x.toBits.toBitVec = -1#11
  · have most : (@unpackExponent .binary64 x.toBits.toBitVec).toNat = 2047 :=
      congrArg BitVec.toNat last
    simp only [if_pos last, if_pos most]
    by_cases empty : @unpackMantissa .binary64 x.toBits.toBitVec = 0#52
    · have least : (@unpackMantissa .binary64 x.toBits.toBitVec).toNat = 0 :=
        congrArg BitVec.toNat empty
      simp only [if_pos empty, if_pos least]
      exact .inr (.inl ⟨rfl, _, rfl⟩)
    · have more : (@unpackMantissa .binary64 x.toBits.toBitVec).toNat ≠ 0 := fun zero =>
        empty (BitVec.eq_of_toNat_eq zero)
      simp only [if_neg empty, if_neg more]
      exact .inl ⟨rfl, trivial⟩
  · have fewer : (@unpackExponent .binary64 x.toBits.toBitVec).toNat ≠ 2047 := fun most =>
      last (BitVec.eq_of_toNat_eq most)
    simp only [if_neg last, if_neg fewer]
    refine .inr (.inr ⟨?_, ?_⟩)
    · repeat' split
      all_goals rfl
    · split
      · exact ⟨_, _, _, rfl⟩
      · exact ⟨_, _, _, rfl⟩

/-- A floor is missing only of no number and of an infinity. -/
theorem floor_eq_error {x : Float} {fault : Fault} (failed : Number.floor x = .error fault) :
    (fault = .undefinedInteger ∧ x.isNaN = true) ∨ (fault = .overflow ∧ x.isInf = true) := by
  unfold Number.floor at failed
  rcases classes x with ⟨undefined, read⟩ | ⟨infinite, _, read⟩ | ⟨_, _, _, _, read⟩
  · rw [read] at failed
    exact .inl ⟨(Except.error.inj failed).symm, undefined⟩
  · rw [read] at failed
    exact .inr ⟨(Except.error.inj failed).symm, infinite⟩
  · rw [read] at failed
    cases failed

/-- Only what is finite has a floor. -/
theorem isFinite_of_floor {x : Float} {n : Int} (found : Number.floor x = .ok n) :
    x.isFinite = true := by
  unfold Number.floor at found
  rcases classes x with ⟨_, read⟩ | ⟨_, _, read⟩ | ⟨finite, _⟩
  · rw [read] at found
    cases found
  · rw [read] at found
    cases found
  · exact finite

/-- What is finite is no infinity. -/
theorem isInf_of_isFinite {x : Float} (finite : x.isFinite = true) : x.isInf = false := by
  change x.toModel.unpack.isFinite = true at finite
  change x.toModel.unpack.isInf = false
  cases same : x.toModel.unpack with
  | infinity sign =>
    rw [same] at finite
    cases finite
  | notANumber | zero _ | finite _ _ _ _ => rfl

end Storyboard.Binary64
