import Mathlib.Algebra.Order.Archimedean.Real.Basic
import Storyboard.Number.Scalar
/-!
# Exact arithmetic

The real numbers as numbers to calculate with. What is written over a `Scalar` is taken over them
where its laws are about curves: where a curve is continuous, and where it crosses a height, which
need not be at a rational place.
-/
namespace Storyboard

/-- Real numbers, with exact operations that never fail. -/
noncomputable instance : Scalar ℝ where
  literal
    | 0 => Zero.toOfNat0
    | 1 => One.toOfNat1
    | _ + 2 => instOfNatAtLeastTwo
  power base exponent := .ok (base ^ exponent)
  floor x := .ok ⌊x⌋

/-- The distance from zero is the absolute value. -/
theorem Number.magnitude_real (a : ℝ) : magnitude a = |a| := by
  rw [magnitude]
  split_ifs with negative
  · exact (abs_of_neg negative).symm
  · exact (abs_of_nonneg (not_lt.mp negative)).symm

end Storyboard
