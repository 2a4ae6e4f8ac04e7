import Storyboard.Number.Fault
/-!
# Numbers to calculate with

Curves, their inversion and the rounding to whole frames are written over a `Scalar`: once, and
both for doubles, which are what runs, and for numbers that are not rounded, in which their laws are
exact.
-/
namespace Storyboard

/-- A number type with decimal literals, comparisons, and powers and floors that may fail. -/
class Scalar (α : Type) extends Add α, Sub α, Mul α, Div α, Neg α, LT α, LE α, BEq α,
    OfScientific α where
  /-- Comparison of numbers can be computed. -/
  [decidableLT : DecidableLT α]
  /-- Weak comparison of numbers can be computed. -/
  [decidableLE : DecidableLE α]
  /-- Natural numbers may be written as literals. -/
  [literal : ∀ n, OfNat α n]
  /-- A natural power. -/
  power : α → Nat → Except Fault α
  /-- The greatest integer not above a number. -/
  floor : α → Except Fault Int

attribute [reducible, instance] Scalar.decidableLT Scalar.decidableLE Scalar.literal

/-- Doubles, with the rounding of their operations. -/
instance : Scalar Float where
  power base exponent := Number.power base (Number.ofNat exponent)
  floor := Number.floor

/-- Rational numbers, with exact operations that never fail. -/
instance : Scalar Rat where
  power base exponent := .ok (base ^ exponent)
  floor x := .ok x.floor

namespace Number

variable {α : Type} [Scalar α]

/-- The nearest integer, a half going up. -/
def roundHalfUp (x : α) : Except Fault Int := Scalar.floor (x + 0.5)

/-- The distance from zero. -/
def magnitude (x : α) : α := if x < 0 then -x else x

end Number
end Storyboard
