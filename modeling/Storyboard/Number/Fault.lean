import Storyboard.Number.Reading
/-!
# Checked arithmetic

Addition, subtraction and multiplication of doubles never fail; they overflow to an infinity.
Division by zero, a power or an exponential that overflows, a root of a negative number, a sine
of an infinity, the floor of something that is no finite number, and a list of too many values do
fail, each with a `Fault`. Comparisons with an undefined operand are false, and `larger` and
`smaller` keep their first operand then, and also when both are equal.
-/
namespace Storyboard

/-- Why an arithmetic operation has no result. -/
inductive Fault where
  /-- A division by zero. -/
  | divisionByZero
  /-- A result, or an integer asked for, that is too large. -/
  | overflow
  /-- A root of a negative number, or a sine or cosine of an infinity. -/
  | outsideDomain
  /-- An integer asked of no number. -/
  | undefinedInteger
  /-- More values than memory holds. -/
  | exhausted
  deriving DecidableEq, Repr

namespace Fault

/-- What is reported of a fault; some kinds carry no text. -/
def message : Fault → Option String
  | .divisionByZero => none
  | .overflow => none
  | .outsideDomain => some "math domain error"
  | .undefinedInteger => some "cannot convert float NaN to integer"
  | .exhausted => none

end Fault

namespace Number

/-- The second operand if it is greater, else the first. -/
def larger {α : Type} [LT α] [DecidableLT α] (a b : α) : α := if b > a then b else a

/-- The second operand if it is less, else the first. -/
def smaller {α : Type} [LT α] [DecidableLT α] (a b : α) : α := if b < a then b else a

/-- The largest of a non-empty list; of equals the first. -/
def largest {α : Type} [LT α] [DecidableLT α] (first : α) (rest : List α) : α :=
  rest.foldl larger first

/-- The smallest of a non-empty list; of equals the first. -/
def smallest {α : Type} [LT α] [DecidableLT α] (first : α) (rest : List α) : α :=
  rest.foldl smaller first

/-- Limit a value to bounds; of inverted bounds the upper one wins. -/
def clamp {α : Type} [LT α] [DecidableLT α] (value low high : α) : α :=
  smaller high (larger low value)

/-- The infinity above every number. -/
def infinity : Float := 1.0 / 0.0

/-- The double that is no number. -/
def undefined : Float := 0.0 / 0.0

/-- The double of an integer, rounded to the nearest. -/
def ofInt (n : Int) : Float := Float.ofInt n

/-- The double of a natural number, rounded to the nearest. -/
def ofNat (n : Nat) : Float := Float.ofNat n

/-- A quotient. -/
def divide (a b : Float) : Except Fault Float :=
  if b == 0.0 then .error .divisionByZero else .ok (a / b)

/-- An infinite result of finite operands is an overflow. -/
def unlessOverflow (finiteOperands : Bool) (result : Float) : Except Fault Float :=
  if finiteOperands && result.isInf then .error .overflow else .ok result

/-- A power of a double. -/
def power (base exponent : Float) : Except Fault Float :=
  unlessOverflow (base.isFinite && exponent.isFinite) (base.pow exponent)

/-- The exponential function. -/
def exponential (x : Float) : Except Fault Float := unlessOverflow x.isFinite x.exp

/-- The square root. -/
def squareRoot (x : Float) : Except Fault Float :=
  if x < 0.0 then .error .outsideDomain else .ok x.sqrt

/-- The sine. -/
def sine (x : Float) : Except Fault Float :=
  if x.isInf then .error .outsideDomain else .ok x.sin

/-- The cosine. -/
def cosine (x : Float) : Except Fault Float :=
  if x.isInf then .error .outsideDomain else .ok x.cos

/-- The greatest integer not above a double. -/
def floor (x : Float) : Except Fault Int :=
  match Reading.ofFloat x with
  | .undefined => .error .undefinedInteger
  | .infinite _ => .error .overflow
  | .finite negative significand exponent =>
    .ok (Reading.floorScaled (Reading.signed negative significand) exponent)

/-- The least integer not below a double. -/
def ceil (x : Float) : Except Fault Int := (floor (-x)).map (- ·)

/-- The most values that memory holds. -/
def mostValues : Int := 100000000

/-- The size of a list of a number of values, none if the number is negative. From 2^63 on the
number is too large for a size, and before that there may be no memory. -/
def listSize (count : Int) : Except Fault Nat :=
  if Int.pow 2 63 ≤ count then .error .overflow
  else if mostValues < count then .error .exhausted
  else .ok count.toNat

/-- Ratio of a circle's circumference to its diameter. -/
def pi : Float := 3.141592653589793

end Number
end Storyboard
