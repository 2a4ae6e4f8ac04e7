import Storyboard.Number.Fault
/-!
# Decimal digits of doubles

Choices of digits, all in exact integer arithmetic. `Decimal.shortest` takes the fewest digits
that read back as the same double, and of those the nearest to its value; `Decimal.rounded` takes
a fixed number of digits, and `Decimal.places` a fixed number of decimal places, where an exact
half goes to the even digit. `Decimal.toFloat` goes the other way, to the nearest double. How
digits are laid out as text is the matter of `Storyboard.Number.Layout`.
-/
namespace Storyboard

/-- The decimal number `coefficient * 10 ^ exponent`. -/
structure Decimal where
  /-- The digits, read as one number. -/
  coefficient : Nat
  /-- The power of ten that the last digit counts. -/
  exponent : Int
  deriving DecidableEq, Repr

/-- A positive fraction, both of whose parts are whole. -/
structure Ratio where
  /-- The part above the line. -/
  numerator : Nat
  /-- The part below the line. -/
  denominator : Nat

namespace Ratio

/-- `coefficient * base ^ exponent` as a fraction. -/
def scaled (base coefficient : Nat) : Int → Ratio
  | .ofNat n => ⟨coefficient * Nat.pow base n, 1⟩
  | .negSucc n => ⟨coefficient, Nat.pow base (n + 1)⟩

/-- A fraction times a power of ten. -/
def shift (r : Ratio) : Int → Ratio
  | .ofNat n => ⟨r.numerator * Nat.pow 10 n, r.denominator⟩
  | .negSucc n => ⟨r.numerator, r.denominator * Nat.pow 10 (n + 1)⟩

/-- The greatest whole number not above a fraction. -/
def floor (r : Ratio) : Nat := r.numerator / r.denominator

/-- The nearest whole number; of two, the even one. -/
def nearest (r : Ratio) : Nat :=
  let below := r.floor
  let twice := 2 * (r.numerator % r.denominator)
  if twice < r.denominator then below
  else if r.denominator < twice then below + 1
  else if below % 2 = 0 then below
  else below + 1

/-- The number of whole digits of a fraction, up to one too few or too many: negative or zero
counts the zeros after the point. -/
def digitGuess (r : Ratio) : Int :=
  ((r.numerator.log2 : Int) - (r.denominator.log2 : Int)) * 1233 / 4096

/-- Whether `10 ^ place` is at most the fraction. -/
def reaches (r : Ratio) : Int → Bool
  | .ofNat n => Nat.pow 10 n * r.denominator ≤ r.numerator
  | .negSucc n => r.denominator ≤ r.numerator * Nat.pow 10 (n + 1)

/-- The place of a fraction: the number `k` with `10 ^ (k - 1) ≤ r < 10 ^ k`. -/
def place (r : Ratio) : Int :=
  let guess := r.digitGuess
  if r.reaches (guess + 1) then guess + 2
  else if r.reaches guess then guess + 1
  else if r.reaches (guess - 1) then guess
  else guess - 1

end Ratio

/-- The positive reals that a double is nearest to: an interval around its value. -/
structure Neighbourhood where
  /-- The value of the double. -/
  value : Ratio
  /-- The lower end, over the denominator of the value. -/
  low : Nat
  /-- The upper end, over the denominator of the value. -/
  high : Nat
  /-- Whether the ends belong to the interval. -/
  closed : Bool

namespace Neighbourhood

/-- The neighbourhood of `significand * 2 ^ exponent`: halfway to the next double on either
side, where the step below a power of two is half as wide. -/
def ofSignificand (significand : Nat) (exponent : Int) : Neighbourhood :=
  let narrow := significand = Nat.pow 2 52 ∧ -1074 < exponent
  let value := Ratio.scaled 2 (4 * significand) (exponent - 2)
  let unit := (Ratio.scaled 2 1 (exponent - 2)).numerator
  { value
    low := value.numerator - (if narrow then unit else 2 * unit)
    high := value.numerator + 2 * unit
    closed := significand % 2 = 0 }

/-- Whether `coefficient * 10 ^ exponent` lies in the neighbourhood. -/
def contains (n : Neighbourhood) (coefficient : Nat) (exponent : Int) : Bool :=
  let point := Ratio.scaled 10 coefficient exponent
  let here := point.numerator * n.value.denominator
  let low := n.low * point.denominator
  let high := n.high * point.denominator
  if n.closed then low ≤ here && here ≤ high else low < here && here < high

/-- The point of the decimal grid of the given exponent that lies in the neighbourhood, the
nearer one of two. -/
def onGrid? (n : Neighbourhood) (exponent : Int) : Option Decimal :=
  let grid := n.value.shift (-exponent)
  let near := grid.nearest
  let below := grid.floor
  let far := if near = below then below + 1 else below
  if n.contains near exponent then some ⟨near, exponent⟩
  else if n.contains far exponent then some ⟨far, exponent⟩
  else none

/-- Try grids of growing fineness, `digits` more digits at most. -/
def search (n : Neighbourhood) (place : Int) : (digits : Nat) → (used : Nat) → Decimal
  | 0, used => ⟨(n.value.shift (used - place)).nearest, place - used⟩
  | digits + 1, used =>
    match n.onGrid? (place - used) with
    | some found => found
    | none => search n place digits (used + 1)

end Neighbourhood

namespace Decimal

/-- The fewest digits that read back as `significand * 2 ^ exponent`; seventeen always do. -/
def shortest (significand : Nat) (exponent : Int) : Decimal :=
  let n := Neighbourhood.ofSignificand significand exponent
  n.search n.value.place 16 1

/-- `significand * 2 ^ exponent` rounded to a number of digits. -/
def rounded (digits significand : Nat) (exponent : Int) : Decimal :=
  let value := Ratio.scaled 2 significand exponent
  let last := value.place - digits
  ⟨(value.shift (-last)).nearest, last⟩

/-- `significand * 2 ^ exponent` rounded to a number of decimal places. -/
def places (count significand : Nat) (exponent : Int) : Decimal :=
  ⟨((Ratio.scaled 2 significand exponent).shift count).nearest, -count⟩

/-- The digits of the coefficient. -/
def digits (d : Decimal) : List Char := Nat.toDigits 10 d.coefficient

/-- The digits without the zeros that end them. -/
def significant (d : Decimal) : List Char :=
  (d.digits.reverse.dropWhile (· == '0')).reverse

/-- The power of ten that the first digit counts. -/
def leading (d : Decimal) : Int := d.exponent + d.digits.length - 1

/-- The nearest double; beyond the range an infinity or zero. -/
def toFloat (d : Decimal) : Float :=
  if d.coefficient = 0 then 0.0
  else if 309 < d.leading then Number.infinity
  else if d.leading < -330 then 0.0
  else
    match d.exponent with
    | .ofNat n => Float.ofScientific d.coefficient false n
    | .negSucc n => Float.ofScientific d.coefficient true (n + 1)

end Decimal

namespace Number

/-- A double rounded to a number of decimal places, a half of the exact value going to the even
digit; a zero loses its sign. -/
def roundPlaces (count : Nat) (x : Float) : Float :=
  match Reading.ofFloat x with
  | .finite negative significand exponent =>
    let result := (Decimal.places count significand exponent).toFloat
    if negative && result != 0.0 then -result else result
  | _ => x

end Number
end Storyboard
