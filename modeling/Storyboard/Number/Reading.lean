/-!
# The exact value of a double

A double stands for no number, for an infinity, or for a signed whole multiple of a power of
two. `Reading.ofFloat` takes a double apart into that form with integer arithmetic on its bits,
so that every rule about digits, floors and whole numbers is a statement about integers.
-/
namespace Storyboard

/-- Whether an integer fits a signed word of 64 bits. -/
def Number.fitsSignedWord (n : Int) : Bool := -Int.pow 2 63 ≤ n && n < Int.pow 2 63

/-- Whether an integer fits an unsigned word of 64 bits. -/
def Number.fitsUnsignedWord (n : Int) : Bool := 0 ≤ n && n < Int.pow 2 64

/-- What a double stands for. -/
inductive Reading where
  /-- No number. -/
  | undefined
  /-- An infinity of the given sign. -/
  | infinite (negative : Bool)
  /-- The number `significand * 2 ^ exponent`, negated when `negative`. -/
  | finite (negative : Bool) (significand : Nat) (exponent : Int)
  deriving DecidableEq, Repr

namespace Reading

/-- Take the bit pattern of a double apart: one sign bit, eleven of the exponent, and fifty-two
of the significand, whose leading one is implicit except below the normal range. -/
def ofBits (bits : UInt64) : Reading :=
  let negative := bits >>> 63 != 0
  let biased := ((bits >>> 52) &&& 0x7ff).toNat
  let fraction := (bits &&& 0xfffffffffffff).toNat
  if biased = 2047 then
    if fraction = 0 then .infinite negative else .undefined
  else if biased = 0 then .finite negative fraction (-1074)
  else .finite negative (Nat.pow 2 52 + fraction) (biased - 1075)

/-- The value of a double. -/
def ofFloat (x : Float) : Reading := ofBits x.toBits

/-- A significand with its sign. -/
def signed (negative : Bool) (significand : Nat) : Int :=
  if negative then -(significand : Int) else significand

/-- The greatest integer not above `value * 2 ^ exponent`. -/
def floorScaled (value : Int) : Int → Int
  | .ofNat shift => value * Int.pow 2 shift
  | .negSucc shift => value / Int.pow 2 (shift + 1)

/-- Whether `value * 2 ^ exponent` is a whole number. -/
def isWholeScaled (value : Int) : Int → Bool
  | .ofNat _ => true
  | .negSucc shift => value % Int.pow 2 (shift + 1) == 0

/-- The integer that a double is, if it is one. -/
def whole? : Reading → Option Int
  | .finite negative significand exponent =>
    if isWholeScaled (signed negative significand) exponent then
      some (floorScaled (signed negative significand) exponent)
    else none
  | _ => none

end Reading
end Storyboard
