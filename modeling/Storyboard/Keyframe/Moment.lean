import Storyboard.Number.Fault
/-!
# Moments

A track is asked at a moment: at a frame, which may have a fraction, or at a whole frame. Beyond
2^53 not every whole frame is a double, so whole frames are compared exactly. `Moment.between`
counts them.
-/
namespace Storyboard

namespace Reading

/-- How an integer compares with what a double stands for; it does not with no number. -/
def compareInt (n : Int) : Reading → Option Ordering
  | .undefined => none
  | .infinite negative => some (if negative then .gt else .lt)
  | .finite negative significand (.ofNat shift) =>
    some (compare n (signed negative significand * Int.pow 2 shift))
  | .finite negative significand (.negSucc shift) =>
    some (compare (n * Int.pow 2 (shift + 1)) (signed negative significand))

end Reading

/-- Why whole frames cannot be listed. -/
inductive FramesError where
  /-- The first or the last is no frame, or memory does not hold them. -/
  | arithmetic (fault : Fault)
  /-- Their number fits no word. -/
  | uncountable
  /-- Their number of bytes fits no word. -/
  | unaddressable
  deriving DecidableEq, Repr

namespace FramesError

/-- The wording of an error; some have none. -/
def message : FramesError → Option String
  | .arithmetic fault => fault.message
  | .uncountable => some "Maximum allowed size exceeded"
  | .unaddressable =>
    some ("array is too big; `arr.size * arr.dtype.itemsize` is larger than the maximum " ++
      "possible size.")

end FramesError

/-- When a track is asked. -/
inductive Moment where
  /-- At a frame. -/
  | frame (x : Float)
  /-- At a whole frame. -/
  | whole (n : Int)

namespace Moment

instance : Coe Float Moment := ⟨.frame⟩

/-- How many frames are counted where there is a number of them. The number is a double, and
one past the signed words of 64 bits means none. -/
def frameCount (number : Int) : Except FramesError Nat :=
  match Number.floor (Number.ofInt number) with
  | .error _ => .error .uncountable
  | .ok count =>
    if count < -Int.pow 2 63 || Int.pow 2 63 < count then .error .uncountable
    else if count = Int.pow 2 63 then .ok 0
    else if !Number.fitsSignedWord (8 * count) && 0 < count then .error .unaddressable
    else (Number.listSize count).mapError .arithmetic

/-- The whole frames from one to another, by their count. They are exact, unless the first fits
a signed word only and the end behind the last an unsigned one only: then they are doubles, by
steps of what the second double is above the first, which may be nothing. -/
def countedFrom (first last : Int) (count : Nat) : List Moment :=
  let frames := List.range count
  if Number.fitsSignedWord first && !Number.fitsSignedWord (last + 1) &&
      Number.fitsUnsignedWord (last + 1) then
    let start := Number.ofInt first
    let step := Number.ofInt (first + 1) - start
    frames.map fun i => .frame (start + Number.ofNat i * step)
  else frames.map fun (i : Nat) => .whole (first + i)

/-- The whole frames from one to another. -/
def between (first last : Int) : Except FramesError (List Moment) :=
  (frameCount (last + 1 - first)).map (countedFrom first last)

/-- The double nearest to a moment. -/
def toFloat : Moment → Float
  | .frame x => x
  | .whole n => Number.ofInt n

/-- Whether a moment is a frame or before it. -/
def isUpTo (moment : Moment) (frame : Float) : Bool :=
  match moment with
  | .frame x => x ≤ frame
  | .whole n => ((Reading.ofFloat frame).compareInt n).any Ordering.isLE

/-- Whether a moment is a frame or behind it. -/
def isFrom (moment : Moment) (frame : Float) : Bool :=
  match moment with
  | .frame x => frame ≤ x
  | .whole n => ((Reading.ofFloat frame).compareInt n).any Ordering.isGE

/-- Whether a moment is behind a frame. -/
def isAfter (moment : Moment) (frame : Float) : Bool :=
  match moment with
  | .frame x => frame < x
  | .whole n => ((Reading.ofFloat frame).compareInt n).any Ordering.isGT

/-- The frames from a frame to a moment. Between whole frames they are counted exactly if the
frame itself is a count. -/
def since (moment : Moment) (frame : Float) (counted : Bool) : Float :=
  match moment, counted, (Reading.ofFloat frame).whole? with
  | .whole n, true, some first => Number.ofInt (n - first)
  | _, _, _ => moment.toFloat - frame

end Moment
end Storyboard
