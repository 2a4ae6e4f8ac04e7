import Storyboard.Motion.Point
/-!
# Values of keyframes

A keyframe holds a number, a text, a point, or something that cannot be blended. Numbers and
points are blended along the way; a text gives way to the next one at half of it; of values of
different kinds the later one holds at once.
-/
namespace Storyboard

/-- A value at a keyframe. -/
inductive Value where
  /-- Nothing. -/
  | nothing
  /-- A truth value. -/
  | flag (value : Bool)
  /-- A number. -/
  | number (value : Float)
  /-- A text. -/
  | text (value : String)
  /-- A point. -/
  | point (value : Point)
  /-- Named numbers, which are a point if an `x` and a `y` are among them. -/
  | mapping (fields : List (String × Float))

namespace Value

/-- The point that a value is, if it is one. -/
def point? : Value → Option Point
  | .point p => some p
  | .mapping fields =>
    match fields.lookup "x", fields.lookup "y" with
    | some x, some y => some ⟨x, y⟩
    | _, _ => none
  | _ => none

/-- The value at a progress between two values. -/
def blend (start finish : Value) (progress : Float) : Value :=
  match start, finish with
  | .number a, .number b => .number (Motion.mix a b progress)
  | .text a, .text b => .text (if progress < 0.5 then a else b)
  | _, _ =>
    match start.point?, finish.point? with
    | some a, some b => .point (a.mix b progress)
    | _, _ => finish

/-- Whether a value is a number. -/
def isNumber : Value → Bool
  | .number _ => true
  | _ => false

/-- Whether a value is a text. -/
def isText : Value → Bool
  | .text _ => true
  | _ => false

/-- Whether a value is nothing. -/
def isNothing : Value → Bool
  | .nothing => true
  | _ => false

/-- Whether a value is nothing or an undefined number. -/
def isMissing : Value → Bool
  | .nothing => true
  | .number x => x.isNaN
  | _ => false

/-- An undefined number for nothing. -/
def asNumber : Value → Value
  | .nothing => .number Number.undefined
  | other => other

/-- Whether a column has numbers and nothing else but gaps. -/
def isNumeric (values : List Value) : Bool :=
  values.any isNumber && values.all fun v => v.isNumber || v.isNothing

/-- Whether a column has texts and nothing else but gaps. -/
def isTextual (values : List Value) : Bool :=
  values.any isText && values.all fun v => v.isText || v.isMissing

/-- A column of a table: in one of numbers only, or of texts only, nothing becomes an undefined
number. -/
def column (values : List Value) : List Value :=
  if isNumeric values || isTextual values then values.map asNumber else values

end Value
end Storyboard
