import Storyboard.Number.Scalar
/-!
# Polynomial easings

Six families of curves made of polynomial pieces. Each family has a curve that starts slowly, one
that ends slowly, and one that does both. They are written over a `Scalar`, so that their laws
can be stated in exact arithmetic of the very curves that run.
-/
namespace Storyboard

/-- The families of curves made of polynomial pieces. -/
inductive Polynomial where
  /-- Of the second degree. -/
  | quad
  /-- Of the third degree. -/
  | cubic
  /-- Of the fourth degree. -/
  | quart
  /-- Of the fifth degree. -/
  | quint
  /-- With a swing beyond the ends. -/
  | back
  /-- With bounces. -/
  | bounce
  deriving DecidableEq, Repr

namespace Polynomial

variable {α : Type} [Scalar α]

/-- How far the curve of `back` swings out. -/
def swing : α := 1.70158

/-- How far the curve of `back` swings out when it swings at both ends. -/
def swingBoth : α := swing * 1.525

/-- The bounces of a curve that ends in them. -/
def bounceOut (t : α) : α :=
  let height : α := 7.5625
  let width : α := 2.75
  if t < 1 / width then height * t * t
  else if t < 2 / width then
    let t := t - 1.5 / width
    height * t * t + 0.75
  else if t < 2.5 / width then
    let t := t - 2.25 / width
    height * t * t + 0.9375
  else
    let t := t - 2.625 / width
    height * t * t + 0.984375

/-- The curve that starts slowly. -/
def easeIn (family : Polynomial) (t : α) : Except Fault α :=
  match family with
  | .quad => .ok (t * t)
  | .cubic => .ok (t * t * t)
  | .quart => Scalar.power t 4
  | .quint => Scalar.power t 5
  | .back => do
    let cube ← Scalar.power t 3
    return (swing + 1) * cube - swing * t * t
  | .bounce => .ok (1 - bounceOut (1 - t))

/-- One less a power of what is left. -/
def fromEnd (t : α) (degree : Nat) : Except Fault α := do
  let rest ← Scalar.power (1 - t) degree
  return 1 - rest

/-- The curve that ends slowly. -/
def easeOut (family : Polynomial) (t : α) : Except Fault α :=
  match family with
  | .quad => .ok (1 - (1 - t) * (1 - t))
  | .cubic => fromEnd t 3
  | .quart => fromEnd t 4
  | .quint => fromEnd t 5
  | .back => do
    let cube ← Scalar.power (t - 1) 3
    let square ← Scalar.power (t - 1) 2
    return 1 + (swing + 1) * cube + swing * square
  | .bounce => .ok (bounceOut t)

/-- The second half of a curve that starts and ends slowly. -/
def secondHalf (t : α) (degree : Nat) : Except Fault α := do
  let rest ← Scalar.power (-2 * t + 2) degree
  return 1 - rest / 2

/-- The curve that starts and ends slowly. -/
def easeInOut (family : Polynomial) (t : α) : Except Fault α :=
  match family with
  | .quad => if t < 0.5 then .ok (2 * t * t) else secondHalf t 2
  | .cubic => if t < 0.5 then .ok (4 * t * t * t) else secondHalf t 3
  | .quart =>
    if t < 0.5 then do
      let fourth ← Scalar.power t 4
      return 8 * fourth
    else secondHalf t 4
  | .quint =>
    if t < 0.5 then do
      let fifth ← Scalar.power t 5
      return 16 * fifth
    else secondHalf t 5
  | .back =>
    if t < 0.5 then do
      let square ← Scalar.power (2 * t) 2
      return square * ((swingBoth + 1) * 2 * t - swingBoth) / 2
    else do
      let square ← Scalar.power (2 * t - 2) 2
      return (square * ((swingBoth + 1) * (t * 2 - 2) + swingBoth) + 2) / 2
  | .bounce =>
    if t < 0.5 then .ok ((1 - bounceOut (1 - 2 * t)) / 2)
    else .ok ((1 + bounceOut (2 * t - 1)) / 2)

end Polynomial
end Storyboard
