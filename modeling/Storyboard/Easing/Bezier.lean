import Storyboard.Number.Scalar
/-!
# Bezier easings

A cubic curve from `(0, 0)` to `(1, 1)` with two control points, read as a function from its
first coordinate to its second. The parameter of a first coordinate is sought in three steps: a
table of eleven samples gives an interval, a straight line through its ends a first guess, and
then Newton's method where the curve is steep, or bisection of the interval where it is flat.
-/
namespace Storyboard

/-- The two control points of a curve. -/
structure Bezier (α : Type) where
  /-- First coordinate of the first point. -/
  x1 : α
  /-- Second coordinate of the first point. -/
  y1 : α
  /-- First coordinate of the second point. -/
  x2 : α
  /-- Second coordinate of the second point. -/
  y2 : α

namespace Bezier

variable {α : Type} [Scalar α]

/-- A coordinate of the curve at a parameter, given that coordinate of both control points. -/
def coordinate (t a1 a2 : α) : α :=
  (((1 - 3 * a2 + 3 * a1) * t + (3 * a2 - 6 * a1)) * t + 3 * a1) * t

/-- How fast a coordinate grows at a parameter. -/
def slope (t a1 a2 : α) : α :=
  3 * (1 - 3 * a2 + 3 * a1) * t * t + 2 * (3 * a2 - 6 * a1) * t + 3 * a1

/-- The first coordinate at a parameter. -/
def x (curve : Bezier α) (t : α) : α := coordinate t curve.x1 curve.x2

/-- How fast the first coordinate grows at a parameter. -/
def xSlope (curve : Bezier α) (t : α) : α := slope t curve.x1 curve.x2

/-- The distance of the parameters of two samples. -/
def step : α := 1 / 10

/-- The number of a sample, as a parameter counts it. -/
def sampleNumbers : List α := [1, 2, 3, 4, 5, 6, 7, 8, 9, 10]

/-- The first coordinates at the samples after the first. -/
def samples (curve : Bezier α) : List α :=
  sampleNumbers.map fun i => curve.x (i * step)

/-- An interval between two samples: the parameter it starts at, and the first coordinates at
its ends. -/
structure Interval (α : Type) where
  /-- The parameter at the start. -/
  start : α
  /-- The first coordinate at the start. -/
  low : α
  /-- The first coordinate at the end. -/
  high : α

/-- The interval that a first coordinate falls into, sought from a parameter on: the first whose
end lies above it, or the last one. -/
def locate (target start low : α) : List α → Interval α
  | [] => ⟨start, low, low⟩
  | [high] => ⟨start, low, high⟩
  | high :: rest =>
    if high ≤ target then locate target (start + step) high rest else ⟨start, low, high⟩

/-- Improve a guess by a number of steps of Newton's method. -/
def newton (curve : Bezier α) (target : α) : (steps : Nat) → α → α
  | 0, guess => guess
  | steps + 1, guess =>
    let rate := curve.xSlope guess
    if rate == 0 then guess
    else newton curve target steps (guess - (curve.x guess - target) / rate)

/-- How close to its target a bisection has to come. -/
def precision : α := 0.0000001

/-- Halve an interval of parameters a number of times, or until its middle is close to the
target. -/
def bisect (curve : Bezier α) (target : α) : (steps : Nat) → (low high middle : α) → α
  | 0, _, _, middle => middle
  | steps + 1, low, high, _ =>
    let middle := low + (high - low) / 2
    let excess := curve.x middle - target
    if Number.magnitude excess ≤ precision then middle
    else if 0 < excess then bisect curve target steps low middle middle
    else bisect curve target steps middle high middle

/-- The interval between two samples that a first coordinate falls into. -/
def interval (curve : Bezier α) (target : α) : Interval α :=
  locate target 0 (curve.x (0 * step)) curve.samples

/-- Where the straight line through the ends of an interval meets a target; the start of the
interval if its ends are level. -/
def Interval.guess (interval : Interval α) (target : α) : α :=
  let span := interval.high - interval.low
  let fraction := if span == 0 then 0 else (target - interval.low) / span
  interval.start + fraction * step

/-- Seek the parameter of a first coordinate by halving the interval that it falls into. -/
def bisectInterval (curve : Bezier α) (target : α) : α :=
  let start := (curve.interval target).start
  curve.bisect target 10 start (start + step) start

/-- The parameter of a first coordinate. -/
def parameter (curve : Bezier α) (target : α) : α :=
  let guess := (curve.interval target).guess target
  let rate := curve.xSlope guess
  if 0.001 ≤ rate then curve.newton target 4 guess
  else if rate == 0 then guess
  else curve.bisectInterval target

/-- Whether both control points lie on the diagonal. -/
def isDiagonal (curve : Bezier α) : Bool := curve.x1 == curve.y1 && curve.x2 == curve.y2

/-- The eased progress. Control points on the diagonal change nothing, and the ends stay. -/
def ease (curve : Bezier α) (t : α) : α :=
  if curve.isDiagonal then t
  else if t == 0 then 0
  else if t == 1 then 1
  else coordinate (curve.parameter t) curve.y1 curve.y2

end Bezier
end Storyboard
