import Storyboard.Motion.Interpolation
import Storyboard.Number.Layout
/-!
# Points and paths

Points of the plane, whose second coordinate grows downwards, and paths between them.
-/
namespace Storyboard

/-- A point of the plane. -/
structure Point where
  /-- To the right. -/
  x : Float
  /-- Downwards. -/
  y : Float

namespace Point

/-- The point at a fraction of the way from one to another. -/
def mix (a b : Point) (t : Float) : Point := ⟨Motion.mix a.x b.x t, Motion.mix a.y b.y t⟩

/-- The point at a fraction of a parabola that rises a height above the straight way. -/
def onArc (start finish : Point) (height t : Float) : Point :=
  let lift := -4.0 * height * t * (t - 1.0)
  ⟨Motion.mix start.x finish.x t, Motion.mix start.y finish.y t - lift⟩

/-- The point at a fraction of the cubic curve through four control points, by going between
neighbours three times; another number of control points is given back as a fault. -/
def onBezier (points : List Point) (progress : Float) : Except Nat Point :=
  match points with
  | [a, b, c, d] =>
    let t := Number.clamp progress 0.0 1.0
    let ab := mix a b t
    let bc := mix b c t
    let cd := mix c d t
    .ok (mix (mix ab bc t) (mix bc cd t) t)
  | other => .error other.length

/-- What is said of a curve with another number of control points than four. -/
def bezierMessage (count : Nat) : String :=
  "bezier_path needs 4 control points, got " ++ Number.intText count

end Point
end Storyboard
