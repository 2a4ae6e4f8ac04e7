import Storyboard.Effect.Basic
import Storyboard.Motion.Interpolation
import Storyboard.Number.Layout
import Storyboard.Text.Symbol
/-!
# Styles of effects

An effect gives a style for each frame counted from its start. During the delay that is the
style it begins with, from its end on the style it ends with, and in between the style at its
eased progress. A spring and typing have a course of their own and no easing.
-/
namespace Storyboard

/-- The extent of a viewport along one side. -/
inductive Extent where
  /-- So many pixels. -/
  | pixels (count : Int)
  /-- A length in pixels. -/
  | length (x : Float)

/-- How far an effect is on its way. -/
inductive Progress where
  /-- At the very start, where nothing is calculated. -/
  | start
  /-- At a fraction of the way. -/
  | fraction (x : Float)

namespace Progress

/-- The fraction of the way. -/
def toFloat : Progress → Float
  | .start => 0.0
  | .fraction x => x

/-- The eased progress at a fraction of the time. -/
def ofTime (easing : Easing) (t : Float) : Except Fault Progress :=
  if easing.givesStart t then .ok .start else (easing.apply t).map .fraction

end Progress

namespace Extent

/-- An extent as a double, unless it is too large for one. -/
def toFloat : Extent → Except Fault Float
  | .pixels count => Number.unlessOverflow true (Number.ofInt count)
  | .length x => .ok x

/-- What is left of an extent at some progress: at the very start the extent itself, however
many pixels it has, and later a part of it as a double. -/
def left (extent : Extent) : Progress → Except Fault Extent
  | .start => .ok extent
  | .fraction x => extent.toFloat.map fun whole => .length (whole * (1.0 - x))

/-- Whether an extent is nothing. -/
def isZero : Extent → Bool
  | .pixels count => count == 0
  | .length x => x == 0.0

/-- An extent as a style value, with all its digits if it has a double at all. -/
def cssText (extent : Extent) : Except Fault String :=
  extent.toFloat.map fun x =>
    match extent with
    | .pixels count => Number.intText count
    | .length _ => Number.cssText x

end Extent

/-- What an effect is applied to. -/
structure Viewport where
  /-- Frames in a second. -/
  fps : Float := Defaults.fps
  /-- Width in pixels. -/
  width : Extent := .pixels Defaults.width
  /-- Height in pixels. -/
  height : Extent := .pixels Defaults.height
  /-- The text to type. -/
  text : String := ""

namespace Viewport

/-- The extent along the direction of a side. -/
def along (viewport : Viewport) (side : Side) : Extent :=
  if side.isHorizontal then viewport.width else viewport.height

end Viewport

/-- Style values for one frame; what is absent stays as it is. -/
structure Style where
  /-- The opacity. -/
  opacity : Option Float := none
  /-- The transform. -/
  transform : Option String := none
  /-- The point that the transform leaves in place. -/
  transformOrigin : Option String := none
  /-- The part that is shown. -/
  clipPath : Option String := none
  /-- The text typed so far. -/
  visibleText : Option String := none
  /-- Whether the cursor is shown. -/
  showCursor : Option Bool := none

namespace Style

/-- The style values that are there, as plain data. -/
def plain (style : Style) : Json :=
  .obj ((style.opacity.map fun x => ("opacity", Json.float x)).toList ++
    (style.transform.map fun s => ("transform", Json.str s)).toList ++
    (style.transformOrigin.map fun s => ("transform_origin", Json.str s)).toList ++
    (style.clipPath.map fun s => ("clip_path", Json.str s)).toList ++
    (style.visibleText.map fun s => ("visible_text", Json.str s)).toList ++
    (style.showCursor.map fun b => ("show_cursor", Json.bool b)).toList)

end Style

/-- Why an effect has no style at a frame. -/
inductive EffectError where
  /-- Its easing has a name that means none. -/
  | unknownEasing (name : String)
  /-- An operation has no result. -/
  | arithmetic (fault : Fault)

namespace EffectError

/-- The wording of an error; some faults of arithmetic have none. -/
def message : EffectError → Option String
  | .unknownEasing name => some (Easing.unknownMessage name)
  | .arithmetic fault => fault.message

end EffectError

namespace Effect

/-- The transform that moves something to its side by a distance. -/
def translate (side : Side) (distance : Extent) : Except Fault String :=
  let axis := if side.isHorizontal then "X" else "Y"
  let sign := if (side = .left || side = .up) && !distance.isZero then "-" else ""
  distance.cssText.map fun pixels => "translate" ++ axis ++ "(" ++ sign ++ pixels ++ "px)"

/-- The style of something that is still away from its place by what is left of an extent. -/
def moved (side : Side) (extent : Extent) (progress : Progress) : Except Fault Style := do
  let distance ← extent.left progress
  let transform ← translate side distance
  return { transform := some transform }

/-- The part that is shown when a percentage is hidden from a side. -/
def inset (side : Side) (percentage : Float) : String :=
  let hidden := if percentage == 0.0 then "0" else Number.cssText percentage ++ "%"
  match side with
  | .left => "inset(0 " ++ hidden ++ " 0 0)"
  | .right => "inset(0 0 0 " ++ hidden ++ ")"
  | .up => "inset(" ++ hidden ++ " 0 0 0)"
  | .down => "inset(0 0 " ++ hidden ++ " 0)"

/-- The style of a spring at a position. -/
def springStyle (position : Float) : Style :=
  { opacity := some position
    transform := some
      ("translateY(" ++ Number.cssText ((1.0 - position) * Defaults.springRise) ++ "px)") }

/-- The style of an effect at its eased progress; that of typing, which has a course of its own,
is the one it ends with. -/
def styleAt (kind : EffectKind) (viewport : Viewport) (progress : Progress) :
    Except Fault Style :=
  let fraction := progress.toFloat
  match kind with
  | .fade start finish => .ok { opacity := some (Motion.mix start finish fraction) }
  | .slide side distance => moved side (.length distance) progress
  | .push side => moved side (viewport.along side) progress
  | .scale start finish origin =>
    .ok
      { transform := some
          ("scale(" ++ Number.cssText (Motion.mix start finish fraction) ++ ")")
        transformOrigin := some origin.style }
  | .wipe side => .ok { clipPath := some (inset side ((1.0 - fraction) * 100.0)) }
  | .typewriter _ _ _ => .ok { visibleText := some viewport.text, showCursor := some false }
  | .spring _ _ _ => .ok (springStyle fraction)

/-- The style before an effect starts. -/
def initialStyle (effect : Effect) (viewport : Viewport) : Except Fault Style :=
  match effect.kind with
  | .typewriter cursor _ _ => .ok { visibleText := some "", showCursor := some cursor }
  | kind => styleAt kind viewport (.fraction 0.0)

/-- The style once an effect has ended. -/
def finalStyle (effect : Effect) (viewport : Viewport) : Except Fault Style :=
  styleAt effect.kind viewport (.fraction 1.0)

/-- Whether a blinking cursor is on at a frame: it changes every so many frames. -/
def blinkOn (frame : Float) (blinkFrames : Int) : Except Fault Bool :=
  let period := Number.ofInt blinkFrames
  if period.isInf then .error .overflow
  else do
    let quotient ← Number.divide frame period
    let count ← Number.floor quotient
    return count % 2 == 0

/-- The style of typing at a frame after the delay. -/
def typedStyle (cursor : Bool) (blinkFrames : Int) (charsPerFrame frame : Float)
    (text : String) : Except Fault Style := do
  let typed ← Number.floor (frame * charsPerFrame)
  let size := Text.size text.toList
  let visible := min typed size
  let on ← if cursor then blinkOn frame blinkFrames else .ok false
  return {
    visibleText := some (String.ofList (Text.front visible.toNat text.toList))
    showCursor := some (on && decide (visible < size)) }

/-- The easing of an effect; by default it slows down to the end. -/
def easingOf (effect : Effect) : Except EffectError Easing :=
  match effect.easing with
  | none => .ok Easing.easeOutCubic
  | some choice => choice.resolve.mapError .unknownEasing

/-- The style between the delay and the end, at a frame after the delay. -/
def runningStyle (effect : Effect) (viewport : Viewport) (frame : Float) :
    Except EffectError Style :=
  match effect.kind with
  | .typewriter cursor blinkFrames charsPerFrame =>
    (typedStyle cursor blinkFrames charsPerFrame frame viewport.text).mapError .arithmetic
  | .spring mass stiffness damping =>
    let spring : Spring := { mass, stiffness, damping }
    ((spring.position viewport.fps frame).map springStyle).mapError .arithmetic
  | kind => do
    let easing ← effect.easingOf
    let time ← (Number.divide frame effect.duration).mapError .arithmetic
    let progress ← (Progress.ofTime easing time).mapError .arithmetic
    (styleAt kind viewport progress).mapError .arithmetic

/-- The style at a frame counted from the start of the effect. -/
def style (effect : Effect) (viewport : Viewport) (frame : Float) : Except EffectError Style :=
  let running := frame - effect.delay
  if running < 0.0 then (effect.initialStyle viewport).mapError .arithmetic
  else if effect.duration ≤ running then (effect.finalStyle viewport).mapError .arithmetic
  else effect.runningStyle viewport running

end Effect
end Storyboard
