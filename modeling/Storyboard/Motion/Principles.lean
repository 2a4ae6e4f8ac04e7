import Storyboard.Defaults
import Storyboard.Motion.Interpolation
import Storyboard.Motion.Spring
/-!
# Principles of animation

Squash and stretch, winding up, following through, and timing by beats. Winding up and following
through count frames at thirty in a second.
-/
namespace Storyboard.Motion

/-- How an object is deformed by its speed. -/
structure Deformation where
  /-- Its height when it is squashed most. -/
  squashRatio : Float := Defaults.squashRatio
  /-- Its height when it is stretched most. -/
  stretchRatio : Float := Defaults.stretchRatio
  /-- Whether its width makes up for its height. -/
  preserveVolume : Bool := true

/-- The width and height of an object at a speed from minus one to one. -/
def squashStretch (deformation : Deformation) (velocity : Float) :
    Except Fault (Float × Float) :=
  let t := Number.clamp velocity (-1.0) 1.0
  let height :=
    if 0.0 ≤ t then mix 1.0 deformation.stretchRatio t
    else mix 1.0 deformation.squashRatio (-t)
  if deformation.preserveVolume then
    (Number.divide 1.0 height).map fun width => (width, height)
  else .ok (1.0, height)

/-- A movement with a wind-up in the opposite direction. -/
structure Anticipation where
  /-- Frames of the wind-up. -/
  windUpFrames : Float
  /-- Frames of the movement itself. -/
  actionFrames : Float
  /-- How far the wind-up goes. -/
  pullback : Float
  /-- Where the movement ends. -/
  target : Float
  /-- Where the movement starts. -/
  start : Float := 0.0

namespace Anticipation

/-- The position at a frame: eased out during the wind-up, then sprung onto the target. -/
def position (a : Anticipation) (frame : Float) : Except Fault Float :=
  if frame < 0.0 then .ok a.start
  else if a.windUpFrames + a.actionFrames ≤ frame then .ok a.target
  else if frame < a.windUpFrames then do
    let progress ← Number.divide frame a.windUpFrames
    let eased ← Polynomial.quad.easeOut progress
    return a.start + a.pullback * eased
  else
    let spring : Spring :=
      { start := a.start + a.pullback
        target := a.target
        stiffness := Defaults.windUpStiffness
        damping := Defaults.windUpDamping }
    spring.position Defaults.principleFps (frame - a.windUpFrames)

end Anticipation

/-- The progress of what trails a movement by some frames, drawn along by a share; beyond the
end it swings out and comes to rest. -/
def followThrough (progress lagFrames drag overshoot : Float) : Except Fault Float :=
  let delayed := Number.larger 0.0 (progress - lagFrames / Defaults.principleFps)
  let dragged := delayed * (1.0 - drag) + progress * drag
  if 1.0 ≤ dragged then do
    let excess := dragged - 1.0
    let sine ← Number.sine (excess * Number.pi * 4.0)
    let envelope ← Number.exponential ((-excess) * 5.0)
    return 1.0 + overshoot * sine * envelope
  else .ok dragged

/-- The whole frames of a number of beats. -/
def beatsToFrames (beats fps beatsPerSecond : Float) : Except Fault Int := do
  let seconds ← Number.divide beats beatsPerSecond
  Number.roundHalfUp (seconds * fps)

/-- A named span of whole frames. -/
structure ActionSpan where
  /-- The name. -/
  action : String
  /-- The first frame. -/
  start : Int
  /-- The frame behind the last. -/
  finish : Int

/-- Lay out named numbers of beats one behind the other, from a frame on. -/
def layOutFrom (fps : Float) (current : Int) :
    List (String × Float) → Except Fault (List ActionSpan)
  | [] => .ok []
  | (action, beats) :: rest => do
    let frames ← beatsToFrames beats fps Defaults.beatsPerSecond
    let others ← layOutFrom fps (current + frames) rest
    return ⟨action, current, current + frames⟩ :: others

/-- Lay out named numbers of beats one behind the other from the first frame. -/
def actionTiming (actions : List (String × Float)) (fps : Float) :
    Except Fault (List ActionSpan) := layOutFrom fps 0 actions

end Storyboard.Motion
