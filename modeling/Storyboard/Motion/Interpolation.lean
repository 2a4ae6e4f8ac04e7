import Storyboard.Easing.Basic
/-!
# Mapping values and counting frames

Values are mapped from one range to another, with progress eased and bounds kept if asked.
Positions are converted between frames, seconds and milliseconds; a position in frames is the
nearest whole frame, a half going up.
-/
namespace Storyboard

/-- Two ends of a range, in any order. -/
structure Range where
  /-- The first end. -/
  first : Float
  /-- The last end. -/
  last : Float

namespace Range

/-- The smaller end and the larger one. -/
def sorted (range : Range) : Range :=
  if range.last < range.first then ⟨range.last, range.first⟩ else range

end Range

namespace Motion

/-- What lies at a fraction of the way from one value to another. -/
def mix (start finish t : Float) : Float := start + (finish - start) * t

/-- Map a value from one range onto another. An empty range maps to the first end. -/
def lerp (input output : Range) (value : Float) : Float :=
  if input.last == input.first then output.first
  else mix output.first output.last ((value - input.first) / (input.last - input.first))

/-- Map a value from one range onto another, with its progress eased; with bounds kept, both the
progress and the result stay within. -/
def interpolate (input output : Range) (keepBounds : Bool) (easing : Easing) (value : Float) :
    Except Fault Float :=
  if input.last == input.first then .ok output.first
  else
    let progress := (value - input.first) / (input.last - input.first)
    let progress := if keepBounds then Number.clamp progress 0.0 1.0 else progress
    (easing.apply progress).map fun eased =>
      let mapped := mix output.first output.last eased
      if keepBounds then Number.clamp mapped output.sorted.first output.sorted.last else mapped

/-- The milliseconds of a number of frames. -/
def framesToMilliseconds (frames fps : Float) : Except Fault Float :=
  (Number.divide frames fps).map (· * 1000.0)

/-- The seconds of a number of frames. -/
def framesToSeconds (frames fps : Float) : Except Fault Float := Number.divide frames fps

/-- The nearest whole frame to a position in milliseconds. -/
def millisecondsToFrames (milliseconds fps : Float) : Except Fault Int :=
  Number.roundHalfUp (milliseconds / 1000.0 * fps)

/-- The nearest whole frame to a position in seconds. -/
def secondsToFrames (seconds fps : Float) : Except Fault Int :=
  Number.roundHalfUp (seconds * fps)

/-- A value with its distance from a centre multiplied. -/
def exaggerate (value factor center : Float) : Float := center + (value - center) * factor

end Motion
end Storyboard
