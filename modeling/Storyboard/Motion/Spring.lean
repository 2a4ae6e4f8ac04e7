import Storyboard.Defaults
import Storyboard.Number.Decimal
/-!
# Springs

A damped spring that starts at rest and settles on its target, in closed form, so that any frame
can be asked for by itself. `Spring.position` reports faults of its arithmetic; `Spring.sampled`
lets them become undefined numbers, and rounds to nine decimal places, below which the last bits
of sines and exponentials differ between machines.
-/
namespace Storyboard

/-- A spring. -/
structure Spring where
  /-- The position it starts from. -/
  start : Float := 0.0
  /-- The position it settles on. -/
  target : Float := 1.0
  /-- The mass that it moves. -/
  mass : Float := Defaults.springMass
  /-- How hard it pulls. -/
  stiffness : Float := Defaults.springStiffness
  /-- How much it is held back. -/
  damping : Float := Defaults.springDamping

namespace Spring

/-- The least number of frames in a second. -/
def leastFps : Float := 1e-6

/-- The undamped frequency, and the damping as a fraction of that without a swing. -/
def rates (spring : Spring) : Except Fault (Float × Float) := do
  let mass := Number.larger Defaults.leastSpringMass spring.mass
  let stiffness := Number.larger Defaults.leastSpringStiffness spring.stiffness
  let damping := Number.larger 0.0 spring.damping
  let frequency ← Number.squareRoot (stiffness / mass)
  let critical ← Number.squareRoot (stiffness * mass)
  let ratio ← Number.divide damping (2.0 * critical)
  return (frequency, ratio)

/-- The distance left at a moment, as a part of the whole way. -/
def displacement (frequency ratio time : Float) : Except Fault Float :=
  if ratio < 1.0 then do
    let root ← Number.squareRoot (1.0 - ratio * ratio)
    let swing := frequency * root
    let envelope ← Number.exponential ((-ratio) * frequency * time)
    let cosine ← Number.cosine (swing * time)
    let share ← Number.divide ratio root
    let sine ← Number.sine (swing * time)
    return envelope * (cosine + share * sine)
  else if ratio == 1.0 then do
    let envelope ← Number.exponential ((-frequency) * time)
    return envelope * (1.0 + frequency * time)
  else do
    let root ← Number.squareRoot (ratio * ratio - 1.0)
    let slow := (-frequency) * (ratio - root)
    let fast := (-frequency) * (ratio + root)
    let fastPart ← Number.exponential (fast * time)
    let slowPart ← Number.exponential (slow * time)
    Number.divide (slow * fastPart - fast * slowPart) (slow - fast)

/-- The position at a frame; a frame before the first counts as the first. -/
def position (spring : Spring) (fps frame : Float) : Except Fault Float :=
  if spring.start == spring.target then .ok spring.target
  else do
    let (frequency, ratio) ← spring.rates
    let time ← Number.divide (Number.larger 0.0 frame) (Number.larger leastFps fps)
    let left ← displacement frequency ratio time
    return spring.target - (spring.target - spring.start) * left

/-- The distance left at a moment, where a fault of arithmetic is an undefined number. -/
def displacementOrUndefined (frequency ratio time : Float) : Float :=
  if ratio < 1.0 then
    let root := (1.0 - ratio * ratio).sqrt
    let swing := frequency * root
    ((-ratio) * frequency * time).exp *
      ((swing * time).cos + ratio / root * (swing * time).sin)
  else if ratio == 1.0 then ((-frequency) * time).exp * (1.0 + frequency * time)
  else
    let root := (ratio * ratio - 1.0).sqrt
    let slow := (-frequency) * (ratio - root)
    let fast := (-frequency) * (ratio + root)
    (slow * (fast * time).exp - fast * (slow * time).exp) / (slow - fast)

/-- The larger of a frame and zero; an undefined frame stays. -/
def fromFirst (frame : Float) : Float := if frame < 0.0 then 0.0 else frame

/-- The positions at some frames, rounded to nine decimal places. -/
def sampled (spring : Spring) (fps : Float) (frames : List Float) : Except Fault (List Float) :=
  if spring.start == spring.target then
    .ok (frames.map fun _ => Number.roundPlaces 9 spring.target)
  else do
    let (frequency, ratio) ← spring.rates
    return frames.map fun frame =>
      let time := fromFirst frame / Number.larger leastFps fps
      Number.roundPlaces 9
        (spring.target - (spring.target - spring.start) *
          displacementOrUndefined frequency ratio time)

end Spring
end Storyboard
