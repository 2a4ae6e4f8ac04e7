import Storyboard.Composition.Basic
import Storyboard.Random.Normal
/-!
# Lengths of pauses

A fixed pause has its length, and draws nothing. A sampled pause takes one normal draw, which is
raised to the lower bound, then cut to the upper one, and last raised to zero; so the upper
bound wins over the lower, and no length is negative.
-/
namespace Storyboard.Pause

/-- A draw brought within bounds, in the order lower, upper, zero. -/
def limit (min max : Option Float) (value : Float) : Float :=
  let raised := match min with
    | some bound => Number.larger value bound
    | none => value
  let cut := match max with
    | some bound => Number.smaller raised bound
    | none => raised
  Number.larger 0.0 cut

/-- The length of one occurrence of a pause, trying each uniform draw a number of times. -/
def sample? {σ : Type} [Uniform σ] (attempts : Nat) (pause : Pause) (source : σ) :
    Option (Float × σ) :=
  match pause with
  | .fixed seconds => some (Number.larger 0.0 seconds, source)
  | .gaussian mean std min max =>
    (Normal.sample? attempts mean std source).map fun (value, rest) =>
      (limit min max value, rest)

/-- The length of one occurrence of a pause, in seconds. -/
def sample (pause : Pause) (g : Mulberry) : Float × Mulberry :=
  (pause.sample? Mulberry.modulus g).getD (0.0, g)

end Storyboard.Pause
