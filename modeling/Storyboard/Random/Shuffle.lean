import Storyboard.Random.Mulberry
/-!
# Shuffles

`shuffle` puts the numbers below a count into a random order: from the last place down, each
place is swapped with one that is drawn from those up to it.
-/
namespace Storyboard

namespace Shuffle

/-- The place drawn among those up to `last`. -/
def place (draw : Float) (last : Nat) : Nat :=
  match Number.floor (draw * Number.ofNat (last + 1)) with
  | .ok n => n.toNat
  | .error _ => 0

/-- Swap each place from `last` down with one drawn from those up to it. -/
def swaps {σ : Type} [Uniform σ] : (last : Nat) → σ → Array Nat → Array Nat
  | 0, _, order => order
  | last + 1, source, order =>
    let (draw, rest) := Uniform.draw source
    swaps last rest (order.swapIfInBounds (last + 1) (place draw (last + 1)))

end Shuffle

/-- The numbers below a count in the order of a seed. -/
def shuffle (count : Nat) (seed : Int) : List Nat :=
  (Shuffle.swaps (count - 1) (Mulberry.ofSeed seed) (Array.range count)).toList

/-- The numbers below an integer in the order of a seed, if there are not too many. -/
def Shuffle.below (count : Int) (seed : Int) : Except Fault (List Nat) :=
  (Number.listSize count).map fun size => shuffle size seed

end Storyboard
