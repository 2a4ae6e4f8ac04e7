import Storyboard.Number.Fault
/-!
# Uniform draws

A generator with a state of 32 bits. Each draw adds a constant to the state, with wraparound,
and mixes the sum by shifts and products into 32 bits, which are read as a fraction of `2 ^ 32`.
The arithmetic is that of unbounded integers, cut back to 32 bits where a sum or a product can
exceed them. Only the low 32 bits of a seed count.

`Uniform` is what a consumer of draws needs of a generator.
-/
namespace Storyboard

/-- A source of draws from zero, included, to one, excluded. -/
class Uniform (σ : Type) where
  /-- The next draw, and the source after it. -/
  draw : σ → Float × σ

/-- A generator with a state of 32 bits. -/
structure Mulberry where
  /-- The state, below `2 ^ 32`. -/
  state : Nat
  deriving DecidableEq, Repr

namespace Mulberry

/-- One more than the greatest number of 32 bits. -/
def modulus : Nat := 4294967296

/-- What a draw adds to the state. -/
def increment : Nat := 0x6D2B79F5

/-- The low 32 bits. -/
def low (n : Nat) : Nat := n % modulus

/-- A product cut back to 32 bits. -/
def product (a b : Nat) : Nat := low (a * b)

/-- The generator of a seed. -/
def ofSeed (seed : Int) : Mulberry := ⟨(seed % (modulus : Int)).toNat⟩

/-- The bits that a state is mixed into. -/
def mix (state : Nat) : Nat :=
  let t := product (state ^^^ (state >>> 15)) (state ||| 1)
  let t := t ^^^ low (t + product (t ^^^ (t >>> 7)) (t ||| 61))
  low (t ^^^ (t >>> 14))

/-- The generator after one draw. -/
def advance (g : Mulberry) : Mulberry := ⟨low (g.state + increment)⟩

/-- The next draw as a number of 32 bits. -/
def bits (g : Mulberry) : Nat := mix g.advance.state

/-- The next draw. -/
def draw (g : Mulberry) : Float × Mulberry :=
  (Number.ofNat g.bits / 4294967296.0, g.advance)

instance : Uniform Mulberry := ⟨draw⟩

end Mulberry
end Storyboard
