import Storyboard.Random.Mulberry
/-!
# Normal draws

Two uniform draws give one draw of a normal distribution. A draw of zero has no logarithm, so
zeros are passed over; `drawNonzero` gives up after a number of attempts, and the period of a
`Mulberry` is a number that always suffices.
-/
namespace Storyboard

namespace Normal

/-- One draw of the normal distribution of a mean and a deviation from two uniform draws that
are not zero. -/
def ofUniform (mean std u v : Float) : Float :=
  let z := (-2.0 * u.log).sqrt * (2.0 * Number.pi * v).cos
  mean + z * std

/-- The first draw that is not zero among a number of draws, and the source after it. -/
def drawNonzero {σ : Type} [Uniform σ] : (attempts : Nat) → σ → Option (Float × σ)
  | 0, _ => none
  | attempts + 1, source =>
    let (u, rest) := Uniform.draw source
    if u == 0.0 then drawNonzero attempts rest else some (u, rest)

/-- One normal draw, trying each of its two uniform draws a number of times. -/
def sample? {σ : Type} [Uniform σ] (attempts : Nat) (mean std : Float) (source : σ) :
    Option (Float × σ) := do
  let (u, source) ← drawNonzero attempts source
  let (v, source) ← drawNonzero attempts source
  some (ofUniform mean std u v, source)

end Normal

namespace Mulberry

/-- One normal draw. The attempts are as many as there are states. -/
def normal (mean std : Float) (g : Mulberry) : Float × Mulberry :=
  (Normal.sample? modulus mean std g).getD (mean, g)

end Mulberry
end Storyboard
