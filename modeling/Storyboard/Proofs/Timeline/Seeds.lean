import Storyboard.Proofs.Random.Period
import Storyboard.Proofs.Timeline.Ending
import Storyboard.Proofs.Timeline.Essence
import Storyboard.Proofs.Timeline.Stream
/-!
# Seeds

A seed is given to a resolution or stands in the composition. Either way it counts only for the
generator that the pauses are drawn from, and there only by its lowest 32 bits. So a seed that is
given wins over that of the composition, whatever the two are, and has the effect that any seed with
the same 32 bits has in the place of that one (`Composition.resolve_withSeed`).
-/
namespace Storyboard

/-- Seeds that are congruent modulo `2 ^ 32` begin one generator. -/
theorem Mulberry.ofSeed_congr {seed other : Int} (congruent : seed ≡ other [ZMOD 2 ^ 32]) :
    ofSeed seed = ofSeed other := by
  have low : seed % (modulus : Int) = other % (modulus : Int) := congruent
  rw [ofSeed, low, ofSeed]

namespace Composition

/-- A composition with a seed of its own. -/
def withSeed (composition : Composition) (seed : Int) : Composition :=
  { composition with voiceover := { composition.voiceover with seed := some seed } }

end Composition

namespace Plan

/-- A plan with a seed, which stands in the composition too. -/
def withSeed (plan : Plan) (seed : Int) : Plan :=
  { plan with composition := plan.composition.withSeed seed, seed := some seed }

/-- A composition is made ready with its own seed as it is with one that is given. -/
theorem ofComposition_withSeed (composition : Composition) (given own : Int)
    (estimate : Option (String → Float)) :
    ofComposition (composition.withSeed own) none estimate =
      (ofComposition composition (some given) estimate).map (·.withSeed own) := by
  have timeline : (composition.withSeed own).timeline = composition.timeline := rfl
  have leadIn : (composition.withSeed own).voiceover.leadInSeconds =
      composition.voiceover.leadInSeconds := rfl
  unfold ofComposition
  rw [timeline, leadIn]
  dsimp only
  split
  · rfl
  · split <;> rfl

/-- A seed that is given is that of the plan. -/
theorem seed_of_ready {composition : Composition} {given : Int}
    {estimate : Option (String → Float)} {plan : Plan}
    (ready : ofComposition composition (some given) estimate = .ok plan) :
    plan.seed = some given := by
  obtain ⟨_, _, rfl⟩ := ofComposition_eq_ok ready
  rfl

/-- Congruent seeds draw the same lengths of pauses. -/
theorem drawn_withSeed {plan : Plan} {seed other : Int} (seeded : plan.seed = some seed)
    (congruent : seed ≡ other [ZMOD 2 ^ 32]) : (plan.withSeed other).drawn = plan.drawn := by
  have generators : (plan.withSeed other).generator = plan.generator := by
    rw [generator_of_seed seeded, Mulberry.ofSeed_congr congruent]
    rfl
  rw [drawn, generators]
  rfl

end Plan

namespace Composition

/-- A composition resolves with a seed that is given as it does with a congruent seed of its own: to
the same timeline or the same error, with the same events. -/
theorem resolve_withSeed (composition : Composition) (estimate : Option (String → Float))
    {given own : Int} (congruent : given ≡ own [ZMOD 2 ^ 32]) :
    composition.resolve (some given) estimate =
      (composition.withSeed own).resolve none estimate := by
  have ready := Plan.ofComposition_withSeed composition given own estimate
  cases authored : Plan.ofComposition composition (some given) estimate with
  | error cause =>
    rw [authored] at ready
    rw [resolve, resolve, authored, ready]
    rfl
  | ok plan =>
    rw [authored] at ready
    rw [resolve_of_ready authored, resolve_of_ready ready,
      Plan.drawn_withSeed (Plan.seed_of_ready authored) congruent]
    have same : plan.essence = (plan.withSeed own).essence := rfl
    exact congrArg Prod.snd (Plan.runDrawn_congr same plan.drawn [])

/-- Two cues with a sampled pause between them, and a seed. -/
def swaying : Composition where
  voiceover := {
    seed := some 7
    pauseBetweenItems := some (.pause (.gaussian 1.0 0.5 none none)) }
  timeline := [
    .scene {
      id := "scene"
      items := [
        .cue { id := "hello", duration := some (.seconds 2.0) },
        .cue { id := "goodbye", duration := some (.seconds 1.0) }] }]

/-- The seed -1 in the place of another one draws the pauses that `2 ^ 32 - 1` draws. -/
theorem swaying_withSeed : (-1 : Int) ≡ 4294967295 [ZMOD 2 ^ 32] ∧
    swaying.resolve (some (-1)) none = (swaying.withSeed 4294967295).resolve none none := by
  have congruent : (-1 : Int) ≡ 4294967295 [ZMOD 2 ^ 32] := by decide
  exact ⟨congruent, swaying.resolve_withSeed none congruent⟩

end Composition
end Storyboard
