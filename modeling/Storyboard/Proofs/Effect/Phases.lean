import Storyboard.Effect.Style
import Storyboard.Proofs.Number.Bounds
/-!
# Phases of effects

At a finite frame an effect waits, runs or has ended. What has passed since the delay is a rounded
difference, but it is below zero only before the delay, since no difference is rounded to zero.

Main statement: the style of an effect is that of its phase (`Effect.style_cases`).
-/
namespace Storyboard.Effect

open Binary64

variable {effect : Effect} {frame : Float}

/-- The style of an effect at a finite frame is the one it begins with before its delay, the one it
ends with from its end on, and a style of its own in between. -/
theorem style_cases (viewport : Viewport) (finite : frame.isFinite = true)
    (finiteDelay : effect.delay.isFinite = true)
    (finiteDuration : effect.duration.isFinite = true) :
    (frame < effect.delay ∧
      effect.style viewport frame = (effect.initialStyle viewport).mapError .arithmetic) ∨
    (effect.delay ≤ frame ∧ effect.duration ≤ frame - effect.delay ∧
      effect.style viewport frame = (effect.finalStyle viewport).mapError .arithmetic) ∨
    (effect.delay ≤ frame ∧ 0.0 ≤ frame - effect.delay ∧ frame - effect.delay < effect.duration ∧
      effect.style viewport frame = effect.runningStyle viewport (frame - effect.delay)) := by
  have number := isNaN_of_isFinite finite
  have numberDelay := isNaN_of_isFinite finiteDelay
  have numberPassed := isNaN_sub number finiteDelay
  have waiting := sub_lt_zero_iff finite finiteDelay
  rw [style]
  by_cases before : frame < effect.delay
  · exact .inl ⟨before, if_pos (waiting.mpr before)⟩
  · have passed : ¬ frame - effect.delay < 0.0 := fun less => before (waiting.mp less)
    have later := le_of_not_lt numberDelay number before
    simp only [if_neg passed]
    by_cases ended : effect.duration ≤ frame - effect.delay
    · exact .inr (.inl ⟨later, ended, if_pos ended⟩)
    · exact .inr (.inr ⟨later, le_of_not_lt isNaN_zero numberPassed passed,
        lt_of_not_le numberPassed (isNaN_of_isFinite finiteDuration) ended, if_neg ended⟩)

end Storyboard.Effect
