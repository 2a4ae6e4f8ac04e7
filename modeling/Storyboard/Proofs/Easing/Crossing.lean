import Mathlib
import Storyboard.Easing.Bezier
import Storyboard.Proofs.Number.Exact
/-!
# Where a bezier curve crosses a height

The first coordinate of a bezier curve in exact arithmetic, and the parameters at which it is a
target. Its control points may lie anywhere, so that it may turn back, and it may touch a target
without crossing it.

Main statements: between two parameters that bracket a target the first coordinate rises above it
(`Brackets.exists_rise`); where it rises it crosses the target if it does not exceed it before
(`Rises.crosses`) or is not level there (`crosses_of_xSlope_ne_zero`).
-/
namespace Storyboard.Bezier

open Set

variable (curve : Bezier ℝ) {target : ℝ}

/-! ## The first coordinate -/

/-- The curve begins at zero. -/
theorem x_zero : curve.x 0 = 0 := by
  simp only [x, coordinate, mul_zero]

/-- The curve ends at one. -/
theorem x_one : curve.x 1 = 1 := by
  simp only [x, coordinate]
  ring

/-- The first coordinate is continuous. -/
theorem continuous_x : Continuous curve.x := by
  unfold x coordinate
  fun_prop

/-- How fast the first coordinate grows is its derivative. -/
theorem hasDerivAt_x (t : ℝ) : HasDerivAt curve.x (curve.xSlope t) t := by
  have identity := hasDerivAt_id t
  have derivative := (((((identity.const_mul (1 - 3 * curve.x2 + 3 * curve.x1)).add_const
    (3 * curve.x2 - 6 * curve.x1)).mul identity).add_const (3 * curve.x1)).mul identity)
  refine derivative.congr_deriv ?_
  simp only [xSlope, slope, id, Pi.mul_apply]
  ring

/-- The first coordinate is not the same at four parameters in a row. -/
theorem eq_zero_of_x_eq {t h : ℝ} (first : curve.x (t - h) = curve.x t)
    (second : curve.x (t - 2 * h) = curve.x t) (third : curve.x (t - 3 * h) = curve.x t) :
    h = 0 := by
  simp only [x, coordinate] at first second third
  by_contra apart
  -- the third, second and first differences leave no cubic, square and linear part
  have cubic : 1 - 3 * curve.x2 + 3 * curve.x1 = 0 := by
    refine (mul_eq_zero.mp ?_).resolve_right (pow_ne_zero 3 apart)
    linear_combination -first / 2 + second / 2 - third / 6
  have square : 3 * curve.x2 - 6 * curve.x1 = 0 := by
    refine (mul_eq_zero.mp ?_).resolve_right (pow_ne_zero 2 apart)
    linear_combination -first + second / 2 - 3 * h ^ 2 * (t - h) * cubic
  have linear : 3 * curve.x1 = 0 := by
    refine (mul_eq_zero.mp ?_).resolve_right apart
    linear_combination -first - (2 * t * h - h ^ 2) * square -
      (3 * t ^ 2 * h - 3 * t * h ^ 2 + h ^ 3) * cubic
  linarith

/-! ## Crossing a target -/

/-- Whether the first coordinate is a target at a parameter and lies both below and above it as
close to there as one likes. -/
def Crosses (target t : ℝ) : Prop :=
  curve.x t = target ∧ ∀ ε > 0, (∃ s, |s - t| < ε ∧ curve.x s < target) ∧
    ∃ s, |s - t| < ε ∧ target < curve.x s

/-- Whether the first coordinate is a target at a parameter and exceeds it as close behind as one
likes. -/
def Rises (target t : ℝ) : Prop :=
  curve.x t = target ∧ ∀ ε > 0, ∃ s, t < s ∧ s < t + ε ∧ target < curve.x s

/-- Whether the first coordinate is at most a target at the lower of two parameters and above it at
the higher one. -/
def Brackets (target : ℝ) (bounds : ℝ × ℝ) : Prop :=
  curve.x bounds.1 ≤ target ∧ target < curve.x bounds.2

variable {curve}

/-- Where the first coordinate is a target and not level it crosses it. -/
theorem crosses_of_xSlope_ne_zero {t : ℝ} (same : curve.x t = target)
    (sloped : curve.xSlope t ≠ 0) : curve.Crosses target t := by
  subst same
  refine ⟨rfl, fun ε positive => ⟨?_, ?_⟩⟩
  · by_contra! none
    have least : IsLocalMin curve.x t := by
      filter_upwards [Metric.ball_mem_nhds t positive] with s near
      exact none s near
    exact sloped (least.hasDerivAt_eq_zero (curve.hasDerivAt_x t))
  · by_contra! none
    have most : IsLocalMax curve.x t := by
      filter_upwards [Metric.ball_mem_nhds t positive] with s near
      exact none s near
    exact sloped (most.hasDerivAt_eq_zero (curve.hasDerivAt_x t))

/-- Between two parameters that bracket a target there is one behind which the first coordinate
rises above the target, and up to which it does not. -/
theorem Brackets.exists_rise {bounds : ℝ × ℝ} (brackets : curve.Brackets target bounds)
    (ordered : bounds.1 ≤ bounds.2) :
    ∃ t ∈ Icc bounds.1 bounds.2, curve.Rises target t ∧
      ∀ s ∈ Icc bounds.1 t, curve.x s ≤ target := by
  obtain ⟨low, high⟩ := bounds
  obtain ⟨below, above⟩ := brackets
  -- It is the infimum of the parameters from which the coordinate is above the target.
  let risen : Set ℝ := {s | low ≤ s ∧ target < curve.x s}
  have reached : high ∈ risen := ⟨ordered, above⟩
  have bounded : BddBelow risen := ⟨low, fun s member => member.1⟩
  let t := sInf risen
  have from_low : low ≤ t := le_csInf ⟨high, reached⟩ fun s member => member.1
  have to_high : t ≤ high := csInf_le bounded reached
  have before : ∀ s ∈ Ico low t, curve.x s ≤ target := by
    intro s inside
    by_contra! risen_there
    exact absurd (csInf_le bounded (show s ∈ risen from ⟨inside.1, risen_there⟩)) inside.2.not_ge
  -- By continuity it is neither above the target there nor below.
  have at_most : curve.x t ≤ target := by
    rcases from_low.eq_or_lt with same | apart
    · rwa [← same]
    · have limit : t ∈ closure (Ico low t) := by
        rw [closure_Ico apart.ne]
        exact right_mem_Icc.mpr from_low
      exact closure_minimal before (isClosed_le curve.continuous_x continuous_const) limit
  have at_least : target ≤ curve.x t :=
    closure_minimal (fun s member => member.2.le) (isClosed_le continuous_const curve.continuous_x)
      (csInf_mem_closure ⟨high, reached⟩ bounded)
  have same := le_antisymm at_most at_least
  refine ⟨t, ⟨from_low, to_high⟩, ⟨same, fun ε positive => ?_⟩, fun s inside => ?_⟩
  · obtain ⟨s, member, close⟩ :=
      exists_lt_of_csInf_lt ⟨high, reached⟩ (lt_add_of_pos_right t positive)
    refine ⟨s, lt_of_le_of_ne (csInf_le bounded member) ?_, close, member.2⟩
    rintro rfl
    exact absurd member.2 at_most.not_gt
  · rcases inside.2.eq_or_lt with rfl | earlier
    · exact at_most
    · exact before s ⟨inside.1, earlier⟩

/-- Where the first coordinate rises above a target that it does not exceed before, it crosses
it. -/
theorem Rises.crosses {low t : ℝ} (rises : curve.Rises target t) (apart : low < t)
    (before : ∀ s ∈ Icc low t, curve.x s ≤ target) : curve.Crosses target t := by
  obtain ⟨same, behind⟩ := rises
  refine ⟨same, fun ε positive => ⟨?_, ?_⟩⟩
  · by_contra! none
    -- otherwise the first coordinate would stay on the target for a while
    obtain ⟨h, small, short⟩ := exists_between
      (show 0 < min ((t - low) / 3) (ε / 3) from lt_min (by linarith) (by linarith))
    obtain ⟨fits, near⟩ := lt_min_iff.mp short
    have stays (k : ℝ) (some_steps : 0 ≤ k) (few : k ≤ 3) : curve.x (t - k * h) = curve.x t := by
      have bound : k * h ≤ 3 * h := mul_le_mul_of_nonneg_right few small.le
      have back := mul_nonneg some_steps small.le
      rw [same]
      refine le_antisymm (before _ ⟨by linarith, by linarith⟩) (none _ ?_)
      rw [sub_sub_cancel_left, abs_neg, abs_of_nonneg back]
      linarith
    have first := stays 1 (by norm_num) (by norm_num)
    rw [one_mul] at first
    exact small.ne' (curve.eq_zero_of_x_eq first (stays 2 (by norm_num) (by norm_num))
      (stays 3 (by norm_num) (by norm_num)))
  · obtain ⟨s, later, close, above⟩ := behind ε positive
    exact ⟨s, abs_lt.mpr ⟨by linarith, by linarith⟩, above⟩

end Storyboard.Bezier
