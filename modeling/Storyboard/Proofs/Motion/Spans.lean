import Storyboard.Proofs.Number.HalfUp
import Storyboard.Timeline.Basic
/-!
# Whole frames of a length and of its ends

The effect of a transition takes the whole frames of its length, while a timeline tells the whole
frames of its ends. In exact arithmetic, without the rounding of doubles, the two counts need not be
the same, since the one rounds a difference and the other one takes the difference of two rounded
numbers; but they are never more than one frame apart.

Main statement: both counts are at least zero and at most one frame apart
(`framesBetween_framesOfEnds`).
-/
namespace Storyboard.Motion

open Binary64

/-- In exact arithmetic rounding half up gives the nearest whole number. -/
theorem exists_roundHalfUp_rat (q : ℚ) :
    ∃ n, Number.roundHalfUp q = .ok n ∧ IsNearestUp n q := by
  have lower := Int.floor_le (q + 1 / 2)
  have upper := Int.lt_floor_add_one (q + 1 / 2)
  have half : (0.5 : ℚ) = 1 / 2 := by norm_num
  refine ⟨⌊q + 1 / 2⌋, ?_, ⟨by linarith, by linarith⟩⟩
  rw [Number.roundHalfUp, half]
  rfl

variable {p q : ℚ} {m n k : Int}

/-- Of two numbers the greater one has no lesser nearest whole number. -/
theorem nearest_mono (less : p ≤ q) (first : IsNearestUp m p) (last : IsNearestUp n q) :
    m ≤ n := by
  have apart : (m : ℚ) < n + 1 := by linarith [first.lower, last.upper]
  exact Int.lt_add_one_iff.mp (by exact_mod_cast apart)

/-- The nearest whole number to a difference is at most one away from the difference of the nearest
whole numbers. -/
theorem nearest_sub (first : IsNearestUp m p) (last : IsNearestUp n q)
    (between : IsNearestUp k (q - p)) : |k - (n - m)| ≤ 1 := by
  have above : (k : ℚ) < n - m + 2 := by
    linarith [between.lower, first.lower, last.upper]
  have below : (n : ℚ) - m < k + 2 := by
    linarith [between.upper, first.upper, last.lower]
  have more : k < n - m + 2 := by exact_mod_cast above
  have less : n - m < k + 2 := by exact_mod_cast below
  rw [abs_le]
  omega

/-- The whole frames of a length and the frames between those of its ends are both at least zero,
and they are at most one frame apart, wherever the ends lie between two frames. -/
theorem framesBetween_framesOfEnds (start finish fps : ℚ) (ordered : start ≤ finish)
    (positive : 0 < fps) :
    ∃ count first last, Number.framesBetween start finish fps = .ok count ∧
      Number.framesOfEnds start finish fps = .ok (first, last) ∧
      0 ≤ count ∧ 0 ≤ last - first ∧ |count - (last - first)| ≤ 1 := by
  obtain ⟨count, counted, between⟩ := exists_roundHalfUp_rat ((finish - start) * fps)
  obtain ⟨first, told, start_near⟩ := exists_roundHalfUp_rat (start * fps)
  obtain ⟨last, told_last, finish_near⟩ := exists_roundHalfUp_rat (finish * fps)
  have zero : IsNearestUp 0 0 := by constructor <;> norm_num
  have length : 0 ≤ (finish - start) * fps := mul_nonneg (sub_nonneg.mpr ordered) positive.le
  refine ⟨count, first, last, counted, ?_, nearest_mono length zero between,
    sub_nonneg.mpr (nearest_mono (mul_le_mul_of_nonneg_right ordered positive.le) start_near
      finish_near), ?_⟩
  · rw [Number.framesOfEnds, Number.framesOf, Number.framesOf, told, told_last]
    rfl
  · rw [sub_mul] at between
    exact nearest_sub start_near finish_near between

/-- From a half to seven fifths of a frame it is one frame by the length and none by the ends. -/
theorem framesBetween_framesOfEnds_apart :
    (1 / 60 : ℚ) ≤ 7 / 150 ∧ (0 : ℚ) < 30 ∧
      Number.framesBetween (1 / 60 : ℚ) (7 / 150) 30 = .ok 1 ∧
      Number.framesOfEnds (1 / 60 : ℚ) (7 / 150) 30 = .ok (1, 1) ∧
      ∃ count first last, Number.framesBetween (1 / 60 : ℚ) (7 / 150) 30 = .ok count ∧
        Number.framesOfEnds (1 / 60 : ℚ) (7 / 150) 30 = .ok (first, last) ∧
        0 ≤ count ∧ 0 ≤ last - first ∧ |count - (last - first)| ≤ 1 :=
  ⟨by norm_num, by norm_num, by decide +kernel, by decide +kernel,
    framesBetween_framesOfEnds _ _ _ (by norm_num) (by norm_num)⟩

end Storyboard.Motion
