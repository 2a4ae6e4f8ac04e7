import Mathlib.Tactic
import Mathlib.Topology.Instances.Real.Lemmas
import Storyboard.Easing.Polynomial
import Storyboard.Proofs.Number.Exact
/-!
# Curves of one family

A family of polynomial easings has three curves that are written down one by one. In exact
arithmetic one of them gives the other two: the curve that ends slowly is the curve that starts
slowly turned around, and the curve that does both is made of two copies at half the size, the
second of them turned around. Only `back` joins another curve than the one that starts slowly, since
it swings out further where it does so at both ends.

Main statement: the curves of each family are dual, symmetric and continuous, and they stay between
zero and one but for those of `back` (`exists_fitTogether`).
-/
namespace Storyboard.Polynomial

open Set

/-! ## Two curves joined -/

/-- A curve at half the size, and the same turned around behind it. -/
noncomputable def joined (curve : ℝ → ℝ) (t : ℝ) : ℝ :=
  if t < 1 / 2 then curve (2 * t) / 2 else 1 - curve (2 - 2 * t) / 2

/-- A joined curve is symmetric around its middle. -/
theorem joined_add_joined {curve : ℝ → ℝ} (finish : curve 1 = 1) (t : ℝ) :
    joined curve t + joined curve (1 - t) = 1 := by
  have there : 2 * (1 - t) = 2 - 2 * t := by ring
  have back : 2 - 2 * (1 - t) = 2 * t := by ring
  rcases lt_trichotomy t (1 / 2) with before | rfl | behind
  · rw [joined, joined, if_pos before, if_neg (by linarith), back]
    ring
  · norm_num [joined, finish]
  · rw [joined, joined, if_neg (by linarith), if_pos (by linarith), there]
    ring

/-- A joined curve stays between zero and one if the curve does. -/
theorem joined_mem {curve : ℝ → ℝ} (stays : ∀ t ∈ Icc (0 : ℝ) 1, curve t ∈ Icc (0 : ℝ) 1) {t : ℝ}
    (inside : t ∈ Icc (0 : ℝ) 1) : joined curve t ∈ Icc (0 : ℝ) 1 := by
  obtain ⟨lower, upper⟩ := inside
  rw [joined]
  split_ifs with before
  · obtain ⟨above, below⟩ := stays (2 * t) ⟨by linarith, by linarith⟩
    constructor <;> linarith
  · obtain ⟨above, below⟩ := stays (2 - 2 * t) ⟨by linarith, by linarith⟩
    constructor <;> linarith

/-- A continuous curve that gives way to another one where both meet is continuous. -/
theorem continuous_ite_lt {f g : ℝ → ℝ} {place : ℝ} (left : Continuous f) (right : Continuous g)
    (meet : f place = g place) : Continuous fun t => if t < place then f t else g t := by
  simp only [← not_le, ite_not]
  refine Continuous.if_le right left continuous_const continuous_id ?_
  rintro t rfl
  exact meet.symm

/-- A joined curve is continuous if the curve is. -/
theorem continuous_joined {curve : ℝ → ℝ} (smooth : Continuous curve) (finish : curve 1 = 1) :
    Continuous (joined curve) := by
  refine continuous_ite_lt (by fun_prop) (by fun_prop) ?_
  norm_num [finish]

/-! ## Bounces -/

/-- One of the arcs that bounces are made of. -/
noncomputable def arc (centre height t : ℝ) : ℝ := 121 / 16 * (t - centre) * (t - centre) + height

/-- An arc is continuous. -/
theorem continuous_arc (centre height : ℝ) : Continuous (arc centre height) := by
  unfold arc
  fun_prop

/-- An arc lies between its lowest point and its ends. -/
theorem arc_mem {centre height t : ℝ} (width : ℝ) (left : centre - width ≤ t)
    (right : t ≤ centre + width) :
    arc centre height t ∈ Icc height (121 / 16 * width ^ 2 + height) := by
  have square : (t - centre) ^ 2 ≤ width ^ 2 := sq_le_sq' (by linarith) (by linarith)
  have positive := sq_nonneg (t - centre)
  constructor <;> simp only [arc] <;> linarith

/-- Bounces are four arcs, each from where the one before ends. -/
theorem bounceOut_eq (t : ℝ) : bounceOut t =
    if t < 4 / 11 then arc 0 0 t
    else if t < 8 / 11 then arc (6 / 11) (3 / 4) t
    else if t < 10 / 11 then arc (9 / 11) (15 / 16) t
    else arc (21 / 22) (63 / 64) t := by
  simp only [bounceOut, arc]
  norm_num

/-- At each of the three places where an arc gives way to the next one both are at one. -/
theorem continuous_bounceOut : Continuous (bounceOut : ℝ → ℝ) := by
  rw [funext bounceOut_eq]
  refine continuous_ite_lt (continuous_arc _ _) (continuous_ite_lt (continuous_arc _ _)
    (continuous_ite_lt (continuous_arc _ _) (continuous_arc _ _) ?_) ?_) ?_ <;> norm_num [arc]

/-- Bounces stay between zero and one. -/
theorem bounceOut_mem {t : ℝ} (inside : t ∈ Icc (0 : ℝ) 1) : bounceOut t ∈ Icc (0 : ℝ) 1 := by
  obtain ⟨lower, upper⟩ := inside
  rw [bounceOut_eq]
  split_ifs with first second third
  · exact Icc_subset_Icc (by norm_num) (by norm_num)
      (arc_mem (4 / 11) (by linarith) (by linarith))
  · exact Icc_subset_Icc (by norm_num) (by norm_num)
      (arc_mem (2 / 11) (by linarith) (by linarith))
  · exact Icc_subset_Icc (by norm_num) (by norm_num)
      (arc_mem (1 / 11) (by linarith) (by linarith))
  · exact Icc_subset_Icc (by norm_num) (by norm_num)
      (arc_mem (1 / 22) (by linarith) (by linarith))

/-! ## The curve behind a family -/

/-- A curve that swings out below zero before it rises. -/
noncomputable def swinging (swing t : ℝ) : ℝ := (swing + 1) * t ^ 3 - swing * t ^ 2

/-- The curve of a family that starts slowly. -/
noncomputable def rise : Polynomial → ℝ → ℝ
  | .quad => fun t => t ^ 2
  | .cubic => fun t => t ^ 3
  | .quart => fun t => t ^ 4
  | .quint => fun t => t ^ 5
  | .back => swinging swing
  | .bounce => fun t => 1 - bounceOut (1 - t)

/-- The curve of a family that is joined to start and to end slowly. -/
noncomputable def halfRise : Polynomial → ℝ → ℝ
  | .back => swinging swingBoth
  | family => family.rise

variable (family : Polynomial)

/-- The curve that starts slowly. -/
theorem easeIn_eq (t : ℝ) : family.easeIn t = .ok (family.rise t) := by
  cases family
  case quart | quint | bounce => rfl
  all_goals
    refine congrArg Except.ok ?_
    simp only [rise, swinging]
    ring

/-- The curve that ends slowly is the one that starts slowly, turned around. -/
theorem easeOut_eq (t : ℝ) : family.easeOut t = .ok (1 - family.rise (1 - t)) := by
  cases family
  case cubic | quart | quint => rfl
  case bounce => simp only [easeOut, rise, sub_sub_cancel]
  case quad | back =>
    refine congrArg Except.ok ?_
    simp only [rise, swinging]
    ring

/-- The curve that starts and ends slowly is a curve joined to itself. -/
theorem easeInOut_eq (t : ℝ) : family.easeInOut t = .ok (joined family.halfRise t) := by
  have half : (0.5 : ℝ) = 1 / 2 := by norm_num
  rw [joined]
  by_cases before : t < 1 / 2
  · rw [if_pos before]
    cases family
    case bounce => simp only [easeInOut, half, if_pos before, halfRise, rise]
    all_goals
      simp only [easeInOut, half, if_pos before]
      refine congrArg Except.ok ?_
      simp only [halfRise, rise, swinging]
      ring
  · rw [if_neg before]
    cases family
    case bounce =>
      simp only [easeInOut, half, if_neg before, halfRise, rise]
      refine congrArg Except.ok ?_
      rw [show 1 - (2 - 2 * t) = 2 * t - 1 by ring]
      ring
    all_goals
      simp only [easeInOut, half, if_neg before]
      refine congrArg Except.ok ?_
      simp only [halfRise, rise, swinging]
      ring

/-! ## Laws of the curve behind a family -/

/-- The curve begins at zero. -/
theorem rise_zero : family.rise 0 = 0 := by
  cases family <;> norm_num [rise, swinging, bounceOut_eq, arc]

/-- The curve comes to one. -/
theorem rise_one : family.rise 1 = 1 := by
  cases family <;> norm_num [rise, swinging, bounceOut_eq, arc]

/-- But for the one of `back` the joined curve is the one that starts slowly. -/
theorem halfRise_eq (steady : family ≠ .back) : family.halfRise = family.rise := by
  cases family
  case back => exact absurd rfl steady
  all_goals rfl

/-- The joined curve comes to one. -/
theorem halfRise_one : family.halfRise 1 = 1 := by
  obtain rfl | steady := eq_or_ne family .back
  · norm_num [halfRise, swinging]
  · rw [family.halfRise_eq steady, family.rise_one]

/-- A curve that swings out is continuous. -/
theorem continuous_swinging (swing : ℝ) : Continuous (swinging swing) := by
  unfold swinging
  fun_prop

/-- The curve is continuous. -/
theorem continuous_rise : Continuous family.rise := by
  cases family
  case back => exact continuous_swinging _
  case bounce => exact continuous_const.sub (continuous_bounceOut.comp (continuous_sub_left 1))
  all_goals exact continuous_pow _

/-- The joined curve is continuous. -/
theorem continuous_halfRise : Continuous family.halfRise := by
  obtain rfl | steady := eq_or_ne family .back
  · exact continuous_swinging _
  · rw [family.halfRise_eq steady]
    exact family.continuous_rise

variable {family}

/-- But for the one of `back` the curve stays between zero and one. -/
theorem rise_mem (steady : family ≠ .back) {t : ℝ} (inside : t ∈ Icc (0 : ℝ) 1) :
    family.rise t ∈ Icc (0 : ℝ) 1 := by
  cases family
  case back => exact absurd rfl steady
  case bounce =>
    obtain ⟨above, below⟩ := bounceOut_mem (Icc.mem_iff_one_sub_mem.mp inside)
    exact ⟨sub_nonneg.mpr below, sub_le_self 1 above⟩
  all_goals exact ⟨pow_nonneg inside.1 _, pow_le_one₀ inside.1 inside.2⟩

/-! ## The three curves -/

/-- What the three curves of a family are to each other. -/
structure FitTogether (slowStart slowEnd slowBoth : ℝ → ℝ) : Prop where
  /-- A slow start begins at zero. -/
  start : slowStart 0 = 0
  /-- It comes to one. -/
  finish : slowStart 1 = 1
  /-- A slow end is a slow start turned around. -/
  dual : ∀ t, slowEnd t = 1 - slowStart (1 - t)
  /-- Slow at both ends, a curve is symmetric around its middle. -/
  symmetric : ∀ t, slowBoth t + slowBoth (1 - t) = 1
  /-- No curve jumps, also not where one of its pieces gives way to the next. -/
  continuous : Continuous slowStart ∧ Continuous slowEnd ∧ Continuous slowBoth

/-- Each family gives a curve that starts slowly, one that ends slowly and one that does both. They
are dual, symmetric and continuous, the bounces included, and they stay between zero and one but for
those of `back`. -/
theorem exists_fitTogether (family : Polynomial) : ∃ slowStart slowEnd slowBoth : ℝ → ℝ,
    (∀ t, family.easeIn t = .ok (slowStart t) ∧ family.easeOut t = .ok (slowEnd t) ∧
      family.easeInOut t = .ok (slowBoth t)) ∧
    FitTogether slowStart slowEnd slowBoth ∧
    (family ≠ .back → ∀ t ∈ Icc (0 : ℝ) 1, slowStart t ∈ Icc (0 : ℝ) 1 ∧
      slowEnd t ∈ Icc (0 : ℝ) 1 ∧ slowBoth t ∈ Icc (0 : ℝ) 1) := by
  refine ⟨family.rise, fun t => 1 - family.rise (1 - t), joined family.halfRise,
    fun t => ⟨family.easeIn_eq t, family.easeOut_eq t, family.easeInOut_eq t⟩, ?_, ?_⟩
  · have smooth := family.continuous_rise
    exact
      { start := family.rise_zero
        finish := family.rise_one
        dual := fun _ => rfl
        symmetric := joined_add_joined family.halfRise_one
        continuous := ⟨smooth, by fun_prop,
          continuous_joined family.continuous_halfRise family.halfRise_one⟩ }
  · intro steady t inside
    refine ⟨rise_mem steady inside, ?_, ?_⟩
    · exact Icc.mem_iff_one_sub_mem.mp (rise_mem steady (Icc.mem_iff_one_sub_mem.mp inside))
    · rw [family.halfRise_eq steady]
      exact joined_mem (fun _ => rise_mem steady) inside

/-- Bounces at a quarter of the way. -/
theorem exists_fitTogether_bounce :
    Polynomial.bounce ≠ .back ∧ (1 / 4 : ℝ) ∈ Icc (0 : ℝ) 1 ∧
      Polynomial.bounce.easeOut (1 / 4 : ℝ) = .ok (121 / 256) ∧
      ∃ slowStart slowEnd slowBoth : ℝ → ℝ, FitTogether slowStart slowEnd slowBoth ∧
        slowEnd (1 / 4) = 121 / 256 ∧ slowStart (1 / 4) ∈ Icc (0 : ℝ) 1 ∧
        slowEnd (1 / 4) ∈ Icc (0 : ℝ) 1 ∧ slowBoth (1 / 4) ∈ Icc (0 : ℝ) 1 := by
  have inside : (1 / 4 : ℝ) ∈ Icc (0 : ℝ) 1 := by constructor <;> norm_num
  have value : Polynomial.bounce.easeOut (1 / 4 : ℝ) = .ok (121 / 256) := by
    norm_num [easeOut, bounceOut_eq, arc]
  obtain ⟨slowStart, slowEnd, slowBoth, given, fit, stay⟩ := exists_fitTogether .bounce
  have same := (given (1 / 4)).2.1
  rw [value, Except.ok.injEq] at same
  exact ⟨by decide, inside, value, slowStart, slowEnd, slowBoth, fit, same.symm,
    stay (by decide) _ inside⟩

end Storyboard.Polynomial
