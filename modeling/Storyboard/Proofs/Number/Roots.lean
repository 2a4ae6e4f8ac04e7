import Storyboard.Proofs.Number.Bounds
/-!
# Square roots of doubles

Of a square root so many bits are taken, with what is known of the rest, that rounding comes out as
if it were exact. The exact root is no fraction in general. But for every fraction whose square is
at least the number there is one not above it that is rounded to the root, so a root keeps all
bounds that are doubles.

Main statement: the root of a number that is finite and not below zero is the rounding of a fraction
that has any such bound (`exists_isRoundingOf_sqrt`). So the root of a small number is small
(`IsWithin.sqrt`).
-/
namespace Storyboard.Binary64

open Float.Model (Format UnpackedFloat totalExponent)
open Float.Model.UnpackedFloat

variable {x : Float} {m n : Nat} {e f : Int}

/-! ## The bits of a root -/

/-- What is known of the rest of a root from what its square leaves. -/
def accuracyOfRoot (m : Nat) : Accuracy :=
  if m - m.sqrt * m.sqrt = 0 then .exact
  else .inexact (if m - m.sqrt * m.sqrt ≤ m.sqrt then .lt else .gt)

/-- The bits of a root with what is known of its rest stand for a fraction that is not above a bound
of the root. -/
theorem exists_liesAt_sqrt (m : Nat) {b : ℚ} (nonneg : 0 ≤ b) (bound : (m : ℚ) ≤ b ^ 2) :
    ∃ q, LiesAt (extended m.sqrt (accuracyOfRoot m)) q ∧ 0 ≤ q ∧ q ≤ b := by
  have square : m.sqrt * m.sqrt ≤ m := m.sqrt_le
  have root : (0 : ℚ) ≤ m.sqrt := Nat.cast_nonneg _
  rw [accuracyOfRoot]
  split_ifs with exactly_square below
  · have same : (m.sqrt : ℚ) ^ 2 = m := by
      rw [sq]
      exact_mod_cast (show m.sqrt * m.sqrt = m by omega)
    exact ⟨m.sqrt, rfl, root, le_of_sq_le_sq (same.trans_le bound) nonneg⟩
  · have less : (m.sqrt : ℚ) ^ 2 < m := by
      rw [sq]
      exact_mod_cast (show m.sqrt * m.sqrt < m by omega)
    have above : (m.sqrt : ℚ) < b := lt_of_pow_lt_pow_left₀ 2 nonneg (less.trans_le bound)
    refine ⟨min b (m.sqrt + 1 / 4), ⟨lt_min above (by linarith), ?_⟩, ?_, min_le_left _ _⟩
    · exact (min_le_right _ _).trans_lt (by linarith)
    · exact le_min nonneg (by linarith)
  · have less : (m.sqrt + 1 / 2 : ℚ) ^ 2 < m := by
      have many : ((m.sqrt * m.sqrt + m.sqrt + 1 : Nat) : ℚ) ≤ m := by
        exact_mod_cast (show m.sqrt * m.sqrt + m.sqrt + 1 ≤ m by omega)
      push_cast at many
      linarith
    have above : (m.sqrt + 1 / 2 : ℚ) < b := lt_of_pow_lt_pow_left₀ 2 nonneg (less.trans_le bound)
    refine ⟨min b (m.sqrt + 3 / 4), ⟨lt_min above (by linarith), ?_⟩, ?_, min_le_left _ _⟩
    · exact (min_le_right _ _).trans_lt (by linarith)
    · exact le_min nonneg (by linarith)

/-- A root is taken as far as its exponent is lowered. -/
theorem sqrt_eq_round {positive : 0 < m} {zeros : Nat} {t : Int}
    (lowered : t = min (e / 2) (max ((((m.log2 : Int) + 1 + e + 1) / 2) - 53) (-1074)))
    (shifted : e = 2 * t + zeros) :
    UnpackedFloat.sqrt .binary64 (.finite .positive m e positive) =
      roundWithAccuracy .binary64 .positive (m * 2 ^ zeros).sqrt t
        (accuracyOfRoot (m * 2 ^ zeros)) := by
  have target : min (e.ediv 2) (Format.binary64.targetExponent
      ((totalExponent m e + 1).ediv 2)) = t := lowered.symm
  have enough : (e - 2 * t).toNat = zeros := by omega
  have core : sqrtCore .binary64 m e =
      ((m * 2 ^ zeros).sqrt, t, accuracyOfRoot (m * 2 ^ zeros)) := by
    simp only [sqrtCore, target, enough, Nat.shiftLeft_eq]
    rfl
  rw [UnpackedFloat.sqrt, core]

/-- A root, taken far enough, has an exponent that is low enough. -/
theorem exists_shift_of_sqrt (positive : 0 < m) {zeros : Nat} {t : Int}
    (lowered : t = min (e / 2) (max ((((m.log2 : Int) + 1 + e + 1) / 2) - 53) (-1074)))
    (shifted : e = 2 * t + zeros) :
    ∃ shift : Nat, max (((m * 2 ^ zeros).sqrt.log2 : Int) + 1 + t - 53) (-1074) = t + shift := by
  apply exists_shift
  by_cases lowest : t ≤ -1074
  · exact .inl lowest
  · right
    rw [Nat.le_sqrt]
    calc 2 ^ 52 * 2 ^ 52 = 2 ^ 104 := by rw [← Nat.pow_add]
      _ ≤ 2 ^ (m.log2 + zeros) := Nat.pow_le_pow_right (by decide) (by omega)
      _ = 2 ^ m.log2 * 2 ^ zeros := Nat.pow_add 2 _ _
      _ ≤ m * 2 ^ zeros := Nat.mul_le_mul_right _ (Nat.log2_self_le positive.ne')

/-! ## Roots of doubles -/

/-- A root is packed and unpacked again. -/
theorem unpack_toModel_sqrt (x : Float) : x.sqrt.toModel.unpack =
    unpack .binary64 (pack .binary64 (.sqrt .binary64 x.toModel.unpack)) := rfl

/-- The root of a number that is finite and not below zero is a fraction rounded, one that is not
above a bound of the exact root. -/
theorem exists_isRoundingOf_sqrt (finite : x.isFinite = true) (nonneg : 0 ≤ units x) {b : ℚ}
    (nonnegBound : 0 ≤ b) (bound : (units x * whole : ℚ) ≤ b ^ 2) :
    ∃ q, 0 ≤ q ∧ q ≤ b ∧ IsRoundingOf x.sqrt q := by
  have packed := unpack_toModel_sqrt x
  rcases unpack_of_isFinite finite with
    ⟨_, unpacked, _⟩ | ⟨sign, m, e, positive, unpacked, canonical, _, same⟩
  · rw [unpacked] at packed
    exact ⟨0, le_rfl, nonnegBound, isRoundingOf_zero packed⟩
  rw [unpacked] at packed
  cases sign with
  | negative =>
    have above := magnitude_pos positive e
    rw [same, Sign.apply] at nonneg
    omega
  | positive =>
    obtain ⟨t, lowered⟩ : ∃ t : Int, t = min (e / 2) (max
        ((((m.log2 : Int) + 1 + e + 1) / 2) - 53) (-1074)) := ⟨_, rfl⟩
    obtain ⟨zeros, shifted⟩ : ∃ zeros : Nat, e = 2 * t + zeros := ⟨(e - 2 * t).toNat, by omega⟩
    rw [sqrt_eq_round lowered shifted] at packed
    obtain ⟨shift, target⟩ := exists_shift_of_sqrt positive lowered shifted
    have unit : (0 : ℚ) < 2 ^ (t + 1074) := by positivity
    have square : ((m * 2 ^ zeros : Nat) : ℚ) ≤ (b / 2 ^ (t + 1074)) ^ 2 := by
      have scale : (2 : ℚ) ^ zeros * (2 ^ (t + 1074)) ^ 2 = 2 ^ (e + 1074) * 2 ^ (1074 : Int) := by
        rw [sq, ← zpow_natCast 2 zeros, ← two_zpow_add, ← two_zpow_add, ← two_zpow_add]
        congr 1
        omega
      rw [same, Sign.apply, Int.cast_natCast, cast_magnitude m canonical.least, cast_whole,
        mul_assoc, ← scale, ← mul_assoc] at bound
      rw [div_pow, le_div_iff₀ (by positivity)]
      push_cast
      exact bound
    obtain ⟨q, place, nonnegRoot, below⟩ :=
      exists_liesAt_sqrt _ (div_nonneg nonnegBound unit.le) square
    refine ⟨q * 2 ^ (t + 1074), mul_nonneg nonnegRoot unit.le, (le_div_iff₀ unit).mp below, ?_⟩
    have rounding := isRoundingOf_factor packed place nonnegRoot target
    rwa [factorOf, one_mul] at rounding

/-- The root of a number that is at most a square is at most what is squared. -/
theorem IsWithin.sqrt {most : Nat} (few : most < 2 ^ 53) (small : IsWithin (most ^ 2) x)
    (nonneg : 0.0 ≤ x) : IsWithin most x.sqrt := by
  have above := (nonneg_iff.mp nonneg).2
  have below : units x ≤ (most ^ 2 * whole : Nat) := by
    have bound := small.2
    omega
  have room : (0 : ℚ) ≤ whole := Nat.cast_nonneg _
  have units_le : (units x : ℚ) ≤ most ^ 2 * whole := by exact_mod_cast below
  have square : (units x * whole : ℚ) ≤ (most * whole : ℚ) ^ 2 := by
    calc (units x * whole : ℚ) ≤ (most ^ 2 * whole : ℚ) * whole :=
          mul_le_mul_of_nonneg_right units_le room
      _ = (most * whole : ℚ) ^ 2 := by ring
  obtain ⟨q, nonnegRoot, bounded, rounding⟩ :=
    exists_isRoundingOf_sqrt small.1 above (mul_nonneg (Nat.cast_nonneg most) room) square
  refine isWithin_of_natAbs few rounding.number ?_
  rw [← magnitude_zero]
  refine rounding.natAbs_le few ?_
  rw [abs_of_nonneg nonnegRoot, magnitude_zero]
  exact_mod_cast bounded

end Storyboard.Binary64
