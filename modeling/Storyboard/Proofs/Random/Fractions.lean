import Storyboard.Proofs.Number.Naturals
import Storyboard.Random.Mulberry
/-!
# Draws as fractions

A draw divides its bits by the number of words. There are few enough of them for the quotient to be
exact, so nothing of a draw is rounded away (`Mulberry.units_draw`), and it lies between zero,
included, and one, excluded (`Mulberry.draw_inside`).
-/
namespace Storyboard.Mulberry

open Binary64

/-- The bits of a draw are a word. -/
theorem bits_lt (g : Mulberry) : g.bits < 2 ^ 32 := Nat.mod_lt _ (by decide)

/-- A draw is its bits over the number of words. -/
theorem draw_eq (g : Mulberry) :
    (Uniform.draw g).1 = Number.ofNat g.bits / Number.ofNat (2 ^ 32) := by
  have divisor : (4294967296.0 : Float) = Number.ofNat (2 ^ 32) := by rfl
  rw [← divisor]
  rfl

/-- As many parts of a word as the bits of a draw are, are the whole of its bits. -/
theorem magnitude_bits_mul (g : Mulberry) :
    magnitude g.bits (-32) * 2 ^ 32 = g.bits * whole :=
  magnitude_neg_mul (k := 32) g.bits (by decide)

/-- A draw is the exact fraction that its bits are of the number of words. -/
theorem units_draw (g : Mulberry) : (Uniform.draw g).1.isFinite = true ∧
    units (Uniform.draw g).1 = magnitude g.bits (-32) := by
  have few : g.bits < 2 ^ 53 := Nat.lt_trans g.bits_lt (by decide)
  obtain ⟨finite, same⟩ := units_ofNat_of_bits few
  obtain ⟨finiteOther, sameOther⟩ := units_ofNat_of_bits (n := 2 ^ 32) (by decide)
  have positive : 0 < units (Number.ofNat (2 ^ 32)) := by
    rw [sameOther]
    exact Int.mul_pos (by decide) (Int.natCast_pos.mpr whole_pos)
  have parts : (magnitude g.bits (-32) * 2 ^ 32 : ℚ) = g.bits * whole := by
    exact_mod_cast g.magnitude_bits_mul
  have room : (whole : ℚ) ≠ 0 := by exact_mod_cast whole_pos.ne'
  -- The exact quotient has 32 bits, so nothing of it is rounded away.
  have quotient : (units (Number.ofNat g.bits) * whole / units (Number.ofNat (2 ^ 32)) : ℚ) =
      magnitude g.bits (-32) := by
    have cancel (q : ℚ) : q * 2 ^ 32 / (2 ^ 32 : Nat) = q := by
      push_cast
      ring
    rw [same, sameOther, Int.cast_mul, Int.cast_mul, Int.cast_natCast, Int.cast_natCast,
      Int.cast_natCast, mul_div_mul_right _ _ room, ← parts, cancel]
  have rounding := isRoundingOf_div finite finiteOther positive
  rw [quotient, ← draw_eq] at rounding
  have below : magnitude g.bits (-32) < limit := by
    have most := mul_whole_lt_limit few
    have scaled := g.magnitude_bits_mul
    omega
  have exactly_units := rounding.units_eq few below
  refine ⟨isFinite_of_le rounding.number ?_ exactly_units.le below, exactly_units⟩
  rw [exactly_units]
  exact Int.natCast_nonneg _

/-- A draw is not below zero, and below one. -/
theorem draw_inside (g : Mulberry) : 0.0 ≤ (Uniform.draw g).1 ∧ (Uniform.draw g).1 < 1.0 := by
  obtain ⟨finite, same⟩ := g.units_draw
  have number := isNaN_of_isFinite finite
  constructor
  · apply nonneg_iff.mpr
    rw [same]
    exact ⟨number, Int.natCast_nonneg _⟩
  · have scaled := g.magnitude_bits_mul
    have less : g.bits * whole < 2 ^ 32 * whole :=
      Nat.mul_lt_mul_of_pos_right g.bits_lt whole_pos
    rw [lt_iff_units number (isNaN_of_isFinite isFinite_one), same, units_one]
    omega

end Storyboard.Mulberry
