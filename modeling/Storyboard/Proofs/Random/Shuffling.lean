import Storyboard.Proofs.Random.Fractions
import Storyboard.Random.Shuffle
/-!
# Shuffling

A shuffle only swaps, so it loses nothing, whatever is drawn (`Shuffle.swaps_perm`). A draw is a
fraction of `2 ^ 32` below one, and its product with the number of places lies below that number
even when it is rounded (`Mulberry.exists_floor_draw`). So no place that is drawn lies outside:
`Shuffle.swaps?`, which gives up at such a place, goes through (`Shuffle.swaps?_eq_swaps`).
-/
namespace Storyboard

open Binary64

/-! ## Draws -/

namespace Mulberry

/-- The product of a draw and a number is below that number by one of its last bits at least. -/
theorem draw_mul_le (g : Mulberry) {x : Float} (finite : x.isFinite = true) {m : Nat} {e : Int}
    (full : 2 ^ 52 ≤ m) (bits : m < 2 ^ 53) (least : -1074 ≤ e) (same : units x = magnitude m e) :
    ((Uniform.draw g).1 * x).isNaN = false ∧ 0 ≤ units ((Uniform.draw g).1 * x) ∧
      units ((Uniform.draw g).1 * x) ≤ magnitude (m - 1) e := by
  obtain ⟨finiteDraw, drawn⟩ := g.units_draw
  have fraction : magnitude g.bits (-32) * 2 ^ 32 ≤ (2 ^ 32 - 1) * whole := by
    rw [g.magnitude_bits_mul]
    exact Nat.mul_le_mul_right _ (Nat.le_sub_one_of_lt g.bits_lt)
  generalize magnitude g.bits (-32) = draw at drawn fraction
  have near := isNear_mul finiteDraw finite
  rw [drawn, same, ← Int.natCast_mul] at near
  have bound : draw * magnitude m e ≤ magnitude (m - 1) e * whole := by
    refine Nat.le_of_mul_le_mul_right ?_ (Nat.two_pow_pos 32)
    rw [magnitude, magnitude]
    have fewer : (2 ^ 32 - 1) * m ≤ (m - 1) * 2 ^ 32 := by omega
    generalize 2 ^ (e + 1074).toNat = k
    generalize whole = w at fraction ⊢
    calc draw * (m * k) * 2 ^ 32 = draw * 2 ^ 32 * (m * k) := Nat.mul_right_comm _ _ _
      _ ≤ (2 ^ 32 - 1) * w * (m * k) := Nat.mul_le_mul_right _ fraction
      _ = (2 ^ 32 - 1) * m * (k * w) := by ring
      _ ≤ (m - 1) * 2 ^ 32 * (k * w) := Nat.mul_le_mul_right _ fewer
      _ = (m - 1) * k * w * 2 ^ 32 := by ring
  refine ⟨near.number, near.nonneg (Int.natCast_nonneg _), near.le (by omega) least ?_⟩
  rwa [Int.natAbs_natCast]

/-- The product of a draw and a number of places, rounded as it is, has a floor that is one of the
places. -/
theorem exists_floor_draw (g : Mulberry) {n : Nat} (positive : 0 < n)
    (finite : (Number.ofNat n).isFinite = true) : ∃ place : Int,
      Number.floor ((Uniform.draw g).1 * Number.ofNat n) = .ok place ∧ 0 ≤ place ∧ place < n := by
  have room := units_lt_limit finite
  have rounded := (units_ofNat n).2
  have same : units (Number.ofNat n) = nearest (n * whole) := by omega
  have above : whole ≤ nearest (n * whole) := by
    have one := nearest_whole (n := 1) (by decide)
    rw [Nat.one_mul] at one
    calc whole = nearest whole := one.symm
      _ ≤ nearest (n * whole) := nearest_mono (Nat.le_mul_of_pos_left whole positive)
  obtain ⟨m, e, full, bits, least, found⟩ := exists_significand finite (by omega)
  obtain ⟨number, nonneg, below⟩ := g.draw_mul_le finite full bits least found
  have less : magnitude (m - 1) e < magnitude m e :=
    Nat.mul_lt_mul_of_pos_right (by omega) (Nat.two_pow_pos _)
  obtain ⟨place, floor, lower, upper⟩ :=
    exists_floor (isFinite_of_le number nonneg below (by omega))
  refine ⟨place, floor, Int.not_lt.mp fun negative => ?_, Int.not_le.mp fun outside => ?_⟩
  · have scaled := Int.mul_le_mul_of_nonneg_right (show place + 1 ≤ 0 by omega)
      (Int.natCast_nonneg whole)
    omega
  · -- The bound is a double, so it would be no less than the number of places, rounded.
    have scaled := Int.mul_le_mul_of_nonneg_right outside (Int.natCast_nonneg whole)
    rw [← Int.natCast_mul] at scaled
    have reached : n * whole ≤ magnitude (m - 1) e := by omega
    have stored : nearest (magnitude (m - 1) e) = magnitude (m - 1) e :=
      nearest_of_bits (by omega) _
    have near := nearest_mono reached
    omega

end Mulberry

/-! ## Swaps -/

namespace Shuffle

/-- Swapping loses nothing. -/
theorem swapIfInBounds_perm (order : Array Nat) (i j : Nat) :
    (order.swapIfInBounds i j).toList.Perm order.toList := by
  unfold Array.swapIfInBounds
  split
  · split
    · exact (Array.swap_perm _ _).toList
    · exact .refl _
  · exact .refl _

/-- Shuffling loses nothing, whatever is drawn. -/
theorem swaps_perm {σ : Type} [Uniform σ] (last : Nat) (source : σ) (order : Array Nat) :
    (swaps last source order).toList.Perm order.toList := by
  induction last generalizing source order with
  | zero => exact .refl _
  | succ last ih =>
    unfold swaps
    exact (ih _ _).trans (swapIfInBounds_perm _ _ _)

/-- Swap each place from `last` down with one drawn from those up to it, unless nothing is drawn or
one of both places lies outside. -/
def swaps? {σ : Type} [Uniform σ] : (last : Nat) → σ → Array Nat → Option (Array Nat)
  | 0, _, order => some order
  | last + 1, source, order =>
    let (draw, rest) := Uniform.draw source
    match Number.floor (draw * Number.ofNat (last + 2)) with
    | .ok place =>
      if 0 ≤ place ∧ place < order.size ∧ last + 1 < order.size then
        swaps? last rest (order.swapIfInBounds (last + 1) place.toNat)
      else none
    | .error _ => none

/-- No place lies outside, so all swaps go through. -/
theorem swaps?_eq_swaps {last : Nat} {order : Array Nat} (g : Mulberry) (inside : last < order.size)
    (finite : (Number.ofNat (last + 1)).isFinite = true) :
    swaps? last g order = some (swaps last g order) := by
  induction last generalizing g order with
  | zero => rfl
  | succ last ih =>
    obtain ⟨drawn, floor, nonneg, upTo⟩ :=
      g.exists_floor_draw (n := last + 2) (Nat.succ_pos _) finite
    have within : 0 ≤ drawn ∧ drawn < order.size ∧ last + 1 < order.size :=
      ⟨nonneg, by omega, inside⟩
    rw [swaps?, swaps]
    rcases pair : Uniform.draw g with ⟨draw, rest⟩
    rw [pair] at floor
    simp only [place, floor, if_pos within]
    refine ih _ ?_ (isFinite_ofNat_mono (by omega) finite)
    rw [Array.size_swapIfInBounds]
    omega

end Shuffle

/-- A shuffle gives each number below a count once. -/
theorem shuffle_perm (count : Nat) (seed : Int) : (shuffle count seed).Perm (List.range count) := by
  refine (Shuffle.swaps_perm _ _ _).trans ?_
  rw [Array.toList_range]

/-- No place lies outside in a shuffle, up to the greatest finite count. -/
theorem swaps?_eq_shuffle {count : Nat} (seed : Int)
    (finite : (Number.ofNat count).isFinite = true) :
    Shuffle.swaps? (count - 1) (Mulberry.ofSeed seed) (Array.range count) =
      some (shuffle count seed).toArray := by
  cases count with
  | zero => rfl
  | succ last =>
    have inside : last < (Array.range (last + 1)).size := by
      rw [Array.size_range]
      exact Nat.lt_succ_self last
    exact Shuffle.swaps?_eq_swaps (Mulberry.ofSeed seed) inside finite

end Storyboard
