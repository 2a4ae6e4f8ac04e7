import Storyboard.Number.Scalar
import Storyboard.Proofs.Number.Naturals
import Storyboard.Proofs.Number.Sum
/-!
# Rounding half up

The nearest whole number, a half going up, is the floor of a sum with a half. The sum is rounded
before its floor is taken, which does no harm unless it crosses a whole number: so it does below a
half, and at odd numbers so large that a half is no longer counted.

Main statement: rounding half up gives the nearest whole number, or the next one at these doubles
(`exists_roundHalfUp`).
-/
namespace Storyboard.Binary64

/-! ## Rounding whole numbers of units -/

/-- A whole number that is close enough is what another one is rounded to. -/
theorem roundsTo_of_close {b j u s : Nat} (power : u = 2 ^ s)
    (lower : 2 * (j * u) ≤ 2 * b + u) (upper : 2 * b ≤ 2 * (j * u) + u)
    (even : 2 * (j * u) = 2 * b + u ∨ 2 * b = 2 * (j * u) + u → j % 2 = 0)
    (short : b < 2 ^ 53 * u) (long : 2 ^ 52 * u ≤ b) : RoundsTo b (j * u) := by
  subst power
  have closest := isClosest_div (Nat.two_pow_pos s) lower upper even
  rw [← Nat.pow_add] at short long
  rw [Nat.cast_pow, Nat.cast_ofNat] at closest
  exact ⟨s, j, rfl, closest, by exact_mod_cast short, fun _ => by exact_mod_cast long⟩

/-- What a whole number is rounded to is close to it. -/
theorem RoundsTo.exists_close {b k : Nat} (rounds : RoundsTo b k) :
    ∃ shift, 2 * k ≤ 2 * b + 2 ^ shift ∧ 2 * b ≤ 2 * k + 2 ^ shift ∧
      (0 < shift → 2 ^ (52 + shift) ≤ b) := by
  obtain ⟨shift, j, rfl, closest, _, long⟩ := rounds
  have scale : (0 : ℚ) < 2 ^ shift := by positivity
  have parts : (b / 2 ^ shift : ℚ) * 2 ^ shift = b := div_mul_cancel₀ _ scale.ne'
  have lower := mul_le_mul_of_nonneg_right closest.lower scale.le
  have upper := mul_le_mul_of_nonneg_right closest.upper scale.le
  rw [add_mul, parts] at lower upper
  refine ⟨shift, ?_, ?_, fun above => by exact_mod_cast long above⟩
  · have cast : (2 : ℚ) * (j * 2 ^ shift) ≤ 2 * b + 2 ^ shift := by linarith
    exact_mod_cast cast
  · have cast : (2 : ℚ) * b ≤ 2 * (j * 2 ^ shift) + 2 ^ shift := by linarith
    exact_mod_cast cast

/-! ## Sums with a half -/

/-- The units of a half. -/
def half : Nat := 2 ^ 1073

/-- Powers of two with known exponents, which are too large to be taken. -/
theorem two_pow_eq {s t d : Nat} (sum : t = d + s) : 2 ^ t = 2 ^ d * 2 ^ s := by rw [sum, pow_add]

/-- Two halves make one. -/
theorem whole_eq : whole = 2 * half := by
  rw [whole, half, two_pow_eq (show 1074 = 1 + 1073 from rfl), pow_one]

/-- There are units in a half. -/
theorem half_pos : 0 < half := pow_pos (by decide) 1073

/-- The units of a significand that ends in the place of a half. -/
theorem magnitude_half (m : Nat) : magnitude m (-1) = m * half := by
  have exponent : (-1 + 1074 : Int).toNat = 1073 := rfl
  rw [magnitude, half, exponent]

/-- A power of two is a multiple of a smaller one. -/
theorem exists_two_pow_eq {s t : Nat} (le : s ≤ t) : ∃ c, 2 ^ t = c * 2 ^ s :=
  ⟨2 ^ (t - s), by rw [← Nat.pow_add, Nat.sub_add_cancel le]⟩

variable {m n t b k : Nat}

/-- Multiples of a number that differ do so by that number at least. -/
theorem add_le_of_multiples {c d u : Nat} (less : c * u < d * u) : c * u + u ≤ d * u := by
  rw [← Nat.succ_mul]
  exact Nat.mul_le_mul_right _ (Nat.lt_of_mul_lt_mul_right less)

/-- The sum of a half with a number of few bits, no smaller, that counts halves is not rounded up to
the next whole number. -/
theorem lt_of_rounds_sum (bits : m < 2 ^ 53) (fine : t ≤ 1073) (least : half ≤ m * 2 ^ t)
    (sum : m * 2 ^ t + half = b) (floor : n * whole ≤ b) (next : b < (n + 1) * whole)
    (rounds : RoundsTo b k) : k < (n + 1) * whole := by
  have halves := whole_eq
  obtain ⟨shift, near, _, long⟩ := rounds.exists_close
  by_contra! beyond
  -- Both are multiples of the power of two that the number counts, so they differ by it.
  have step : b + 2 ^ t ≤ (n + 1) * whole := by
    obtain ⟨c, split⟩ := exists_two_pow_eq fine
    have left : b = (m + c) * 2 ^ t := by rw [← sum, half, split, Nat.add_mul]
    have right : (n + 1) * whole = (n + 1) * (2 * c) * 2 ^ t := by
      rw [halves, half, split, Nat.mul_assoc, Nat.mul_assoc]
    rw [left, right] at next ⊢
    exact add_le_of_multiples next
  have finer : t < shift := by
    rw [← Nat.pow_lt_pow_iff_right (a := 2) (by decide)]
    have some_units := Nat.two_pow_pos t
    omega
  have above := long (by omega)
  have small : m * 2 ^ t < 2 ^ (53 + t) := by
    rw [Nat.pow_add]
    exact Nat.mul_lt_mul_of_pos_right bits (Nat.two_pow_pos t)
  have large : 2 ^ (53 + t) ≤ 2 ^ (52 + shift) := Nat.pow_le_pow_right (by decide) (by omega)
  -- The sum lies between a power of two, which is a whole number, and the half behind it.
  have many : 1073 < 53 + t := by
    by_contra! few
    have below : 2 ^ (53 + t) ≤ half := pow_le_pow_right₀ (by decide) few
    omega
  obtain ⟨c, power⟩ := exists_two_pow_eq (show 1074 ≤ 53 + t by omega)
  change 2 ^ (53 + t) = c * whole at power
  have same : n = c := by
    have lower : c < n + 1 := Nat.lt_of_mul_lt_mul_right (a := whole) (by omega)
    have upper : n < c + 1 := Nat.lt_of_mul_lt_mul_right (a := whole) (by
      rw [Nat.succ_mul]
      omega)
    omega
  rw [same, Nat.succ_mul] at beyond
  have wide : 1074 < shift := by
    by_contra! few
    have narrow : 2 ^ shift ≤ whole := pow_le_pow_right₀ (by decide) few
    omega
  have double : 2 ^ (54 + t) ≤ 2 ^ (52 + shift) := Nat.pow_le_pow_right (by decide) (by omega)
  have twice : 2 ^ (54 + t) = 2 * 2 ^ (53 + t) := by rw [← Nat.pow_succ', Nat.succ_add]
  omega

/-- A whole number of few bits is not rounded away by a number beyond it. -/
theorem le_of_rounds (bits : n < 2 ^ 53) (floor : n * whole ≤ b) (rounds : RoundsTo b k) :
    n * whole ≤ k := by
  have stays := roundsTo_magnitude bits 0
  rw [magnitude_zero] at stays
  exact stays.mono rounds (by exact_mod_cast floor)

/-! ## Below a half -/

/-- The units of the last place below a half. -/
def fine : Nat := 2 ^ 1020

/-- A half in units of the last place before it. -/
theorem half_eq : half = 2 ^ 53 * fine := by
  rw [half, fine, two_pow_eq (show 1073 = 53 + 1020 from rfl)]

/-- The units of a significand that ends in the last place below a half. -/
theorem magnitude_fine (m : Nat) : magnitude m (-54) = m * fine := by
  have exponent : (-54 + 1074 : Int).toNat = 1020 := rfl
  rw [magnitude, fine, exponent]

/-- The units of a significand that ends in the last place below one. -/
theorem magnitude_two_fine (m : Nat) : magnitude m (-53) = m * (2 * fine) := by
  have exponent : (-53 + 1074 : Int).toNat = 1 + 1020 := rfl
  rw [magnitude, fine, exponent, pow_add, pow_one]

/-- Below a half every double but the last one leaves room for a half. -/
theorem le_of_lt_half {m : Nat} {e : Int} (canonical : Canonical m e)
    (below : magnitude m e < half) (other : magnitude m e ≠ (2 ^ 53 - 1) * fine) :
    magnitude m e ≤ (2 ^ 53 - 2) * fine := by
  have halves := half_eq
  have lower : Canonical (2 ^ 52) (-54) := ⟨by decide, by decide, fun _ => Nat.le_refl _⟩
  have upper : Canonical (2 ^ 52) (-53) := ⟨by decide, by decide, fun _ => Nat.le_refl _⟩
  have lowerUnits := magnitude_fine (2 ^ 52)
  have upperUnits := magnitude_two_fine (2 ^ 52)
  rcases lt_trichotomy e (-54) with less | rfl | more
  · have smaller := canonical.magnitude_lt lower less
    omega
  · rw [magnitude_fine] at other ⊢
    have last : m ≠ 2 ^ 53 - 1 := fun same => other (by rw [same])
    have bits := canonical.bits
    exact Nat.mul_le_mul_right _ (by omega)
  · rcases eq_or_lt_of_le (show -53 ≤ e by omega) with rfl | beyond
    · have full := canonical.full (by decide)
      have larger : magnitude (2 ^ 52) (-53) ≤ magnitude m (-53) := Nat.mul_le_mul_right _ full
      omega
    · have larger := upper.magnitude_lt canonical beyond
      omega

/-- What leaves room for a half is not rounded to one with it. -/
theorem lt_whole_of_rounds (room : b ≤ 2 ^ 53 * fine + (2 ^ 53 - 2) * fine)
    (rounds : RoundsTo b k) : k < whole := by
  have halves := half_eq
  have wholes := whole_eq
  have some_units : 0 < fine := pow_pos (by decide) 1020
  have stays := roundsTo_magnitude (n := 2 ^ 53 - 1) (by decide) (-53)
  rw [magnitude_two_fine] at stays
  have most : b ≤ (2 ^ 53 - 1) * (2 * fine) := by omega
  have near := rounds.mono stays (by exact_mod_cast most)
  omega

/-- The last double below a half is rounded to one with a half. -/
theorem roundsTo_whole : RoundsTo ((2 ^ 53 - 1) * fine + half : Nat) whole := by
  have halves := half_eq
  have wholes := whole_eq
  have some_units : 0 < fine := pow_pos (by decide) 1020
  rw [show whole = 2 ^ 53 * (2 * fine) by omega]
  have place : 2 * fine = 2 ^ (1 + 1020) := by rw [pow_add, pow_one, fine]
  exact roundsTo_of_close place (by omega) (by omega)
    (fun _ => rfl) (by omega) (by omega)

/-! ## Where a half is the last place or less -/

/-- A number whose last place is one is rounded to an even number if a half is added. -/
theorem roundsTo_add_half (bits : m < 2 ^ 53) (full : 2 ^ 52 ≤ m) :
    RoundsTo (m * whole + half : Nat) ((m + m % 2) * whole) := by
  have halves := whole_eq
  have some_units := half_pos
  have lower := Nat.mul_le_mul_right whole full
  have upper := Nat.mul_le_mul_right whole (Nat.succ_le_of_lt bits)
  rw [Nat.succ_mul] at upper
  rcases Nat.mod_two_eq_zero_or_one m with even | odd
  · rw [even, Nat.add_zero]
    exact roundsTo_of_close (s := 1074) rfl (by omega) (by omega) (fun _ => even) (by omega)
      (by omega)
  · have next : (m + 1) * whole = m * whole + whole := Nat.succ_mul m whole
    rw [odd]
    exact roundsTo_of_close (s := 1074) rfl (by omega) (by omega) (fun _ => by omega)
      (by omega) (by omega)

/-- A number whose last place is one is rounded to an even number if a half is taken away. -/
theorem roundsTo_sub_half (bits : m < 2 ^ 53) (full : 2 ^ 52 < m) :
    RoundsTo (m * whole - half : Nat) ((m - m % 2) * whole) := by
  have halves := whole_eq
  have some_units := half_pos
  have lower := Nat.mul_le_mul_right whole (Nat.succ_le_of_lt full)
  have upper := Nat.mul_le_mul_right whole (Nat.le_of_lt bits)
  rw [Nat.succ_mul] at lower
  rcases Nat.mod_two_eq_zero_or_one m with even | odd
  · rw [even, Nat.sub_zero]
    exact roundsTo_of_close (s := 1074) rfl (by omega) (by omega) (fun _ => even) (by omega)
      (by omega)
  · have last : (m - 1) * whole + whole = m * whole := by
      rw [← Nat.succ_mul, Nat.succ_eq_add_one, Nat.sub_add_cancel (by omega)]
    rw [odd]
    exact roundsTo_of_close (s := 1074) rfl (by omega) (by omega) (fun _ => by omega)
      (by omega) (by omega)

/-- From two on a place is four halves or more. -/
theorem four_halves_le (coarse : 1075 ≤ t) : 4 * half ≤ 2 ^ t := by
  have halves := whole_eq
  calc 4 * half = 2 * whole := by omega
    _ = 2 ^ 1075 := by rw [whole, two_pow_eq (show 1075 = 1 + 1074 from rfl), pow_one]
    _ ≤ 2 ^ t := pow_le_pow_right₀ (by decide) coarse

/-- Where the last place is two or more no half is counted. -/
theorem roundsTo_self_add (bits : m < 2 ^ 53) (full : 2 ^ 52 ≤ m) (coarse : 1075 ≤ t) :
    RoundsTo (m * 2 ^ t + half : Nat) (m * 2 ^ t) := by
  have some_units := half_pos
  have places := four_halves_le coarse
  have lower := Nat.mul_le_mul_right (2 ^ t) full
  have upper := Nat.mul_le_mul_right (2 ^ t) (Nat.succ_le_of_lt bits)
  rw [Nat.succ_mul] at upper
  exact roundsTo_of_close rfl (by omega) (by omega) (fun tie => by omega) (by omega) (by omega)

/-- Where the last place is two or more no half is missed. -/
theorem roundsTo_self_sub (bits : m < 2 ^ 53) (full : 2 ^ 52 ≤ m) (coarse : 1075 ≤ t) :
    RoundsTo (m * 2 ^ t - half : Nat) (m * 2 ^ t) := by
  have some_units := half_pos
  have places := four_halves_le coarse
  have upper := Nat.mul_le_mul_right (2 ^ t) (Nat.succ_le_of_lt bits)
  rw [Nat.succ_mul] at upper
  rcases Nat.eq_or_lt_of_le full with rfl | more
  · -- Before a power of two the places are half as large.
    have double : 2 ^ t = 2 * 2 ^ (t - 1) := by
      rw [← Nat.pow_succ', Nat.succ_eq_add_one, Nat.sub_add_cancel (by omega)]
    have same : 2 ^ 52 * 2 ^ t = 2 ^ 53 * 2 ^ (t - 1) := by omega
    rw [same]
    exact roundsTo_of_close rfl (by omega) (by omega) (fun _ => rfl) (by omega) (by omega)
  · have lower := Nat.mul_le_mul_right (2 ^ t) (Nat.succ_le_of_lt more)
    rw [Nat.succ_mul] at lower
    exact roundsTo_of_close rfl (by omega) (by omega) (fun tie => by omega) (by omega) (by omega)

/-! ## Floors of sums with a half -/

variable {x : Float}

/-- The double between zero and one. -/
theorem units_half : (0.5 : Float).isFinite = true ∧ units 0.5 = half := by
  refine ⟨by rfl, ?_⟩
  have parts : units 0.5 = magnitude (2 ^ 52) (-53) := by rfl
  have halves := half_eq
  rw [parts, magnitude_two_fine]
  omega

/-- The units of a sum with a half that is not below zero. -/
theorem units_add_half (finite : x.isFinite = true) (sum : units x + half = b)
    (rounds : RoundsTo b k) : (x + 0.5).isNaN = false ∧ units (x + 0.5) = min limit k := by
  have rounding := isRoundingOf_add finite units_half.1
  rw [units_half.2, sum, Int.cast_natCast] at rounding
  obtain ⟨l, same, size⟩ := rounding.size
  rw [abs_of_nonneg (Nat.cast_nonneg b)] at same
  have above := rounding.nonneg (Nat.cast_nonneg b)
  rw [same.unique rounds] at size
  exact ⟨rounding.number, by omega⟩

/-- The units of a sum with a half that is not above zero. -/
theorem units_add_half_of_neg (finite : x.isFinite = true) (sum : units x + half = -(b : Int))
    (rounds : RoundsTo b k) : (x + 0.5).isNaN = false ∧ units (x + 0.5) = -(min limit k : Nat) := by
  have rounding := isRoundingOf_add finite units_half.1
  rw [units_half.2, sum, Int.cast_neg, Int.cast_natCast] at rounding
  obtain ⟨l, same, size⟩ := rounding.size
  rw [abs_neg, abs_of_nonneg (Nat.cast_nonneg b)] at same
  have below := rounding.nonpos (neg_nonpos.mpr (Nat.cast_nonneg b))
  rw [same.unique rounds] at size
  exact ⟨rounding.number, by omega⟩


/-- A number that is not below minus a half is rounded half up to the floor of its sum with a
half. -/
theorem roundHalfUp_of_sum {c : Int} (finite : x.isFinite = true) (sum : units x + half = b)
    (rounds : RoundsTo b k) (room : k < limit) (lower : c * whole ≤ k)
    (upper : k < (c + 1) * whole) : Number.roundHalfUp x = .ok c := by
  obtain ⟨number, same⟩ := units_add_half finite sum rounds
  rw [Nat.min_eq_right room.le] at same
  exact floor_of_units (isFinite_of_units number (by omega)) (by omega) (by omega)

/-- A number that is not above minus a half is rounded half up to the floor of its sum with a
half. -/
theorem roundHalfUp_of_sum_neg {c : Int} (finite : x.isFinite = true)
    (sum : units x + half = -(b : Int)) (rounds : RoundsTo b k) (room : k < limit)
    (lower : c * whole ≤ -(k : Int)) (upper : -(k : Int) < (c + 1) * whole) :
    Number.roundHalfUp x = .ok c := by
  obtain ⟨number, same⟩ := units_add_half_of_neg finite sum rounds
  rw [Nat.min_eq_right room.le] at same
  exact floor_of_units (isFinite_of_units number (by omega)) (by omega) (by omega)

/-- How a double is rounded half up: to the nearest whole number, or to one that exceeds it. -/
def RoundsHalfUp (x : Float) (excess : Int) : Prop :=
  ∃ n : Int, n * whole ≤ units x + half ∧ units x + half < (n + 1) * whole ∧
    Number.roundHalfUp x = .ok (n + excess)

/-- Whole numbers whose last place is two or more are rounded to themselves. -/
theorem roundsHalfUp_coarse (finite : x.isFinite = true) (bits : m < 2 ^ 53) (full : 2 ^ 52 ≤ m)
    (coarse : 1075 ≤ t) (size : (units x).natAbs = m * 2 ^ t) : RoundsHalfUp x 0 := by
  have halves := whole_eq
  have some_units := half_pos
  have inside := units_lt_limit finite
  have large := four_halves_le coarse
  obtain ⟨c, split⟩ := exists_two_pow_eq (show 1074 ≤ t by omega)
  change 2 ^ t = c * whole at split
  have places := Nat.mul_le_mul_right (2 ^ t) full
  have counts : ((m * c : Nat) : Int) * whole = (m * 2 ^ t : Nat) := by
    rw [split, ← Nat.mul_assoc]
    exact (Int.natCast_mul _ _).symm
  rcases Int.natAbs_eq (units x) with positive | negative
  · rw [size] at positive
    refine ⟨(m * c : Nat), ?_, ?_, ?_⟩
    · omega
    · rw [Int.add_mul]
      omega
    · rw [Int.add_zero]
      refine roundHalfUp_of_sum finite (b := m * 2 ^ t + half) (by omega)
        (roundsTo_self_add bits full coarse) (by omega) (by omega) ?_
      rw [Int.add_mul]
      omega
  · rw [size] at negative
    have opposite : -((m * c : Nat) : Int) * whole = -((m * 2 ^ t : Nat) : Int) := by
      rw [Int.neg_mul, counts]
    refine ⟨-(m * c : Nat), ?_, ?_, ?_⟩
    · omega
    · rw [Int.add_mul]
      omega
    · rw [Int.add_zero]
      refine roundHalfUp_of_sum_neg finite (b := m * 2 ^ t - half) (by omega)
        (roundsTo_self_sub bits full coarse) (by omega) (by omega) ?_
      rw [Int.add_mul]
      omega

/-- Twice as many bits as there are places count less than an infinity. -/
theorem two_pow_mul_whole_lt_limit : 2 ^ 53 * whole < limit := by
  have largest : Canonical (2 ^ 52) 1 := ⟨by decide, by decide, fun _ => Nat.le_refl _⟩
  have exponent : (1 + 1074 : Int).toNat = 1 + 1074 := rfl
  calc 2 ^ 53 * whole = 2 ^ 52 * (2 * whole) := by omega
    _ = magnitude (2 ^ 52) 1 := by rw [magnitude, exponent, pow_add, pow_one, whole]
    _ < limit := largest.magnitude_lt canonical_limit (by decide)

/-- Numbers whose last place is one are rounded to themselves if they are even, and to the next ones
if they are odd. -/
theorem roundsHalfUp_ones_pos (finite : x.isFinite = true) (bits : m < 2 ^ 53) (full : 2 ^ 52 ≤ m)
    (same : units x = (m * whole : Nat)) : RoundsHalfUp x (m % 2 : Nat) := by
  have halves := whole_eq
  have some_units := half_pos
  have top := two_pow_mul_whole_lt_limit
  have most := Nat.mul_le_mul_right whole (Nat.succ_le_of_lt bits)
  rw [Nat.succ_mul] at most
  have parity : m % 2 = 0 ∨ m % 2 = 1 := Nat.mod_two_eq_zero_or_one m
  have near : (m + m % 2) * whole ≤ m * whole + whole := by
    rw [← Nat.succ_mul]
    exact Nat.mul_le_mul_right _ (by omega)
  have counts : ((m : Int) + (m % 2 : Nat)) * whole = ((m + m % 2) * whole : Nat) := by
    push_cast
    rfl
  refine ⟨m, ?_, ?_, ?_⟩
  · omega
  · rw [Int.add_mul]
    omega
  · refine roundHalfUp_of_sum finite (b := m * whole + half) (by omega)
      (roundsTo_add_half bits full) (by omega) counts.le ?_
    rw [Int.add_mul, counts]
    omega

/-- Numbers below zero whose last place is one are rounded to themselves if they are even, and to
the next ones if they are odd. -/
theorem roundsHalfUp_ones_neg (finite : x.isFinite = true) (bits : m < 2 ^ 53) (full : 2 ^ 52 ≤ m)
    (same : units x = -(m * whole : Nat)) : RoundsHalfUp x (m % 2 : Nat) := by
  have halves := whole_eq
  have some_units := half_pos
  have top := two_pow_mul_whole_lt_limit
  have most := Nat.mul_le_mul_right whole (Nat.succ_le_of_lt bits)
  have least := Nat.mul_le_mul_right whole full
  rw [Nat.succ_mul] at most
  have opposite : -(m : Int) * whole = -((m * whole : Nat) : Int) := by
    rw [Int.neg_mul, Int.natCast_mul]
  refine ⟨-(m : Int), ?_, ?_, ?_⟩
  · omega
  · rw [Int.add_mul]
    omega
  · rcases Nat.eq_or_lt_of_le full with rfl | more
    · -- Below a power of two a half is counted.
      have exactly_units : 2 ^ 52 * whole - half = magnitude (2 ^ 53 - 1) (-1) := by
        rw [magnitude_half]
        omega
      have rounds := roundsTo_magnitude (n := 2 ^ 53 - 1) (by decide) (-1)
      rw [← exactly_units] at rounds
      refine roundHalfUp_of_sum_neg finite (by omega) rounds (by omega) ?_ ?_
      · rw [Int.add_mul, opposite]
        omega
      · rw [Int.add_mul, Int.add_mul, opposite]
        omega
    · have parity : m % 2 = 0 ∨ m % 2 = 1 := Nat.mod_two_eq_zero_or_one m
      have fewer : (m - m % 2) * whole ≤ m * whole := Nat.mul_le_mul_right _ (by omega)
      have counts : (-(m : Int) + (m % 2 : Nat)) * whole =
          -(((m - m % 2) * whole : Nat) : Int) := by
        rw [Int.natCast_mul, Nat.cast_sub (by omega), ← Int.neg_mul, Int.neg_sub]
        ring
      refine roundHalfUp_of_sum_neg finite (b := m * whole - half) (by omega)
        (roundsTo_sub_half bits more) (by omega) counts.le ?_
      rw [Int.add_mul, counts]
      omega

/-- Whole numbers whose last place is one are rounded to themselves if they are even, and to the
next ones if they are odd. -/
theorem roundsHalfUp_ones (finite : x.isFinite = true) (bits : m < 2 ^ 53) (full : 2 ^ 52 ≤ m)
    (size : (units x).natAbs = m * whole) : RoundsHalfUp x (m % 2 : Nat) := by
  rcases Int.natAbs_eq (units x) with positive | negative
  · exact roundsHalfUp_ones_pos finite bits full (by rw [positive, size])
  · exact roundsHalfUp_ones_neg finite bits full (by rw [negative, size])

/-- The last double below a half is rounded to one. -/
theorem roundsHalfUp_last (finite : x.isFinite = true)
    (same : units x = ((2 ^ 53 - 1) * fine : Nat)) : RoundsHalfUp x 1 := by
  have halves := half_eq
  have wholes := whole_eq
  have some_units : 0 < fine := pow_pos (by decide) 1020
  have room := mul_whole_lt_limit (n := 1) (by decide)
  refine ⟨0, by omega, by omega, ?_⟩
  exact roundHalfUp_of_sum finite (b := (2 ^ 53 - 1) * fine + half) (by omega) roundsTo_whole
    (by omega) (by omega) (by omega)

/-- Where the last place is a half or less there are fewer units than in the least number whose last
place is one. -/
theorem magnitude_lt_of_fine {e : Int} (canonical : Canonical m e) (below : e ≤ -1) :
    magnitude m e < 2 ^ 52 * whole := by
  have canonicalOther : Canonical (2 ^ 52) 0 := ⟨by decide, by decide, fun _ => le_rfl⟩
  rw [← magnitude_zero]
  exact canonical.magnitude_lt canonicalOther (by omega)

/-- Where the last place is a half or less, the sum with a half is rounded to less than the next
whole number, but for the last double below a half. -/
theorem nearest_lt_of_fine {e : Int} {b n : Nat} (canonical : Canonical m e) (below : e ≤ -1)
    (size : (units x).natAbs = magnitude m e) (other : units x ≠ ((2 ^ 53 - 1) * fine : Nat))
    (sum : units x + half = b) (floor : n * whole ≤ b) (next : b < (n + 1) * whole) :
    nearest b < (n + 1) * whole := by
  have halves := half_eq
  have wholes := whole_eq
  have some_units := half_pos
  have least := canonical.least
  have rounds := roundsTo_nearest b
  have few := magnitude_lt_of_fine canonical below
  rcases lt_or_ge (units x) 0 with negative | nonneg
  · -- There is no more than a half.
    have stays := roundsTo_magnitude (n := 1) (by decide) (-1)
    rw [magnitude_half, Nat.one_mul] at stays
    have most := rounds.mono stays (by exact_mod_cast (show b ≤ half by omega))
    rw [Nat.succ_mul]
    omega
  · rcases Nat.lt_or_ge (magnitude m e) half with less | more
    · have left := le_of_lt_half canonical less (fun same => other (by omega))
      have most := lt_whole_of_rounds (by omega) rounds
      rw [Nat.succ_mul]
      omega
    · rw [magnitude] at more size few
      exact lt_of_rounds_sum canonical.bits (by omega) more (by omega) floor next rounds

/-- Where the last place is a half or less, numbers from minus a half on are rounded to the nearest
ones, but for the last double below a half. -/
theorem roundsHalfUp_fine_of_nonneg {e : Int} (finite : x.isFinite = true)
    (canonical : Canonical m e) (below : e ≤ -1) (size : (units x).natAbs = magnitude m e)
    (other : units x ≠ ((2 ^ 53 - 1) * fine : Nat)) (above : 0 ≤ units x + half) :
    RoundsHalfUp x 0 := by
  have wholes := whole_eq
  have some_units := half_pos
  have few := magnitude_lt_of_fine canonical below
  obtain ⟨b, sum⟩ := Int.eq_ofNat_of_zero_le above
  obtain ⟨n, floor, next⟩ : ∃ n : Nat, n * whole ≤ b ∧ b < (n + 1) * whole :=
    ⟨b / whole, Nat.div_mul_le_self _ _, Nat.lt_mul_of_div_lt (Nat.lt_succ_self _) whole_pos⟩
  have bits : n < 2 ^ 53 := Nat.lt_of_mul_lt_mul_right (a := whole) (by omega)
  have rounds := roundsTo_nearest b
  have lower := le_of_rounds bits floor rounds
  have upper := nearest_lt_of_fine canonical below size other sum floor next
  have top := two_pow_mul_whole_lt_limit
  have most : (n + 1) * whole ≤ 2 ^ 53 * whole := Nat.mul_le_mul_right whole bits
  refine ⟨n, by rw [sum]; exact_mod_cast floor, by rw [sum]; exact_mod_cast next, ?_⟩
  rw [Int.add_zero]
  exact roundHalfUp_of_sum finite sum rounds (by omega) (by exact_mod_cast lower)
    (by exact_mod_cast upper)

/-- Where the last place is a half or less, numbers below minus a half are rounded to the nearest
ones: with a half there are fewer units than before, and no more bits. -/
theorem roundsHalfUp_fine_of_neg {e : Int} (finite : x.isFinite = true)
    (canonical : Canonical m e) (below : e ≤ -1) (size : (units x).natAbs = magnitude m e)
    (negative : ¬ 0 ≤ units x + half) : RoundsHalfUp x 0 := by
  have some_units := half_pos
  have few := magnitude_lt_of_fine canonical below
  obtain ⟨c, split⟩ := exists_two_pow_eq (show (e + 1074).toNat ≤ 1073 by omega)
  change half = c * 2 ^ (e + 1074).toNat at split
  have exactly_units : magnitude (m - c) e = magnitude m e - half := by
    rw [split, magnitude, magnitude, Nat.sub_mul]
  have bits := canonical.bits
  have rounds := roundsTo_magnitude (n := m - c) (by omega) e
  rw [exactly_units] at rounds
  have sum : units x + half = -((magnitude m e - half : Nat) : Int) := by omega
  have some_whole : (0 : Int) < whole := Int.natCast_pos.mpr whole_pos
  have floor := Int.ediv_mul_le (units x + half) some_whole.ne'
  have next := Int.lt_ediv_add_one_mul_self (units x + half) some_whole
  have top := mul_whole_lt_limit (n := 2 ^ 52) (by decide)
  refine ⟨(units x + half) / whole, floor, next, ?_⟩
  rw [Int.add_zero]
  rw [sum] at floor next ⊢
  exact roundHalfUp_of_sum_neg finite sum rounds (by omega) floor next

/-- Where the last place is a half or less, all numbers are rounded to the nearest ones but the
last one below a half. -/
theorem roundsHalfUp_fine {e : Int} (finite : x.isFinite = true) (canonical : Canonical m e)
    (below : e ≤ -1) (size : (units x).natAbs = magnitude m e)
    (other : units x ≠ ((2 ^ 53 - 1) * fine : Nat)) : RoundsHalfUp x 0 := by
  by_cases above : 0 ≤ units x + half
  · exact roundsHalfUp_fine_of_nonneg finite canonical below size other above
  · exact roundsHalfUp_fine_of_neg finite canonical below size above

/-! ## The nearest whole number -/

/-- The exact value of a finite double. -/
def value (x : Float) : ℚ := units x / whole

/-- Whether a whole number is the nearest to an exact one, a half going up. -/
structure IsNearestUp (n : Int) (q : ℚ) : Prop where
  /-- It is at most a half too large. -/
  lower : n - 1 / 2 ≤ q
  /-- It is less than a half too small. -/
  upper : q < n + 1 / 2

/-- There is one nearest whole number. -/
theorem IsNearestUp.unique {q : ℚ} {n k : Int} (first : IsNearestUp n q)
    (second : IsNearestUp k q) : n = k := by
  have below : (n : ℚ) < k + 1 := by linarith [first.lower, second.upper]
  have above : (k : ℚ) < n + 1 := by linarith [second.lower, first.upper]
  have less : n < k + 1 := by exact_mod_cast below
  have more : k < n + 1 := by exact_mod_cast above
  omega

/-- The exact numbers for which the sum with a half is rounded up to a whole number: the last
double below a half, and the odd numbers so large that there are no halves between them. -/
def IsMisrounded (q : ℚ) : Prop :=
  q = 1 / 2 - 1 / 2 ^ 54 ∨ ∃ k : Int, k % 2 = 1 ∧ 2 ^ 52 < k.natAbs ∧ k.natAbs < 2 ^ 53 ∧ q = k

/-- A double stands for a whole number exactly if it has its units. -/
theorem value_eq_intCast {n : Int} : value x = n ↔ units x = n * whole := by
  have room : (whole : ℚ) ≠ 0 := by exact_mod_cast whole_pos.ne'
  rw [value, div_eq_iff room]
  exact_mod_cast Iff.rfl

/-- The last double below a half by its units. -/
theorem value_eq_last :
    value x = 1 / 2 - 1 / 2 ^ 54 ↔ units x = ((2 ^ 53 - 1) * fine : Nat) := by
  have parts : whole = 2 ^ 54 * fine := by
    rw [whole, fine, two_pow_eq (show 1074 = 54 + 1020 from rfl)]
  have room : (whole : ℚ) ≠ 0 := by exact_mod_cast whole_pos.ne'
  have same : (1 / 2 - 1 / 2 ^ 54 : ℚ) * whole = (((2 ^ 53 - 1) * fine : Nat) : Int) := by
    rw [parts]
    push_cast
    ring
  rw [value, div_eq_iff room, same]
  exact Int.cast_inj

/-- The doubles that are misrounded, by their units. -/
theorem isMisrounded_iff : IsMisrounded (value x) ↔
    units x = ((2 ^ 53 - 1) * fine : Nat) ∨
      ∃ k : Int, k % 2 = 1 ∧ 2 ^ 52 < k.natAbs ∧ k.natAbs < 2 ^ 53 ∧ units x = k * whole := by
  rw [IsMisrounded, value_eq_last]
  simp only [value_eq_intCast]

/-- What is rounded half up to the floor of the exact sum with a half is rounded to the nearest
whole number. -/
theorem RoundsHalfUp.exists_isNearestUp {excess : Int} (rounds : RoundsHalfUp x excess) :
    ∃ n : Int, IsNearestUp n (value x) ∧ Number.roundHalfUp x = .ok (n + excess) := by
  obtain ⟨n, floor, next, same⟩ := rounds
  have room : (0 : ℚ) < whole := by exact_mod_cast whole_pos
  have halves : (whole : ℚ) = 2 * half := by exact_mod_cast whole_eq
  have floorCast : (n : ℚ) * whole ≤ units x + half := by exact_mod_cast floor
  have nextCast : (units x : ℚ) + half < (n + 1) * whole := by exact_mod_cast next
  refine ⟨n, ⟨?_, ?_⟩, same⟩
  · rw [value, le_div_iff₀ room]
    linarith
  · rw [value, div_lt_iff₀ room]
    linarith

/-- A whole number of units of one has so many of them, whatever its sign. -/
theorem natAbs_of_whole {k : Int} (same : units x = k * whole) :
    (units x).natAbs = k.natAbs * whole := by
  rw [same, Int.natAbs_mul, Int.natAbs_natCast]

/-- Of the numbers too small to have one as their last place, only the last double below a half is
misrounded. -/
theorem isMisrounded_iff_of_lt (few : (units x).natAbs < 2 ^ 52 * whole) :
    IsMisrounded (value x) ↔ units x = ((2 ^ 53 - 1) * fine : Nat) := by
  rw [isMisrounded_iff]
  refine or_iff_left ?_
  rintro ⟨k, _, large, _, same⟩
  have many : 2 ^ 52 * whole ≤ k.natAbs * whole := Nat.mul_le_mul_right _ (by omega)
  have counts := natAbs_of_whole same
  omega

/-- Of the numbers whose last place is one the odd ones are misrounded. -/
theorem isMisrounded_iff_of_ones (bits : m < 2 ^ 53) (full : 2 ^ 52 ≤ m)
    (size : (units x).natAbs = m * whole) : IsMisrounded (value x) ↔ m % 2 = 1 := by
  have halves := half_eq
  have wholes := whole_eq
  have some_units := half_pos
  have many := Nat.mul_le_mul_right whole full
  rw [isMisrounded_iff]
  constructor
  · rintro (same | ⟨k, odd, _, _, same⟩)
    · omega
    · have counts := natAbs_of_whole same
      rw [size] at counts
      have equal := Nat.eq_of_mul_eq_mul_right whole_pos counts
      omega
  · intro odd
    right
    rcases Int.natAbs_eq (units x) with positive | negative
    · exact ⟨m, by omega, by omega, by omega, by rw [positive, size, Int.natCast_mul]⟩
    · refine ⟨-m, by omega, by omega, by omega, ?_⟩
      rw [negative, size, Int.natCast_mul, Int.neg_mul]

/-- Numbers too large to have one as their last place are not misrounded. -/
theorem not_isMisrounded_of_le (many : 2 ^ 53 * whole ≤ (units x).natAbs) :
    ¬ IsMisrounded (value x) := by
  have halves := half_eq
  have wholes := whole_eq
  have some_units := half_pos
  rw [isMisrounded_iff]
  rintro (same | ⟨k, _, _, small, same⟩)
  · omega
  · have fewer : k.natAbs * whole < 2 ^ 53 * whole :=
      Nat.mul_lt_mul_of_pos_right (by omega) whole_pos
    have counts := natAbs_of_whole same
    omega

/-- Every finite double is rounded half up to the floor of its exact sum with a half, or to the next
number if it is misrounded. -/
theorem roundsHalfUp_cases (finite : x.isFinite = true) :
    (IsMisrounded (value x) ∧ RoundsHalfUp x 1) ∨
      (¬ IsMisrounded (value x) ∧ RoundsHalfUp x 0) := by
  obtain ⟨m, e, canonical, size⟩ := exists_canonical_natAbs finite
  rcases lt_trichotomy e 0 with below | rfl | above
  · have few := magnitude_lt_of_fine canonical (by omega)
    rw [isMisrounded_iff_of_lt (size ▸ few)]
    by_cases last : units x = ((2 ^ 53 - 1) * fine : Nat)
    · exact .inl ⟨last, roundsHalfUp_last finite last⟩
    · exact .inr ⟨last, roundsHalfUp_fine finite canonical (by omega) size last⟩
  · have full := canonical.full (by decide)
    rw [magnitude_zero] at size
    have rounds := roundsHalfUp_ones finite canonical.bits full size
    rw [isMisrounded_iff_of_ones canonical.bits full size]
    rcases Nat.mod_two_eq_zero_or_one m with even | odd
    · rw [even] at rounds ⊢
      exact .inr ⟨by decide, rounds⟩
    · rw [odd] at rounds ⊢
      exact .inl ⟨rfl, rounds⟩
  · have full := canonical.full (by omega)
    have coarse : 1075 ≤ (e + 1074).toNat := by omega
    have many : 2 ^ 53 * whole ≤ (units x).natAbs := by
      have wholes := whole_eq
      have larger := Nat.mul_le_mul full (four_halves_le coarse)
      rw [size, magnitude]
      omega
    exact .inr ⟨not_isMisrounded_of_le many,
      roundsHalfUp_coarse finite canonical.bits full coarse size⟩

/-- Every finite double is rounded half up to the nearest whole number, or to the next one if it is
misrounded. -/
theorem exists_roundHalfUp (finite : x.isFinite = true) : ∃ n : Int, IsNearestUp n (value x) ∧
    (¬ IsMisrounded (value x) → Number.roundHalfUp x = .ok n) ∧
    (IsMisrounded (value x) → Number.roundHalfUp x = .ok (n + 1)) := by
  rcases roundsHalfUp_cases finite with ⟨wrong, rounds⟩ | ⟨right, rounds⟩
  · obtain ⟨n, nearest, same⟩ := rounds.exists_isNearestUp
    exact ⟨n, nearest, fun right => absurd wrong right, fun _ => same⟩
  · obtain ⟨n, nearest, same⟩ := rounds.exists_isNearestUp
    rw [Int.add_zero] at same
    exact ⟨n, nearest, fun _ => same, fun wrong => absurd wrong right⟩

end Storyboard.Binary64
