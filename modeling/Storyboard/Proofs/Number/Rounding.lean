import Mathlib.Algebra.Group.Nat.Defs
import Mathlib.Order.Monotone.Basic
/-!
# Rounding to fifty-three bits

A double is rounded by dropping low bits of its significand. What is dropped leaves two bits
behind, and in the end they tell which way to go, a tie going to the even neighbour. `kept` is
what is left of a whole number, and `nearest` the multiple of a power of two that stands for it.

Main statements: `nearest` is monotone (`nearest_mono`) and keeps what has fifty-three bits at most
(`nearest_of_bits`).
-/
namespace Storyboard.Binary64

open Float.Model.UnpackedFloat

/-! ## The bits left behind -/

/-- Where a significand lies with the bits left behind, in quarters; whatever lies between two
quarters counts as the odd one between the even ones. -/
def quarters (em : ExtendedMantissa) : Nat :=
  4 * em.mantissa + 2 * em.roundBit.toNat + em.stickyBit.toNat

/-- What lies further is not rounded to less. -/
theorem roundedMantissa_mono {em other : ExtendedMantissa} (le : quarters em ≤ quarters other) :
    em.roundedMantissa ≤ other.roundedMantissa := by
  rcases em with ⟨m, _ | _, _ | _⟩ <;> rcases other with ⟨n, _ | _, _ | _⟩ <;>
    simp only [quarters, Bool.toNat_true, Bool.toNat_false] at le <;>
    simp only [ExtendedMantissa.roundedMantissa, ExtendedMantissa.accuracy,
      Accuracy.roundToNearestEven] <;> omega

/-- What lies further is not shifted to less. -/
theorem quarters_shiftRightOne_mono {em other : ExtendedMantissa}
    (le : quarters em ≤ quarters other) :
    quarters em.shiftRightOne ≤ quarters other.shiftRightOne := by
  -- A shift halves the place; what it drops makes the last quarter odd.
  have halved : ∀ em : ExtendedMantissa,
      quarters em.shiftRightOne = 2 * (quarters em / 4) + min 1 (quarters em % 4) := by
    rintro ⟨m, round, sticky⟩
    rcases Nat.mod_two_eq_zero_or_one m with even | odd <;>
      cases round <;> cases sticky <;>
      simp [quarters, ExtendedMantissa.shiftRightOne, *] <;> omega
  rw [halved, halved]
  omega

/-- Rounding takes the significand or its successor. -/
theorem roundedMantissa_cases (em : ExtendedMantissa) :
    em.roundedMantissa = em.mantissa ∨ em.roundedMantissa = em.mantissa + 1 := by
  obtain ⟨m, round, sticky⟩ := em
  cases round with
  | false => cases sticky <;> exact .inl rfl
  | true =>
    cases sticky with
    | true => exact .inr rfl
    | false =>
      -- A tie goes up from an odd significand only.
      show m + m % 2 = m ∨ m + m % 2 = m + 1
      omega

/-! ## Shifting a whole number -/

/-- A whole number of which nothing is dropped. -/
def exactly (m : Nat) : ExtendedMantissa := ⟨m, false, false⟩

/-- The whole number nearest to `m / 2 ^ shift`, an even one if two are. -/
def kept (shift m : Nat) : Nat := (exactly m >>> shift).roundedMantissa

/-- A shift by none changes nothing. -/
theorem shiftRight_zero (em : ExtendedMantissa) : em >>> (0 : Nat) = em := rfl

/-- A shift by one more ends with a shift by one. -/
theorem shiftRight_succ (em : ExtendedMantissa) (shift : Nat) :
    em >>> (shift + 1) = (em >>> shift).shiftRightOne := rfl

/-- Shifts add up. -/
theorem shiftRight_add (em : ExtendedMantissa) (first second : Nat) :
    em >>> (first + second) = (em >>> first) >>> second := by
  induction second with
  | zero => rfl
  | succ second ih => rw [← Nat.add_assoc, shiftRight_succ, shiftRight_succ, ih]

/-- A shift divides the significand. -/
theorem mantissa_shiftRight (em : ExtendedMantissa) (shift : Nat) :
    (em >>> shift).mantissa = em.mantissa / 2 ^ shift := by
  induction shift with
  | zero => rw [shiftRight_zero, Nat.pow_zero, Nat.div_one]
  | succ shift ih =>
    rw [shiftRight_succ, Nat.pow_succ, ← Nat.div_div_eq_div_mul, ← ih]
    rfl

/-- A shift that only drops zeros is exact. -/
theorem exactly_shiftRight (m shift : Nat) : exactly (m * 2 ^ shift) >>> shift = exactly m := by
  induction shift with
  | zero => rw [Nat.pow_zero, Nat.mul_one, shiftRight_zero]
  | succ shift ih =>
    rw [Nat.add_comm, shiftRight_add, Nat.pow_add, Nat.pow_one, ← Nat.mul_assoc,
      Nat.mul_right_comm]
    have step : exactly (m * 2 ^ shift * 2) >>> (1 : Nat) = exactly (m * 2 ^ shift) := by
      simp [shiftRight_succ, shiftRight_zero, exactly, ExtendedMantissa.shiftRightOne]
    rw [step, ih]

/-- A shift by none keeps all. -/
theorem kept_zero (m : Nat) : kept 0 m = m := rfl

/-- What is kept does not depend on zeros that are dropped. -/
theorem kept_mul (shift zeros m : Nat) : kept (zeros + shift) (m * 2 ^ zeros) = kept shift m := by
  rw [kept, shiftRight_add, exactly_shiftRight, kept]

/-- What lies further is not shifted to less by several bits. -/
theorem quarters_shiftRight_mono {em other : ExtendedMantissa}
    (le : quarters em ≤ quarters other) (shift : Nat) :
    quarters (em >>> shift) ≤ quarters (other >>> shift) := by
  induction shift with
  | zero => exact le
  | succ shift ih => exact quarters_shiftRightOne_mono ih

/-- More of a larger number is kept. -/
theorem kept_mono (shift : Nat) : Monotone (kept shift) := by
  intro m n le
  apply roundedMantissa_mono
  apply quarters_shiftRight_mono
  simp only [quarters, exactly, Bool.toNat_false]
  omega

/-- The quotient is kept or its successor. -/
theorem kept_bounds (shift m : Nat) :
    m / 2 ^ shift ≤ kept shift m ∧ kept shift m ≤ m / 2 ^ shift + 1 := by
  have quotient : (exactly m >>> shift).mantissa = m / 2 ^ shift := mantissa_shiftRight _ _
  have near := roundedMantissa_cases (exactly m >>> shift)
  rw [quotient] at near
  unfold kept
  omega

/-! ## The nearest number of fifty-three bits -/

/-- How many bits of a whole number are too many. -/
def excess (m : Nat) : Nat := m.log2 + 1 - 53

/-- The nearest whole number of fifty-three bits, counted from its first to its last one. -/
def nearest (m : Nat) : Nat := kept (excess m) m * 2 ^ excess m

/-- Zeros at the end move the first bit up. -/
theorem log2_mul_pow {m : Nat} (positive : 0 < m) (zeros : Nat) :
    (m * 2 ^ zeros).log2 = m.log2 + zeros := by
  have nonzero : m * 2 ^ zeros ≠ 0 := (Nat.mul_pos positive (Nat.two_pow_pos zeros)).ne'
  rw [Nat.log2_eq_iff nonzero, Nat.pow_add, Nat.add_right_comm, Nat.pow_add]
  exact ⟨Nat.mul_le_mul_right _ (Nat.log2_self_le positive.ne'),
    Nat.mul_lt_mul_of_pos_right Nat.lt_log2_self (Nat.two_pow_pos zeros)⟩

/-- A larger number has no fewer bits too many. -/
theorem excess_mono : Monotone excess := by
  intro m n le
  rcases Nat.eq_zero_or_pos m with rfl | positive
  · exact Nat.zero_le _
  · have first : m.log2 ≤ n.log2 :=
      (Nat.le_log2 (by omega)).mpr (Nat.le_trans (Nat.log2_self_le positive.ne') le)
    exact Nat.sub_le_sub_right (Nat.succ_le_succ first) 53

/-- Fifty-three bits hold what is kept, or the power of two after it. -/
theorem kept_excess_le {shift m : Nat} (enough : excess m ≤ shift) : kept shift m ≤ 2 ^ 53 := by
  have short : m < 2 ^ (53 + shift) :=
    Nat.lt_of_lt_of_le Nat.lt_log2_self (Nat.pow_le_pow_right (by omega) (by
      unfold excess at enough
      omega))
  have quotient : m / 2 ^ shift < 2 ^ 53 :=
    (Nat.div_lt_iff_lt_mul (Nat.two_pow_pos shift)).mpr (by rwa [← Nat.pow_add])
  have upper := (kept_bounds shift m).2
  omega

/-- Of a number that is long enough all fifty-three bits are kept. -/
theorem le_kept {shift m : Nat} (positive : 0 < m) (long : 52 + shift ≤ m.log2) :
    2 ^ 52 ≤ kept shift m := by
  have quotient : 2 ^ 52 ≤ m / 2 ^ shift := by
    rw [Nat.le_div_iff_mul_le (Nat.two_pow_pos _), ← Nat.pow_add]
    exact Nat.le_trans (Nat.pow_le_pow_right (by omega) long) (Nat.log2_self_le positive.ne')
  exact Nat.le_trans quotient (kept_bounds _ m).1

/-- A larger number has no smaller nearest one. -/
theorem nearest_mono : Monotone nearest := by
  intro m n le
  rcases Nat.eq_or_lt_of_le (excess_mono le) with same | less
  · rw [nearest, nearest, ← same]
    exact Nat.mul_le_mul_right _ (kept_mono _ le)
  · have positive : 0 < n := by
      rcases Nat.eq_or_lt_of_le le with rfl | more
      · exact absurd less (Nat.lt_irrefl _)
      · omega
    -- A power of two lies between both.
    have below : nearest m ≤ 2 ^ (53 + excess m) := by
      rw [nearest, Nat.pow_add]
      exact Nat.mul_le_mul_right _ (kept_excess_le (Nat.le_refl _))
    have above : 2 ^ (52 + excess n) ≤ nearest n := by
      rw [nearest, Nat.pow_add]
      exact Nat.mul_le_mul_right _ (le_kept positive (by
        unfold excess at less ⊢
        omega))
    exact Nat.le_trans below (Nat.le_trans (Nat.pow_le_pow_right (by omega) (by omega)) above)

/-- Where enough zeros stand at the end nothing is lost. -/
theorem kept_of_zeros {shift zeros : Nat} (enough : shift ≤ zeros) (m : Nat) :
    kept shift (m * 2 ^ zeros) * 2 ^ shift = m * 2 ^ zeros := by
  obtain ⟨more, rfl⟩ := Nat.exists_eq_add_of_le' enough
  have exact_quotient := kept_mul 0 shift (m * 2 ^ more)
  rw [Nat.add_zero, kept_zero, Nat.mul_assoc, ← Nat.pow_add] at exact_quotient
  rw [exact_quotient, Nat.mul_assoc, ← Nat.pow_add]

/-- A number of fifty-three bits is the nearest to itself. -/
theorem nearest_of_bits {m : Nat} (few : m < 2 ^ 53) (zeros : Nat) :
    nearest (m * 2 ^ zeros) = m * 2 ^ zeros := by
  refine kept_of_zeros ?_ m
  rcases Nat.eq_zero_or_pos m with rfl | positive
  · rw [Nat.zero_mul]
    exact Nat.zero_le _
  · have short := (Nat.log2_lt positive.ne').mpr few
    rw [excess, log2_mul_pow positive]
    omega

end Storyboard.Binary64
