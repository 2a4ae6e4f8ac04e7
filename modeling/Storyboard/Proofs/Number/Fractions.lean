import Storyboard.Proofs.Number.Difference
/-!
# Fractions rounded to doubles

Products, quotients and decimal numbers are fractions of units. A significand with the bits left
behind tells where the fraction lies; what is rounded is the closest number of fifty-three bits, an
even one if two are, however the significand was found.

Main statements: rounding is monotone, so that a fraction is rounded in one way only
(`RoundsTo.mono`, `RoundsTo.unique`); what is rounded with an accuracy is rounded to fifty-three
bits (`roundsTo_rounded`), and so are whole numbers (`roundsTo_nearest`).
-/
namespace Storyboard.Binary64

open Float.Model (Format UnpackedFloat)
open Float.Model.UnpackedFloat

/-! ## Rounding with an accuracy -/

/-- The bits of a significand with what is known of the rest of it. -/
abbrev extended (m : Nat) (accuracy : Accuracy) : ExtendedMantissa :=
  ExtendedMantissa.ofMantissaAndAccuracy m accuracy

/-- The significand is among them. -/
theorem mantissa_extended (m : Nat) (accuracy : Accuracy) : (extended m accuracy).mantissa = m := by
  rcases accuracy with _ | order
  · rfl
  · cases order <;> rfl

/-- A significand known with an accuracy after some bits are dropped and it is rounded. -/
def rounded (shift m : Nat) (accuracy : Accuracy) : Nat :=
  (extended m accuracy >>> shift).roundedMantissa

/-- The quotient is left or its successor. -/
theorem rounded_bounds (shift m : Nat) (accuracy : Accuracy) :
    m / 2 ^ shift ≤ rounded shift m accuracy ∧
      rounded shift m accuracy ≤ m / 2 ^ shift + 1 := by
  have quotient := mantissa_shiftRight (extended m accuracy) shift
  rw [mantissa_extended] at quotient
  have near := roundedMantissa_cases (extended m accuracy >>> shift)
  rw [quotient] at near
  unfold rounded
  omega

/-! ## The bits left behind -/

/-- Where a significand lies by the bits left behind. -/
def LiesAt : ExtendedMantissa → ℚ → Prop
  | ⟨m, false, false⟩, q => q = m
  | ⟨m, false, true⟩, q => m < q ∧ q < m + 1 / 2
  | ⟨m, true, false⟩, q => q = m + 1 / 2
  | ⟨m, true, true⟩, q => m + 1 / 2 < q ∧ q < m + 1

/-- A shift by one halves the place. -/
theorem LiesAt.shiftRightOne {em : ExtendedMantissa} {q : ℚ} (place : LiesAt em q) :
    LiesAt em.shiftRightOne (q / 2) := by
  obtain ⟨m, round, sticky⟩ := em
  obtain ⟨k, rfl | rfl⟩ := Nat.even_or_odd' m
  · have whole : (2 * k) / 2 = k := by omega
    have even : ((2 * k) % 2 != 0) = false := by simp
    cases round <;> cases sticky <;>
      simp only [ExtendedMantissa.shiftRightOne, whole, even, LiesAt, Bool.or_false,
        Bool.or_true] at place ⊢ <;>
      push_cast at place
    · linarith
    · constructor <;> linarith
    · constructor <;> linarith
    · constructor <;> linarith
  · have whole : (2 * k + 1) / 2 = k := by omega
    have odd : ((2 * k + 1) % 2 != 0) = true := by simp [Nat.add_mod]
    cases round <;> cases sticky <;>
      simp only [ExtendedMantissa.shiftRightOne, whole, odd, LiesAt, Bool.or_false,
        Bool.or_true] at place ⊢ <;>
      push_cast at place
    · linarith
    · constructor <;> linarith
    · constructor <;> linarith
    · constructor <;> linarith

/-- A shift divides the place. -/
theorem LiesAt.shiftRight {em : ExtendedMantissa} {q : ℚ} (place : LiesAt em q) (shift : Nat) :
    LiesAt (em >>> shift) (q / 2 ^ shift) := by
  induction shift with
  | zero => rwa [pow_zero, div_one]
  | succ shift ih =>
    rw [shiftRight_succ, pow_succ, ← div_div]
    exact ih.shiftRightOne

/-- A whole number lies where it is. -/
theorem liesAt_exactly (m : Nat) : LiesAt (extended m .exact) m := rfl

/-- A quotient with what is left of it lies at the fraction. -/
theorem liesAt_fraction (k : Nat) {n : Nat} (positive : 0 < n) :
    LiesAt (extended (k / n) (accuracyOfFraction (k % n) n)) (k / n) := by
  have split : (k : ℚ) = (k / n : Nat) * n + (k % n : Nat) := by
    exact_mod_cast (Nat.div_add_mod' k n).symm
  have some_parts : (0 : ℚ) < n := by exact_mod_cast positive
  have left : ((k % n : Nat) : ℚ) < n := by exact_mod_cast Nat.mod_lt k positive
  rw [accuracyOfFraction]
  split
  · rename_i none
    rw [none, Nat.cast_zero, add_zero] at split
    exact (eq_div_iff some_parts.ne').mpr split.symm |>.symm
  · rename_i more
    have rest : (0 : ℚ) < (k % n : Nat) := by exact_mod_cast Nat.pos_of_ne_zero more
    rcases order : compare (2 * (k % n)) n with _ | _ | _
    · have less : (2 : ℚ) * (k % n : Nat) < n := by exact_mod_cast compare_lt_iff_lt.mp order
      show _ ∧ _
      rw [lt_div_iff₀ some_parts, div_lt_iff₀ some_parts]
      constructor <;> linarith
    · have same : (2 : ℚ) * (k % n : Nat) = n := by exact_mod_cast compare_eq_iff_eq.mp order
      show _ = _
      rw [div_eq_iff some_parts.ne']
      linarith
    · have greater : (n : ℚ) < 2 * (k % n : Nat) := by exact_mod_cast compare_gt_iff_gt.mp order
      show _ ∧ _
      rw [lt_div_iff₀ some_parts, div_lt_iff₀ some_parts]
      constructor <;> linarith

/-! ## The closest whole number -/

/-- Whether a whole number is the closest to a fraction, an even one if two are. -/
structure IsClosest (q : ℚ) (n : Nat) : Prop where
  /-- It is at most a half too large. -/
  lower : n ≤ q + 1 / 2
  /-- It is at most a half too small. -/
  upper : q ≤ n + 1 / 2
  /-- With a half between it is even. -/
  even : n = q + 1 / 2 ∨ q = n + 1 / 2 → n % 2 = 0

/-- A whole number is the closest to itself. -/
theorem isClosest_natCast (n : Nat) : IsClosest n n := by
  refine ⟨by linarith, by linarith, ?_⟩
  rintro (same | same) <;> exfalso <;> linarith

/-- Whether a whole number is the closest to a fraction is told without dividing. -/
theorem isClosest_div {b n d : Nat} (positive : 0 < d) (lower : 2 * (n * d) ≤ 2 * b + d)
    (upper : 2 * b ≤ 2 * (n * d) + d)
    (even : 2 * (n * d) = 2 * b + d ∨ 2 * b = 2 * (n * d) + d → n % 2 = 0) :
    IsClosest (b / d) n := by
  have scale : (0 : ℚ) < d := by exact_mod_cast positive
  have lowerCast : (2 : ℚ) * (n * d) ≤ 2 * b + d := by exact_mod_cast lower
  have upperCast : (2 : ℚ) * b ≤ 2 * (n * d) + d := by exact_mod_cast upper
  have parts : (b / d : ℚ) * d = b := div_mul_cancel₀ _ scale.ne'
  refine ⟨?_, ?_, fun tie => even ?_⟩
  · refine le_of_mul_le_mul_right ?_ scale
    rw [add_mul, parts]
    linarith
  · refine le_of_mul_le_mul_right ?_ scale
    rw [add_mul, parts]
    linarith
  · rcases tie with below | above
    · left
      have same : (2 : ℚ) * (n * d) = 2 * b + d := by
        rw [below, add_mul, parts]
        ring
      exact_mod_cast same
    · right
      have same : (2 : ℚ) * b = 2 * (n * d) + d := by
        rw [← parts, above, add_mul]
        ring
      exact_mod_cast same

/-- A larger fraction has no smaller closest number. -/
theorem IsClosest.mono {q r : ℚ} {m n : Nat} (first : IsClosest q m) (second : IsClosest r n)
    (le : q ≤ r) : m ≤ n := by
  by_contra! less
  have next : (n : ℚ) + 1 ≤ m := by exact_mod_cast less
  have lower := first.lower
  have upper := second.upper
  -- Both lie half way between their closest numbers, which follow each other.
  have even := first.even (.inl (by linarith))
  have evenOther := second.even (.inr (by linarith))
  have same : (m : ℚ) = (n + 1 : Nat) := by push_cast; linarith
  have follows : m = n + 1 := by exact_mod_cast same
  omega

/-- Rounding takes the closest number. -/
theorem LiesAt.isClosest {em : ExtendedMantissa} {q : ℚ} (place : LiesAt em q) :
    IsClosest q em.roundedMantissa := by
  obtain ⟨m, round, sticky⟩ := em
  cases round <;> cases sticky <;>
    simp only [LiesAt] at place <;>
    simp only [ExtendedMantissa.roundedMantissa, ExtendedMantissa.accuracy,
      Accuracy.roundToNearestEven]
  · exact ⟨by linarith, by linarith, by rintro (h | h) <;> exfalso <;> linarith⟩
  · exact ⟨by linarith, by linarith, by rintro (h | h) <;> exfalso <;> linarith⟩
  · rcases Nat.mod_two_eq_zero_or_one m with even | odd
    · rw [even, Nat.add_zero]
      exact ⟨by linarith, by linarith, fun _ => even⟩
    · rw [odd]
      exact ⟨by push_cast; linarith, by push_cast; linarith, fun _ => by omega⟩
  · exact ⟨by push_cast; linarith, by push_cast; linarith,
      by push_cast; rintro (h | h) <;> exfalso <;> linarith⟩

/-! ## Rounding to fifty-three bits -/

/-- Whether a whole number is a fraction rounded to fifty-three bits. -/
def RoundsTo (q : ℚ) (k : Nat) : Prop :=
  ∃ shift n : Nat, k = n * 2 ^ shift ∧ IsClosest (q / 2 ^ shift) n ∧ q < 2 ^ (53 + shift) ∧
    (0 < shift → 2 ^ (52 + shift) ≤ q)

/-- A larger fraction is not rounded to less. -/
theorem RoundsTo.mono {q r : ℚ} {k l : Nat} (first : RoundsTo q k) (second : RoundsTo r l)
    (le : q ≤ r) : k ≤ l := by
  obtain ⟨s, m, rfl, closest, short, long⟩ := first
  obtain ⟨t, n, rfl, closestOther, shortOther, longOther⟩ := second
  have scale (n : Nat) : (0 : ℚ) < 2 ^ n := by positivity
  rcases lt_trichotomy s t with less | rfl | more
  · -- A power of two lies between both.
    have most : m ≤ 2 ^ 53 := by
      have room : q / 2 ^ s ≤ (2 ^ 53 : Nat) := by
        rw [div_le_iff₀ (scale s), Nat.cast_pow, Nat.cast_ofNat, ← pow_add]
        exact short.le
      exact closest.mono (isClosest_natCast _) room
    have least : 2 ^ 52 ≤ n := by
      have room : ((2 ^ 52 : Nat) : ℚ) ≤ r / 2 ^ t := by
        rw [le_div_iff₀ (scale t), Nat.cast_pow, Nat.cast_ofNat, ← pow_add]
        exact longOther (by omega)
      exact (isClosest_natCast _).mono closestOther room
    calc m * 2 ^ s ≤ 2 ^ 53 * 2 ^ s := Nat.mul_le_mul_right _ most
      _ = 2 ^ 52 * 2 ^ (s + 1) := by rw [Nat.pow_succ]; omega
      _ ≤ n * 2 ^ t := Nat.mul_le_mul least (Nat.pow_le_pow_right (by decide) less)
  · exact Nat.mul_le_mul_right _
      (closest.mono closestOther (div_le_div_of_nonneg_right le (scale s).le))
  · exfalso
    have power : (2 : ℚ) ^ (53 + t) ≤ 2 ^ (52 + s) :=
      pow_le_pow_right₀ (by norm_num) (by omega)
    have above := long (by omega)
    linarith

/-- A fraction is rounded in one way. -/
theorem RoundsTo.unique {q : ℚ} {k l : Nat} (first : RoundsTo q k) (second : RoundsTo q l) :
    k = l :=
  Nat.le_antisymm (first.mono second le_rfl) (second.mono first le_rfl)

variable {m : Nat} {e : Int} {shift : Nat}

/-- Rounding a significand whose exponent is not above its target: the units are those of what is
left of the significand. -/
theorem roundWithAccuracy_units (sign : Sign) (accuracy : Accuracy)
    (target : max ((m.log2 : Int) + 1 + e - 53) (-1074) = e + shift) :
    IsRounded (roundWithAccuracy .binary64 sign m e accuracy) ∧
      (roundWithAccuracy .binary64 sign m e accuracy).isNaN = false ∧
      unitsOf (roundWithAccuracy .binary64 sign m e accuracy) =
        sign.apply (magnitude (rounded shift m accuracy) (e + shift)) := by
  have enough : (max ((m.log2 : Int) + 1 + e - 53) (-1074) - e).toNat = shift := by omega
  have first : shiftToTargetExponent .binary64 m e accuracy =
      (extended m accuracy >>> shift, e + shift) := by
    simp only [shiftToTargetExponent, shiftToExponent, targetExponent_eq, enough]
  have bounds := rounded_bounds shift m accuracy
  rcases Nat.eq_zero_or_pos (rounded shift m accuracy) with none | positive
  · have nothing : (shiftToTargetExponent .binary64 (extended m accuracy >>> shift).roundedMantissa
        (e + shift) .exact).1.mantissa = 0 := by
      rw [show (extended m accuracy >>> shift).roundedMantissa = 0 from none]
      exact (mantissa_shiftRight (exactly 0) _).trans (Nat.zero_div _)
    have zero : roundWithAccuracy .binary64 sign m e accuracy = .zero sign := by
      simp only [roundWithAccuracy, first]
      exact dif_pos nothing
    rw [zero, none, magnitude, Nat.zero_mul]
    exact ⟨trivial, rfl, by cases sign <;> rfl⟩
  · have few : m < 2 ^ (53 + shift) :=
      Nat.lt_of_lt_of_le Nat.lt_log2_self (Nat.pow_le_pow_right (by omega) (by omega))
    have most : m / 2 ^ shift < 2 ^ 53 := by
      rwa [Nat.div_lt_iff_lt_mul (Nat.two_pow_pos shift), ← Nat.pow_add]
    have full : -1074 < e + shift → 2 ^ 52 ≤ m / 2 ^ shift := fun above => by
      have some_bits : m ≠ 0 := by
        rintro rfl
        rw [Nat.log2_zero] at target
        omega
      rw [Nat.le_div_iff_mul_le (Nat.two_pow_pos shift), ← Nat.pow_add]
      exact Nat.le_trans (Nat.pow_le_pow_right (by omega) (by omega)) (Nat.log2_self_le some_bits)
    obtain ⟨em, g, second, many, canonical, same⟩ := shift_rounded positive (by omega)
      (f := e + shift) (by omega) (fun above => Nat.le_trans (full above) bounds.1)
    rw [roundWithAccuracy_of_shifts first second many, ← same]
    exact ⟨canonical, rfl, rfl⟩

/-- What is rounded lies in the power of two that its significand and exponent tell. -/
theorem roundsTo_rounded {q : ℚ} {accuracy : Accuracy}
    (place : LiesAt (extended m accuracy) q)
    (target : max ((m.log2 : Int) + 1 + e - 53) (-1074) = e + shift) :
    RoundsTo (q * 2 ^ (e + 1074)) (magnitude (rounded shift m accuracy) (e + shift)) := by
  -- What the accuracy stands for is less than one place.
  have inside : (m : ℚ) ≤ q ∧ q < m + 1 := by
    have whole := mantissa_extended m accuracy
    generalize extended m accuracy = em at place whole
    obtain ⟨n, round, sticky⟩ := em
    subst whole
    cases round <;> cases sticky <;> simp only [LiesAt] at place <;> constructor <;> linarith
  obtain ⟨s, same⟩ : ∃ s : Nat, e + shift + 1074 = s := ⟨(e + shift + 1074).toNat, by omega⟩
  have scale : (2 : ℚ) ^ (e + 1074) * 2 ^ shift = 2 ^ s := by
    rw [← zpow_natCast 2 shift, ← zpow_add₀ (by norm_num), ← zpow_natCast 2 s]
    congr 1
    omega
  have positive : (0 : ℚ) < 2 ^ (e + 1074) := by positivity
  refine ⟨s, rounded shift m accuracy, ?_, ?_, ?_, fun above => ?_⟩
  · rw [magnitude, same, Int.toNat_natCast]
  · have quotient : q * 2 ^ (e + 1074) / 2 ^ s = q / 2 ^ shift := by
      rw [← scale]
      field_simp
    rw [quotient]
    exact (place.shiftRight shift).isClosest
  · have few : m + 1 ≤ 2 ^ (53 + shift) :=
      Nat.le_trans Nat.lt_log2_self (Nat.pow_le_pow_right (by decide) (by omega))
    have bits : q < 2 ^ (53 + shift) := by
      have : ((m + 1 : Nat) : ℚ) ≤ (2 ^ (53 + shift) : Nat) := by exact_mod_cast few
      push_cast at this
      linarith
    calc q * 2 ^ (e + 1074) < 2 ^ (53 + shift) * 2 ^ (e + 1074) :=
          mul_lt_mul_of_pos_right bits positive
      _ = 2 ^ (53 + s) := by rw [pow_add, mul_assoc, mul_comm (2 ^ shift), scale, ← pow_add]
  · have some_bits : m ≠ 0 := by
      rintro rfl
      rw [Nat.log2_zero] at target
      omega
    have many : 2 ^ (52 + shift) ≤ m :=
      Nat.le_trans (Nat.pow_le_pow_right (by decide) (by omega)) (Nat.log2_self_le some_bits)
    have full : (2 : ℚ) ^ (52 + shift) ≤ q := by
      have : ((2 ^ (52 + shift) : Nat) : ℚ) ≤ m := by exact_mod_cast many
      push_cast at this
      linarith
    calc (2 : ℚ) ^ (52 + s) = 2 ^ (52 + shift) * 2 ^ (e + 1074) := by
          rw [pow_add, pow_add, mul_assoc, mul_comm (2 ^ shift), scale]
      _ ≤ q * 2 ^ (e + 1074) := mul_le_mul_of_nonneg_right full positive.le

/-! ## Doubles that are rounded -/

/-- A whole number is rounded to the nearest one. -/
theorem roundsTo_nearest (m : Nat) : RoundsTo m (nearest m) := by
  have bits : m < 2 ^ (m.log2 + 1) := Nat.lt_log2_self
  refine ⟨excess m, kept (excess m) m, rfl, ((liesAt_exactly m).shiftRight _).isClosest, ?_,
    fun above => ?_⟩
  · have few : m < 2 ^ (53 + excess m) := Nat.lt_of_lt_of_le bits
      (Nat.pow_le_pow_right (by decide) (by unfold excess; omega))
    exact_mod_cast few
  · have positive : m ≠ 0 := by
      rintro rfl
      exact absurd above (by decide)
    have many : 2 ^ (52 + excess m) ≤ m := Nat.le_trans
      (Nat.pow_le_pow_right (by decide) (by unfold excess at above ⊢; omega))
      (Nat.log2_self_le positive)
    exact_mod_cast many

/-- A significand of few bits is rounded to itself. -/
theorem roundsTo_magnitude {n : Nat} (bits : n < 2 ^ 53) (f : Int) :
    RoundsTo (magnitude n f) (magnitude n f) := by
  have same := roundsTo_nearest (magnitude n f)
  rwa [magnitude, nearest_of_bits bits, ← magnitude] at same

/-- Nothing is rounded to nothing. -/
theorem RoundsTo.eq_zero {k : Nat} (rounds : RoundsTo 0 k) : k = 0 := by
  have none : RoundsTo (0 : Nat) 0 := roundsTo_nearest 0
  rw [Nat.cast_zero] at none
  exact rounds.unique none

/-- Whether a double is an exact number of units rounded once: to fifty-three bits, and to an
infinity from the limit on. -/
structure IsRoundingOf (x : Float) (q : ℚ) : Prop where
  /-- The double is a number. -/
  number : x.isNaN = false
  /-- It is not below zero if the exact number is not. -/
  nonneg : 0 ≤ q → 0 ≤ units x
  /-- It is not above zero if the exact number is not. -/
  nonpos : q ≤ 0 → units x ≤ 0
  /-- It is as far from zero as rounding says. -/
  size : ∃ k, RoundsTo |q| k ∧ (units x).natAbs = min limit k

/-- Of a larger number no less is rounded. -/
theorem IsRoundingOf.mono {x y : Float} {q r : ℚ} (first : IsRoundingOf x q)
    (second : IsRoundingOf y r) (le : q ≤ r) : units x ≤ units y := by
  obtain ⟨k, rounds, size⟩ := first.size
  obtain ⟨l, roundsOther, sizeOther⟩ := second.size
  rcases le_total 0 q with nonneg | nonpos
  · rw [abs_of_nonneg nonneg] at rounds
    rw [abs_of_nonneg (nonneg.trans le)] at roundsOther
    have above := first.nonneg nonneg
    have aboveOther := second.nonneg (nonneg.trans le)
    have order := rounds.mono roundsOther le
    omega
  · have below := first.nonpos nonpos
    rcases le_total 0 r with nonnegOther | nonposOther
    · exact below.trans (second.nonneg nonnegOther)
    · rw [abs_of_nonpos nonpos] at rounds
      rw [abs_of_nonpos nonposOther] at roundsOther
      have belowOther := second.nonpos nonposOther
      have order := roundsOther.mono rounds (neg_le_neg le)
      omega

/-- An exact number is rounded in one way. -/
theorem IsRoundingOf.unique {x y : Float} {q : ℚ} (first : IsRoundingOf x q)
    (second : IsRoundingOf y q) : units x = units y :=
  Int.le_antisymm (first.mono second le_rfl) (second.mono first le_rfl)

/-- The units of a finite double need no rounding. -/
theorem roundsTo_units {x : Float} (finite : x.isFinite = true) :
    RoundsTo (units x).natAbs (units x).natAbs := by
  have rounds := roundsTo_nearest (units x).natAbs
  rwa [← natAbs_nearestInt, nearestInt_units finite] at rounds

/-- A finite double is its own units rounded. -/
theorem isRoundingOf_units {x : Float} (finite : x.isFinite = true) :
    IsRoundingOf x (units x) := by
  have inside := units_lt_limit finite
  have rounds := roundsTo_units finite
  rw [Nat.cast_natAbs, Int.cast_abs] at rounds
  refine ⟨isNaN_of_isFinite finite, fun nonneg => ?_, fun nonpos => ?_, _, rounds, by omega⟩
  · exact_mod_cast nonneg
  · exact_mod_cast nonpos

/-- A double with the sign of an exact number, and with the units that its size is rounded to, is
its rounding. -/
theorem isRoundingOf_of_size {x : Float} {q size : ℚ} (number : x.isNaN = false)
    (nonneg : 0 ≤ size) {k : Nat} (rounds : RoundsTo size k) (cut : (units x).natAbs = min limit k)
    (sign : (q = size ∧ 0 ≤ units x) ∨ (q = -size ∧ units x ≤ 0)) : IsRoundingOf x q := by
  have distance : |q| = size := by
    rcases sign with ⟨rfl, _⟩ | ⟨rfl, _⟩
    · exact abs_of_nonneg nonneg
    · rw [abs_neg, abs_of_nonneg nonneg]
  have none (zero : size = 0) : units x = 0 := by
    rw [zero] at rounds
    rw [rounds.eq_zero] at cut
    omega
  refine ⟨number, fun above => ?_, fun below => ?_, k, by rwa [distance], cut⟩
  · rcases sign with ⟨_, least⟩ | ⟨rfl, _⟩
    · exact least
    · exact (none (by linarith)).ge
  · rcases sign with ⟨rfl, _⟩ | ⟨_, most⟩
    · exact (none (by linarith)).le
    · exact most

end Storyboard.Binary64
