import Storyboard.Proofs.Number.Product
/-!
# Natural numbers as doubles

The double of a natural number is the nearest one, and the number itself up to fifty-three bits.

Main statements: `units_ofNat`, `units_ofNat_of_bits`.
-/
namespace Storyboard.Binary64

open Float.Model (Format UnpackedFloat)
open Float.Model.UnpackedFloat

variable {x : Float} {n : Nat}

/-- The units of a natural number. -/
theorem magnitude_zero (n : Nat) : magnitude n 0 = n * whole := by
  have exponent : (0 + 1074 : Int).toNat = 1074 := rfl
  rw [magnitude, whole, exponent]

/-- Parts of a power of two make a natural number. -/
theorem magnitude_neg_mul (n : Nat) {k : Nat} (few : k ≤ 1074) :
    magnitude n (-(k : Int)) * 2 ^ k = n * whole := by
  have split : (-(k : Int) + 1074).toNat + k = 1074 := by omega
  calc magnitude n (-(k : Int)) * 2 ^ k
      = n * (2 ^ (-(k : Int) + 1074).toNat * 2 ^ k) := Nat.mul_assoc _ _ _
    _ = n * 2 ^ ((-(k : Int) + 1074).toNat + k) := by rw [Nat.pow_add]
    _ = n * whole := congrArg (n * 2 ^ ·) split

/-- A natural number in parts of a power of two. -/
theorem magnitude_parts (n : Nat) {k : Nat} (few : k ≤ 1074) :
    magnitude (n * 2 ^ k) (-(k : Int)) = n * whole := by
  refine Nat.eq_of_mul_eq_mul_right (Nat.two_pow_pos k) ?_
  rw [magnitude_neg_mul _ few, Nat.mul_right_comm]

/-- One is finite. -/
theorem isFinite_one : (1.0 : Float).isFinite = true := by rfl

/-- One has the units of one. -/
theorem units_one : units 1.0 = whole := by
  have parts : units 1.0 = magnitude (1 * 2 ^ 52) (-(52 : Nat)) := by rfl
  rw [parts, magnitude_parts 1 (by decide), Nat.one_mul]

/-- A finite double times one has the same units. -/
theorem units_mul_one (finite : x.isFinite = true) :
    (x * Float.ofBits 0x3FF0000000000000).isNaN = false ∧
      units (x * Float.ofBits 0x3FF0000000000000) = units x := by
  have one : units (Float.ofBits 0x3FF0000000000000) = whole := units_one
  have room : (0 : ℚ) < whole := by exact_mod_cast whole_pos
  have rounding := isRoundingOf_mul finite
    (show (Float.ofBits 0x3FF0000000000000).isFinite = true from isFinite_one)
  rw [one, Int.cast_natCast, mul_div_cancel_right₀ _ room.ne'] at rounding
  exact ⟨rounding.number, rounding.unique (isRoundingOf_units finite)⟩

/-- A number between both limits is finite. -/
theorem isFinite_of_units (number : x.isNaN = false)
    (inside : -(limit : Int) < units x ∧ units x < limit) : x.isFinite = true := by
  cases finiteness : x.isFinite with
  | true => rfl
  | false =>
    have top_or_bottom := units_of_infinite number finiteness
    omega

/-- A number that is not below zero is finite if it has a bound below the limit. -/
theorem isFinite_of_le {most : Nat} (number : x.isNaN = false) (nonneg : 0 ≤ units x)
    (bounded : units x ≤ most) (room : most < limit) : x.isFinite = true :=
  isFinite_of_units number (by omega)

/-- Numbers of fifty-three bits lie below the limit. -/
theorem mul_whole_lt_limit (few : n < 2 ^ 53) : n * whole < limit := by
  have largest : Canonical (2 ^ 53 - 1) 0 := ⟨by decide, by decide, fun _ => by decide⟩
  calc n * whole ≤ (2 ^ 53 - 1) * whole := Nat.mul_le_mul_right _ (by omega)
    _ = magnitude (2 ^ 53 - 1) 0 := (magnitude_zero _).symm
    _ < limit := largest.magnitude_lt canonical_limit (by decide)

/-- What few bits of a power of two are rounded to is the same, below the limit. -/
theorem IsRoundingOf.units_eq {f : Int} (rounding : IsRoundingOf x (magnitude n f))
    (few : n < 2 ^ 53) (room : magnitude n f < limit) : units x = magnitude n f := by
  obtain ⟨k, rounds, size⟩ := rounding.size
  rw [abs_of_nonneg (Nat.cast_nonneg _)] at rounds
  have same := rounds.unique (roundsTo_magnitude few f)
  have nonneg := rounding.nonneg (Nat.cast_nonneg _)
  omega

/-- Numbers of fifty-three bits need no rounding. -/
theorem nearest_whole (few : n < 2 ^ 53) : nearest (n * whole) = n * whole := by
  rw [whole]
  exact nearest_of_bits few 1074

/-- A natural number is rounded as an integer. -/
theorem nearestInt_natCast (m : Nat) : nearestInt (m : Int) = nearest m := rfl

/-- A word of fifty-three bits is a double. -/
theorem units_toUInt64 (few : n < 2 ^ 53) :
    n.toUInt64.toFloat.isFinite = true ∧ units n.toUInt64.toFloat = n * whole := by
  have room := mul_whole_lt_limit few
  have kept : max (-(limit : Int)) (min limit (n * whole : Nat)) = (n * whole : Nat) := by omega
  have word : n.toUInt64.toNat = n := UInt64.toNat_ofNat_of_lt (Nat.lt_trans few (by decide))
  obtain ⟨canonical, number, same⟩ := normalize_eq n.toUInt64.toNat (e := 0) (by decide) .positive
  obtain ⟨numberCut, cut⟩ := units_of_rounded (x := n.toUInt64.toFloat) canonical number rfl
  have scale : (n : Int) * (2 ^ (0 + 1074 : Int).toNat : Nat) = ((n * whole : Nat) : Int) := by
    rw [← magnitude_zero, magnitude, Int.natCast_mul]
  rw [word] at same cut
  rw [same, scale, nearestInt_natCast, nearest_whole few, kept] at cut
  refine ⟨isFinite_of_units numberCut ?_, cut.trans (Int.natCast_mul n whole)⟩
  omega

/-- A natural number of fifty-three bits is a double. -/
theorem units_ofNat_of_bits (few : n < 2 ^ 53) :
    (Number.ofNat n).isFinite = true ∧ units (Number.ofNat n) = n * whole := by
  have fast : Number.ofNat n = n.toUInt64.toFloat * Float.ofBits 0x3FF0000000000000 := by
    rw [Number.ofNat, Float.ofNat]
    change Float.ofScientific n false 0 = _
    rw [Float.ofScientific, dif_pos ⟨few, by decide⟩]
    rfl
  obtain ⟨finite, exactly_n⟩ := units_toUInt64 few
  obtain ⟨number, same⟩ := units_mul_one finite
  have room := mul_whole_lt_limit few
  rw [fast]
  refine ⟨isFinite_of_units number ?_, same.trans exactly_n⟩
  rw [same, exactly_n, ← Int.natCast_mul]
  omega

/-- The double of a natural number is the nearest one, or infinite if that is too large. -/
theorem units_ofNat (n : Nat) : (Number.ofNat n).isNaN = false ∧
    units (Number.ofNat n) = min limit (nearest (n * whole)) := by
  have room := limit_pos
  by_cases few : n < 2 ^ 53
  · obtain ⟨finite, same⟩ := units_ofNat_of_bits few
    have below := mul_whole_lt_limit few
    rw [nearest_whole few, Nat.min_eq_right below.le]
    exact ⟨isNaN_of_isFinite finite, same.trans (Int.natCast_mul n whole).symm⟩
  · have positive : 0 < n := by omega
    have slow : (Number.ofNat n).toModel.unpack = unpack .binary64 (pack .binary64
        (roundWithAccuracy .binary64 .positive (n * 2 ^ 53) (-53) .exact)) := by
      rw [Number.ofNat, Float.ofNat]
      change (Float.ofScientific n false 0).toModel.unpack = _
      rw [Float.ofScientific, dif_neg fun both => few both.1]
      change unpack .binary64 (pack .binary64 (UnpackedFloat.ofScientific .binary64 n 0)) = _
      have small : ¬ (0 : Int) < -((2 : Int) ^ 11 + n.log2) := by omega
      rw [UnpackedFloat.ofScientific, dif_neg positive.ne', if_neg (by decide), if_neg small,
        if_pos (by decide)]
      simp only [UnpackedFloat.mul, Nat.shiftLeft_eq, Int.add_zero, Int.toNat_zero, Nat.pow_zero,
        Nat.mul_one]
      rfl
    have below : (-53 : Int) ≤ max (((n * 2 ^ 53).log2 : Int) + 1 + -53 - 53) (-1074) := by
      rw [log2_mul_pow positive]
      omega
    obtain ⟨k, f, many, rounded, canonical, near⟩ := roundWithAccuracy_eq .positive
      (Nat.mul_pos positive (Nat.two_pow_pos 53)) (by decide) below
    rw [rounded] at slow
    obtain ⟨number, cut⟩ := units_of_rounded (u := .finite .positive k f many) canonical rfl slow
    have scale : magnitude (n * 2 ^ 53) (-53) = n * whole := by
      rw [← magnitude_zero, magnitude, magnitude, Nat.mul_assoc, ← Nat.pow_add]
      congr 2
    rw [unitsOf, Sign.apply, near, scale] at cut
    refine ⟨number, cut.trans ?_⟩
    generalize nearest (n * whole) = k
    omega

/-- The double of an integer is the integer rounded. -/
theorem isRoundingOf_ofInt (k : Int) : IsRoundingOf (Number.ofInt k) (k * whole) := by
  have rounds (n : Nat) := roundsTo_nearest (n * whole)
  have nonneg (n : Nat) : (0 : ℚ) ≤ (n * whole : Nat) := Nat.cast_nonneg _
  cases k with
  | ofNat n =>
    obtain ⟨number, same⟩ := units_ofNat n
    change IsRoundingOf (Number.ofNat n) _
    refine isRoundingOf_of_size number (nonneg n) (rounds n) (by omega) (.inl ⟨?_, by omega⟩)
    push_cast
    rfl
  | negSucc n =>
    obtain ⟨number, same⟩ := units_ofNat (n + 1)
    obtain ⟨numberNeg, opposite⟩ := units_neg number
    change IsRoundingOf (-Number.ofNat (n + 1)) _
    refine isRoundingOf_of_size numberNeg (nonneg (n + 1)) (rounds (n + 1)) (by omega)
      (.inr ⟨?_, by omega⟩)
    rw [Int.cast_negSucc]
    push_cast
    ring

/-- The double of an integer that is not zero is one or more away from zero. -/
theorem whole_le_natAbs_units_ofInt {k : Int} (nonzero : k ≠ 0) :
    whole ≤ (units (Number.ofInt k)).natAbs := by
  obtain ⟨n, rounds, size⟩ := (isRoundingOf_ofInt k).size
  have one := roundsTo_magnitude (n := 1) (by decide) 0
  rw [magnitude_zero, Nat.one_mul] at one
  have least : (whole : ℚ) ≤ |(k : ℚ) * whole| := by
    rw [abs_mul, Nat.abs_cast, ← Int.cast_abs]
    have many : (1 : ℚ) ≤ (|k| : Int) := by exact_mod_cast Int.one_le_abs nonzero
    exact le_mul_of_one_le_left (Nat.cast_nonneg _) many
  have above := one.mono rounds least
  have room := mul_whole_lt_limit (n := 1) (by decide)
  omega

/-- The double of an integer above zero is one at least. -/
theorem whole_le_units_ofInt {k : Int} (positive : 0 < k) :
    (whole : Int) ≤ units (Number.ofInt k) := by
  have far := whole_le_natAbs_units_ofInt positive.ne'
  have above : 0 ≤ units (Number.ofInt k) := (isRoundingOf_ofInt k).nonneg
    (mul_nonneg (by exact_mod_cast positive.le) (Nat.cast_nonneg _))
  omega

/-- The double of a number is finite if that of a larger one is. -/
theorem isFinite_ofNat_mono {m n : Nat} (le : m ≤ n) (finite : (Number.ofNat n).isFinite = true) :
    (Number.ofNat m).isFinite = true := by
  have inside := units_lt_limit finite
  obtain ⟨number, same⟩ := units_ofNat m
  rw [(units_ofNat n).2] at inside
  have near := nearest_mono (Nat.mul_le_mul_right whole le)
  exact isFinite_of_units number (by omega)

/-- What is finite is made of a significand, with a sign. -/
theorem exists_canonical_natAbs (finite : x.isFinite = true) :
    ∃ m e, Canonical m e ∧ (units x).natAbs = magnitude m e := by
  rcases unpack_of_isFinite finite with ⟨_, _, none⟩ | ⟨sign, m, e, _, _, canonical, _, same⟩
  · rw [none]
    exact ⟨0, -1074, ⟨by decide, by decide, fun above => absurd above (by decide)⟩, rfl⟩
  · rw [same]
    exact ⟨m, e, canonical, natAbs_apply sign _⟩

/-- What is finite and not below zero is made of a significand. -/
theorem exists_canonical (finite : x.isFinite = true) (nonneg : 0 ≤ units x) :
    ∃ m e, Canonical m e ∧ units x = magnitude m e := by
  obtain ⟨m, e, canonical, same⟩ := exists_canonical_natAbs finite
  exact ⟨m, e, canonical, by omega⟩

/-- A finite number from one on has all bits. -/
theorem exists_significand (finite : x.isFinite = true) (above : whole ≤ units x) :
    ∃ m e, 2 ^ 52 ≤ m ∧ m < 2 ^ 53 ∧ -1074 ≤ e ∧ units x = magnitude m e := by
  have some_units := whole_pos
  obtain ⟨m, e, canonical, same⟩ := exists_canonical finite (by omega)
  have bits := canonical.bits
  have lowest : -1074 < e := by
    refine lt_of_le_of_ne canonical.least fun lowest => ?_
    -- At the least exponent there are fewer units than in one.
    have few : ∀ k : Nat, 53 ≤ k → 2 ^ 53 ≤ 2 ^ k := fun _ => Nat.pow_le_pow_right (by decide)
    have many : 2 ^ 53 ≤ whole := few 1074 (by decide)
    rw [same, magnitude, ← lowest, Int.add_left_neg, Int.toNat_zero, Nat.pow_zero,
      Nat.mul_one] at above
    omega
  exact ⟨m, e, canonical.full lowest, bits, canonical.least, same⟩

end Storyboard.Binary64
