import Storyboard.Proofs.Number.Floors
/-!
# Readings in units

`Reading.ofFloat` takes a double apart by its bits. What it finds are the units of the double, so
the floor of a double is that of its units.

Main statements: what is read of a finite number and of an infinity (`units_of_read_finite`,
`units_of_read_infinite`); a finite number has a floor, which is the greatest integer that is not
above it (`exists_floor`).
-/
namespace Storyboard.Binary64

open Float.Model (Format)
open Float.Model.UnpackedFloat

/-- The first bit is the sign. -/
theorem sign_of_bits (bits : UInt64) :
    Sign.ofBitVec (@unpackSign .binary64 bits.toBitVec) =
      if (bits >>> 63 != 0) = true then .negative else .positive := by
  have first : (@unpackSign .binary64 bits.toBitVec).toNat = (bits >>> 63).toNat := by
    change bits.toNat >>> 63 % 2 ^ 1 = bits.toNat >>> 63
    have few := bits.toNat_lt
    rw [Nat.shiftRight_eq_div_pow]
    omega
  by_cases clear : bits >>> 63 = 0
  · have zero : @unpackSign .binary64 bits.toBitVec = 0#1 :=
      BitVec.eq_of_toNat_eq (by rw [first, clear]; rfl)
    rw [zero, clear]
    rfl
  · have one : @unpackSign .binary64 bits.toBitVec ≠ 0#1 := by
      intro zero
      rw [zero] at first
      exact clear (UInt64.toNat_inj.mp first.symm)
    rw [Sign.ofBitVec, if_neg one, if_pos (bne_iff_ne.mpr clear)]

/-- A sign is given to a significand as to its number of units. -/
theorem apply_sign (negative : Bool) (m k : Nat) :
    (if negative = true then Sign.negative else .positive).apply ((m * k : Nat) : Int) =
      Reading.signed negative m * (k : Int) := by
  cases negative with
  | false => exact Int.natCast_mul m k
  | true => exact (congrArg Neg.neg (Int.natCast_mul m k)).trans (Int.neg_mul _ _).symm

/-- A sign does not change a significand. -/
theorem natAbs_signed (negative : Bool) (m : Nat) : (Reading.signed negative m).natAbs = m := by
  cases negative with
  | false => exact Int.natAbs_natCast m
  | true => exact (Int.natAbs_neg m).trans (Int.natAbs_natCast m)

/-- A significand that is not zero is below zero exactly if its sign says so. -/
theorem signed_neg_iff {negative : Bool} {m : Nat} (positive : 0 < m) :
    Reading.signed negative m < 0 ↔ negative = true := by
  cases negative with
  | false => exact iff_of_false (Int.natCast_nonneg m).not_gt Bool.false_ne_true
  | true => exact iff_of_true (Int.neg_neg_of_pos (Int.natCast_pos.mpr positive)) rfl

variable {x : Float} {negative : Bool}

/-- An infinity that is read lies at its limit. -/
theorem units_of_read_infinite (read : Reading.ofFloat x = .infinite negative) :
    x.isInf = true ∧ units x = if negative = true then -(limit : Int) else limit := by
  have sign := sign_of_bits x.toBits
  change _ ∧ unitsOf (unpack .binary64 x.toBits.toBitVec) = _
  change (unpack .binary64 x.toBits.toBitVec).isInf = true ∧ _
  rw [Reading.ofFloat, Reading.ofBits] at read
  simp only [toNat_exponent, toNat_mantissa] at read
  rw [unpack]
  split at read
  · rename_i most
    have last : @unpackExponent .binary64 x.toBits.toBitVec = -1#11 := BitVec.eq_of_toNat_eq most
    split at read
    · rename_i least
      have empty : @unpackMantissa .binary64 x.toBits.toBitVec = 0#52 :=
        BitVec.eq_of_toNat_eq least
      simp only [if_pos last, if_pos empty, sign]
      cases read
      refine ⟨rfl, ?_⟩
      split <;> rfl
    · cases read
  · split at read <;> cases read

/-- A finite number that is read has the units of its significand. -/
theorem units_of_read_finite {significand : Nat} {exponent : Int}
    (read : Reading.ofFloat x = .finite negative significand exponent) :
    x.isFinite = true ∧ -1074 ≤ exponent ∧
      units x = Reading.signed negative significand * (2 ^ (exponent + 1074).toNat : Nat) := by
  have sign := sign_of_bits x.toBits
  change (unpack .binary64 x.toBits.toBitVec).isFinite = true ∧ _ ∧
    unitsOf (unpack .binary64 x.toBits.toBitVec) = _
  rw [Reading.ofFloat, Reading.ofBits] at read
  simp only [toNat_exponent, toNat_mantissa] at read
  rw [unpack]
  split at read
  · split at read <;> cases read
  · rename_i fewer
    have notLast : @unpackExponent .binary64 x.toBits.toBitVec ≠ -1#11 := fun last =>
      fewer (congrArg BitVec.toNat last)
    simp only [if_neg notLast, sign]
    split at read
    · -- At the lowest exponent there is no implicit bit.
      rename_i least
      have first : @unpackExponent .binary64 x.toBits.toBitVec = 0#11 :=
        BitVec.eq_of_toNat_eq least
      rw [if_pos first]
      cases read
      split
      · rename_i empty
        refine ⟨rfl, Int.le_refl _, ?_⟩
        rw [empty]
        cases x.toBits >>> 63 != 0 <;> rfl
      · refine ⟨rfl, Int.le_refl _, ?_⟩
        rw [← apply_sign, first]
        rfl
    · rename_i more
      have notFirst : @unpackExponent .binary64 x.toBits.toBitVec ≠ 0#11 := fun first =>
        more (congrArg BitVec.toNat first)
      rw [if_neg notFirst]
      cases read
      refine ⟨rfl, by omega, ?_⟩
      rw [← apply_sign]
      simp only [unitsOf, magnitude, toNat_implicit]
      rfl

/-- What is read of a finite number is in canonical form. -/
theorem canonical_of_read {significand : Nat} {exponent : Int}
    (read : Reading.ofFloat x = .finite negative significand exponent) :
    Canonical significand exponent := by
  have bits : (@unpackMantissa .binary64 x.toBits.toBitVec).toNat < 2 ^ 52 := BitVec.isLt _
  rw [Reading.ofFloat, Reading.ofBits] at read
  simp only [toNat_exponent, toNat_mantissa] at read
  split at read
  · split at read <;> cases read
  · split at read
    · cases read
      exact ⟨by omega, by decide, fun above => absurd above (by decide)⟩
    · rename_i more
      cases read
      change Canonical (2 ^ 52 + _) _
      exact ⟨by omega, by omega, fun _ => by omega⟩

/-- The units of the number one. -/
def whole : Nat := 2 ^ 1074

/-- There are units in one. -/
theorem whole_pos : 0 < whole := pow_pos (by decide) 1074

/-- The power of two of an exponent not below zero, in units. -/
theorem two_pow_ofNat (shift : Nat) :
    2 ^ (Int.ofNat shift + 1074).toNat = 2 ^ shift * whole := by
  rw [whole, ← Nat.pow_add]
  congr 1

/-- One in units of the last place of a number with an exponent below zero. -/
theorem exists_whole_eq {shift : Nat} (least : -1074 ≤ Int.negSucc shift) :
    ∃ rest, (Int.negSucc shift + 1074).toNat = rest ∧
      (whole : Int) = ((2 ^ (shift + 1) : Nat) : Int) * (2 ^ rest : Nat) := by
  obtain ⟨rest, total⟩ : ∃ rest : Nat, 1074 = rest + (shift + 1) := ⟨1073 - shift, by omega⟩
  refine ⟨rest, by omega, ?_⟩
  rw [whole, total, Nat.pow_add, Nat.mul_comm, Int.natCast_mul]

/-- The floor of a fraction is that of a division. -/
theorem floorScaled_negSucc (value : Int) (shift : Nat) :
    Reading.floorScaled value (.negSucc shift) = value / (2 ^ (shift + 1) : Nat) := by
  rw [Reading.floorScaled, Int.natCast_pow]
  rfl

/-- A multiple of a power of two that is whole is its own floor, in units. -/
theorem floorScaled_of_whole {value : Int} {exponent : Int} (least : -1074 ≤ exponent)
    (exactly_whole : Reading.isWholeScaled value exponent = true) :
    Reading.floorScaled value exponent * whole = value * (2 ^ (exponent + 1074).toNat : Nat) := by
  cases exponent with
  | ofNat shift =>
    rw [two_pow_ofNat, Int.natCast_mul, ← Int.mul_assoc]
    rfl
  | negSucc shift =>
    obtain ⟨rest, kept, split⟩ := exists_whole_eq least
    have none : value % (2 ^ (shift + 1) : Nat) = 0 := by
      rw [Int.natCast_pow]
      exact beq_iff_eq.mp exactly_whole
    rw [kept, split, floorScaled_negSucc, ← Int.mul_assoc,
      Int.ediv_mul_cancel (Int.dvd_of_emod_eq_zero none)]

/-- The greatest integer not above a multiple of a power of two, in units. -/
theorem floorScaled_units (value : Int) {exponent : Int} (least : -1074 ≤ exponent) :
    Reading.floorScaled value exponent * whole ≤ value * (2 ^ (exponent + 1074).toNat : Nat) ∧
      value * (2 ^ (exponent + 1074).toNat : Nat) <
        (Reading.floorScaled value exponent + 1) * whole := by
  cases exponent with
  | ofNat shift =>
    have same : Reading.floorScaled value (.ofNat shift) * whole =
        value * (2 ^ (Int.ofNat shift + 1074).toNat : Nat) := floorScaled_of_whole least rfl
    have room := whole_pos
    rw [Int.add_mul, same]
    omega
  | negSucc shift =>
    obtain ⟨rest, kept, split⟩ := exists_whole_eq least
    have divisor : (0 : Int) < (2 ^ (shift + 1) : Nat) := Int.natCast_pos.mpr (Nat.two_pow_pos _)
    have factor : (0 : Int) < (2 ^ rest : Nat) := Int.natCast_pos.mpr (Nat.two_pow_pos _)
    rw [kept, split, floorScaled_negSucc, ← Int.mul_assoc, ← Int.mul_assoc]
    exact ⟨Int.mul_le_mul_of_nonneg_right (Int.ediv_mul_le _ divisor.ne') factor.le,
      Int.mul_lt_mul_of_pos_right (Int.lt_ediv_add_one_mul_self _ divisor) factor⟩

/-- What is finite is read as finite. -/
theorem exists_read_finite (finite : x.isFinite = true) : ∃ negative significand exponent,
    Reading.ofFloat x = .finite negative significand exponent := by
  have number := isNaN_of_isFinite finite
  rcases classes x with ⟨undefined, _⟩ | ⟨_, negative, read⟩ | ⟨_, read⟩
  · rw [number] at undefined
    cases undefined
  · have inside := units_lt_limit finite
    rw [(units_of_read_infinite read).2] at inside
    split at inside <;> omega
  · exact read

/-- A finite number has a floor, which is the greatest integer that is not above it. -/
theorem exists_floor (finite : x.isFinite = true) :
    ∃ n, Number.floor x = .ok n ∧ n * whole ≤ units x ∧ units x < (n + 1) * whole := by
  obtain ⟨negative, significand, exponent, read⟩ := exists_read_finite finite
  obtain ⟨_, least, total⟩ := units_of_read_finite read
  refine ⟨_, by rw [Number.floor, read], ?_⟩
  rw [total]
  exact floorScaled_units _ least

/-- A finite number that is read as an integer has its units. -/
theorem units_of_whole {n : Int} (finite : x.isFinite = true)
    (read : (Reading.ofFloat x).whole? = some n) : units x = n * whole := by
  obtain ⟨negative, significand, exponent, same⟩ := exists_read_finite finite
  obtain ⟨_, least, total⟩ := units_of_read_finite same
  rw [same, Reading.whole?] at read
  split at read
  · rename_i exactly_whole
    cases read
    rw [total]
    exact (floorScaled_of_whole least exactly_whole).symm
  · cases read

/-- An integer not above a finite number is its floor if the next one is above it. -/
theorem floor_of_units {n : Int} (finite : x.isFinite = true) (lower : n * whole ≤ units x)
    (upper : units x < (n + 1) * whole) : Number.floor x = .ok n := by
  obtain ⟨k, same, lowerOther, upperOther⟩ := exists_floor finite
  have room : (0 : Int) < whole := Int.natCast_pos.mpr whole_pos
  have below : n < k + 1 := lt_of_mul_lt_mul_right (lower.trans_lt upperOther) room.le
  have above : k < n + 1 := lt_of_mul_lt_mul_right (lowerOther.trans_lt upper) room.le
  rw [same, show k = n by omega]

/-- A number that is no smaller has no smaller floor. -/
theorem floor_mono {y : Float} {m n : Int} (first : Number.floor x = .ok m)
    (second : Number.floor y = .ok n) (le : units x ≤ units y) : m ≤ n := by
  obtain ⟨k, same, lower, _⟩ := exists_floor (isFinite_of_floor first)
  obtain ⟨l, sameOther, _, upper⟩ := exists_floor (isFinite_of_floor second)
  cases first.symm.trans same
  cases second.symm.trans sameOther
  have room : (0 : Int) < whole := Int.natCast_pos.mpr whole_pos
  exact Int.lt_add_one_iff.mp (lt_of_mul_lt_mul_right ((lower.trans le).trans_lt upper) room.le)

end Storyboard.Binary64
