import Storyboard.Proofs.Number.Roots
import Storyboard.Proofs.Random.Rejection
import Storyboard.Proofs.Random.Words
/-!
# Normal draws of given functions

A normal draw takes a logarithm and a cosine from the machine. `Functions` makes parameters of them,
and `Functions.AreSound` is all that is relied on: their ranges, as they are known of the exact
functions. The root and the arithmetic are those of doubles.

A function that is taken outside of its domain is a fault (`checked`). On draws that are not zero
there is none, since the logarithm of what lies below one is not above zero, and small enough for
its root to be finite.

Main statements: drawing until a draw is not zero leaves draws above zero and below one
(`DrawsNonzero.inside`); of these a normal draw has no fault (`checked_eq`), and is a number if the
mean and the deviation are finite (`isNaN_ofUniformWith`).
-/
namespace Storyboard

open Binary64

/-! ## Draws between zero and one -/

/-- Whether every draw of a source is from zero, included, to one, excluded. -/
def Uniform.StaysInside {σ : Type} [Uniform σ] (source : σ) : Prop :=
  ∀ count, 0.0 ≤ (draw ((fun s => (draw s).2)^[count] source)).1 ∧
    (draw ((fun s => (draw s).2)^[count] source)).1 < 1.0

/-- Every draw of a generator is from zero, included, to one, excluded. -/
theorem Mulberry.staysInside (g : Mulberry) : Uniform.StaysInside g := fun _ => draw_inside _

namespace Normal

variable {σ : Type} [Uniform σ] {source last : σ} {u v : Float}

/-- Drawing until a draw is not zero gives one above zero and below one, and leaves a source of such
draws. -/
theorem DrawsNonzero.inside (draws : DrawsNonzero source u last)
    (inside : Uniform.StaysInside source) : 0.0 < u ∧ u < 1.0 ∧ Uniform.StaysInside last := by
  induction draws with
  | @take source next u drawn nonzero =>
    have first := inside 0
    have later : Uniform.StaysInside (Uniform.draw source).2 := fun count => inside (count + 1)
    rw [Function.iterate_zero, id, drawn] at first
    rw [drawn] at later
    have number := (nonneg_iff.mp first.1).1
    refine ⟨lt_of_not_le isNaN_zero number fun below => ?_, first.2, later⟩
    have zero : (u == 0.0) = true := by
      rw [beq_iff_units number isNaN_zero, units_zero]
      rw [le_iff_units number isNaN_zero, units_zero] at below
      exact Int.le_antisymm below (nonneg_iff.mp first.1).2
    rw [zero] at nonzero
    cases nonzero
  | @pass source next last u v drawn _ _ ih =>
    have later : Uniform.StaysInside (Uniform.draw source).2 := fun count => inside (count + 1)
    rw [drawn] at later
    exact ih later

/-! ## The functions of a normal draw -/

/-- The functions that a normal draw takes from the machine. -/
structure Functions where
  /-- The logarithm. -/
  log : Float → Float
  /-- The cosine. -/
  cos : Float → Float

/-- Those that it does take. -/
def Functions.machine : Functions := ⟨Float.log, Float.cos⟩

/-- What is relied on of the functions. -/
structure Functions.AreSound (f : Functions) : Prop where
  /-- Between zero and one the logarithm is at most zero, and at least that of the least double. -/
  log : ∀ u : Float, 0.0 < u → u < 1.0 → -745.0 ≤ f.log u ∧ f.log u ≤ 0.0
  /-- The cosine of what is finite lies between minus one and one. -/
  cos : ∀ x : Float, x.isFinite = true → -1.0 ≤ f.cos x ∧ f.cos x ≤ 1.0

/-- One draw of the normal distribution of a mean and a deviation from two uniform draws. -/
def ofUniformWith (f : Functions) (mean std u v : Float) : Float :=
  let z := (-2.0 * f.log u).sqrt * f.cos (2.0 * Number.pi * v)
  mean + z * std

/-- One normal draw, trying each of its two uniform draws a number of times. -/
def sampleWith? (f : Functions) (attempts : Nat) (mean std : Float) (source : σ) :
    Option (Float × σ) := do
  let (u, source) ← drawNonzero attempts source
  let (v, source) ← drawNonzero attempts source
  some (ofUniformWith f mean std u v, source)

/-- The logarithm of a number above zero. -/
def Functions.logarithm (f : Functions) (x : Float) : Except Fault Float :=
  if x ≤ 0.0 then .error .outsideDomain else .ok (f.log x)

/-- The cosine of what is no infinity. -/
def Functions.cosine (f : Functions) (x : Float) : Except Fault Float :=
  if x.isInf then .error .outsideDomain else .ok (f.cos x)

/-- One normal draw from two uniform draws, unless a function is taken outside of its domain. -/
def checked (f : Functions) (mean std u v : Float) : Except Fault Float := do
  let logarithm ← f.logarithm u
  let root ← Number.squareRoot (-2.0 * logarithm)
  let cosine ← f.cosine (2.0 * Number.pi * v)
  .ok (mean + root * cosine * std)

/-- With the functions of the machine it is the normal draw. -/
theorem sampleWith?_machine (attempts : Nat) (mean std : Float) (source : σ) :
    sampleWith? .machine attempts mean std source = sample? attempts mean std source := rfl

/-- A normal draw is found just if both of its uniform draws are. -/
theorem sampleWith?_eq_some {f : Functions} {attempts : Nat} {mean std value : Float} :
    sampleWith? f attempts mean std source = some (value, last) ↔
      ∃ u v middle, drawNonzero attempts source = some (u, middle) ∧
        drawNonzero attempts middle = some (v, last) ∧ ofUniformWith f mean std u v = value := by
  simp only [sampleWith?, Option.bind_eq_bind, Option.bind_eq_some_iff, Prod.exists,
    Option.some.injEq, Prod.mk.injEq]
  constructor
  · rintro ⟨u, middle, first, v, rest, second, same, rfl⟩
    exact ⟨u, v, middle, first, second, same⟩
  · rintro ⟨u, v, middle, first, second, same⟩
    exact ⟨u, middle, first, v, last, second, same, rfl⟩

/-! ## A normal draw is a number -/

variable {f : Functions}

/-- What the root is taken of is small and not below zero. -/
theorem isWithin_radicand (sound : f.AreSound) (positive : 0.0 < u) (less : u < 1.0) :
    IsWithin (39 ^ 2) (-2.0 * f.log u) ∧ 0.0 ≤ -2.0 * f.log u := by
  obtain ⟨above, below⟩ := sound.log u positive less
  have two : IsWithin 2 (-2.0) := (isWithin_ofNat (n := 2) (by decide) le_rfl).neg (by decide)
  have least : IsWithin 745 (-745.0) :=
    (isWithin_ofNat (n := 745) (by decide) le_rfl).neg (by decide)
  have zero : IsWithin 745 0.0 := isWithin_ofNat (n := 0) (by decide) (by decide)
  have small : IsWithin 745 (f.log u) := isWithin_of_le (by decide) least zero above below
  have product := two.mul (by decide) small
  refine ⟨⟨product.1, product.2.trans (Nat.mul_le_mul_right _ (by decide))⟩, ?_⟩
  have near := isNear_mul two.1 small.1
  have negative : (-2.0 : Float) ≤ 0.0 := by decide
  rw [le_iff_units (isNaN_of_le negative).1 isNaN_zero, units_zero] at negative
  rw [le_iff_units (isNaN_of_le below).1 isNaN_zero, units_zero] at below
  exact nonneg_iff.mpr ⟨near.number, near.nonneg (mul_nonneg_of_nonpos_of_nonpos negative below)⟩

/-- What the cosine is taken of is finite. -/
theorem isFinite_angle (nonneg : 0.0 ≤ v) (less : v < 1.0) :
    (2.0 * Number.pi * v).isFinite = true := by
  have zero : IsWithin 4 0.0 := isWithin_ofNat (n := 0) (by decide) (by decide)
  have four : IsWithin 4 4.0 := isWithin_ofNat (n := 4) (by decide) le_rfl
  have two : IsWithin 2 2.0 := isWithin_ofNat (n := 2) (by decide) le_rfl
  have pi : IsWithin 4 Number.pi := isWithin_of_le (by decide) zero four (by decide) (by decide)
  have draw : IsWithin 4 v := isWithin_of_le (by decide) zero
    (isWithin_ofNat (n := 1) (by decide) (by decide)) nonneg (le_of_lt less)
  exact ((two.mul (by decide) pi).mul (by decide) draw).1

/-- A normal draw from draws above zero and below one takes no function outside of its domain. -/
theorem checked_eq (sound : f.AreSound) (mean std : Float) (positive : 0.0 < u) (less : u < 1.0)
    (nonneg : 0.0 ≤ v) (lessOther : v < 1.0) :
    checked f mean std u v = .ok (ofUniformWith f mean std u v) := by
  have radicand := (isWithin_radicand sound positive less).2
  have logarithm : f.logarithm u = .ok (f.log u) := if_neg (not_le_of_lt positive)
  have root : Number.squareRoot (-2.0 * f.log u) = .ok (-2.0 * f.log u).sqrt :=
    if_neg (not_lt_of_le isNaN_zero (isNaN_of_le radicand).2 radicand)
  have cosine : f.cosine (2.0 * Number.pi * v) = .ok (f.cos (2.0 * Number.pi * v)) := by
    rw [Functions.cosine, isInf_of_isFinite (isFinite_angle nonneg lessOther)]
    rfl
  calc checked f mean std u v
      = f.logarithm u >>= fun logarithm => Number.squareRoot (-2.0 * logarithm) >>= fun root =>
          f.cosine (2.0 * Number.pi * v) >>= fun cosine => .ok (mean + root * cosine * std) := rfl
    _ = Number.squareRoot (-2.0 * f.log u) >>= fun root =>
          f.cosine (2.0 * Number.pi * v) >>= fun cosine => .ok (mean + root * cosine * std) := by
        rw [logarithm]
        rfl
    _ = .ok (ofUniformWith f mean std u v) := by
        rw [root, cosine]
        rfl

/-- A normal draw from draws above zero and below one is a number if the mean and the deviation are
finite. -/
theorem isNaN_ofUniformWith (sound : f.AreSound) {mean std : Float} (finite : mean.isFinite = true)
    (finiteOther : std.isFinite = true) (positive : 0.0 < u) (less : u < 1.0) (nonneg : 0.0 ≤ v)
    (lessOther : v < 1.0) : (ofUniformWith f mean std u v).isNaN = false := by
  obtain ⟨radicand, nonnegRadicand⟩ := isWithin_radicand sound positive less
  have root := radicand.sqrt (by decide) nonnegRadicand
  obtain ⟨above, below⟩ := sound.cos _ (isFinite_angle nonneg lessOther)
  have one : IsWithin 1 1.0 := isWithin_ofNat (n := 1) (by decide) le_rfl
  have cosine := isWithin_of_le (by decide) (one.neg (by decide)) one above below
  have z := root.mul (by decide) cosine
  exact isNaN_add finite (isNear_mul z.1 finiteOther).number

end Normal
end Storyboard
