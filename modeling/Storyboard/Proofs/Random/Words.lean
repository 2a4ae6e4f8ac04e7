import Mathlib.Data.Int.Bitwise
import Storyboard.Proofs.Number.HalfUp
import Storyboard.Proofs.Random.Fractions
/-!
# The generator in words

A draw computes with unbounded numbers and cuts back sums and products only. In words of 32 bits
sums and products wrap around by themselves, and shifts and bitwise operations stay words, so the
same formulas without any cut are the generator that is meant (`Mulberry.Word`). Where a number is
not cut back it has 32 bits at most: `Mulberry.mix?`, which gives up at any other number, goes
through.

Main statement: from every seed, and after any number of draws, the generator draws what it draws in
words, as an exact fraction of `2 ^ 32` below one (`Mulberry.draws_words`).
-/
namespace Storyboard.Mulberry

open Binary64

/-! ## The generator of words -/

namespace Word

/-- What a draw adds to a word. -/
def increment : UInt32 := 0x6D2B79F5

/-- The word after one draw. -/
def advance (state : UInt32) : UInt32 := state + increment

/-- The word that a state is mixed into. -/
def mix (state : UInt32) : UInt32 :=
  let t := (state ^^^ (state >>> 15)) * (state ||| 1)
  let t := t ^^^ (t + (t ^^^ (t >>> 7)) * (t ||| 61))
  t ^^^ (t >>> 14)

/-- The next draw as a word. -/
def bits (state : UInt32) : UInt32 := mix (advance state)

end Word

/-- A number that has to be one of 32 bits. -/
def word? (n : Nat) : Option Nat := if n < modulus then some n else none

/-- The bits that a state is mixed into, where only sums and products are cut back, unless any other
number on the way is not one of 32 bits. -/
def mix? (state : Nat) : Option Nat := do
  let state ← word? state
  let shifted ← word? (state >>> 15)
  let left ← word? (state ^^^ shifted)
  let right ← word? (state ||| 1)
  let t := product left right
  let shifted ← word? (t >>> 7)
  let left ← word? (t ^^^ shifted)
  let right ← word? (t ||| 61)
  let t ← word? (t ^^^ low (t + product left right))
  let shifted ← word? (t >>> 14)
  word? (t ^^^ shifted)

/-! ## Numbers that are words -/

/-- A word is a number of 32 bits. -/
theorem word?_toNat (w : UInt32) : word? w.toNat = some w.toNat := if_pos w.toNat_lt

/-- A word is not cut back. -/
theorem low_toNat (w : UInt32) : low w.toNat = w.toNat := Nat.mod_eq_of_lt w.toNat_lt

/-- A sum that is cut back is one of words. -/
theorem low_add_toNat (v w : UInt32) : low (v.toNat + w.toNat) = (v + w).toNat :=
  (UInt32.toNat_add v w).symm

/-- A product that is cut back is one of words. -/
theorem product_toNat (v w : UInt32) : product v.toNat w.toNat = (v * w).toNat :=
  (UInt32.toNat_mul v w).symm

/-- A word is mixed as the number that it is, and no number on the way has to be cut back but sums
and products. -/
theorem mix_toNat (w : UInt32) :
    mix? w.toNat = some (Word.mix w).toNat ∧ mix w.toNat = (Word.mix w).toNat := by
  have shift15 (v : UInt32) : v.toNat >>> 15 = (v >>> 15).toNat :=
    (UInt32.toNat_shiftRight v 15).symm
  have shift7 (v : UInt32) : v.toNat >>> 7 = (v >>> 7).toNat := (UInt32.toNat_shiftRight v 7).symm
  have shift14 (v : UInt32) : v.toNat >>> 14 = (v >>> 14).toNat :=
    (UInt32.toNat_shiftRight v 14).symm
  have or1 (v : UInt32) : v.toNat ||| 1 = (v ||| 1).toNat := (UInt32.toNat_or v 1).symm
  have or61 (v : UInt32) : v.toNat ||| 61 = (v ||| 61).toNat := (UInt32.toNat_or v 61).symm
  constructor
  · simp only [mix?, Word.mix, word?_toNat, product_toNat, low_add_toNat, shift15, shift7, shift14,
      or1, or61, ← UInt32.toNat_xor, Option.bind_eq_bind, Option.bind_some]
  · simp only [mix, Word.mix, low_toNat, product_toNat, low_add_toNat, shift15, shift7, shift14,
      or1, or61, ← UInt32.toNat_xor]

/-- The state of a seed is its remainder by the number of words. -/
theorem state_ofSeed (seed : Int) : (ofSeed seed).state = (seed % 2 ^ 32).toNat := rfl

/-- The state of a seed is the word of the seed. -/
theorem state_ofSeed_word (seed : Int) : (ofSeed seed).state = (UInt32.ofInt seed).toNat := by
  have inside : (seed % 2 ^ 32).toNat < 2 ^ 32 := by omega
  rw [state_ofSeed, UInt32.ofInt, UInt32.toNat_ofNat', Nat.mod_eq_of_lt inside]

/-- The state of a seed has the low bits of the seed, which below zero are those that a number of
unbounded width has there. -/
theorem testBit_ofSeed (seed : Int) (i : Nat) :
    (ofSeed seed).state.testBit i = (decide (i < 32) && seed.testBit i) := by
  rw [state_ofSeed]
  cases seed with
  | ofNat n =>
    have state : ((n : Int) % 2 ^ 32).toNat = n % 2 ^ 32 := by omega
    rw [Int.ofNat_eq_natCast, state]
    exact Nat.testBit_mod_two_pow n 32 i
  | negSucc n =>
    have few : n % 2 ^ 32 < 2 ^ 32 := Nat.mod_lt n (by decide)
    have state : (Int.negSucc n % 2 ^ 32).toNat = 2 ^ 32 - (n % 2 ^ 32 + 1) := by omega
    rw [state, Nat.testBit_two_pow_sub_succ few, Nat.testBit_mod_two_pow]
    show _ = (decide (i < 32) && !n.testBit i)
    cases decide (i < 32) <;> rfl

/-- After one draw the state is the word after one draw. -/
theorem state_advance {g : Mulberry} {word : UInt32} (same : g.state = word.toNat) :
    g.advance.state = (Word.advance word).toNat := by
  rw [advance, same]
  exact low_add_toNat word Word.increment

/-- After any number of draws the state is the word after as many draws. -/
theorem state_iterate_advance {g : Mulberry} {word : UInt32} (same : g.state = word.toNat)
    (n : Nat) : (advance^[n] g).state = (Word.advance^[n] word).toNat := by
  induction n with
  | zero => exact same
  | succ n ih =>
    rw [Function.iterate_succ_apply', Function.iterate_succ_apply']
    exact state_advance ih

/-! ## The generator draws as in words -/

/-- A draw is the exact fraction that its bits are of the number of words. -/
theorem value_draw (g : Mulberry) : value (Uniform.draw g).1 = g.bits / 2 ^ 32 := by
  have parts : (magnitude g.bits (-32) * 2 ^ 32 : ℚ) = g.bits * whole := by
    exact_mod_cast g.magnitude_bits_mul
  have room : (whole : ℚ) ≠ 0 := by exact_mod_cast whole_pos.ne'
  rw [value, g.units_draw.2, Int.cast_natCast, div_eq_div_iff room (by norm_num)]
  exact parts

/-- Whether a generator is in the state of a word, and draws next what comes next in words. -/
structure DrawsAs (g : Mulberry) (word : UInt32) : Prop where
  /-- The state is the word. -/
  state : g.state = word.toNat
  /-- No number that is not cut back has more than 32 bits. -/
  guarded : mix? g.advance.state = some g.bits
  /-- The bits of the next draw are the next word. -/
  bits : g.bits = (Word.bits word).toNat
  /-- They are of 32 bits. -/
  few : g.bits < 2 ^ 32
  /-- The next draw is an exact fraction. -/
  fraction : value (Uniform.draw g).1 = (Word.bits word).toNat / 2 ^ 32
  /-- It is not below zero, and below one. -/
  inside : 0.0 ≤ (Uniform.draw g).1 ∧ (Uniform.draw g).1 < 1.0
  /-- The draw leaves the generator in the state of the word after it. -/
  next : (Uniform.draw g).2.state = (Word.advance word).toNat

/-- A generator in the state of a word draws what comes next in words. -/
theorem drawsAs_of_state {g : Mulberry} {word : UInt32} (same : g.state = word.toNat) :
    g.DrawsAs word := by
  have next := state_advance same
  obtain ⟨guarded, mixed⟩ := mix_toNat (Word.advance word)
  rw [← next] at guarded mixed
  have bits : g.bits = (Word.bits word).toNat := mixed
  refine ⟨same, ?_, bits, g.bits_lt, ?_, g.draw_inside, next⟩
  · rw [guarded]
    exact congrArg some bits.symm
  · rw [value_draw, bits]

/-- The generator of unbounded numbers is that of words. From every seed, also below zero or of any
width, it starts at the low 32 bits of the seed; and after any number of draws it draws what the
generator of words draws after as many, as an exact fraction of `2 ^ 32` that is not below zero and
below one, while no number that is not cut back on the way has more than 32 bits. -/
theorem draws_words (seed : Int) (n : Nat) :
    (∀ i, (ofSeed seed).state.testBit i = (decide (i < 32) && seed.testBit i)) ∧
      (ofSeed seed).state = (seed % 2 ^ 32).toNat ∧
      (advance^[n] (ofSeed seed)).DrawsAs (Word.advance^[n] (UInt32.ofInt seed)) := by
  refine ⟨testBit_ofSeed seed, state_ofSeed seed, ?_⟩
  exact drawsAs_of_state (state_iterate_advance (state_ofSeed_word seed) n)

/-- The first three draws of a seed below zero, of which 32 bits count. -/
example : (List.range 3).map (fun n => (advance^[n] (ofSeed (42 - 2 ^ 70))).bits) =
    [2581720956, 1925393290, 3661312704] := by decide

end Storyboard.Mulberry
