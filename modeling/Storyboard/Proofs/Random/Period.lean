import Mathlib.Data.Int.ModEq
import Mathlib.Data.Set.Function
import Mathlib.Logic.Function.Iterate
import Mathlib.Order.Interval.Set.Defs
import Storyboard.Random.Normal
/-!
# The period of the generator

A draw adds an odd number to the state, so that from any state all states of 32 bits are reached,
each within as many draws as there are states. One of them is mixed into a draw that is not zero;
so the search for such a draw, which tries as often, never gives up.

Main statements: every state is reached (`Mulberry.exists_state_eq`), and each of them once before
they come round (`Mulberry.bijOn_state`); a draw that is not zero is found, and so a normal draw is
(`Mulberry.drawNonzero_isSome`, `Mulberry.sample?_isSome`).
-/
namespace Storyboard

namespace Normal

/-- A search for a draw that is not zero finds one that comes early enough. -/
theorem drawNonzero_isSome_of_nonzero {σ : Type} [Uniform σ] {attempts count : Nat} {source : σ}
    (early : count < attempts)
    (nonzero : ((Uniform.draw ((fun s => (Uniform.draw s).2)^[count] source)).1 == 0.0) = false) :
    (drawNonzero attempts source).isSome = true := by
  induction attempts generalizing count source with
  | zero => exact absurd early (Nat.not_lt_zero count)
  | succ attempts ih =>
    cases first : (Uniform.draw source).1 == 0.0 with
    | false => simp only [drawNonzero, first, Bool.false_eq_true, if_false, Option.isSome_some]
    | true =>
      simp only [drawNonzero, first, if_true]
      cases count with
      | zero =>
        rw [Function.iterate_zero, id, first] at nonzero
        cases nonzero
      | succ count =>
        rw [Function.iterate_succ_apply] at nonzero
        exact ih (Nat.lt_of_succ_lt_succ early) nonzero

/-- Two draws that are not zero, each found with so many attempts, give a normal draw. -/
theorem sample?_of_drawNonzero {σ : Type} [Uniform σ] {attempts : Nat} {source middle last : σ}
    {u v : Float} (mean std : Float) (first : drawNonzero attempts source = some (u, middle))
    (second : drawNonzero attempts middle = some (v, last)) :
    sample? attempts mean std source = some (ofUniform mean std u v, last) := by
  rw [sample?, first, Option.bind_eq_bind, Option.bind_some]
  change (drawNonzero attempts middle).bind _ = _
  rw [second]
  rfl

end Normal

namespace Mulberry

/-- What the increment is multiplied with to give one, in 32 bits. -/
def incrementInverse : Nat := 3696798301

/-- After some draws the state has grown by as many increments. -/
theorem state_iterate (g : Mulberry) (count : Nat) :
    (advance^[count + 1] g).state = low (g.state + (count + 1) * increment) := by
  induction count with
  | zero => rw [Nat.zero_add, Function.iterate_one, Nat.one_mul]; rfl
  | succ count ih =>
    rw [Function.iterate_succ_apply', advance, ih, low, low, low, Nat.mod_add_mod, Nat.add_assoc,
      ← Nat.succ_mul]

/-- From any state every state is reached, within as many draws as there are states. -/
theorem exists_state_eq (g : Mulberry) {state : Nat} (inside : state < modulus) :
    ∃ count < modulus, (advance^[count + 1] g).state = state := by
  -- The increments needed are the distance in increments.
  let distance := state + (modulus - g.state % modulus)
  refine ⟨(distance * incrementInverse + (modulus - 1)) % modulus, Nat.mod_lt _ (by decide), ?_⟩
  have counted : (distance * incrementInverse + (modulus - 1)) % modulus + 1 ≡
      distance * incrementInverse [MOD modulus] := by
    unfold Nat.ModEq modulus
    omega
  have unit : incrementInverse * increment ≡ 1 [MOD modulus] := by decide
  have far := (counted.mul_right increment).trans
    (by simpa only [Nat.mul_assoc, Nat.mul_one] using unit.mul_left distance)
  have there : g.state + distance ≡ state [MOD modulus] := by
    unfold Nat.ModEq distance modulus
    omega
  have reached := (far.add_left g.state).trans there
  rw [state_iterate]
  exact Eq.trans reached (Nat.mod_eq_of_lt inside)

/-- From any state the next ones, as many as there are states, are each of them once. -/
theorem bijOn_state (g : Mulberry) :
    Set.BijOn (fun count => (advance^[count + 1] g).state) (Set.Iio modulus) (Set.Iio modulus) := by
  refine ⟨fun count _ => ?_, fun i fewer j fewerOther same => ?_, fun state inside => ?_⟩
  · change (advance^[count + 1] g).state < modulus
    rw [state_iterate]
    exact Nat.mod_lt _ (by decide)
  · -- An odd number of increments apart no two states coincide before the count comes round.
    change (advance^[i + 1] g).state = (advance^[j + 1] g).state at same
    rw [state_iterate, state_iterate] at same
    have steps : (i + 1) * increment ≡ (j + 1) * increment [MOD modulus] :=
      Nat.ModEq.add_left_cancel' g.state same
    have counts : i ≡ j [MOD modulus] :=
      (steps.cancel_right_of_coprime (by decide)).add_right_cancel' 1
    exact counts.eq_of_lt_of_lt fewer fewerOther
  · obtain ⟨count, early, reached⟩ := g.exists_state_eq inside
    exact ⟨count, early, reached⟩

/-- From any state a draw that is not zero comes, within as many draws as there are states. -/
theorem exists_draw_ne_zero (g : Mulberry) :
    ∃ count < modulus, ((draw (advance^[count] g)).1 == 0.0) = false := by
  obtain ⟨count, early, reached⟩ := g.exists_state_eq (show 1 < modulus by decide)
  -- The state one is mixed into the draw of 63.
  have drawn : ((draw (advance^[count] g)).1 == 0.0) =
      (Number.ofNat (mix (advance^[count + 1] g).state) / 4294967296.0 == 0.0) := by
    rw [Function.iterate_succ_apply']
    rfl
  refine ⟨count, early, drawn.trans ?_⟩
  rw [reached]
  decide

/-- A search for a draw that is not zero finds one, if it tries as often as there are states. -/
theorem drawNonzero_isSome (g : Mulberry) : (Normal.drawNonzero modulus g).isSome = true := by
  obtain ⟨count, early, nonzero⟩ := g.exists_draw_ne_zero
  exact Normal.drawNonzero_isSome_of_nonzero early nonzero

/-- A normal draw is found. -/
theorem sample?_isSome (mean std : Float) (g : Mulberry) :
    (Normal.sample? modulus mean std g).isSome = true := by
  obtain ⟨⟨u, later⟩, first⟩ := Option.isSome_iff_exists.mp g.drawNonzero_isSome
  obtain ⟨⟨v, last⟩, second⟩ := Option.isSome_iff_exists.mp later.drawNonzero_isSome
  rw [Normal.sample?_of_drawNonzero mean std first second, Option.isSome_some]

end Mulberry
end Storyboard
