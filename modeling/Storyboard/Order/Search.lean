/-!
# Searching an order

A test that holds from some place on has a first place where it holds. `bisect` finds that place
by halving, and `gallop` by steps that double, away from a place where it is expected, and then
by halving. For a test that holds here and there, the places looked at settle what is found.
-/
namespace Storyboard.Order

/-- The first place in `low` to `high` from which `test` holds, if it holds from some place on:
bisection, which looks at the middle place each time. -/
def bisect (test : Nat → Bool) (low high : Nat) : Nat :=
  if low < high then
    let middle := (low + high) / 2
    if test middle then bisect test low middle else bisect test (middle + 1) high
  else low
termination_by high - low

/-- Go on by steps of 1, 3, 7 and so on while they stay below a limit and pass: the last step
that passed, zero at first, and the step that ended it, at most the limit. -/
def stride (pass : Nat → Bool) (limit last step : Nat) : Nat × Nat :=
  if step < limit && pass step then stride pass limit step (2 * step + 1)
  else (last, min step limit)
termination_by limit - step
decreasing_by
  rename_i inside
  simp only [Bool.and_eq_true, decide_eq_true_eq] at inside
  omega

/-- The first of a number of places from which `test` holds, or that number if there is none,
looked for from a place outwards. -/
def gallop (test : Nat → Bool) (length hint : Nat) : Nat :=
  if test hint then
    let (last, step) := stride (fun s => test (hint - s)) (hint + 1) 0 1
    bisect test (hint + 1 - step) (hint - last)
  else
    let (last, step) := stride (fun s => !test (hint + s)) (length - hint) 0 1
    bisect test (hint + last + 1) (hint + step)

end Storyboard.Order
