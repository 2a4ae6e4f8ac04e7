import Storyboard.Number.Fault
import Storyboard.Order.Search
/-!
# Sorting by insertion

A list begins with a run that is in order already, or falls at every step and is turned round.
Each later element is put behind the last element that is not above it, found by bisection.
Elements are ordered by a key; undefined keys compare with nothing.
-/
namespace Storyboard.Order

variable {α : Type}

/-- The place behind the elements of a list that are not above a key. -/
def placeAfter (key : α → Float) (x : α) (sorted : List α) : Nat :=
  bisect (fun i => (sorted[i]?).any fun y => key x < key y) 0 sorted.length

/-- Put an element into a sorted list. -/
def insertBy (key : α → Float) (sorted : List α) (x : α) : List α :=
  sorted.insertIdx (placeAfter key x sorted) x

/-- How many elements follow `last` without going down. -/
def risingLength (key : α → Float) (last : α) : List α → Nat
  | [] => 0
  | x :: rest => if key x < key last then 0 else risingLength key x rest + 1

/-- How many elements follow `last` each below the one before. -/
def fallingLength (key : α → Float) (last : α) : List α → Nat
  | [] => 0
  | x :: rest => if key x < key last then fallingLength key x rest + 1 else 0

/-- The run that a list begins with, in rising order: one that rises is kept, and one that falls
at every step is turned round. -/
def leadingRun (key : α → Float) : List α → List α × List α
  | [] => ([], [])
  | [x] => ([x], [])
  | x :: y :: rest =>
    if key y < key x then
      let count := fallingLength key y rest + 2
      (((x :: y :: rest).take count).reverse, (x :: y :: rest).drop count)
    else
      let count := risingLength key y rest + 2
      ((x :: y :: rest).take count, (x :: y :: rest).drop count)

/-- The run that a list begins with, brought to a least length by insertion of the elements
behind it, and the elements behind those. -/
def extendedRun (key : α → Float) (least : Nat) (items : List α) : List α × List α :=
  let (run, rest) := leadingRun key items
  let missing := least - run.length
  ((rest.take missing).foldl (insertBy key) run, rest.drop missing)

end Storyboard.Order
