import Storyboard.Order.Merge
/-!
# Sorting by a number

`sortBy` sorts stably by a key. When all keys compare there is one stable order. Undefined keys
compare with nothing; with such keys the list is cut into runs, and neighbouring runs are merged
the deeper their boundary lies in a halving of the list, which settles where they end up.
-/
namespace Storyboard.Order

variable {α : Type}

/-- The least length of the runs that a list is cut into: its length halved until it is below
64, with one added if a half was lost. -/
def leastRun (length : Nat) (lost : Bool) : Nat :=
  if 64 ≤ length then leastRun (length / 2) (lost || length % 2 == 1)
  else if lost then length + 1 else length
termination_by length

/-- The runs that a list is cut into, each of a least length but the last, in at most so many
cuts. -/
def cutRuns (key : α → Float) (least : Nat) : (cuts : Nat) → List α → List (List α)
  | 0, items => [items]
  | cuts + 1, items =>
    let (run, rest) := extendedRun key least items
    if rest.isEmpty then [run] else run :: cutRuns key least cuts rest

/-- How often a list has to be halved until two places lie in different parts; places are counted
in half elements. -/
def boundaryDepth (length left right : Nat) : Nat :=
  ((List.range (length + 1)).find? fun depth =>
    left * Nat.pow 2 depth / (2 * length) != right * Nat.pow 2 depth / (2 * length)).getD 0

/-- A run that waits to be merged, and how deep its boundary with the run behind it lies. -/
structure WaitingRun (α : Type) where
  /-- The elements. -/
  items : List α
  /-- The depth of the boundary. -/
  depth : Nat

/-- Runs on the way to being merged into one. -/
structure RunStack (α : Type) where
  /-- The patience for the next merge. -/
  patience : Nat
  /-- The last run. -/
  top : List α
  /-- The runs before it, the nearest first. -/
  below : List (WaitingRun α)

namespace RunStack

/-- Merge the last run with those before it whose boundaries lie deeper than a depth. -/
def settle (key : α → Float) (depth patience : Nat) (top : List α) :
    List (WaitingRun α) → RunStack α
  | [] => ⟨patience, top, []⟩
  | waiting :: below =>
    if depth < waiting.depth then
      let (merged, patience) := mergeRuns key patience waiting.items top
      settle key depth patience merged below
    else ⟨patience, top, waiting :: below⟩

/-- Add the next run of a list of a length; runs whose boundaries lie deeper than the new one are
merged first. -/
def push (key : α → Float) (length : Nat) (stack : RunStack α) (next : List α) : RunStack α :=
  let before := stack.below.foldr (fun waiting rest => waiting.items.length + rest) 0
  let left := 2 * before + stack.top.length
  let depth := boundaryDepth length left (left + stack.top.length + next.length)
  let settled := settle key depth stack.patience stack.top stack.below
  ⟨settled.patience, next, ⟨settled.top, depth⟩ :: settled.below⟩

/-- Merge all runs, the last one first: always the last two, unless the one before them is
shorter than the last. -/
def collapse (key : α → Float) (patience : Nat) : List (List α) → List α
  | [] => []
  | [run] => run
  | [top, next] => (mergeRuns key patience next top).1
  | top :: next :: third :: rest =>
    if third.length < top.length then
      let (merged, patience) := mergeRuns key patience third next
      collapse key patience (top :: merged :: rest)
    else
      let (merged, patience) := mergeRuns key patience next top
      collapse key patience (merged :: third :: rest)
termination_by runs => runs.length

/-- The runs of a stack merged into one. -/
def merged (key : α → Float) (stack : RunStack α) : List α :=
  collapse key stack.patience (stack.top :: stack.below.map (·.items))

end RunStack

/-- Sort by cutting into runs and merging them. -/
def sortRuns (key : α → Float) (items : List α) : List α :=
  match cutRuns key (leastRun items.length false) items.length items with
  | [] => []
  | first :: rest =>
    (rest.foldl (RunStack.push key items.length) ⟨longStretch, first, []⟩).merged key

/-- Whether all keys of a list compare. -/
def allDefined (key : α → Float) (items : List α) : Bool := items.all fun x => !(key x).isNaN

/-- Sort stably by a key. -/
def sortBy (key : α → Float) (items : List α) : List α :=
  if allDefined key items then items.mergeSort fun x y => !(key y < key x)
  else sortRuns key items

end Storyboard.Order
