import Storyboard.Order.Insertion
/-!
# Merging runs

Two neighbouring runs are merged from the end where the shorter of their overlapping parts is
used up first. Elements are taken one at a time until one run has won often enough in a row;
then whole stretches are taken, whose lengths are searched for, as long as they are long. How
often is enough is the patience of the merge: it falls while stretches are long, and rises when
they are not. For keys that compare the result is the stable one at any patience.
-/
namespace Storyboard.Order

variable {α : Type}

/-- The end from which two runs are merged. -/
inductive MergeEnd where
  /-- From the front; the first run is the one that comes first. -/
  | front
  /-- From the back, with both runs turned round; the first run is the one that comes last. -/
  | back

/-- Whether an element of the second run goes before one of the first. -/
def MergeEnd.secondWins (side : MergeEnd) (key : α → Float) (first second : α) : Bool :=
  match side with
  | .front => key second < key first
  | .back => key first < key second

/-- How many elements at the front of a run pass a test, searched for. -/
def MergeEnd.stretch (side : MergeEnd) (test : α → Bool) (run : List α) : Nat :=
  match side with
  | .front => gallop (fun i => !(run[i]?).any test) run.length 0
  | .back =>
    let last := run.length - 1
    run.length - gallop (fun i => (run[last - i]?).any test) run.length last

/-- Two runs on the way to being merged. -/
structure Merging (α : Type) where
  /-- What was taken from them, in order. -/
  taken : List α
  /-- What is left of the first run. -/
  first : List α
  /-- What is left of the second run. -/
  second : List α

/-- How elements are taken. -/
inductive Pace where
  /-- One at a time; the second run or the first was taken from so often in a row. -/
  | single (fromSecond : Bool) (streak : Nat)
  /-- In stretches. -/
  | stretches

/-- How long a stretch has to be to go on with stretches, and the patience to begin with. -/
def longStretch : Nat := 7

namespace Merging

/-- Whether the rest is settled: the first run gives its last element at the very end. -/
def isSettled (m : Merging α) : Bool := m.second.isEmpty || m.first.length ≤ 1

/-- The merged run, once the rest is settled. -/
def result (m : Merging α) : List α := m.taken ++ m.second ++ m.first

/-- Take elements of the first run. -/
def takeFirst (m : Merging α) (count : Nat) : Merging α :=
  ⟨m.taken ++ m.first.take count, m.first.drop count, m.second⟩

/-- Take elements of the second run. -/
def takeSecond (m : Merging α) (count : Nat) : Merging α :=
  ⟨m.taken ++ m.second.take count, m.first, m.second.drop count⟩

/-- Take the stretch of the first run that goes before the second run, then one element of that;
also the length of the stretch. -/
def stretchFirst (side : MergeEnd) (key : α → Float) (m : Merging α) : Merging α × Nat :=
  match m.second with
  | [] => (m, 0)
  | y :: _ =>
    let count := side.stretch (fun x => !side.secondWins key x y) m.first
    let next := m.takeFirst count
    (if next.isSettled then next else next.takeSecond 1, count)

/-- Take the stretch of the second run that goes before the first run, then one element of that;
also the length of the stretch. -/
def stretchSecond (side : MergeEnd) (key : α → Float) (m : Merging α) : Merging α × Nat :=
  match m.first with
  | [] => (m, 0)
  | x :: _ =>
    let count := side.stretch (fun y => side.secondWins key x y) m.second
    let next := m.takeSecond count
    (if next.isSettled then next else next.takeFirst 1, count)

/-- Take a stretch of the run that comes first, and then one of the other unless the rest is
settled; also whether one of them was long. -/
def stretchBoth (side : MergeEnd) (key : α → Float) (m : Merging α) : Merging α × Bool :=
  let (one, other) := match side with
    | .front => (stretchFirst side key, stretchSecond side key)
    | .back => (stretchSecond side key, stretchFirst side key)
  let (next, count) := one m
  if next.isSettled then (next, longStretch ≤ count)
  else
    let (last, more) := other next
    (last, longStretch ≤ count || longStretch ≤ more)

/-- Take one element; whether it is of the second run. -/
def takeOne (side : MergeEnd) (key : α → Float) (m : Merging α) : Merging α × Bool :=
  match m.first, m.second with
  | x :: _, y :: _ =>
    if side.secondWins key x y then (m.takeSecond 1, true) else (m.takeFirst 1, false)
  | _, _ => (m, false)

/-- Merge what is left, in at most so many turns; each takes an element. The merged run and the
patience after it. -/
def finish (side : MergeEnd) (key : α → Float) :
    (turns patience : Nat) → Pace → Merging α → List α × Nat
  | 0, patience, _, m => (m.result, patience)
  | turns + 1, patience, pace, m =>
    if m.isSettled then (m.result, patience)
    else
      match pace with
      | .single fromSecond streak =>
        let (next, won) := m.takeOne side key
        let streak := if won == fromSecond then streak + 1 else 1
        finish side key turns patience
          (if patience ≤ streak then .stretches else .single won streak) next
      | .stretches =>
        let (next, long) := m.stretchBoth side key
        if next.isSettled then (next.result, patience)
        else if long then finish side key turns (max 1 (patience - 1)) .stretches next
        else finish side key turns (patience + 1) (.single false 0) next

/-- Merge two runs of which the second one's front is known to go first. -/
def run (side : MergeEnd) (key : α → Float) (patience : Nat) (first second : List α) :
    List α × Nat :=
  finish side key (first.length + second.length) patience (.single false 0)
    (takeSecond ⟨[], first, second⟩ 1)

end Merging

/-- Merge two neighbouring runs with a patience: the merged run, and the patience after it. What
goes before the front of the later run stays in place, and so does what goes behind the end of
the earlier one. -/
def mergeRuns (key : α → Float) (patience : Nat) (earlier later : List α) : List α × Nat :=
  match later with
  | [] => (earlier, patience)
  | y :: _ =>
    let low := gallop (fun i => (earlier[i]?).any fun x => key y < key x) earlier.length 0
    let left := earlier.drop low
    match left.getLast? with
    | none => (earlier ++ later, patience)
    | some x =>
      let high := gallop (fun i => !(later[i]?).any fun z => key z < key x) later.length
        (later.length - 1)
      let right := later.take high
      if right.isEmpty then (earlier ++ later, patience)
      else
        let (middle, patience) :=
          if left.length ≤ right.length then Merging.run .front key patience left right
          else
            let (turned, patience) :=
              Merging.run .back key patience right.reverse left.reverse
            (turned.reverse, patience)
        (earlier.take low ++ middle ++ later.drop high, patience)

end Storyboard.Order
