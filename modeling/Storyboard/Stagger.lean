import Storyboard.Defaults
import Storyboard.Motion.Interpolation
import Storyboard.Random.Shuffle
import Storyboard.Number.Layout
/-!
# Staggered starts

A group of items starts one after another in a pattern. Some patterns give each item a rank
along a line, others place the items row by row in a grid and rank them by their cell. The delay
of an item is its rank times a unit of frames.
-/
namespace Storyboard

/-- The order in which the items of a group start. -/
inductive StaggerPattern where
  /-- From the first to the last. -/
  | linear
  /-- From the last to the first. -/
  | reverse
  /-- From the centre outwards. -/
  | fromCenter
  /-- From both ends inwards. -/
  | fromEdges
  /-- In a shuffled order. -/
  | random
  /-- Row by row. -/
  | row
  /-- Column by column. -/
  | column
  /-- From one corner to the opposite one. -/
  | diagonal
  /-- From the edges of the grid inwards, around each ring. -/
  | spiral
  deriving DecidableEq, Repr

namespace StaggerPattern

/-- The patterns by name, with what they are called on screen. -/
def named : List (String × String × StaggerPattern) :=
  [("linear", "Linear", .linear), ("reverse", "Reverse", .reverse),
    ("from-center", "From Center", .fromCenter), ("from-edges", "From Edges", .fromEdges),
    ("random", "Random", .random), ("row", "Row", .row), ("column", "Column", .column),
    ("diagonal", "Diagonal", .diagonal), ("spiral", "Spiral", .spiral)]

end StaggerPattern

/-- A group of items and the pattern in which they start. -/
structure Stagger where
  /-- The number of items. -/
  count : Nat
  /-- The frames between neighbouring ranks. -/
  unit : Float
  /-- The pattern. -/
  pattern : StaggerPattern
  /-- The seed of a shuffled order. -/
  seed : Option Int
  /-- The width of the grid. -/
  columns : Option Nat

/-- Why there is no such group, or no such item. -/
inductive StaggerError where
  /-- A negative number of items. -/
  | negativeCount (count : Int)
  /-- A name that means no pattern. -/
  | unknownPattern (name : String)
  /-- A grid without columns. -/
  | noColumns (columns : Int)
  /-- More items than can be listed or ranked. -/
  | arithmetic (fault : Fault)
  /-- An item that the group does not have. -/
  | outOfRange (index : Int) (count : Nat)

namespace StaggerError

/-- The wording of an error; some faults of arithmetic have none. -/
def message : StaggerError → Option String
  | .negativeCount count => some ("Stagger count must be >= 0, got " ++ Number.intText count)
  | .unknownPattern name => some ("Unknown stagger pattern: " ++ name)
  | .noColumns columns => some ("Stagger columns must be >= 1, got " ++ Number.intText columns)
  | .arithmetic fault => fault.message
  | .outOfRange index count =>
    some ("Stagger item " ++ Number.intText index ++ " out of range for count " ++
      Number.intText count)

end StaggerError

/-- How far an item is. -/
inductive Phase where
  /-- Before its start. -/
  | waiting
  /-- Between its start and its end. -/
  | animating
  /-- At its end or after it. -/
  | complete
  deriving DecidableEq, Repr

namespace Phase

/-- The name of a phase. -/
def label : Phase → String
  | .waiting => "waiting"
  | .animating => "animating"
  | .complete => "complete"

end Phase

namespace Stagger

/-- The least whole number whose square is not below another. -/
def ceilSquareRoot (n : Nat) : Nat :=
  match Number.ceil (Number.ofNat n).sqrt with
  | .ok root => root.toNat
  | .error _ => 0

/-- The width of the grid: as given, or else that of the smallest square. -/
def gridColumns (s : Stagger) : Nat :=
  s.columns.getD (max 1 (ceilSquareRoot s.count))

/-- The number of rows of the grid; the last one may be filled in part. -/
def gridRows (s : Stagger) : Nat := (s.count + s.gridColumns - 1) / s.gridColumns

/-- The row of an item. -/
def rowOf (s : Stagger) (i : Nat) : Nat := i / s.gridColumns

/-- The column of an item. -/
def columnOf (s : Stagger) (i : Nat) : Nat := i % s.gridColumns

/-- How far the cell of an item is from the nearest edge of the grid. -/
def edgeDistance (s : Stagger) (i : Nat) : Nat :=
  min (min (s.rowOf i) (s.columnOf i))
    (min (s.gridRows - 1 - s.rowOf i) (s.gridColumns - 1 - s.columnOf i))

/-- Whether an item comes no later than another around the rings of the grid. -/
def ringOrder (s : Stagger) (i j : Nat) : Bool :=
  s.edgeDistance i < s.edgeDistance j ||
    (s.edgeDistance i == s.edgeDistance j &&
      s.rowOf i + s.columnOf i ≤ s.rowOf j + s.columnOf j)

/-- The items around the rings of the grid, the outer one first. -/
def ringItems (s : Stagger) : List Nat := (List.range s.count).mergeSort s.ringOrder

/-- The items in the order in which they start, for a pattern that shuffles. -/
def shuffled (s : Stagger) : List Nat := shuffle s.count (s.seed.getD Defaults.staggerSeed)

/-- The middle between the first item and the last. -/
def center (s : Stagger) : Float := Number.ofInt (s.count - 1) / 2.0

/-- How far an item is from the middle. -/
def fromMiddle (s : Stagger) (i : Nat) : Float :=
  Number.magnitude (Number.ofNat i - s.center)

/-- The place of each item in a list that holds all of them. -/
def placesIn (s : Stagger) (order : List Nat) : List Float :=
  (List.range s.count).map fun i => Number.ofNat (order.idxOf i)

/-- The ranks of all items; around the middle a rank may lie between two whole numbers. -/
def ranks (s : Stagger) : List Float :=
  let each (rank : Nat → Float) : List Float := (List.range s.count).map rank
  match s.pattern with
  | .linear => each fun i => Number.ofNat i
  | .reverse => each fun i => Number.ofNat (s.count - 1 - i)
  | .fromCenter => each s.fromMiddle
  | .fromEdges => each fun i => s.center - s.fromMiddle i
  | .random => s.placesIn s.shuffled
  | .row => each fun i => Number.ofNat (s.rowOf i)
  | .column => each fun i => Number.ofNat (s.columnOf i)
  | .diagonal => each fun i => Number.ofNat (s.rowOf i + s.columnOf i)
  | .spiral => s.placesIn s.ringItems

/-- The delays of all items in frames. -/
def delays (s : Stagger) : List Float := s.ranks.map (· * s.unit)

/-- Whether there are too many items to lay out: a number without a double has no root to lay out a
grid with, no middle and no rows, and one that is no signed word has no list to shuffle. -/
def isTooLarge (s : Stagger) : Bool :=
  let infinite (n : Nat) : Bool := (Number.ofNat n).isInf
  s.columns.isNone && infinite s.count ||
    match s.pattern with
    | .linear => false
    | .reverse => false
    | .fromCenter => infinite (s.count / 2)
    | .fromEdges => infinite (s.count / 2)
    | .random => !Number.fitsSignedWord s.count
    | .row => infinite (s.count / s.columns.getD 1)
    | .column => infinite (s.count / s.columns.getD 1)
    | .diagonal => infinite (s.count / s.columns.getD 1)
    | .spiral => infinite (s.count / s.columns.getD 1)

/-- Why the items cannot be listed where memory holds a number of values, if so. A number without a
double is no rank either. -/
def sizeFault? (s : Stagger) (capacity : Int) : Option Fault :=
  if s.isTooLarge then some .overflow
  else if capacity < s.count then some .exhausted
  else if s.ranks.all (·.isFinite) then none
  else some .overflow

/-- A group, if its items can be listed where memory holds a number of values. -/
def ofSize (s : Stagger) (capacity : Int) : Except StaggerError Stagger :=
  match s.sizeFault? capacity with
  | none => .ok s
  | some fault => .error (.arithmetic fault)

/-- A group, checked in the order number of items, pattern, columns. -/
def configured (count : Int) (unit : Float) (pattern : String) (seed columns : Option Int) :
    Except StaggerError Stagger :=
  if count < 0 then .error (.negativeCount count)
  else
    match StaggerPattern.named.lookup pattern with
    | none => .error (.unknownPattern pattern)
    | some (_, known) =>
      match columns with
      | some wide =>
        if wide < 1 then .error (.noColumns wide)
        else .ok ⟨count.toNat, unit, known, seed, some wide.toNat⟩
      | none => .ok ⟨count.toNat, unit, known, seed, none⟩

/-- A group whose items can be listed where memory holds a number of values. -/
def makeWithin (capacity count : Int) (unit : Float) (pattern : String)
    (seed columns : Option Int) : Except StaggerError Stagger :=
  configured count unit pattern seed columns >>= fun s => s.ofSize capacity

/-- A group whose items can be listed in memory as it usually is. -/
def make : Int → Float → String → Option Int → Option Int → Except StaggerError Stagger :=
  makeWithin Number.mostValues

/-- The progress at a frame of an item with a start and a length. -/
def progressFrom (frame start duration : Float) : Except Fault Float :=
  let passed := frame - start
  if passed < 0.0 then .ok 0.0
  else if duration ≤ passed then .ok 1.0
  else Number.divide passed duration

/-- The phase at a frame of an item with a start and a length. -/
def phaseFrom (frame start duration : Float) : Phase :=
  if frame < start then .waiting
  else if start + duration ≤ frame then .complete
  else .animating

/-- The delay of one item. -/
def delay? (s : Stagger) (index : Int) : Except StaggerError Float :=
  if index < 0 then .error (.outOfRange index s.count)
  else
    match s.delays[index.toNat]? with
    | some start => .ok start
    | none => .error (.outOfRange index s.count)

/-- The progress of one item at a frame. -/
def progressAt (s : Stagger) (index : Int) (frame duration : Float) : Except StaggerError Float :=
  match s.delay? index with
  | .error cause => .error cause
  | .ok start => (progressFrom frame start duration).mapError .arithmetic

/-- An item at a frame. -/
structure ItemState where
  /-- The index of the item. -/
  index : Nat
  /-- Its progress. -/
  progress : Float
  /-- Its phase. -/
  phase : Phase

/-- All items at a frame, each of the given length. -/
def states (s : Stagger) (frame duration : Float) : Except Fault (List ItemState) :=
  s.delays.zipIdx.mapM fun (start, index) =>
    (progressFrom frame start duration).map fun progress =>
      ⟨index, progress, phaseFrom frame start duration⟩

end Stagger
end Storyboard
