import Storyboard.Text.Symbol
/-!
# Plain data

`Json` is a tree of plain values, as authored documents hold them. Whole numbers and doubles are
told apart, whole numbers have any size, and an object keeps its keys in order. A text may hold
halves of surrogate pairs.
-/
namespace Storyboard

/-- A plain value. -/
inductive Json where
  /-- Nothing. -/
  | null
  /-- A truth value. -/
  | bool (value : Bool)
  /-- A whole number of any size. -/
  | int (value : Int)
  /-- A double. -/
  | float (value : Float)
  /-- A text. -/
  | str (value : String)
  /-- A list. -/
  | arr (items : List Json)
  /-- Keys with their values, in order. -/
  | obj (fields : List (String × Json))
  deriving Inhabited

/-- The keys and values of an object. -/
abbrev Fields := List (String × Json)

namespace Fields

/-- Give a key a value: a known key keeps its place, a new one comes last. -/
def put (key : String) (value : Json) : Fields → Fields
  | [] => [(key, value)]
  | (k, v) :: rest => if k = key then (key, value) :: rest else (k, v) :: put key value rest

/-- Give keys their values in order, so that the last value of a key counts. -/
def ofPairs (pairs : List (String × Json)) : Fields :=
  pairs.foldl (fun fields pair => put pair.1 pair.2 fields) []

end Fields

namespace Json

/-- The value under a key of an object. -/
def get? (key : String) : Json → Option Json
  | .obj fields => fields.lookup key
  | _ => none

mutual

/-- How many values lie within one another, the value itself included. -/
def levels : Json → Nat
  | .arr items => levelsOfItems items + 1
  | .obj fields => levelsOfFields fields + 1
  | _ => 1

/-- The most levels of the values of a list. -/
def levelsOfItems : List Json → Nat
  | [] => 0
  | item :: rest => max (levels item) (levelsOfItems rest)

/-- The most levels of the values of an object. -/
def levelsOfFields : List (String × Json) → Nat
  | [] => 0
  | (_, item) :: rest => max (levels item) (levelsOfFields rest)

end

mutual

/-- Whether no key or text within a value holds half of a surrogate pair. -/
def isWhole : Json → Bool
  | .str text => Text.isWhole text
  | .arr items => itemsAreWhole items
  | .obj fields => fieldsAreWhole fields
  | _ => true

/-- Whether the values of a list hold no half of a surrogate pair. -/
def itemsAreWhole : List Json → Bool
  | [] => true
  | item :: rest => isWhole item && itemsAreWhole rest

/-- Whether the keys and values of an object hold no half of a surrogate pair. -/
def fieldsAreWhole : List (String × Json) → Bool
  | [] => true
  | (key, item) :: rest => Text.isWhole key && isWhole item && fieldsAreWhole rest

end

/-- An optional value, or nothing. -/
def ofOption {α : Type} (write : α → Json) : Option α → Json
  | none => .null
  | some value => write value

/-- A list of values. -/
def ofList {α : Type} (write : α → Json) (items : List α) : Json := .arr (items.map write)

end Json
end Storyboard
