import Storyboard.Easing.Bezier
import Storyboard.Easing.Polynomial
import Storyboard.Text.LowerCase
/-!
# Easings

An easing maps progress from zero to one to eased progress. There are curves of several families
in three directions, bezier curves, five bezier curves with names of their own, and functions that
an author gives as such. An easing is named in any of several spellings, which `Easing.key` brings
to one.
-/
namespace Storyboard

/-- Where a curve is slow. -/
inductive Direction where
  /-- At the start. -/
  | slowStart
  /-- At the end. -/
  | slowEnd
  /-- At both ends. -/
  | slowBoth
  deriving DecidableEq, Repr

/-- The families of curves. -/
inductive Family where
  /-- Polynomial pieces. -/
  | polynomial (family : Polynomial)
  /-- Powers of two. -/
  | expo
  /-- Arcs of a circle. -/
  | circ
  /-- Swinging that dies away. -/
  | elastic
  deriving DecidableEq, Repr

/-- A map from progress to eased progress. -/
inductive Easing where
  /-- Progress as it is. -/
  | linear
  /-- A curve of a family. -/
  | curve (family : Family) (direction : Direction)
  /-- A bezier curve. -/
  | bezier (curve : Bezier Float)
  /-- A function of an author. -/
  | function (map : Float → Except Fault Float)

namespace Easing

/-- A power of two. -/
def twoPower (exponent : Float) : Except Fault Float := Number.power 2.0 exponent

/-- The curves made of powers of two. -/
def expo (direction : Direction) (t : Float) : Except Fault Float :=
  match direction with
  | .slowStart => if t == 0.0 then .ok 0.0 else twoPower (10.0 * t - 10.0)
  | .slowEnd => if t == 1.0 then .ok 1.0 else (twoPower (-10.0 * t)).map (1.0 - ·)
  | .slowBoth =>
    if t == 0.0 then .ok 0.0
    else if t == 1.0 then .ok 1.0
    else if t < 0.5 then (twoPower (20.0 * t - 10.0)).map (· / 2.0)
    else (twoPower (-20.0 * t + 10.0)).map fun p => (2.0 - p) / 2.0

/-- The height of a circle around zero at a distance whose square is given. -/
def circleHeight (square : Float) : Except Fault Float := Number.squareRoot (1.0 - square)

/-- The curves made of arcs of a circle. -/
def circ (direction : Direction) (t : Float) : Except Fault Float :=
  match direction with
  | .slowStart => (circleHeight (t * t)).map (1.0 - ·)
  | .slowEnd => do
    let square ← Number.power (t - 1.0) 2.0
    circleHeight square
  | .slowBoth =>
    if t < 0.5 then do
      let square ← Number.power (2.0 * t) 2.0
      let height ← circleHeight square
      return (1.0 - height) / 2.0
    else do
      let square ← Number.power (-2.0 * t + 2.0) 2.0
      let height ← circleHeight square
      return (height + 1.0) / 2.0

/-- The angle between two zeros of a curve that swings at one end. -/
def swingAngle : Float := (2.0 * Number.pi) / 3.0

/-- The angle between two zeros of a curve that swings at both ends. -/
def swingBothAngle : Float := (2.0 * Number.pi) / 4.5

/-- The curves made of swinging that dies away. -/
def elastic (direction : Direction) (t : Float) : Except Fault Float :=
  if t == 0.0 then .ok 0.0
  else if t == 1.0 then .ok 1.0
  else
    match direction with
    | .slowStart => do
      let power ← twoPower (10.0 * t - 10.0)
      let sine ← Number.sine ((t * 10.0 - 10.75) * swingAngle)
      return (-power) * sine
    | .slowEnd => do
      let power ← twoPower (-10.0 * t)
      let sine ← Number.sine ((t * 10.0 - 0.75) * swingAngle)
      return power * sine + 1.0
    | .slowBoth =>
      if t < 0.5 then do
        let power ← twoPower (20.0 * t - 10.0)
        let sine ← Number.sine ((20.0 * t - 11.125) * swingBothAngle)
        return (-(power * sine)) / 2.0
      else do
        let power ← twoPower (-20.0 * t + 10.0)
        let sine ← Number.sine ((20.0 * t - 11.125) * swingBothAngle)
        return (power * sine) / 2.0 + 1.0

/-- The eased progress. -/
def apply (easing : Easing) (t : Float) : Except Fault Float :=
  match easing with
  | .linear => .ok t
  | .curve (.polynomial family) .slowStart => family.easeIn t
  | .curve (.polynomial family) .slowEnd => family.easeOut t
  | .curve (.polynomial family) .slowBoth => family.easeInOut t
  | .curve .expo direction => expo direction t
  | .curve .circ direction => circ direction t
  | .curve .elastic direction => elastic direction t
  | .bezier b => .ok (b.ease t)
  | .function map => map t

/-- Whether the start is given as such at some progress, and not calculated: bezier curves do so
at zero, unless their control points lie on the diagonal. -/
def givesStart (easing : Easing) (t : Float) : Bool :=
  match easing with
  | .bezier b => !b.isDiagonal && t == 0.0
  | _ => false

/-- The easing that slows down to the end by the third power. -/
def easeOutCubic : Easing := .curve (.polynomial .cubic) .slowEnd

/-- The families by the last part of the keys of their curves. -/
def families : List (String × Family) :=
  [("quad", .polynomial .quad), ("cubic", .polynomial .cubic), ("quart", .polynomial .quart),
    ("quint", .polynomial .quint), ("expo", .expo), ("circ", .circ),
    ("back", .polynomial .back), ("elastic", .elastic), ("bounce", .polynomial .bounce)]

/-- The directions by the first part of the keys of their curves. -/
def directions : List (String × Direction) :=
  [("ease_in_", .slowStart), ("ease_out_", .slowEnd), ("ease_in_out_", .slowBoth)]

/-- The bezier curves with names of their own. -/
def presets : List (String × Easing) :=
  [("snappy", .bezier ⟨0.5, 0.0, 0.1, 1.0⟩), ("bouncy", .bezier ⟨0.68, -0.55, 0.265, 1.55⟩),
    ("smooth", .bezier ⟨0.4, 0.0, 0.2, 1.0⟩), ("sharp", .bezier ⟨0.4, 0.0, 0.6, 1.0⟩),
    ("dramatic", .bezier ⟨0.7, 0.0, 0.3, 1.0⟩)]

/-- All easings by key. -/
def named : List (String × Easing) :=
  ("linear", .linear) ::
    (families.flatMap fun family =>
      directions.map fun direction =>
        (direction.1 ++ family.1, Easing.curve family.2 direction.2)) ++ presets

/-- The names of the families as they stand in a spelling without underscores. -/
def familySpellings : List String :=
  ["Quad", "Cubic", "Quart", "Quint", "Expo", "Circ", "Back", "Elastic", "Bounce"]

/-- All easings in the spelling without underscores. -/
def spellings : List String :=
  "linear" ::
    (familySpellings.flatMap fun family =>
      ["easeIn", "easeOut", "easeInOut"].map (· ++ family)) ++ presets.map Prod.fst

/-- Put an underscore before each capital of ASCII. -/
def splitCapitals (text : List Char) : List Char :=
  text.flatMap fun c => if c.isUpper then ['_', c] else [c]

/-- The key of a spelling: without blanks around it, underscores for hyphens and before capitals
but the first character, all in lower case. -/
def key (name : String) : String :=
  let text := (Text.trim name.toList).map fun c => if c == '-' then '_' else c
  let split := match text with
    | [] => []
    | c :: rest => c :: splitCapitals rest
  String.ofList (Text.lower split)

/-- The easing of a name in any spelling. -/
def ofName? (name : String) : Option Easing := named.lookup (key name)

/-- What is said of a name without an easing. -/
def unknownMessage (name : String) : String := "Unknown easing: " ++ name

end Easing

/-- How an author chooses an easing. -/
inductive EasingChoice where
  /-- By name. -/
  | named (name : String)
  /-- As such. -/
  | custom (easing : Easing)

namespace EasingChoice

/-- The easing chosen, or the name that means none. -/
def resolve : EasingChoice → Except String Easing
  | .named name =>
    match Easing.ofName? name with
    | some easing => .ok easing
    | none => .error name
  | .custom easing => .ok easing

end EasingChoice
end Storyboard
