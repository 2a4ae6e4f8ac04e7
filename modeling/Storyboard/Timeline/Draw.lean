import Storyboard.Pause.Sample
/-!
# Drawing pauses

All pauses are drawn before anything is placed, in the order of their authors and from one
generator, so that how often an entity is tried changes no length. `Item.draw` walks the
entities and puts the length drawn at each place beside what is there; `Item.pauses` lists the
same places without drawing.

For each part of a scene there is first the pause between parts, if one is set, the part is not
the first, and it is no cue with a start of its own. Then comes the part itself, if it is a
pause, or else the pauses within the cue.
-/
namespace Storyboard

/-- A part of a cue with what was drawn for it. -/
inductive Beat where
  /-- Spoken text. -/
  | text (speech : Speech)
  /-- A pause of so many seconds. -/
  | pause (seconds : Float)

/-- What a part of a scene is once its pauses are drawn. -/
inductive Content where
  /-- A cue with its parts. -/
  | cue (cue : Cue) (beats : List Beat)
  /-- A pause of so many seconds. -/
  | pause (seconds : Float)

/-- A part of a scene with what was drawn for it. -/
structure DrawnItem where
  /-- The pause before it, if there is one. -/
  gap : Option Float
  /-- The part itself. -/
  content : Content

namespace Segment

/-- The pauses of a part of a cue. -/
def pauses : Segment → List Pause
  | .text _ => []
  | .pause p => [p]

/-- Draw the pause of a part of a cue. -/
def draw (g : Mulberry) : Segment → Beat × Mulberry
  | .text speech => (.text speech, g)
  | .pause p =>
    let (seconds, g) := p.sample g
    (.pause seconds, g)

/-- Draw the pauses of the parts of a cue. -/
def drawAll (g : Mulberry) : List Segment → List Beat × Mulberry
  | [] => ([], g)
  | segment :: rest =>
    let (beat, g) := segment.draw g
    let (beats, g) := drawAll g rest
    (beat :: beats, g)

end Segment

namespace SceneItem

/-- The pause before a part of a scene. -/
def gap? (between : Option Pause) (isFirst : Bool) : SceneItem → Option Pause
  | .cue c => if isFirst || c.hasExplicitStart then none else between
  | .pause _ => if isFirst then none else between

/-- The pauses of a part of a scene, the one before it first. -/
def pauses (between : Option Pause) (isFirst : Bool) (item : SceneItem) : List Pause :=
  (item.gap? between isFirst).toList ++
    match item with
    | .cue c => c.segments.flatMap Segment.pauses
    | .pause p => [p]

/-- Draw a pause that may be absent. -/
def drawGap (g : Mulberry) : Option Pause → Option Float × Mulberry
  | none => (none, g)
  | some p =>
    let (seconds, g) := p.sample g
    (some seconds, g)

/-- Draw what a part of a scene is. -/
def drawContent (g : Mulberry) : SceneItem → Content × Mulberry
  | .cue c =>
    let (beats, g) := Segment.drawAll g c.segments
    (.cue c beats, g)
  | .pause p =>
    let (seconds, g) := p.sample g
    (.pause seconds, g)

/-- Draw the pauses of a part of a scene. -/
def draw (between : Option Pause) (isFirst : Bool) (g : Mulberry) (item : SceneItem) :
    DrawnItem × Mulberry :=
  let (gap, g) := drawGap g (item.gap? between isFirst)
  let (content, g) := item.drawContent g
  (⟨gap, content⟩, g)

/-- Draw the pauses of the parts of a scene. -/
def drawAll (between : Option Pause) : (isFirst : Bool) → Mulberry → List SceneItem →
    List DrawnItem × Mulberry
  | _, g, [] => ([], g)
  | isFirst, g, item :: rest =>
    let (drawn, g) := item.draw between isFirst g
    let (others, g) := drawAll between false g rest
    (drawn :: others, g)

/-- The pauses of the parts of a scene. -/
def allPauses (between : Option Pause) : (isFirst : Bool) → List SceneItem → List Pause
  | _, [] => []
  | isFirst, item :: rest =>
    item.pauses between isFirst ++ allPauses between false rest

end SceneItem

namespace Item

/-- The parts that an entity has: those of a scene. -/
def sceneItems : Item → List SceneItem
  | .scene s => s.items
  | _ => []

/-- The pauses of all entities, in the order in which they are drawn. -/
def pauses (between : Option Pause) (items : List Item) : List Pause :=
  items.flatMap fun item => SceneItem.allPauses between true item.sceneItems

/-- Draw the pauses of all entities; for each entity its parts. -/
def draw (between : Option Pause) (g : Mulberry) : List Item → List (List DrawnItem) × Mulberry
  | [] => ([], g)
  | item :: rest =>
    let (parts, g) := SceneItem.drawAll between true g item.sceneItems
    let (others, g) := draw between g rest
    (parts :: others, g)

end Item
end Storyboard
