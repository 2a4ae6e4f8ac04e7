/-!
# Anchors

An anchor names a point of a timeline: the start or end of a scene, the start of a cue, a mark,
a neighbour of the item at hand, or the start of all. `Anchor.describe` spells an anchor the way
an author writes it.
-/
namespace Storyboard

/-- The kinds of points that an expression can read or an item can wait for. -/
inductive AnchorKind where
  /-- The start of a scene. -/
  | sceneStart
  /-- The end of a scene. -/
  | sceneEnd
  /-- The start of a cue. -/
  | cueStart
  /-- The position of a mark. -/
  | markStart
  /-- The start of the item before. -/
  | prevStart
  /-- The end of the item before. -/
  | prevEnd
  /-- The start of the item after. -/
  | nextStart
  /-- The start of the timeline. -/
  | timelineStart
  /-- The window of a transition, which no expression reads. -/
  | transition
  deriving DecidableEq, Repr

namespace AnchorKind

/-- The label of a kind. -/
def label : AnchorKind → String
  | .sceneStart => "scene_start"
  | .sceneEnd => "scene_end"
  | .cueStart => "cue_start"
  | .markStart => "mark_start"
  | .prevStart => "prev_start"
  | .prevEnd => "prev_end"
  | .nextStart => "next_start"
  | .timelineStart => "timeline_start"
  | .transition => "transition"

/-- All kinds. -/
def all : List AnchorKind :=
  [.sceneStart, .sceneEnd, .cueStart, .markStart, .prevStart, .prevEnd, .nextStart,
    .timelineStart, .transition]

/-- The kind of a label. -/
def ofLabel? (label : String) : Option AnchorKind := all.find? fun kind => kind.label == label

/-- Every kind is told by its label. -/
theorem ofLabel?_label (kind : AnchorKind) : ofLabel? kind.label = some kind := by
  cases kind <;> decide

end AnchorKind

/-- A named point of a timeline. -/
structure Anchor where
  /-- What kind of point it is. -/
  kind : AnchorKind
  /-- The name of the entity it belongs to, for kinds that have one. -/
  ref : Option String
  deriving DecidableEq, Repr

namespace Anchor

/-- The start of the scene of a name. -/
def sceneStart (ref : String) : Anchor := ⟨.sceneStart, some ref⟩

/-- The end of the scene of a name. -/
def sceneEnd (ref : String) : Anchor := ⟨.sceneEnd, some ref⟩

/-- The window of the transition of a name. -/
def transition (ref : String) : Anchor := ⟨.transition, some ref⟩

/-- The author's spelling of an anchor. -/
def describe (anchor : Anchor) : String :=
  let ref := anchor.ref.getD "None"
  match anchor.kind with
  | .sceneStart => "scene(" ++ ref ++ ").start"
  | .sceneEnd => "scene(" ++ ref ++ ").end"
  | .cueStart => "cue(" ++ ref ++ ")"
  | .markStart => "mark(" ++ ref ++ ")"
  | .prevStart => "prev.start"
  | .prevEnd => "prev.end"
  | .nextStart => "next.start"
  | .timelineStart => "timeline.start"
  | .transition => "transition(" ++ ref ++ ")"

end Anchor

/-- The positions that an expression may read, in seconds. A position that is not known yet is
absent. -/
structure Context where
  /-- Frames in a second, for the unit of frames. -/
  fps : Float
  /-- Starts of scenes by name. -/
  sceneStarts : List (String × Float) := []
  /-- Ends of scenes by name. -/
  sceneEnds : List (String × Float) := []
  /-- Starts of cues by name. -/
  cueStarts : List (String × Float) := []
  /-- Positions of marks by name. -/
  markStarts : List (String × Float) := []
  /-- Start of the item before. -/
  prevStart : Option Float := none
  /-- End of the item before. -/
  prevEnd : Option Float := none
  /-- Start of the item after. -/
  nextStart : Option Float := none

namespace Context

/-- The position of an anchor, if it is known. -/
def lookup? (ctx : Context) (anchor : Anchor) : Option Float :=
  match anchor.kind with
  | .timelineStart => some 0.0
  | .sceneStart => anchor.ref.bind fun ref => ctx.sceneStarts.lookup ref
  | .sceneEnd => anchor.ref.bind fun ref => ctx.sceneEnds.lookup ref
  | .cueStart => anchor.ref.bind fun ref => ctx.cueStarts.lookup ref
  | .markStart => anchor.ref.bind fun ref => ctx.markStarts.lookup ref
  | .prevStart => ctx.prevStart
  | .prevEnd => ctx.prevEnd
  | .nextStart => ctx.nextStart
  | .transition => none

end Context
end Storyboard
