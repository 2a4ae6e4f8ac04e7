import Storyboard.Composition.Plain
import Storyboard.Number.Scalar
/-!
# Resolved timelines

A timeline gives every entity of a composition its absolute start and end in seconds: a flat
list of entries ordered by start, the scenes with their cues, and the pauses as windows of
silence. Its queries look entities up by name, list what is active at a moment, and count in
whole frames.
-/
namespace Storyboard

/-- A part of a cue with its window. -/
structure SegmentWindow where
  /-- The spoken text; a pause has none. -/
  text : Option String
  /-- The start in seconds. -/
  start : Float
  /-- The end in seconds. -/
  finish : Float

/-- A cue with its window. -/
structure CueWindow where
  /-- The name of the cue. -/
  id : String
  /-- The name of its scene. -/
  sceneId : String
  /-- The start in seconds. -/
  start : Float
  /-- The end in seconds. -/
  finish : Float
  /-- What is said. -/
  text : Option String
  /-- The parts of the cue. -/
  segments : List SegmentWindow
  /-- Lines to show. -/
  bullets : List String

/-- A scene with its window. -/
structure SceneWindow where
  /-- The name of the scene. -/
  id : String
  /-- Its title. -/
  title : Option String
  /-- The start in seconds. -/
  start : Float
  /-- The end in seconds. -/
  finish : Float
  /-- Its cues. -/
  cues : List CueWindow

/-- A window of silence. -/
structure Silence where
  /-- The scene it belongs to; the lead-in belongs to none. -/
  sceneId : Option String
  /-- The start in seconds. -/
  start : Float
  /-- The end in seconds. -/
  finish : Float
  /-- The length in seconds. -/
  seconds : Float

/-- One row of a timeline. -/
structure Entry where
  /-- What kind of entity it is. -/
  kind : EntryKind
  /-- The name of the entity. -/
  id : String
  /-- The start in seconds. -/
  start : Float
  /-- The end in seconds. -/
  finish : Float
  /-- The scene that a transition leaves. -/
  fromScene : Option String := none
  /-- The scene that a transition enters. -/
  toScene : Option String := none
  /-- The kind of effect of a transition. -/
  effect : Option String := none
  /-- The easing of a transition. -/
  ease : Option String := none
  /-- How a transition claims time. -/
  mode : Option TransitionMode := none
  /-- Settings of the effect of a transition. -/
  props : Fields := []

/-- The absolute schedule of a composition. -/
structure Timeline where
  /-- The name of the composition. -/
  id : String
  /-- Frames in a second. -/
  fps : Float
  /-- Width in pixels. -/
  width : Int
  /-- Height in pixels. -/
  height : Int
  /-- The length of the whole in seconds. -/
  duration : Float
  /-- The moment of the still, in seconds. -/
  poster : Option Float
  /-- All entities ordered by start. -/
  entries : List Entry
  /-- The scenes in the order of their authors. -/
  scenes : List SceneWindow
  /-- The silences. -/
  pauses : List Silence

namespace Number

/-- The nearest whole frame to a position in seconds. -/
def framesOf {α : Type} [Scalar α] (seconds fps : α) : Except Fault Int :=
  roundHalfUp (seconds * fps)

/-- The whole frames of the time from one position in seconds to another. -/
def framesBetween {α : Type} [Scalar α] (start finish fps : α) : Except Fault Int :=
  framesOf (finish - start) fps

/-- The nearest whole frames to two positions in seconds. -/
def framesOfEnds {α : Type} [Scalar α] (start finish fps : α) : Except Fault (Int × Int) := do
  let first ← framesOf start fps
  let last ← framesOf finish fps
  return (first, last)

end Number

namespace Entry

/-- The length of an entry in seconds. -/
def duration (entry : Entry) : Float := entry.finish - entry.start

/-- Whether an entry covers a moment; an entry without extent covers its own moment only. -/
def isActiveAt (entry : Entry) (time : Float) : Bool :=
  (entry.start ≤ time && time < entry.finish) ||
    (entry.start == entry.finish && entry.finish == time)

end Entry

namespace Timeline

/-- The entry of a name. -/
def entry? (timeline : Timeline) (id : String) : Option Entry :=
  timeline.entries.find? (·.id == id)

/-- The scene of a name. -/
def scene? (timeline : Timeline) (id : String) : Option SceneWindow :=
  timeline.scenes.find? (·.id == id)

/-- The cue of a name. -/
def cue? (timeline : Timeline) (id : String) : Option CueWindow :=
  (timeline.scenes.flatMap (·.cues)).find? (·.id == id)

/-- The entries that cover a moment. -/
def activeAt (timeline : Timeline) (time : Float) : List Entry :=
  timeline.entries.filter (·.isActiveAt time)

/-- The window of the entry of a name, or else of the cue of that name. -/
def window? (timeline : Timeline) (id : String) : Option (Float × Float) :=
  match timeline.entry? id with
  | some entry => some (entry.start, entry.finish)
  | none => (timeline.cue? id).map fun cue => (cue.start, cue.finish)

/-- The first and last whole frames of a window. -/
def framesOfWindow (timeline : Timeline) (window : Float × Float) :
    Except Fault (Int × Int) :=
  Number.framesOfEnds window.1 window.2 timeline.fps

/-- The length of a timeline in whole frames. -/
def durationFrames (timeline : Timeline) : Except Fault Int :=
  Number.framesOf timeline.duration timeline.fps

end Timeline
end Storyboard
