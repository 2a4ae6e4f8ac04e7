import Storyboard.Defaults
import Storyboard.Expr.Evaluation
import Storyboard.Json.Basic
/-!
# Compositions

What an author writes of one video: scenes holding cues and pauses, transitions between scenes,
and marks. A start, an end or a duration may be a number of seconds or a time expression.
-/
namespace Storyboard

/-- A pause, of a fixed length or sampled once from a normal distribution. -/
inductive Pause where
  /-- So many seconds; a negative number counts as none. -/
  | fixed (seconds : Float)
  /-- A sample of the normal distribution of a mean and a deviation, within bounds if given. -/
  | gaussian (mean std : Float) (min max : Option Float)

/-- A pause as authored where a number of seconds is enough. -/
inductive PauseSetting where
  /-- A number of seconds. -/
  | seconds (value : Float)
  /-- A pause. -/
  | pause (pause : Pause)

namespace PauseSetting

/-- The pause that is meant; seconds mean a fixed one. -/
def toPause : PauseSetting → Pause
  | .seconds value => .fixed value
  | .pause p => p

end PauseSetting

/-- The authored timing of a scene, a cue or a transition. A relative start or end counts from
the cursor. -/
structure TimeRange where
  /-- The authored start. -/
  start : Option TimeValue := none
  /-- The authored end. -/
  finish : Option TimeValue := none
  /-- The authored duration. -/
  duration : Option TimeValue := none
  /-- Whether the start counts from the cursor. -/
  startIsRelative : Bool := false
  /-- Whether the end counts from the cursor. -/
  finishIsRelative : Bool := false

namespace TimeRange

/-- Whether nothing is authored. -/
def isEmpty (range : TimeRange) : Bool :=
  range.start.isNone && range.finish.isNone && range.duration.isNone

end TimeRange

/-- Spoken text within a cue. -/
structure Speech where
  /-- What is spoken. -/
  text : String
  /-- The measured length in seconds, if there is one. -/
  durationSec : Option Float := none
  /-- Silence to cut off at the end, in seconds. -/
  trimEndSec : Float := 0.0

/-- A part of a cue. -/
inductive Segment where
  /-- Spoken text. -/
  | text (speech : Speech)
  /-- A pause. -/
  | pause (pause : Pause)

/-- A spoken or visual beat of a scene. -/
structure Cue where
  /-- The name of the cue. -/
  id : String
  /-- What is said, when there are no segments. -/
  text : Option String := none
  /-- The authored length. -/
  duration : Option TimeValue := none
  /-- The authored timing. -/
  time : Option TimeRange := none
  /-- The parts of the cue. -/
  segments : List Segment := []
  /-- Lines to show. -/
  bullets : List String := []
  /-- Data for whoever renders the cue. -/
  markup : Fields := []

namespace Cue

/-- Whether the author gave the cue a start. -/
def hasExplicitStart (cue : Cue) : Bool := (cue.time.bind (·.start)).isSome

end Cue

/-- A part of a scene. -/
inductive SceneItem where
  /-- A cue. -/
  | cue (cue : Cue)
  /-- A pause. -/
  | pause (pause : Pause)

/-- A transition into whatever comes after a scene, in short form. -/
structure Handover where
  /-- The kind of effect. -/
  effect : String := "fade"
  /-- The authored length. -/
  duration : Option TimeValue := none
  /-- The name of an easing. -/
  ease : Option String := none
  /-- Settings of the effect. -/
  props : Fields := []

/-- A scene. -/
structure Scene where
  /-- The name of the scene. -/
  id : String
  /-- Its title. -/
  title : Option String := none
  /-- The authored timing. -/
  time : Option TimeRange := none
  /-- Its cues and pauses in order. -/
  items : List SceneItem := []
  /-- The transition out of it, in short form. -/
  transitionToNext : Option Handover := none
  /-- Data for whoever renders the scene. -/
  markup : Fields := []

namespace Scene

/-- The cues of a scene in order. -/
def cues (scene : Scene) : List Cue :=
  scene.items.filterMap fun
    | .cue c => some c
    | .pause _ => none

end Scene

/-- How a transition claims time between two scenes. -/
inductive TransitionMode where
  /-- It lies over the end of the scene before it. -/
  | overlap
  /-- It stands between the scenes and pushes what follows later. -/
  | insert
  deriving DecidableEq, Repr

/-- A transition. -/
structure Transition where
  /-- The name of the transition. -/
  id : String
  /-- The kind of effect. -/
  effect : String := "fade"
  /-- The authored timing. -/
  time : Option TimeRange := none
  /-- The authored length. -/
  duration : Option TimeValue := none
  /-- The name of an easing. -/
  ease : Option String := none
  /-- Settings of the effect. -/
  props : Fields := []
  /-- How it claims time, if the author says so. -/
  mode : Option TransitionMode := none

/-- A named point without extent. -/
structure Mark where
  /-- The name of the mark. -/
  id : String
  /-- Where it stands. -/
  position : TimeValue

/-- An entity of the timeline. -/
inductive Item where
  /-- A scene. -/
  | scene (scene : Scene)
  /-- A transition. -/
  | transition (transition : Transition)
  /-- A mark. -/
  | mark (mark : Mark)

/-- The kinds of entities. -/
inductive EntryKind where
  /-- A scene. -/
  | scene
  /-- A transition. -/
  | transition
  /-- A mark. -/
  | mark
  deriving DecidableEq, Repr

namespace EntryKind

/-- The name of a kind. -/
def label : EntryKind → String
  | .scene => "scene"
  | .transition => "transition"
  | .mark => "mark"

end EntryKind

namespace TransitionMode

/-- The name of a mode. -/
def label : TransitionMode → String
  | .overlap => "overlap"
  | .insert => "insert"

end TransitionMode

namespace Item

/-- The name of an entity. -/
def id : Item → String
  | .scene s => s.id
  | .transition t => t.id
  | .mark m => m.id

/-- The kind of an entity. -/
def kind : Item → EntryKind
  | .scene _ => .scene
  | .transition _ => .transition
  | .mark _ => .mark

/-- The scene that an entity is, if it is one. -/
def scene? : Item → Option Scene
  | .scene s => some s
  | _ => none

/-- The transition that an entity is, if it is one. -/
def transition? : Item → Option Transition
  | .transition t => some t
  | _ => none

end Item

/-- Settings of the narration. -/
structure Voiceover where
  /-- The seed of the sampled pauses. -/
  seed : Option Int := none
  /-- Silence before everything, in seconds. -/
  leadInSeconds : Float := 0.0
  /-- A pause between the parts of every scene. -/
  pauseBetweenItems : Option PauseSetting := none
  /-- How fast text is spoken. -/
  wordsPerMinute : Float := Defaults.wordsPerMinute

/-- What an author writes of one video. -/
structure Composition where
  /-- The name of the composition. -/
  id : String := "composition"
  /-- Its title. -/
  title : Option String := none
  /-- Frames in a second. -/
  fps : Float := Defaults.fps
  /-- Width in pixels. -/
  width : Int := Defaults.width
  /-- Height in pixels. -/
  height : Int := Defaults.height
  /-- The authored length of the whole. -/
  duration : Option TimeValue := none
  /-- The moment of the still that stands for the video. -/
  poster : Option TimeValue := none
  /-- Settings of the narration. -/
  voiceover : Voiceover := {}
  /-- The entities in order. -/
  timeline : List Item := []

end Storyboard
