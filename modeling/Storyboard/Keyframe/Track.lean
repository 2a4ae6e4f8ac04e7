import Storyboard.Keyframe.Moment
import Storyboard.Keyframe.Schedule
/-!
# Tracks of keyframes

A track is the keyframes of one property, ordered by frame. Between two keyframes the value is
blended with the easing of the later one; before the first and after the last the value holds.
An animation is several tracks, asked together.
-/
namespace Storyboard

/-- A value at a frame. -/
structure Keyframe where
  /-- The frame. -/
  frame : Float
  /-- The value there. -/
  value : Value
  /-- The easing on the way to it, as chosen. -/
  choice : Option EasingChoice
  /-- The easing on the way to it. -/
  easing : Easing
  /-- Whether the frame is a count of whole frames if it is whole. -/
  counted : Bool := false

namespace Keyframe

/-- A keyframe, unless its easing has a name that means none, which is given back. -/
def make (frame : Float) (value : Value) (choice : Option EasingChoice) :
    Except String Keyframe :=
  match choice with
  | none => .ok { frame, value, choice := none, easing := .linear }
  | some chosen =>
    chosen.resolve.map fun easing => { frame, value, choice := some chosen, easing }

end Keyframe

/-- The keyframes of one property. -/
structure Track where
  /-- The name of the property. -/
  name : String
  /-- The keyframes, ordered by frame. -/
  keyframes : List Keyframe

namespace Track

/-- A track of keyframes given in any order. -/
def ofKeyframes (name : String) (keyframes : List Keyframe) : Track :=
  ⟨name, Order.sortBy (·.frame) keyframes⟩

/-- A track of a schedule, with one easing for all keyframes. A schedule counts frames where it
gives them without a fraction. -/
def ofSchedule (name schedule : String) (choice : Option EasingChoice) :
    Except String Track := do
  let keyframes ← (Schedule.parse schedule).mapM fun pair =>
    Keyframe.make pair.1 pair.2 choice
  return ofKeyframes name (keyframes.map fun k => { k with counted := true })

/-- How many keyframes stand before a moment, found by bisection. -/
def countBefore (keyframes : List Keyframe) (moment : Moment) : Nat :=
  Order.bisect (fun i => !(keyframes[i]?).any fun k => moment.isAfter k.frame) 0
    keyframes.length

/-- The value at a moment between two keyframes. -/
def blendAt (before after : Keyframe) (moment : Moment) : Except Fault Value :=
  let span := after.frame - before.frame
  if span == 0.0 then .ok after.value
  else
    let progress :=
      Number.clamp (moment.since before.frame before.counted / span) 0.0 1.0
    (after.easing.apply progress).map fun eased => before.value.blend after.value eased

/-- The value at a moment; the default of a track without keyframes. An undefined frame stands
before none and after none; it is taken between the last keyframe and the first. -/
def valueAt (track : Track) (moment : Moment) (default : Value) : Except Fault Value :=
  match track.keyframes, track.keyframes.getLast? with
  | first :: _, some last =>
    if moment.isUpTo first.frame then .ok first.value
    else if moment.isFrom last.frame then .ok last.value
    else
      let count := countBefore track.keyframes moment
      let before := if count = 0 then some last else track.keyframes[count - 1]?
      match before, track.keyframes[count]? with
      | some before, some after => blendAt before after moment
      | _, _ => .ok last.value
  | _, _ => .ok default

/-- The whole frames from the first keyframe to the last. -/
def wholeFrames (track : Track) : Except FramesError (List Moment) :=
  match track.keyframes, track.keyframes.getLast? with
  | first :: _, some last => do
    let low ← (Number.floor first.frame).mapError .arithmetic
    let high ← (Number.ceil last.frame).mapError .arithmetic
    Moment.between low high
  | _, _ => .ok []

/-- The values at some moments, as a column of a table. -/
def sample (track : Track) (moments : List Moment) : Except Fault (List Value) := do
  let values ← moments.mapM fun moment => track.valueAt moment .nothing
  return Value.column values

end Track

/-- Several tracks. -/
structure Animation where
  /-- The tracks in order. -/
  tracks : List Track

namespace Animation

/-- Give a name something: a known name keeps its place, a new one comes last. -/
def put {α : Type} (name : String) (value : α) : List (String × α) → List (String × α)
  | [] => [(name, value)]
  | (n, v) :: rest => if n = name then (name, value) :: rest else (n, v) :: put name value rest

/-- What each track gives by its name; of tracks of one name the last counts. -/
def byName {α : Type} (animation : Animation) (value : Track → Except Fault α) :
    Except Fault (List (String × α)) :=
  animation.tracks.foldlM
    (fun found track => (value track).map fun v => put track.name v found) []

/-- The values of all tracks at a moment. -/
def valuesAt (animation : Animation) (moment : Moment) :
    Except Fault (List (String × Value)) :=
  animation.byName fun track => track.valueAt moment .nothing

/-- The values of all tracks at some moments, a column for each. -/
def table (animation : Animation) (moments : List Moment) :
    Except Fault (List (String × List Value)) :=
  animation.byName fun track => track.sample moments

/-- The last frame above zero of any keyframe; zero if there is none. -/
def duration (animation : Animation) : Float :=
  let frames := (animation.tracks.flatMap (·.keyframes)).map (·.frame)
  match frames.filter fun frame => 0.0 < frame with
  | [] => 0.0
  | first :: rest => Number.largest first rest

end Animation

/-- Why a keyframe cannot be added. -/
inductive DraftError where
  /-- There is no track to add it to. -/
  | noTrack
  /-- Its easing has a name that means none. -/
  | unknownEasing (name : String)

namespace DraftError

/-- The wording of an error. -/
def message : DraftError → String
  | .noTrack => "Must call property() before keyframe()"
  | .unknownEasing name => Easing.unknownMessage name

end DraftError

/-- Tracks that are still being written. -/
structure Draft where
  /-- The names with their keyframes as given, the last track first. -/
  tracks : List (String × List Keyframe) := []

namespace Draft

/-- Begin a track. -/
def track (draft : Draft) (name : String) : Draft := ⟨(name, []) :: draft.tracks⟩

/-- Add a keyframe to the track begun last. -/
def keyframe (draft : Draft) (frame : Float) (value : Value) (choice : Option EasingChoice) :
    Except DraftError Draft :=
  match draft.tracks with
  | [] => .error .noTrack
  | (name, keyframes) :: rest =>
    match Keyframe.make frame value choice with
    | .ok added => .ok ⟨(name, keyframes ++ [added]) :: rest⟩
    | .error unknown => .error (.unknownEasing unknown)

/-- The tracks written so far. -/
def build (draft : Draft) : Animation :=
  ⟨draft.tracks.reverse.map fun (name, keyframes) => Track.ofKeyframes name keyframes⟩

end Draft
end Storyboard
