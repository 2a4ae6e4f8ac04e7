import Storyboard.Timeline.Basic
import Storyboard.Json.Writer
/-!
# Timelines as plain data

The plain form of a timeline holds every field in a fixed order; `Timeline.document` is its
text, which not every timeline has: properties may hold values within one another to any depth,
and texts halves of surrogate pairs, which are not written.
-/
namespace Storyboard

namespace SegmentWindow

/-- A part of a cue as plain data. -/
def plain (segment : SegmentWindow) : Json :=
  .obj [("kind", .str (if segment.text.isSome then "text" else "pause")),
    ("start_sec", .float segment.start), ("end_sec", .float segment.finish),
    ("text", Json.ofText? segment.text)]

end SegmentWindow

namespace CueWindow

/-- A cue as plain data. -/
def plain (cue : CueWindow) : Json :=
  .obj [("id", .str cue.id), ("scene_id", .str cue.sceneId), ("start_sec", .float cue.start),
    ("end_sec", .float cue.finish), ("text", Json.ofText? cue.text),
    ("segments", Json.ofList SegmentWindow.plain cue.segments),
    ("bullets", Json.ofList .str cue.bullets)]

end CueWindow

namespace SceneWindow

/-- A scene as plain data. -/
def plain (scene : SceneWindow) : Json :=
  .obj [("id", .str scene.id), ("title", Json.ofText? scene.title),
    ("start_sec", .float scene.start), ("end_sec", .float scene.finish),
    ("cues", Json.ofList CueWindow.plain scene.cues)]

end SceneWindow

namespace Silence

/-- A window of silence as plain data; the lead-in is the one that belongs to no scene. -/
def plain (silence : Silence) : Json :=
  .obj [("kind", .str (if silence.sceneId.isSome then "pause" else "lead_in")),
    ("scene_id", Json.ofText? silence.sceneId), ("start_sec", .float silence.start),
    ("end_sec", .float silence.finish), ("seconds", .float silence.seconds)]

end Silence

namespace Entry

/-- An entry as plain data. -/
def plain (entry : Entry) : Json :=
  .obj [("kind", .str entry.kind.label), ("id", .str entry.id),
    ("start_sec", .float entry.start), ("end_sec", .float entry.finish),
    ("from_scene_id", Json.ofText? entry.fromScene),
    ("to_scene_id", Json.ofText? entry.toScene), ("effect", Json.ofText? entry.effect),
    ("ease", Json.ofText? entry.ease),
    ("mode", Json.ofText? (entry.mode.map TransitionMode.label)), ("props", .obj entry.props)]

end Entry

/-- Why a timeline has no document. -/
inductive DocumentError where
  /-- The number of spaces fits no word. -/
  | indentOutOfRange
  /-- The values of a property lie too deep within one another. -/
  | tooDeep
  /-- A text holds half of a surrogate pair. -/
  | brokenText
  deriving DecidableEq, Repr

namespace Timeline

/-- A timeline as plain data. -/
def plain (timeline : Timeline) : Json :=
  .obj [("composition_id", .str timeline.id), ("fps", .float timeline.fps),
    ("width", .int timeline.width), ("height", .int timeline.height),
    ("duration_sec", .float timeline.duration),
    ("poster_time_sec", Json.ofOption .float timeline.poster),
    ("entries", Json.ofList Entry.plain timeline.entries),
    ("scenes", Json.ofList SceneWindow.plain timeline.scenes),
    ("pauses", Json.ofList Silence.plain timeline.pauses)]

/-- A timeline as text. -/
def document (timeline : Timeline) (indent : Option Nat) : String :=
  Json.document indent timeline.plain

/-- The most levels of values in a property of an entry. -/
def mostLevels : Nat := 255

/-- The document with a number of spaces for each level as asked for. -/
def documentAsked (timeline : Timeline) (indent : Option Int) : Except DocumentError String :=
  if indent.any fun width => !Number.fitsUnsignedWord width then .error .indentOutOfRange
  else if timeline.entries.any fun entry => mostLevels < Json.levelsOfFields entry.props then
    .error .tooDeep
  else if !timeline.plain.isWhole then .error .brokenText
  else .ok (timeline.document (indent.map Int.toNat))

end Timeline
end Storyboard
