import Storyboard.Composition.Basic
/-!
# Compositions as plain data

The plain form of a composition holds every field under its authored name, defaults included.
-/
namespace Storyboard

namespace TimeValue

/-- A position as plain data. -/
def plain : TimeValue → Json
  | .seconds value => .float value
  | .expression text => .str text

end TimeValue

/-- A text that may be absent, as plain data. -/
def Json.ofText? (text : Option String) : Json := Json.ofOption .str text

namespace Pause

/-- A pause as plain data. -/
def plain : Pause → Json
  | .fixed seconds =>
    .obj [("kind", .str "pause"), ("mode", .str "fixed"), ("seconds", .float seconds)]
  | .gaussian mean std min max =>
    .obj [("kind", .str "pause"), ("mode", .str "gaussian"), ("mean", .float mean),
      ("std", .float std), ("min", Json.ofOption .float min), ("max", Json.ofOption .float max)]

end Pause

namespace PauseSetting

/-- A pause or its seconds as plain data. -/
def plain : PauseSetting → Json
  | .seconds value => .float value
  | .pause p => p.plain

end PauseSetting

namespace TimeRange

/-- A timing as plain data. -/
def plain (range : TimeRange) : Json :=
  .obj [("start", Json.ofOption TimeValue.plain range.start),
    ("end", Json.ofOption TimeValue.plain range.finish),
    ("duration", Json.ofOption TimeValue.plain range.duration),
    ("start_is_relative", .bool range.startIsRelative),
    ("end_is_relative", .bool range.finishIsRelative)]

end TimeRange

namespace Segment

/-- A part of a cue as plain data. -/
def plain : Segment → Json
  | .text speech =>
    .obj [("kind", .str "text"), ("text", .str speech.text),
      ("duration_sec", Json.ofOption .float speech.durationSec),
      ("trim_end_sec", .float speech.trimEndSec)]
  | .pause p => p.plain

end Segment

namespace SceneItem

/-- A part of a scene as plain data. -/
def plain : SceneItem → Json
  | .cue c =>
    .obj [("kind", .str "cue"), ("id", .str c.id), ("text", Json.ofText? c.text),
      ("duration", Json.ofOption TimeValue.plain c.duration),
      ("time", Json.ofOption TimeRange.plain c.time),
      ("segments", Json.ofList Segment.plain c.segments),
      ("bullets", Json.ofList .str c.bullets), ("markup", .obj c.markup)]
  | .pause p => p.plain

end SceneItem

namespace Handover

/-- A transition in short form as plain data. -/
def plain (handover : Handover) : Json :=
  .obj [("effect", .str handover.effect),
    ("duration", Json.ofOption TimeValue.plain handover.duration),
    ("ease", Json.ofText? handover.ease), ("props", .obj handover.props)]

end Handover

namespace Item

/-- An entity as plain data. -/
def plain : Item → Json
  | .scene s =>
    .obj [("kind", .str "scene"), ("id", .str s.id), ("title", Json.ofText? s.title),
      ("time", Json.ofOption TimeRange.plain s.time),
      ("items", Json.ofList SceneItem.plain s.items),
      ("transition_to_next", Json.ofOption Handover.plain s.transitionToNext),
      ("markup", .obj s.markup)]
  | .transition t =>
    .obj [("kind", .str "transition"), ("id", .str t.id),
      ("effect", .str t.effect),
      ("time", Json.ofOption TimeRange.plain t.time),
      ("duration", Json.ofOption TimeValue.plain t.duration),
      ("ease", Json.ofText? t.ease), ("props", .obj t.props),
      ("mode", Json.ofText? (t.mode.map TransitionMode.label))]
  | .mark m =>
    .obj [("kind", .str "mark"), ("id", .str m.id), ("at", m.position.plain)]

end Item

namespace Voiceover

/-- The narration settings as plain data. -/
def plain (voiceover : Voiceover) : Json :=
  .obj [("seed", Json.ofOption .int voiceover.seed),
    ("lead_in_seconds", .float voiceover.leadInSeconds),
    ("pause_between_items", Json.ofOption PauseSetting.plain voiceover.pauseBetweenItems),
    ("words_per_minute", .float voiceover.wordsPerMinute)]

end Voiceover

namespace Composition

/-- A composition as plain data. -/
def plain (composition : Composition) : Json :=
  .obj [("id", .str composition.id), ("title", Json.ofText? composition.title),
    ("fps", .float composition.fps), ("width", .int composition.width),
    ("height", .int composition.height),
    ("duration", Json.ofOption TimeValue.plain composition.duration),
    ("poster", Json.ofOption TimeValue.plain composition.poster),
    ("voiceover", composition.voiceover.plain),
    ("timeline", Json.ofList Item.plain composition.timeline)]

end Composition
end Storyboard
