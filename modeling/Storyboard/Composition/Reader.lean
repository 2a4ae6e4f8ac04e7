import Storyboard.Composition.Basic
import Storyboard.Schema.Checked
/-!
# Compositions from plain data

One reader for each part of a composition. A field that is left out takes its default, and the
fields that nothing asks for are refused. `Composition.read` reads a whole composition.
-/
namespace Storyboard

open Schema (Checked Reader)

namespace TimeValue

/-- Read a position: a text is an expression, a number or a truth value is seconds. -/
def read : Reader TimeValue
  | .str text => .valid (.expression text)
  | value =>
    Reader.either "float" (fun value => (Reader.float value).map .seconds) "str"
      (fun value => (Reader.string value).map .expression) value

end TimeValue

/-- Read a field that can hold one name only. -/
def Schema.Reader.constant (given : Fields) (key name : String) : Checked Unit :=
  Reader.defaulted given key () (Reader.oneOf .literalError [(name, ())])

namespace Pause

/-- A pause of a fixed length. -/
def readFixed : Reader Pause :=
  Reader.model ["kind", "mode", "seconds"] fun given =>
    (fun _ _ seconds => Pause.fixed seconds) <$> Reader.constant given "kind" "pause" <*>
      Reader.constant given "mode" "fixed" <*> Reader.required given "seconds" Reader.float

/-- A sampled pause. -/
def readGaussian : Reader Pause :=
  Reader.model ["kind", "mode", "mean", "std", "min", "max"] fun given =>
    (fun _ _ mean std min max => Pause.gaussian mean std min max) <$>
      Reader.constant given "kind" "pause" <*> Reader.constant given "mode" "gaussian" <*>
      Reader.required given "mean" Reader.float <*>
      Reader.required given "std" Reader.nonNegative <*>
      Reader.optional given "min" Reader.float <*> Reader.optional given "max" Reader.float

/-- Read a pause, whose mode tells its kind. -/
def read : Reader Pause :=
  Reader.tagged "mode" [("fixed", readFixed), ("gaussian", readGaussian)]

/-- A number that has to be there. -/
def requiredNumber : Option Float → Checked Float
  | some x => .valid x
  | none => .fail .floatType

/-- The pause that numbers stand for: with a deviation, which may not be negative, it is sampled
and the first number is its mean, and without one that is its length. -/
def ofNumbers (first std min max : Option Float) : Checked Pause :=
  match std with
  | none => ((requiredNumber first).within "seconds").map .fixed
  | some std =>
    (fun mean std => Pause.gaussian mean std min max) <$>
      (requiredNumber first).within "mean" <*> (Reader.nonNegative (.float std)).within "std"

end Pause

namespace PauseSetting

/-- Read seconds, or a pause. -/
def read : Reader PauseSetting :=
  Reader.either "float" (fun value => (Reader.float value).map .seconds)
    "tagged-union[FixedPause,GaussianPause]" fun value => (Pause.read value).map .pause

end PauseSetting

namespace TimeRange

/-- Read a timing. -/
def read : Reader TimeRange :=
  Reader.model ["start", "end", "duration", "start_is_relative", "end_is_relative"] fun given =>
    TimeRange.mk <$> Reader.optional given "start" TimeValue.read <*>
      Reader.optional given "end" TimeValue.read <*>
      Reader.optional given "duration" TimeValue.read <*>
      Reader.defaulted given "start_is_relative" false Reader.bool <*>
      Reader.defaulted given "end_is_relative" false Reader.bool

end TimeRange

namespace Segment

/-- Read spoken text. -/
def readText : Reader Segment :=
  Reader.model ["kind", "text", "duration_sec", "trim_end_sec"] fun given =>
    (fun _ text duration trim => Segment.text ⟨text, duration, trim⟩) <$>
      Reader.constant given "kind" "text" <*> Reader.required given "text" Reader.string <*>
      Reader.optional given "duration_sec" Reader.nonNegative <*>
      Reader.defaulted given "trim_end_sec" 0.0 Reader.nonNegative

/-- Read a part of a cue. -/
def read : Reader Segment :=
  Reader.tagged "kind"
    [("text", readText), ("pause", fun value => (Pause.read value).map .pause)]

end Segment

namespace Cue

/-- Read a cue. -/
def read : Reader Cue :=
  Reader.model ["kind", "id", "text", "duration", "time", "segments", "bullets", "markup"]
    fun given =>
      (fun _ => Cue.mk) <$> Reader.constant given "kind" "cue" <*>
        Reader.required given "id" Reader.string <*>
        Reader.optional given "text" Reader.string <*>
        Reader.optional given "duration" TimeValue.read <*>
        Reader.optional given "time" TimeRange.read <*>
        Reader.defaulted given "segments" [] (Reader.list Segment.read) <*>
        Reader.defaulted given "bullets" [] (Reader.list Reader.string) <*>
        Reader.defaulted given "markup" [] Reader.fields

end Cue

namespace SceneItem

/-- Read a part of a scene. -/
def read : Reader SceneItem :=
  Reader.tagged "kind"
    [("cue", fun value => (Cue.read value).map .cue),
      ("pause", fun value => (Pause.read value).map .pause)]

end SceneItem

namespace Handover

/-- Read a transition in short form. -/
def read : Reader Handover :=
  Reader.model ["effect", "duration", "ease", "props"] fun given =>
    Handover.mk <$> Reader.defaulted given "effect" "fade" Reader.string <*>
      Reader.optional given "duration" TimeValue.read <*>
      Reader.optional given "ease" Reader.string <*>
      Reader.defaulted given "props" [] Reader.fields

end Handover

namespace Scene

/-- Read a scene. -/
def read : Reader Scene :=
  Reader.model ["kind", "id", "title", "time", "items", "transition_to_next", "markup"]
    fun given =>
      (fun _ => Scene.mk) <$> Reader.constant given "kind" "scene" <*>
        Reader.required given "id" Reader.string <*>
        Reader.optional given "title" Reader.string <*>
        Reader.optional given "time" TimeRange.read <*>
        Reader.defaulted given "items" [] (Reader.list SceneItem.read) <*>
        Reader.optional given "transition_to_next" Handover.read <*>
        Reader.defaulted given "markup" [] Reader.fields

end Scene

namespace TransitionMode

/-- Read a mode by its name. -/
def read : Reader TransitionMode :=
  Reader.oneOf .enumeration [("overlap", .overlap), ("insert", .insert)]

end TransitionMode

namespace Transition

/-- Read a transition. -/
def read : Reader Transition :=
  Reader.model ["kind", "id", "effect", "time", "duration", "ease", "props", "mode"]
    fun given =>
      (fun _ => Transition.mk) <$> Reader.constant given "kind" "transition" <*>
        Reader.required given "id" Reader.string <*>
        Reader.defaulted given "effect" "fade" Reader.string <*>
        Reader.optional given "time" TimeRange.read <*>
        Reader.optional given "duration" TimeValue.read <*>
        Reader.optional given "ease" Reader.string <*>
        Reader.defaulted given "props" [] Reader.fields <*>
        Reader.optional given "mode" TransitionMode.read

end Transition

namespace Mark

/-- Read a mark. -/
def read : Reader Mark :=
  Reader.model ["kind", "id", "at"] fun given =>
    (fun _ => Mark.mk) <$> Reader.constant given "kind" "mark" <*>
      Reader.required given "id" Reader.string <*>
      Reader.required given "at" TimeValue.read

end Mark

namespace Item

/-- Read an entity of the timeline. -/
def read : Reader Item :=
  Reader.tagged "kind"
    [("scene", fun value => (Scene.read value).map .scene),
      ("transition", fun value => (Transition.read value).map .transition),
      ("mark", fun value => (Mark.read value).map .mark)]

end Item

namespace Voiceover

/-- Read the narration settings. -/
def read : Reader Voiceover :=
  Reader.model ["seed", "lead_in_seconds", "pause_between_items", "words_per_minute"]
    fun given =>
      Voiceover.mk <$> Reader.optional given "seed" Reader.int <*>
        Reader.defaulted given "lead_in_seconds" 0.0 Reader.nonNegative <*>
        Reader.optional given "pause_between_items" PauseSetting.read <*>
        Reader.defaulted given "words_per_minute" Defaults.wordsPerMinute Reader.positive

end Voiceover

namespace Composition

/-- Read a composition. -/
def read : Reader Composition :=
  Reader.model
    ["id", "title", "fps", "width", "height", "duration", "poster", "voiceover", "timeline"]
    fun given =>
      Composition.mk <$> Reader.defaulted given "id" "composition" Reader.string <*>
        Reader.optional given "title" Reader.string <*>
        Reader.defaulted given "fps" Defaults.fps Reader.positive <*>
        Reader.defaulted given "width" Defaults.width Reader.positiveInt <*>
        Reader.defaulted given "height" Defaults.height Reader.positiveInt <*>
        Reader.optional given "duration" TimeValue.read <*>
        Reader.optional given "poster" TimeValue.read <*>
        Reader.defaulted given "voiceover" {} Voiceover.read <*>
        Reader.defaulted given "timeline" [] (Reader.list Item.read)

end Composition
end Storyboard
