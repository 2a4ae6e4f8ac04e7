import Storyboard.Effect.Basic
import Storyboard.Timeline.Plain
/-!
# Effects of timeline entries

A transition of a timeline names its effect and brings the settings of it; its length gives the
effect its frames. `Entry.read` reads a row of a timeline from plain data.
-/
namespace Storyboard

open Schema (Checked Reader)

namespace EntryKind

/-- Read a kind by its name. -/
def read : Reader EntryKind :=
  Reader.oneOf .enumeration
    [("scene", .scene), ("transition", .transition), ("mark", .mark)]

end EntryKind

/-- Why an entry has no effect. -/
inductive EntryError where
  /-- It is no transition. -/
  | notTransition (id : String) (kind : EntryKind)
  /-- Its length in frames has no value. -/
  | arithmetic (fault : Fault)
  /-- Its effect or the settings of it are wrong. -/
  | invalid (issues : List Schema.Issue)

namespace EntryError

/-- The wording of an error; some faults of arithmetic have none. -/
def message : EntryError → Option String
  | .notTransition id kind =>
    some ("Timeline entry \"" ++ id ++ "\" is a " ++ kind.label ++ ", not a transition")
  | .arithmetic fault => fault.message
  | .invalid issues => some (Schema.report issues)

end EntryError

namespace Entry

/-- Read a row of a timeline; fields that nothing asks for are passed over. -/
def read : Reader Entry
  | .obj given =>
    Entry.mk <$> Reader.required given "kind" EntryKind.read <*>
      Reader.required given "id" Reader.string <*>
      Reader.required given "start_sec" Reader.float <*>
      Reader.required given "end_sec" Reader.float <*>
      Reader.optional given "from_scene_id" Reader.string <*>
      Reader.optional given "to_scene_id" Reader.string <*>
      Reader.optional given "effect" Reader.string <*>
      Reader.optional given "ease" Reader.string <*>
      Reader.optional given "mode" TransitionMode.read <*>
      Reader.defaulted given "props" [] Reader.fields
  | _ => .fail .modelType

/-- The settings of the effect of a transition that takes a number of frames. -/
def effectFields (entry : Entry) (frames : Int) : Fields :=
  let fields := (entry.props.put "type" (Json.ofText? entry.effect)).put "duration_frames"
    (.int frames)
  match entry.ease with
  | none => fields
  | some ease => fields.put "easing" (.str ease)

/-- The effect of a transition at a number of frames in a second. -/
def effect? (entry : Entry) (fps : Float) : Except EntryError Effect :=
  if entry.kind ≠ .transition then .error (.notTransition entry.id entry.kind)
  else
    match Number.framesBetween entry.start entry.finish fps with
    | .error fault => .error (.arithmetic fault)
    | .ok frames =>
      match Effect.read (.obj (entry.effectFields frames)) with
      | .valid effect => .ok effect
      | .invalid issues => .error (.invalid issues)

end Entry
end Storyboard
