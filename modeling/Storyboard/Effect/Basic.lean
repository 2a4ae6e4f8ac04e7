import Storyboard.Composition.Reader
import Storyboard.Easing.Basic
import Storyboard.Motion.Spring
/-!
# Effects

An effect is how something enters or leaves, frame by frame: a fade, a slide, a push, a change
of scale, a wipe, typing, or a spring. `Effect.read` reads one from plain data, and
`Effect.plain` writes it.
-/
namespace Storyboard

/-- The side from which something enters. -/
inductive Side where
  /-- From the left. -/
  | left
  /-- From the right. -/
  | right
  /-- Upwards. -/
  | up
  /-- Downwards. -/
  | down
  deriving DecidableEq, Repr

namespace Side

/-- The sides by name. -/
def named : List (String × Side) :=
  [("left", .left), ("right", .right), ("up", .up), ("down", .down)]

/-- The name of a side. -/
def label : Side → String
  | .left => "left"
  | .right => "right"
  | .up => "up"
  | .down => "down"

/-- Whether a side lies along the width. -/
def isHorizontal : Side → Bool
  | .left => true
  | .right => true
  | .up => false
  | .down => false

end Side

/-- The point that a change of scale leaves in place, by name and as a style. -/
structure Origin where
  /-- The name. -/
  name : String
  /-- The style. -/
  style : String

namespace Origin

/-- All origins. -/
def all : List Origin :=
  [⟨"center", "center center"⟩, ⟨"top-left", "top left"⟩, ⟨"top-right", "top right"⟩,
    ⟨"bottom-left", "bottom left"⟩, ⟨"bottom-right", "bottom right"⟩, ⟨"top", "top center"⟩,
    ⟨"bottom", "bottom center"⟩, ⟨"left", "center left"⟩, ⟨"right", "center right"⟩]

/-- The origin in the middle. -/
def center : Origin := ⟨"center", "center center"⟩

end Origin

/-- What changes from frame to frame. -/
inductive EffectKind where
  /-- Opacity, from one value to another. -/
  | fade (start finish : Float)
  /-- Position, over a distance in pixels from a side. -/
  | slide (side : Side) (distance : Float)
  /-- Position, over the whole viewport from a side. -/
  | push (side : Side)
  /-- Size, from one scale to another. -/
  | scale (start finish : Float) (origin : Origin)
  /-- The part that is shown, from a side. -/
  | wipe (side : Side)
  /-- The part of a text that is shown, with a cursor that may blink. -/
  | typewriter (cursor : Bool) (blinkFrames : Int) (charsPerFrame : Float)
  /-- Opacity and position, on a spring. -/
  | spring (mass stiffness damping : Float)

/-- How something enters or leaves. -/
structure Effect where
  /-- How many frames it takes. -/
  duration : Float
  /-- How many frames it waits. -/
  delay : Float := 0.0
  /-- The easing of its progress, if one is chosen. -/
  easing : Option EasingChoice := none
  /-- What changes. -/
  kind : EffectKind

namespace Effect

open Schema (Checked Reader)

/-- The fields of every effect. -/
def commonFields : List String := ["duration_frames", "delay_frames", "easing", "type"]

/-- Read an easing by name; plain data hold no easing as such. -/
def readEasing : Reader EasingChoice := fun value =>
  Reader.either "str" (fun value => (Reader.string value).map .named) "callable"
    (fun _ => Checked.fail .callableType) value

/-- An effect of a name, given the fields of its own and how they are read. -/
def reader (name : String) (fields : Fields → List String)
    (kind : Fields → Checked EffectKind) : String × Reader Effect :=
  (name, Reader.modelKnowing (fun given => commonFields ++ fields given) fun given =>
    (fun duration delay easing _ kind => Effect.mk duration delay easing kind) <$>
      Reader.required given "duration_frames" Reader.nonNegative <*>
      Reader.defaulted given "delay_frames" 0.0 Reader.float <*>
      Reader.optional given "easing" readEasing <*>
      Reader.constant given "type" name <*> kind given)

/-- Read a field with two names; the short one is looked at first, and the other one is then a
field that nothing asks for. -/
def aliased (given : Fields) (short long : String) (default : Float) : Checked Float :=
  match given.lookup short with
  | some value => (Reader.float value).within short
  | none => Reader.defaulted given long default Reader.float

/-- The name under which a field with two names is given. -/
def givenName (given : Fields) (short long : String) : String :=
  match given.lookup short with
  | some _ => short
  | none => long

/-- Read a side. -/
def readSide (given : Fields) (default : Side) : Checked Side :=
  Reader.defaulted given "direction" default (Reader.oneOf .literalError Side.named)

/-- The origins by name. -/
def originsByName : List (String × Origin) := Origin.all.map fun origin => (origin.name, origin)

/-- The names of the fields of an effect that goes from one value to another. -/
def spanFields (given : Fields) : List String :=
  [givenName given "from" "from_value", givenName given "to" "to_value"]

/-- Read the ends of an effect that goes from one value to another. -/
def readSpan {α : Type} (given : Fields) (make : Float → Float → α) : Checked α :=
  make <$> aliased given "from" "from_value" 0.0 <*> aliased given "to" "to_value" 1.0

/-- The effects by name. -/
def readers : List (String × Reader Effect) :=
  [reader "fade" spanFields fun given => readSpan given EffectKind.fade,
    reader "slide" (fun _ => ["direction", "distance"]) fun given =>
      EffectKind.slide <$> readSide given .up <*>
        Reader.defaulted given "distance" Defaults.slideDistance Reader.float,
    reader "push" (fun _ => ["direction"]) fun given => EffectKind.push <$> readSide given .left,
    reader "scale" (fun given => spanFields given ++ ["origin"]) fun given =>
      readSpan given EffectKind.scale <*>
        Reader.defaulted given "origin" Origin.center (Reader.oneOf .literalError originsByName),
    reader "wipe" (fun _ => ["direction"]) fun given => EffectKind.wipe <$> readSide given .left,
    reader "typewriter" (fun _ => ["cursor", "cursor_blink_frames", "chars_per_frame"])
      fun given =>
        EffectKind.typewriter <$> Reader.defaulted given "cursor" true Reader.bool <*>
          Reader.defaulted given "cursor_blink_frames" Defaults.blinkFrames Reader.positiveInt <*>
          Reader.defaulted given "chars_per_frame" Defaults.charsPerFrame Reader.nonNegative,
    reader "spring" (fun _ => ["mass", "stiffness", "damping"]) fun given =>
      EffectKind.spring <$> Reader.defaulted given "mass" Defaults.springMass Reader.float <*>
        Reader.defaulted given "stiffness" Defaults.springStiffness Reader.float <*>
        Reader.defaulted given "damping" Defaults.springDamping Reader.float]

/-- Read an effect, whose type tells its kind. -/
def read : Reader Effect := Reader.tagged "type" readers

/-- The kinds of effects by name, with what they are called on screen. -/
def labels : List (String × String) :=
  [("fade", "Fade"), ("slide", "Slide"), ("push", "Push"), ("scale", "Scale"), ("wipe", "Wipe"),
    ("typewriter", "Typewriter"), ("spring", "Spring")]

/-- The name of a kind of effect. -/
def typeName : EffectKind → String
  | .fade _ _ => "fade"
  | .slide _ _ => "slide"
  | .push _ => "push"
  | .scale _ _ _ => "scale"
  | .wipe _ => "wipe"
  | .typewriter _ _ _ => "typewriter"
  | .spring _ _ _ => "spring"

/-- The fields of its own of a kind of effect. -/
def kindFields : EffectKind → Fields
  | .fade start finish => [("from_value", .float start), ("to_value", .float finish)]
  | .slide side distance => [("direction", .str side.label), ("distance", .float distance)]
  | .push side => [("direction", .str side.label)]
  | .scale start finish origin =>
    [("from_value", .float start), ("to_value", .float finish), ("origin", .str origin.name)]
  | .wipe side => [("direction", .str side.label)]
  | .typewriter cursor blinkFrames charsPerFrame =>
    [("cursor", .bool cursor), ("cursor_blink_frames", .int blinkFrames),
      ("chars_per_frame", .float charsPerFrame)]
  | .spring mass stiffness damping =>
    [("mass", .float mass), ("stiffness", .float stiffness), ("damping", .float damping)]

/-- A chosen easing as plain data; an easing as such is shown, but cannot be read. -/
def plainEasing : EasingChoice → Json
  | .named name => .str name
  | .custom _ => .str "<callable>"

/-- An effect as plain data. -/
def plain (effect : Effect) : Json :=
  .obj ([("duration_frames", .float effect.duration), ("delay_frames", .float effect.delay),
    ("easing", Json.ofOption plainEasing effect.easing),
    ("type", .str (typeName effect.kind))] ++ kindFields effect.kind)

/-- The same effect with its fade or scale going from one value to another. -/
def withSpan (effect : Effect) (start finish : Float) : Effect :=
  match effect.kind with
  | .fade _ _ => { effect with kind := .fade start finish }
  | .scale _ _ origin => { effect with kind := .scale start finish origin }
  | _ => effect

/-- The same effect on the way in. -/
def entrance (effect : Effect) : Effect := effect.withSpan 0.0 1.0

/-- The same effect on the way out. -/
def exit (effect : Effect) : Effect := effect.withSpan 1.0 0.0

end Effect
end Storyboard
