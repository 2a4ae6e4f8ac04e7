import Storyboard.Timeline.Draw
import Storyboard.Timeline.Error
import Storyboard.Timeline.Expand
import Storyboard.Text.Blank
/-!
# Plans

A plan is a composition made ready to be placed: its entities with all transitions written out,
their names checked to differ, the seed of its pauses, and a way to estimate how long a text
takes to speak.
-/
namespace Storyboard

/-- How long spoken texts take. -/
structure Narration where
  /-- Words in a minute. -/
  wordsPerMinute : Float := Defaults.wordsPerMinute

namespace Narration

/-- How long a text takes: its words at the set speed, but not less than the least time. -/
def estimate (narration : Narration) (text : String) : Except Fault Float :=
  match (Text.words text.toList).length with
  | 0 => .ok 0.0
  | count + 1 =>
    (Number.divide (Number.ofNat (count + 1)) narration.wordsPerMinute).map fun minutes =>
      Number.larger Defaults.leastSpokenSeconds (minutes * 60.0)

/-- How long a text takes at a speed that is not zero. -/
def seconds (narration : Narration) (text : String) : Float :=
  match narration.estimate text with
  | .ok value => value
  | .error _ => 0.0

end Narration

/-- A composition made ready to be placed. -/
structure Plan where
  /-- The composition. -/
  composition : Composition
  /-- Its entities with all transitions written out. -/
  items : List Item
  /-- The seed of its pauses. -/
  seed : Option Int
  /-- How long a text takes to speak, in seconds. -/
  estimate : String → Float

namespace Item

/-- The names that an entity claims, each with the kind of what claims it. -/
def claims (item : Item) : List (String × String) :=
  (item.id, item.kind.label) ::
    match item with
    | .scene s => s.cues.map fun cue => (cue.id, "cue")
    | _ => []

end Item

namespace Plan

/-- The first name that is claimed twice, with the kinds of both claims. -/
def firstDuplicate (seen : List (String × String)) :
    List (String × String) → Option (String × String × String)
  | [] => none
  | (id, kind) :: rest =>
    match seen.lookup id with
    | some first => some (id, first, kind)
    | none => firstDuplicate (seen ++ [(id, kind)]) rest

/-- Whether an entity is a scene with an authored timing. -/
def isTimedScene : Item → Bool
  | .scene s => s.time.any fun time => !time.isEmpty
  | _ => false

/-- Make a composition ready. A seed given here wins over that of the composition, and so does
an estimate. -/
def ofComposition (composition : Composition) (seed : Option Int)
    (estimate : Option (String → Float)) : Except ResolveError Plan :=
  let items := Item.expand composition.timeline
  match firstDuplicate [] (items.flatMap Item.claims) with
  | some (id, first, second) => .error (.compile (.duplicateId id first second))
  | none =>
    if !(composition.voiceover.leadInSeconds ≤ 0.0) && items.any isTimedScene then
      .error (.compile .leadInWithTimes)
    else
      .ok {
        composition
        items
        seed := seed <|> composition.voiceover.seed
        estimate := estimate.getD (Narration.mk composition.voiceover.wordsPerMinute).seconds }

/-- The silence before everything. -/
def leadIn (plan : Plan) : Float := plan.composition.voiceover.leadInSeconds

/-- Frames in a second. -/
def fps (plan : Plan) : Float := plan.composition.fps

/-- The generator that the pauses are drawn from. Without a seed any sequence of draws will do;
it is that of the seed zero. -/
def generator (plan : Plan) : Mulberry := Mulberry.ofSeed (plan.seed.getD 0)

/-- The pause between the parts of every scene, if one is set. -/
def between (plan : Plan) : Option Pause :=
  plan.composition.voiceover.pauseBetweenItems.map PauseSetting.toPause

/-- The parts of all entities with what is drawn for them. -/
def drawn (plan : Plan) : List (List DrawnItem) :=
  (Item.draw plan.between plan.generator plan.items).1

/-- The entities before a place with their places, the nearest first. -/
def before (plan : Plan) (index : Nat) : List (Item × Nat) :=
  (plan.items.zipIdx.take index).reverse

/-- The entities after a place with their places, the nearest first. -/
def after (plan : Plan) (index : Nat) : List (Item × Nat) :=
  plan.items.zipIdx.drop (index + 1)

/-- The first scene of a list of entities, with its place. -/
def firstScene? (items : List (Item × Nat)) : Option (Scene × Nat) :=
  items.findSome? fun (item, index) => item.scene?.map fun s => (s, index)

/-- The nearest scene before a place. -/
def prevScene? (plan : Plan) (index : Nat) : Option (Scene × Nat) :=
  firstScene? (plan.before index)

/-- The nearest scene after a place. -/
def nextScene? (plan : Plan) (index : Nat) : Option (Scene × Nat) :=
  firstScene? (plan.after index)

/-- How the transition at a place claims time: as authored, and else by overlap exactly when it
stands between two scenes. -/
def mode (plan : Plan) (index : Nat) (t : Transition) : TransitionMode :=
  match t.mode with
  | some mode => mode
  | none =>
    if (plan.prevScene? index).isSome && (plan.nextScene? index).isSome then .overlap
    else .insert

end Plan
end Storyboard
