import Storyboard.Composition.Basic
/-!
# Transitions in short form

A scene may name the transition out of it in short form. `expand` puts the transition meant
right behind the scene, unless the author has put a transition there.
-/
namespace Storyboard

namespace Handover

/-- What the name of the transition out of a scene ends in. -/
def suffix : String := "__to_next"

/-- The transition that a short form means, out of the scene of a name. -/
def toTransition (handover : Handover) (sceneId : String) : Transition :=
  { id := sceneId ++ suffix
    effect := handover.effect
    duration := handover.duration
    ease := handover.ease
    props := handover.props }

end Handover

namespace Item

/-- Whether an entity is a transition. -/
def isTransition (item : Item) : Bool := item.transition?.isSome

/-- The transition that stands behind an entity by its short form, given the entity the author
has put there. -/
def handover? (item : Item) (next : Option Item) : Option Item :=
  match item with
  | .scene s =>
    if next.any isTransition then none
    else s.transitionToNext.map fun handover => .transition (handover.toTransition s.id)
  | _ => none

/-- Put the transitions meant by short forms behind their scenes. -/
def expand : List Item → List Item
  | [] => []
  | item :: rest => item :: ((item.handover? rest.head?).toList ++ expand rest)

end Item
end Storyboard
