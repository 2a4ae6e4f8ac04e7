import Storyboard.Timeline.Plan
/-!
# Why a resolution is stuck

When a pass places nothing, each entity left waits for one anchor, and that anchor belongs to at
most one entity. Following these edges from an entity either comes back to one already passed,
which is a loop, or leaves the entities left, and then the anchor there belongs to nothing.
`Plan.diagnose` reports the first loop, and else the first anchor without an owner among the
entities left.
-/
namespace Storyboard

/-- The entities left, each with the anchor it waits for. -/
abbrev Waiting := List (Nat × Anchor)

namespace Plan

/-- The index of the first entity that satisfies a test. -/
def indexOf? (plan : Plan) (test : Item → Bool) : Option Nat := plan.items.findIdx? test

/-- Whether an entity is the scene of a name. -/
def isScene (id : String) : Item → Bool
  | .scene s => s.id == id
  | _ => false

/-- Whether an entity is a scene that holds the cue of a name. -/
def holdsCue (id : String) : Item → Bool
  | .scene s => s.cues.any (·.id == id)
  | _ => false

/-- Whether an entity is the transition of a name. -/
def isTransition (id : String) : Item → Bool
  | .transition t => t.id == id
  | _ => false

/-- Whether an entity is the mark of a name. -/
def isMark (id : String) : Item → Bool
  | .mark m => m.id == id
  | _ => false

/-- The index of the entity whose placement gives an anchor its position, for a reader at an
index. -/
def owner? (plan : Plan) (anchor : Anchor) (index : Nat) : Option Nat :=
  match anchor.kind with
  | .sceneStart => anchor.ref.bind fun ref => plan.indexOf? (isScene ref)
  | .sceneEnd => anchor.ref.bind fun ref => plan.indexOf? (isScene ref)
  | .cueStart => anchor.ref.bind fun ref => plan.indexOf? (holdsCue ref)
  | .markStart => anchor.ref.bind fun ref => plan.indexOf? (isMark ref)
  | .transition => anchor.ref.bind fun ref => plan.indexOf? (isTransition ref)
  | .prevStart => if 0 < index then some (index - 1) else none
  | .prevEnd => if 0 < index then some (index - 1) else none
  | .nextStart => if index + 1 < plan.items.length then some (index + 1) else none
  | .timelineStart => none

/-- Follow the edges from an entity, given those not passed yet and the path behind. The loop
that is found ends in the entity it begins with. -/
def follow? (plan : Plan) (ahead : Waiting) (path : List Nat) (node : Nat) :
    Option (List Nat) :=
  match _found : ahead.find? (·.1 == node) with
  | some (_, anchor) =>
    match plan.owner? anchor node with
    | some next => plan.follow? (ahead.eraseP (·.1 == node)) (path ++ [node]) next
    | none => none
  | none => if path.contains node then some (path.dropWhile (· != node) ++ [node]) else none
termination_by ahead.length
decreasing_by
  have held := List.mem_of_find?_eq_some _found
  have fits := List.find?_some _found
  rw [List.length_eraseP_of_mem held fits]
  have := List.length_pos_of_mem held
  omega

/-- The name of the entity at an index. -/
def nameAt (plan : Plan) (index : Nat) : String :=
  match plan.items[index]? with
  | some item => item.id
  | none => ""

/-- Whether the anchor that an entity waits for belongs to none of the entities left. -/
def isUnowned (plan : Plan) (waiting : Waiting) (edge : Nat × Anchor) : Bool :=
  match plan.owner? edge.2 edge.1 with
  | some index => !waiting.any (·.1 == index)
  | none => true

/-- The first loop that a walk from one of the entities left comes to. -/
def firstLoop? (plan : Plan) (waiting : Waiting) : Option (List Nat) :=
  waiting.findSome? fun (index, _) => plan.follow? waiting [] index

/-- Why the entities left cannot be placed. -/
def diagnose (plan : Plan) (waiting : Waiting) : ResolveError :=
  match plan.firstLoop? waiting with
  | some cycle => .circular (cycle.map plan.nameAt)
  | none =>
    match waiting.find? (plan.isUnowned waiting) <|> waiting.head? with
    | some (index, anchor) => .unresolved (plan.nameAt index) anchor
    | none => .compile .notConverged

end Plan
end Storyboard
