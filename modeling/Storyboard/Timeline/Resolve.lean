import Storyboard.Console
import Storyboard.Order.Sort
import Storyboard.Timeline.Place
import Storyboard.Timeline.Stuck
/-!
# Resolution

Entities are placed in passes. A pass tries each entity left, in the order of its authors, and
later entities of the pass see what earlier ones of it have placed. When nothing is left the
authored starts are checked against the cursor and the timeline is written down; when a pass
places nothing, what is stuck is diagnosed.

A `Resolver` holds a plan and what its last run has placed; each run begins with nothing placed.
-/
namespace Storyboard

/-- What a resolution tells of its course. -/
inductive Event where
  /-- A pass ended, with how many entities it placed and how many it left. -/
  | pass (number placed deferred : Nat)
  /-- All is done: the composition, the number of entries and the length in seconds. -/
  | resolved (id : String) (entries : Nat) (duration : Float)
  deriving DecidableEq

namespace Event

/-- How severe an event is. -/
def severity : Event → Severity
  | .pass _ _ _ => .debug
  | .resolved _ _ _ => .info

/-- The wording of an event. -/
def message : Event → String
  | .pass number placed deferred =>
    "Resolution pass " ++ Number.intText number ++ ": placed " ++ Number.intText placed ++
      ", deferred " ++ Number.intText deferred
  | .resolved id entries duration =>
    "Resolved timeline " ++ id ++ ": " ++ Number.intText entries ++ " entries, " ++
      Number.briefText duration ++ "s"

/-- An event as a line of a log. -/
def line (event : Event) : String := event.severity.label ++ ": " ++ event.message

end Event

namespace Plan

/-- Try to place the entity at an index. -/
def place (plan : Plan) (drawn : List (List DrawnItem)) (placed : Placed) (index : Nat) :
    Except Stop Placement :=
  match plan.items[index]? with
  | some item => plan.placeItem placed index (drawn[index]?.getD []) item
  | none => .error (Stop.compile .notConverged)

/-- Try each of some entities once, in order: what is placed then, and those left with what they
wait for, unless one fails for good. -/
def pass (plan : Plan) (drawn : List (List DrawnItem)) :
    Placed → List Nat → Placed × Except ResolveError Waiting
  | placed, [] => (placed, .ok [])
  | placed, index :: rest =>
    match plan.place drawn placed index with
    | .ok placement => plan.pass drawn (placed ++ [(index, placement)]) rest
    | .error (.fails cause) => (placed, .error cause)
    | .error (.waits anchor) =>
      let (placed, outcome) := plan.pass drawn placed rest
      (placed, outcome.map ((index, anchor) :: ·))

/-- Pass over the entities left until none is, `allowed` times at most: what is placed then, what
happened, and whether all is placed. -/
def passes (plan : Plan) (drawn : List (List DrawnItem)) :
    (allowed number : Nat) → Placed → List Nat → Placed × List Event × Except ResolveError Unit
  | _, _, placed, [] => (placed, [], .ok ())
  | 0, _, placed, _ :: _ => (placed, [], .error (.compile .notConverged))
  | allowed + 1, number, placed, index :: rest =>
    match plan.pass drawn placed (index :: rest) with
    | (placed, .error cause) => (placed, [], .error cause)
    | (placed, .ok waiting) =>
      let event := Event.pass number (rest.length + 1 - waiting.length) waiting.length
      if waiting.length = rest.length + 1 then
        (placed, [event], .error (plan.diagnose waiting))
      else
        let (placed, events, outcome) :=
          plan.passes drawn allowed (number + 1) placed (waiting.map (·.1))
        (placed, event :: events, outcome)

/-- How far a scene may start before the cursor. -/
def tolerance : Float := 1e-9

/-- Refuse a scene whose authored start lies before the cursor. -/
def checkStart (plan : Plan) (placed : Placed) (index : Nat) : Except ResolveError Unit :=
  match (placed.lookup index).bind (·.pinned) with
  | none => .ok ()
  | some start =>
    match plan.cursor placed index with
    | .error anchor => .error (.time (.missing anchor))
    | .ok cursor =>
      if start < cursor - tolerance then
        .error (.compile (.startsEarly (plan.nameAt index) start cursor))
      else .ok ()

/-- Check the authored starts of all scenes in order. -/
def checkStarts (plan : Plan) (placed : Placed) : List Nat → Except ResolveError Unit
  | [] => .ok ()
  | index :: rest =>
    match plan.checkStart placed index with
    | .error cause => .error cause
    | .ok () => plan.checkStarts placed rest

/-- The seconds of a value that belongs to the whole composition. -/
def documentSeconds (plan : Plan) (placed : Placed) (value : TimeValue) :
    Except ResolveError Float :=
  match value.evaluate (placed.documentContext plan.fps) with
  | .ok seconds => .ok seconds
  | .error (.missing anchor) => .error (.unresolved plan.composition.id anchor)
  | .error cause => .error (.time cause)

/-- The seconds of a value of the whole composition that may be absent. -/
def documentSeconds? (plan : Plan) (placed : Placed) :
    Option TimeValue → Except ResolveError (Option Float)
  | none => .ok none
  | some value => (plan.documentSeconds placed value).map some

/-- The indices of all entities. -/
def indices (plan : Plan) : List Nat := List.range plan.items.length

/-- The placements of all entities in the order of their authors. -/
def placements (plan : Plan) (placed : Placed) : List Placement :=
  plan.indices.filterMap fun index => placed.lookup index

/-- The silence before everything, if it takes time. -/
def leadInSilence (plan : Plan) : List Silence :=
  if 0.0 < plan.leadIn then [⟨none, 0.0, plan.leadIn, plan.leadIn⟩] else []

/-- The timeline of a composition whose entities are all placed. -/
def timeline (plan : Plan) (placed : Placed) : Except ResolveError Timeline := do
  let placements := plan.placements placed
  let entries := Order.sortBy (·.start) (placements.map (·.entry))
  let authored ← plan.documentSeconds? placed plan.composition.duration
  let poster ← plan.documentSeconds? placed plan.composition.poster
  .ok {
    id := plan.composition.id
    fps := plan.fps
    width := plan.composition.width
    height := plan.composition.height
    duration := authored.getD (Number.largest plan.leadIn (entries.map (·.finish)))
    poster := poster
    entries := entries
    scenes := placements.filterMap (·.scene)
    pauses := plan.leadInSilence ++ placements.flatMap (·.pauses) }

/-- Resolve from what is placed, given what is drawn: what is placed then, what happened, and the
timeline. -/
def runDrawn (plan : Plan) (drawn : List (List DrawnItem)) (placed : Placed) :
    Placed × List Event × Except ResolveError Timeline :=
  let (placed, events, outcome) :=
    plan.passes drawn (plan.items.length + 2) 1 placed plan.indices
  match outcome with
  | .error cause => (placed, events, .error cause)
  | .ok () =>
    match plan.checkStarts placed plan.indices with
    | .error cause => (placed, events, .error cause)
    | .ok () =>
      match plan.timeline placed with
      | .error cause => (placed, events, .error cause)
      | .ok result =>
        (placed,
          events ++ [.resolved result.id result.entries.length result.duration], .ok result)

/-- Resolve from what is placed with the pauses that the seed draws. -/
def run (plan : Plan) (placed : Placed) :
    Placed × List Event × Except ResolveError Timeline :=
  plan.runDrawn plan.drawn placed

end Plan

/-- A plan, with what its last run has placed. -/
structure Resolver where
  /-- The plan. -/
  plan : Plan
  /-- What the last run has placed. -/
  placed : Placed := []

namespace Resolver

/-- Resolve: the resolver afterwards, what happened, and the timeline. Whatever the last run has
placed is forgotten first. -/
def resolve (resolver : Resolver) :
    Resolver × List Event × Except ResolveError Timeline :=
  let (placed, events, outcome) := resolver.plan.run []
  (⟨resolver.plan, placed⟩, events, outcome)

end Resolver

namespace Composition

/-- Resolve a composition with a seed and an estimate of one's own, if given: what happened, and
the timeline. -/
def resolve (composition : Composition) (seed : Option Int)
    (estimate : Option (String → Float)) : List Event × Except ResolveError Timeline :=
  match Plan.ofComposition composition seed estimate with
  | .error cause => ([], .error cause)
  | .ok plan => (Resolver.resolve ⟨plan, []⟩).2

end Composition
end Storyboard
