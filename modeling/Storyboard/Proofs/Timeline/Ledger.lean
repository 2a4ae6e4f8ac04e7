import Storyboard.Proofs.Timeline.Table
/-!
# Resolution on a ledger

What has been placed can be kept in tables of its own, one for each thing that is read: the bounds
of entities, the positions of anchors, and the parts of the timeline. A `Ledger` holds these
tables, and beside them the authored starts of scenes as attempts find them.

Here an attempt is a program over a ledger. It writes as it goes, and where it stops the ledger
stays as it is then; a value that is put into a table replaces the one under its key. So neither
that a failed attempt leaves no trace nor that a value stays is true by construction.

`Plan.resolveLedger` resolves on a ledger, and notes down every attempt with the ledger before and
after it.
-/
namespace Storyboard

/-! ## Tables -/

/-- A table of values under keys. -/
abbrev Table (κ β : Type) := List (κ × β)

namespace Table

variable {κ β : Type} [BEq κ]

/-- Put a value under a key: in the place of the one that is there, or else at the end. -/
def put (key : κ) (value : β) : Table κ β → Table κ β
  | [] => [(key, value)]
  | (own, stored) :: rest =>
    if own == key then (key, value) :: rest else (own, stored) :: put key value rest

/-- Put each of some values under its key, in order. -/
def putAll (rows table : Table κ β) : Table κ β :=
  rows.foldl (fun table row => put row.1 row.2 table) table

end Table

/-- What has been placed, by what is read of it. -/
structure Tables where
  /-- The starts, by index. -/
  starts : Table Nat Float := []
  /-- The ends, by index. -/
  finishes : Table Nat Float := []
  /-- The starts of scenes, by name. -/
  sceneStarts : Table String Float := []
  /-- The ends of scenes, by name. -/
  sceneEnds : Table String Float := []
  /-- The starts of cues, by name. -/
  cueStarts : Table String Float := []
  /-- The positions of marks, by name. -/
  markStarts : Table String Float := []
  /-- The rows of the timeline, by index. -/
  entries : Table Nat Entry := []
  /-- The scenes of the timeline, by index. -/
  scenes : Table Nat SceneWindow := []
  /-- The silences within scenes, by index. -/
  pauses : Table Nat (List Silence) := []

/-- The tables of a resolution, with the authored starts of scenes as attempts have found them. -/
structure Ledger where
  /-- What has been placed. -/
  tables : Tables := {}
  /-- The authored starts of scenes, by index. -/
  pinned : Table Nat Float := []

/-! ## What is read and written -/

namespace Tables

/-- What an expression may read that stands at no place of the timeline. -/
def documentContext (tables : Tables) (fps : Float) : Context where
  fps := fps
  sceneStarts := tables.sceneStarts
  sceneEnds := tables.sceneEnds
  cueStarts := tables.cueStarts
  markStarts := tables.markStarts

/-- What an expression of the entity at an index may read. -/
def context (tables : Tables) (fps : Float) (index : Nat) : Context :=
  { tables.documentContext fps with
    prevStart := if index = 0 then some 0.0 else tables.starts.lookup (index - 1)
    prevEnd := if index = 0 then some 0.0 else tables.finishes.lookup (index - 1)
    nextStart := tables.starts.lookup (index + 1) }

/-- The cursor before a place. -/
def cursor (tables : Tables) (plan : Plan) (index : Nat) : Except Anchor Float :=
  match plan.cursorSource? index with
  | none => .ok plan.leadIn
  | some (anchor, j) =>
    match tables.finishes.lookup j with
    | some finish => .ok finish
    | none => .error anchor

/-- The cursor before a place, if a timing there reads it. -/
def cursorFor (tables : Tables) (plan : Plan) (index : Nat) (time : Option TimeRange) :
    Except Stop Float :=
  if TimeRange.needsCursor time then (tables.cursor plan index).mapError .waits else .ok 0.0

/-- The earliest start among transitions, given the earliest of those before. -/
def earliest (tables : Tables) : Option Float → List (Transition × Nat) →
    Except Anchor (Option Float)
  | found, [] => .ok found
  | found, (t, j) :: rest =>
    match tables.starts.lookup j with
    | none => .error (.transition t.id)
    | some start =>
      earliest tables (some (match found with
        | none => start
        | some other => Number.smaller other start)) rest

/-- The start of the transition at a place. -/
def transitionStart (tables : Tables) (plan : Plan) (index : Nat) (mode : TransitionMode)
    (timing : Timing) (cursor seconds : Float) : Except Stop Float :=
  match timing.start, mode, plan.prevScene? index with
  | some start, _, _ => .ok start
  | none, .overlap, some (s, j) =>
    match tables.finishes.lookup j with
    | some finish => .ok (Number.larger 0.0 (finish - seconds))
    | none => .error (.waits (.sceneEnd s.id))
  | none, _, _ => .ok cursor

/-- Write down the placement of the entity at an index: its bounds and its row; the bounds of its
window, the starts of its cues, its silences and the window itself, for a scene; its position, for a
mark. -/
def publish (tables : Tables) (index : Nat) (p : Placement) : Tables where
  starts := tables.starts.put index p.entry.start
  finishes := tables.finishes.put index p.entry.finish
  sceneStarts := .putAll (p.scene.toList.map fun window => (window.id, window.start))
    tables.sceneStarts
  sceneEnds := .putAll (p.scene.toList.map fun window => (window.id, window.finish))
    tables.sceneEnds
  cueStarts := .putAll ((p.scene.toList.flatMap (·.cues)).map fun cue => (cue.id, cue.start))
    tables.cueStarts
  markStarts := .putAll (([p.entry].filter (·.kind == .mark)).map fun mark => (mark.id, mark.start))
    tables.markStarts
  entries := tables.entries.put index p.entry
  scenes := .putAll (p.scene.toList.map fun window => (index, window)) tables.scenes
  pauses := .putAll (p.scene.toList.map fun _ => (index, p.pauses)) tables.pauses

end Tables

namespace Ledger

/-- Note down an authored start of the scene at an index, if there is one. -/
def pin (ledger : Ledger) (index : Nat) : Option Float → Ledger
  | none => ledger
  | some start => { ledger with pinned := ledger.pinned.put index start }

/-- Write down the placement of the entity at an index. -/
def publish (ledger : Ledger) (index : Nat) (p : Placement) : Ledger :=
  { ledger with tables := ledger.tables.publish index p }

end Ledger

/-! ## Attempts -/

/-- A program over a ledger. Where it stops, the ledger stays as it is then. -/
abbrev Attempt := EStateM Stop Ledger

namespace Attempt

/-- Look something up in the ledger. -/
def look {α : Type} (f : Ledger → α) : Attempt α := fun ledger => .ok (f ledger) ledger

/-- Read something of the ledger, or stop. -/
def read {α : Type} (f : Ledger → Except Stop α) : Attempt α := fun ledger =>
  match f ledger with
  | .ok value => .ok value ledger
  | .error stop => .error stop ledger

end Attempt

namespace Plan

/-- Try to place the scene at a place. Its authored start is noted down as soon as it is known;
all else is written when nothing can fail any more. -/
def attemptScene (plan : Plan) (index : Nat) (s : Scene) (parts : List DrawnItem) :
    Attempt Unit := do
  let label := "Scene \"" ++ s.id ++ "\""
  let cursor ← Attempt.read (·.tables.cursorFor plan index s.time)
  let ctx ← Attempt.look (·.tables.context plan.fps index)
  let timing ← Attempt.read fun _ => TimeRange.evaluate? s.time ctx cursor label
  let start := timing.start.getD cursor
  modify (·.pin index timing.start)
  let pull ← Attempt.read fun ledger =>
    (ledger.tables.earliest none (plan.incoming index)).mapError .waits
  let layout ← Attempt.read fun _ => plan.layOut s.id ctx start parts
  if layout.cues.isEmpty && (timing.finishFrom start).isNone then
    throw (Stop.compile (.noContent label))
  else modify (·.publish index (scenePlacement s start timing pull layout))

/-- Try to place the transition at a place. -/
def attemptTransition (plan : Plan) (index : Nat) (t : Transition) : Attempt Unit := do
  let label := "Transition \"" ++ t.id ++ "\""
  let cursor ← Attempt.read (·.tables.cursorFor plan index t.time)
  let ctx ← Attempt.look (·.tables.context plan.fps index)
  let timing ← Attempt.read fun _ => TimeRange.evaluate? t.time ctx cursor label
  let seconds ← Attempt.read fun _ => transitionSeconds t ctx timing
  let mode := plan.mode index t
  let start ← Attempt.read (·.tables.transitionStart plan index mode timing cursor seconds)
  let finish := timing.finish.getD (start + seconds)
  if finish < start then throw (Stop.compile (.endsBeforeStart label finish start))
  else
    modify (·.publish index {
      entry := {
        kind := .transition, id := t.id, start, finish
        fromScene := (plan.prevScene? index).map (·.1.id)
        toScene := (plan.nextScene? index).map (·.1.id)
        effect := some t.effect, ease := t.ease, mode := some mode, props := t.props } })

/-- Try to place the mark at a place. -/
def attemptMark (plan : Plan) (index : Nat) (m : Mark) : Attempt Unit := do
  let position ← Attempt.read fun ledger =>
    m.position.seconds? (ledger.tables.context plan.fps index)
  modify (·.publish index
    { entry := { kind := .mark, id := m.id, start := position, finish := position } })

/-- Try to place the entity at an index. -/
def attempt (plan : Plan) (drawn : List (List DrawnItem)) (index : Nat) : Attempt Unit :=
  match plan.items[index]? with
  | some (.scene s) => plan.attemptScene index s (drawn[index]?.getD [])
  | some (.transition t) => plan.attemptTransition index t
  | some (.mark m) => plan.attemptMark index m
  | none => throw (Stop.compile .notConverged)

end Plan

/-! ## Passes -/

/-- An attempt that was made. -/
structure Trial where
  /-- The index of the entity. -/
  index : Nat
  /-- The ledger before the attempt. -/
  before : Ledger
  /-- How the attempt ended. -/
  outcome : Except Stop Unit
  /-- The ledger after the attempt. -/
  after : Ledger

namespace Plan

/-- Try each of some entities once, in order, and note down the attempts: these, the ledger then,
and the entities left with what they wait for, unless one fails for good. -/
def passLedger (plan : Plan) (drawn : List (List DrawnItem)) :
    Ledger → List Nat → List Trial × Ledger × Except ResolveError Waiting
  | ledger, [] => ([], ledger, .ok [])
  | ledger, index :: rest =>
    match (plan.attempt drawn index).run ledger with
    | .ok () after =>
      let (trials, last, outcome) := plan.passLedger drawn after rest
      (⟨index, ledger, .ok (), after⟩ :: trials, last, outcome)
    | .error (.fails cause) after =>
      ([⟨index, ledger, .error (.fails cause), after⟩], after, .error cause)
    | .error (.waits anchor) after =>
      let (trials, last, outcome) := plan.passLedger drawn after rest
      (⟨index, ledger, .error (.waits anchor), after⟩ :: trials, last,
        outcome.map ((index, anchor) :: ·))

/-- Pass over the entities left until none is, `allowed` times at most: the attempts, the ledger
then, what happened, and whether all is placed. -/
def passesLedger (plan : Plan) (drawn : List (List DrawnItem)) :
    (allowed number : Nat) → Ledger → List Nat →
      List Trial × Ledger × List Event × Except ResolveError Unit
  | _, _, ledger, [] => ([], ledger, [], .ok ())
  | 0, _, ledger, _ :: _ => ([], ledger, [], .error (.compile .notConverged))
  | allowed + 1, number, ledger, index :: rest =>
    match plan.passLedger drawn ledger (index :: rest) with
    | (trials, last, .error cause) => (trials, last, [], .error cause)
    | (trials, last, .ok waiting) =>
      let event := Event.pass number (rest.length + 1 - waiting.length) waiting.length
      if waiting.length = rest.length + 1 then
        (trials, last, [event], .error (plan.diagnose waiting))
      else
        let (others, last, events, outcome) :=
          plan.passesLedger drawn allowed (number + 1) last (waiting.map (·.1))
        (trials ++ others, last, event :: events, outcome)

end Plan

/-! ## The timeline -/

namespace Ledger

/-- Refuse a scene whose authored start lies before the cursor. -/
def checkStart (ledger : Ledger) (plan : Plan) (index : Nat) : Except ResolveError Unit :=
  match ledger.pinned.lookup index with
  | none => .ok ()
  | some start =>
    match ledger.tables.cursor plan index with
    | .error anchor => .error (.time (.missing anchor))
    | .ok cursor =>
      if start < cursor - Plan.tolerance then
        .error (.compile (.startsEarly (plan.nameAt index) start cursor))
      else .ok ()

/-- Check the authored starts of all scenes in order. -/
def checkStarts (ledger : Ledger) (plan : Plan) : List Nat → Except ResolveError Unit
  | [] => .ok ()
  | index :: rest =>
    match ledger.checkStart plan index with
    | .error cause => .error cause
    | .ok () => ledger.checkStarts plan rest

end Ledger

namespace Tables

/-- The seconds of a value of the whole composition that may be absent. -/
def documentSeconds? (tables : Tables) (plan : Plan) :
    Option TimeValue → Except ResolveError (Option Float)
  | none => .ok none
  | some value =>
    match value.evaluate (tables.documentContext plan.fps) with
    | .ok seconds => .ok (some seconds)
    | .error (.missing anchor) => .error (.unresolved plan.composition.id anchor)
    | .error cause => .error (.time cause)

/-- The timeline of a composition whose entities are all written down. -/
def timeline (tables : Tables) (plan : Plan) : Except ResolveError Timeline := do
  let entries := Order.sortBy (·.start) (plan.indices.filterMap fun index =>
    tables.entries.lookup index)
  let authored ← tables.documentSeconds? plan plan.composition.duration
  let poster ← tables.documentSeconds? plan plan.composition.poster
  .ok {
    id := plan.composition.id
    fps := plan.fps
    width := plan.composition.width
    height := plan.composition.height
    duration := authored.getD (Number.largest plan.leadIn (entries.map (·.finish)))
    poster := poster
    entries := entries
    scenes := plan.indices.filterMap fun index => tables.scenes.lookup index
    pauses := plan.leadInSilence ++
      (plan.indices.filterMap fun index => tables.pauses.lookup index).flatten }

end Tables

namespace Plan

/-- Resolve on an empty ledger: the attempts, the ledger then, what happened, and the timeline. -/
def resolveLedger (plan : Plan) (drawn : List (List DrawnItem)) :
    List Trial × Ledger × List Event × Except ResolveError Timeline :=
  let (trials, ledger, events, outcome) :=
    plan.passesLedger drawn (plan.items.length + 2) 1 {} plan.indices
  match outcome with
  | .error cause => (trials, ledger, events, .error cause)
  | .ok () =>
    match ledger.checkStarts plan plan.indices with
    | .error cause => (trials, ledger, events, .error cause)
    | .ok () =>
      match ledger.tables.timeline plan with
      | .error cause => (trials, ledger, events, .error cause)
      | .ok result =>
        (trials, ledger,
          events ++ [.resolved result.id result.entries.length result.duration], .ok result)

end Plan
end Storyboard
