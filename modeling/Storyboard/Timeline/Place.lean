import Storyboard.Timeline.Basic
import Storyboard.Timeline.Plan
/-!
# Placing one entity

`Plan.place` tries to place the entity at one index, given what has been placed so far. It gives
the placement, or stops: it waits for an anchor without a position, or fails for good. An
attempt reads what has been placed and changes nothing.

A scene, or a transition that stands between scenes, begins where the one before it ends, unless
an authored start says otherwise; that end is the cursor. The parts of a scene follow one
another from its start. A transition that lies over the end of a scene pulls the start of the
next scene with it.
-/
namespace Storyboard

/-- What is known of an entity once it is placed. -/
structure Placement where
  /-- Its row of the timeline. -/
  entry : Entry
  /-- The scene with its cues, for a scene. -/
  scene : Option SceneWindow := none
  /-- The silences within it, for a scene. -/
  pauses : List Silence := []
  /-- The authored start, for a scene that has one. -/
  pinned : Option Float := none

/-- What has been placed so far, by index. -/
abbrev Placed := List (Nat × Placement)

namespace Placed

/-- The start of the entity at an index. -/
def start? (placed : Placed) (index : Nat) : Option Float :=
  (placed.lookup index).map (·.entry.start)

/-- The end of the entity at an index. -/
def finish? (placed : Placed) (index : Nat) : Option Float :=
  (placed.lookup index).map (·.entry.finish)

/-- The scenes placed so far. -/
def scenes (placed : Placed) : List SceneWindow := placed.filterMap (·.2.scene)

/-- The marks placed so far. -/
def marks (placed : Placed) : List Entry :=
  (placed.map (·.2.entry)).filter (·.kind == .mark)

/-- What an expression may read that stands at no place of the timeline. -/
def documentContext (placed : Placed) (fps : Float) : Context where
  fps := fps
  sceneStarts := placed.scenes.map fun scene => (scene.id, scene.start)
  sceneEnds := placed.scenes.map fun scene => (scene.id, scene.finish)
  cueStarts := (placed.scenes.flatMap (·.cues)).map fun cue => (cue.id, cue.start)
  markStarts := placed.marks.map fun mark => (mark.id, mark.start)

/-- What an expression of the entity at an index may read. The first entity follows the start of
the timeline. -/
def context (placed : Placed) (fps : Float) (index : Nat) : Context :=
  { placed.documentContext fps with
    prevStart := if index = 0 then some 0.0 else placed.start? (index - 1)
    prevEnd := if index = 0 then some 0.0 else placed.finish? (index - 1)
    nextStart := placed.start? (index + 1) }

end Placed

/-- The parts of an authored timing in seconds. -/
structure Timing where
  /-- The start. -/
  start : Option Float := none
  /-- The end. -/
  finish : Option Float := none
  /-- The duration. -/
  duration : Option Float := none

namespace Timing

/-- The authored end of what starts at a moment: as given, or by its duration. -/
def finishFrom (timing : Timing) (start : Float) : Option Float :=
  timing.finish <|> timing.duration.map (start + ·)

end Timing

namespace TimeRange

/-- Whether placing an entity of this timing reads the cursor. -/
def needsCursor (time : Option TimeRange) : Bool :=
  match time with
  | none => true
  | some range => range.start.isNone || range.startIsRelative || range.finishIsRelative

/-- The position of a value, counted from the cursor if it is relative. -/
def position (ctx : Context) (cursor : Float) (isRelative : Bool) :
    Option TimeValue → Except TimeError (Option Float)
  | none => .ok none
  | some value =>
    (value.evaluate ctx).map fun seconds =>
      some (if isRelative then seconds + cursor else seconds)

/-- The parts of a timing in seconds. An end has no meaning without a start. -/
def evaluate (range : TimeRange) (ctx : Context) (cursor : Float) (label : String) :
    Except TimeError Timing :=
  if range.start.isNone && range.finish.isSome then
    .error (.defect (.startRequired label) none)
  else
    match position ctx cursor range.startIsRelative range.start with
    | .error cause => .error cause
    | .ok start =>
      match position ctx cursor range.finishIsRelative range.finish with
      | .error cause => .error cause
      | .ok finish =>
        match position ctx cursor false range.duration with
        | .error cause => .error cause
        | .ok duration => .ok ⟨start, finish, duration⟩

/-- The parts of a timing that may be absent. -/
def evaluate? (time : Option TimeRange) (ctx : Context) (cursor : Float) (label : String) :
    Except Stop Timing :=
  match time with
  | none => .ok {}
  | some range => (range.evaluate ctx cursor label).mapError Stop.ofTime

end TimeRange

namespace TimeValue

/-- The seconds of a value in an attempt. -/
def seconds? (value : TimeValue) (ctx : Context) : Except Stop Float :=
  (value.evaluate ctx).mapError Stop.ofTime

end TimeValue

namespace Plan

/-- The anchor whose position is the cursor after an entity, if that entity moves the cursor. -/
def cursorAnchor? (plan : Plan) (item : Item) (index : Nat) : Option Anchor :=
  match item with
  | .scene s => some (.sceneEnd s.id)
  | .transition t =>
    match plan.mode index t with
    | .insert => some (.transition t.id)
    | .overlap => none
  | .mark _ => none

/-- The nearest entity before a place that moves the cursor, with its anchor. -/
def cursorSource? (plan : Plan) (index : Nat) : Option (Anchor × Nat) :=
  (plan.before index).findSome? fun (item, j) =>
    (plan.cursorAnchor? item j).map fun anchor => (anchor, j)

/-- The cursor before a place: the end of the nearest entity before it that moves the cursor,
and else the lead-in. -/
def cursor (plan : Plan) (placed : Placed) (index : Nat) : Except Anchor Float :=
  match plan.cursorSource? index with
  | none => .ok plan.leadIn
  | some (anchor, j) =>
    match placed.finish? j with
    | some finish => .ok finish
    | none => .error anchor

/-- The cursor before a place, if a timing there reads it; no other timing looks at the value
given instead. -/
def cursorFor (plan : Plan) (placed : Placed) (index : Nat) (time : Option TimeRange) :
    Except Stop Float :=
  if TimeRange.needsCursor time then (plan.cursor placed index).mapError .waits else .ok 0.0

/-- The overlapping transitions that lead into the scene at a place, the nearest first. -/
def incoming (plan : Plan) (index : Nat) : List (Transition × Nat) :=
  ((plan.before index).takeWhile fun (item, _) => item.scene?.isNone).filterMap
    fun (item, j) =>
      match item with
      | .transition t => if plan.mode j t = .overlap then some (t, j) else none
      | _ => none

/-- The earliest start among transitions, given the earliest of those before. -/
def earliest (placed : Placed) : Option Float → List (Transition × Nat) →
    Except Anchor (Option Float)
  | found, [] => .ok found
  | found, (t, j) :: rest =>
    match placed.start? j with
    | none => .error (.transition t.id)
    | some start =>
      earliest placed (some (match found with
        | none => start
        | some other => Number.smaller other start)) rest

/-- The windows of the parts of a cue, one behind the other, and where the last one ends. -/
def placeBeats (plan : Plan) (now : Float) : List Beat → List SegmentWindow × Float
  | [] => ([], now)
  | beat :: rest =>
    let (text, seconds) := match beat with
      | .text speech =>
        (some speech.text, Number.larger 0.0
          (speech.durationSec.getD (plan.estimate speech.text) - speech.trimEndSec))
      | .pause seconds => (none, seconds)
    let (windows, finish) := plan.placeBeats (now + seconds) rest
    (⟨text, now, now + seconds⟩ :: windows, finish)

/-- The end of a cue without an authored end: from its timing, its own duration, its parts, the
text it says, or none of these. -/
def cueFinish (plan : Plan) (cue : Cue) (ctx : Context) (timing : Timing)
    (start segmentsEnd : Float) : Except Stop Float :=
  match timing.finishFrom start, cue.duration with
  | some finish, _ => .ok finish
  | none, some duration => (duration.seconds? ctx).map fun seconds => start + seconds
  | none, none =>
    if !cue.segments.isEmpty then .ok segmentsEnd
    else
      match cue.text with
      | none => .ok start
      | some text => .ok (if text.isEmpty then start else start + plan.estimate text)

/-- Place a cue whose cursor is `now`. -/
def placeCue (plan : Plan) (sceneId : String) (cue : Cue) (beats : List Beat) (ctx : Context)
    (now : Float) : Except Stop CueWindow := do
  let label := "Cue \"" ++ cue.id ++ "\""
  let timing ← TimeRange.evaluate? cue.time ctx now label
  let start := timing.start.getD now
  let (segments, segmentsEnd) := plan.placeBeats start beats
  let finish ← plan.cueFinish cue ctx timing start segmentsEnd
  if finish < start then .error (Stop.compile (.endsBeforeStart label finish start))
  else .ok ⟨cue.id, sceneId, start, finish, cue.text, segments, cue.bullets⟩

/-- The parts of a scene once they are placed. -/
structure SceneLayout where
  /-- The cues in order. -/
  cues : List CueWindow
  /-- The silences in order. -/
  pauses : List Silence
  /-- Where the last part ends. -/
  finish : Float

/-- The silence of a pause before a part, if it takes time, and where it ends. -/
def placeGap (sceneId : String) (now : Float) (gap : Option Float) : List Silence × Float :=
  let seconds := gap.getD 0.0
  if 0.0 < seconds then ([⟨some sceneId, now, now + seconds, seconds⟩], now + seconds)
  else ([], now)

/-- Lay out the parts of a scene one behind the other from `now`. A cue may read the starts of
the cues before it. -/
def layOut (plan : Plan) (sceneId : String) (ctx : Context) (now : Float) :
    List DrawnItem → Except Stop SceneLayout
  | [] => .ok ⟨[], [], now⟩
  | item :: rest =>
    let (opening, now) := placeGap sceneId now item.gap
    match item.content with
    | .cue c beats => do
      let window ← plan.placeCue sceneId c beats ctx now
      let ctx := { ctx with cueStarts := (window.id, window.start) :: ctx.cueStarts }
      let others ← plan.layOut sceneId ctx (Number.larger now window.finish) rest
      .ok ⟨window :: others.cues, opening ++ others.pauses, others.finish⟩
    | .pause seconds => do
      let others ← plan.layOut sceneId ctx (now + seconds) rest
      .ok ⟨others.cues,
        opening ++ ⟨some sceneId, now, now + seconds, seconds⟩ :: others.pauses,
        others.finish⟩

/-- The start of a scene whose parts begin at a moment: that moment, or an earlier one that pulls
it. -/
def pulledStart (start : Float) : Option Float → Float
  | none => start
  | some pull => Number.smaller start pull

/-- The end of a scene whose parts end at a moment: that moment, or a later authored one. -/
def heldFinish (finish : Float) : Option Float → Float
  | none => finish
  | some hint => Number.larger finish hint

/-- What is known of a scene whose parts are laid out from `start`. -/
def scenePlacement (s : Scene) (start : Float) (timing : Timing) (pull : Option Float)
    (layout : SceneLayout) : Placement :=
  let published := pulledStart start pull
  let finish := heldFinish layout.finish (timing.finishFrom start)
  { entry := { kind := .scene, id := s.id, start := published, finish }
    scene := some ⟨s.id, s.title, published, finish, layout.cues⟩
    pauses := layout.pauses
    pinned := timing.start }

/-- Place the scene at a place. -/
def placeScene (plan : Plan) (placed : Placed) (index : Nat) (s : Scene)
    (parts : List DrawnItem) : Except Stop Placement := do
  let label := "Scene \"" ++ s.id ++ "\""
  let cursor ← plan.cursorFor placed index s.time
  let ctx := placed.context plan.fps index
  let timing ← TimeRange.evaluate? s.time ctx cursor label
  let start := timing.start.getD cursor
  let pull ← (earliest placed none (plan.incoming index)).mapError .waits
  let layout ← plan.layOut s.id ctx start parts
  if layout.cues.isEmpty && (timing.finishFrom start).isNone then
    .error (Stop.compile (.noContent label))
  else .ok (scenePlacement s start timing pull layout)

/-- The length of a transition: between its authored start and end, of its timing, its own, or
the default. -/
def transitionSeconds (t : Transition) (ctx : Context) (timing : Timing) : Except Stop Float :=
  match timing.start, timing.finish, timing.duration, t.duration with
  | some start, some finish, _, _ => .ok (Number.larger 0.0 (finish - start))
  | _, _, some duration, _ => .ok duration
  | _, _, none, some duration => duration.seconds? ctx
  | _, _, none, none => .ok Defaults.transitionSeconds

/-- The start of the transition at a place: as authored, over the end of the scene before it but
not before the start of the timeline, or else the cursor. -/
def transitionStart (plan : Plan) (placed : Placed) (index : Nat) (mode : TransitionMode)
    (timing : Timing) (cursor seconds : Float) : Except Stop Float :=
  match timing.start, mode, plan.prevScene? index with
  | some start, _, _ => .ok start
  | none, .overlap, some (s, j) =>
    match placed.finish? j with
    | some finish => .ok (Number.larger 0.0 (finish - seconds))
    | none => .error (.waits (.sceneEnd s.id))
  | none, _, _ => .ok cursor

/-- Place the transition at a place. -/
def placeTransition (plan : Plan) (placed : Placed) (index : Nat) (t : Transition) :
    Except Stop Placement := do
  let label := "Transition \"" ++ t.id ++ "\""
  let cursor ← plan.cursorFor placed index t.time
  let ctx := placed.context plan.fps index
  let timing ← TimeRange.evaluate? t.time ctx cursor label
  let seconds ← transitionSeconds t ctx timing
  let mode := plan.mode index t
  let start ← plan.transitionStart placed index mode timing cursor seconds
  let finish := timing.finish.getD (start + seconds)
  if finish < start then .error (Stop.compile (.endsBeforeStart label finish start))
  else
    .ok {
      entry := {
        kind := .transition, id := t.id, start, finish
        fromScene := (plan.prevScene? index).map (·.1.id)
        toScene := (plan.nextScene? index).map (·.1.id)
        effect := some t.effect, ease := t.ease, mode := some mode, props := t.props } }

/-- Place the mark at a place. -/
def placeMark (plan : Plan) (placed : Placed) (index : Nat) (m : Mark) :
    Except Stop Placement := do
  let position ← m.position.seconds? (placed.context plan.fps index)
  .ok { entry := { kind := .mark, id := m.id, start := position, finish := position } }

/-- Place one entity, given the parts of it that were drawn. -/
def placeItem (plan : Plan) (placed : Placed) (index : Nat) (parts : List DrawnItem) :
    Item → Except Stop Placement
  | .scene s => plan.placeScene placed index s parts
  | .transition t => plan.placeTransition placed index t
  | .mark m => plan.placeMark placed index m

end Plan
end Storyboard
