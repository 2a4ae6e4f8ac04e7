import Storyboard.Proofs.Timeline.Final
/-!
# The equations of a timeline

What the entities of a composition ask of its timeline, stated of what is authored, what is drawn
and what is shown. Nothing here says how an entity is placed: the earliest of some starts, the later
of two ends and the ways in which a length may be authored are written out, so that they can be held
against the way in which a resolution comes to them. `Timeline.Solves` gathers the equations of all
entities, each read in the finished timeline.
-/
namespace Storyboard

/-! ## Starts, ends and lengths -/

/-- Whether a moment is the earliest of some: one of them, which none of them lies before. -/
def IsEarliest (among : Float → Prop) (moment : Float) : Prop :=
  among moment ∧ ∀ other, among other → ¬ other < moment

namespace Timing

/-- Whether a timing has what starts at a moment end at another one: at its end, or else after its
duration. -/
def EndsAt (timing : Timing) (start finish : Float) : Prop :=
  timing.finish = some finish ∨
    timing.finish = none ∧ ∃ seconds, timing.duration = some seconds ∧ finish = start + seconds

/-- Whether a timing leaves the end open. -/
def IsOpen (timing : Timing) : Prop := timing.finish = none ∧ timing.duration = none

end Timing

/-- How long speech lasts: as long as it is measured, or else estimated, less its trim, but not less
than nothing. -/
def Speech.seconds (plan : Plan) (speech : Speech) : Float :=
  let trimmed := speech.durationSec.getD (plan.estimate speech.text) - speech.trimEndSec
  if 0.0 < trimmed then trimmed else 0.0

namespace Beat

/-- The text that a drawn part of a cue speaks. -/
def text? : Beat → Option String
  | .text speech => some speech.text
  | .pause _ => none

/-- How long a drawn part of a cue lasts. -/
def seconds (plan : Plan) : Beat → Float
  | .text speech => speech.seconds plan
  | .pause seconds => seconds

end Beat

/-- Whether a cue that starts at a moment, and whose parts end at another one, ends where it is
authored to. -/
inductive Cue.EndsAt (c : Cue) (plan : Plan) (ctx : Context) (timing : Timing)
    (start partsEnd : Float) : Float → Prop where
  /-- It ends where its timing has it end. -/
  | timed {finish : Float} (timed : timing.EndsAt start finish) :
    c.EndsAt plan ctx timing start partsEnd finish
  /-- Else it lasts as long as it is authored to. -/
  | lasting {value : TimeValue} {seconds : Float} (untimed : timing.IsOpen)
    (own : c.duration = some value) (evaluated : value.evaluate ctx = .ok seconds) :
    c.EndsAt plan ctx timing start partsEnd (start + seconds)
  /-- Else it ends with its parts, if it has any. -/
  | parts (untimed : timing.IsOpen) (unmeasured : c.duration = none) (composed : c.segments ≠ []) :
    c.EndsAt plan ctx timing start partsEnd partsEnd
  /-- Else it ends when its text is said. -/
  | spoken {text : String} (untimed : timing.IsOpen) (unmeasured : c.duration = none)
    (whole : c.segments = []) (said : c.text = some text) (audible : text ≠ "") :
    c.EndsAt plan ctx timing start partsEnd (start + plan.estimate text)
  /-- Else it takes no time. -/
  | silent (untimed : timing.IsOpen) (unmeasured : c.duration = none) (whole : c.segments = [])
    (silent : c.text = none ∨ c.text = some "") :
    c.EndsAt plan ctx timing start partsEnd start

/-- Whether a transition lasts as long as it is authored to. -/
inductive Transition.Lasts (t : Transition) (ctx : Context) (timing : Timing) : Float → Prop where
  /-- It lasts from its authored start to its authored end, if both are given and in order. -/
  | between {start finish : Float} (starts : timing.start = some start)
    (ends : timing.finish = some finish) :
    t.Lasts ctx timing (if 0.0 < finish - start then finish - start else 0.0)
  /-- Else it lasts as long as its timing says. -/
  | timed {seconds : Float} (unbound : timing.start = none ∨ timing.finish = none)
    (timed : timing.duration = some seconds) : t.Lasts ctx timing seconds
  /-- Else it lasts as long as its own duration says. -/
  | lasting {value : TimeValue} {seconds : Float}
    (unbound : timing.start = none ∨ timing.finish = none) (untimed : timing.duration = none)
    (own : t.duration = some value) (evaluated : value.evaluate ctx = .ok seconds) :
    t.Lasts ctx timing seconds
  /-- Else it lasts a second. -/
  | usual (unbound : timing.start = none ∨ timing.finish = none) (untimed : timing.duration = none)
    (unmeasured : t.duration = none) : t.Lasts ctx timing 1.0

/-! ## The parts of a scene -/

/-- Whether the pause before a part of a scene, if there is one, lies behind a moment: it is a
silence up to the next moment if it takes time, and else it leaves no trace. -/
inductive GapLies (sceneId : String) (now : Float) :
    Option Float → List Silence → (next : Float) → Prop where
  /-- Without a pause no time passes. -/
  | absent : GapLies sceneId now none [] now
  /-- A pause that takes time is a silence. -/
  | silent {seconds : Float} (lasts : 0.0 < seconds) :
    GapLies sceneId now (some seconds) [⟨some sceneId, now, now + seconds, seconds⟩]
      (now + seconds)
  /-- Any other pause takes none. -/
  | brief {seconds : Float} (brief : ¬ 0.0 < seconds) : GapLies sceneId now (some seconds) [] now

namespace Plan

/-- Whether the parts of a cue lie one behind the other from a moment on, with these windows, up to
where the last one ends. -/
inductive Strung (plan : Plan) : Float → List Beat → List SegmentWindow → Float → Prop where
  /-- Nothing takes no time. -/
  | nil (now : Float) : Strung plan now [] [] now
  /-- A part takes its length, and the others follow. -/
  | cons {now finish : Float} {beat : Beat} {rest : List Beat} {windows : List SegmentWindow}
    (others : Strung plan (now + beat.seconds plan) rest windows finish) :
    Strung plan now (beat :: rest) (⟨beat.text?, now, now + beat.seconds plan⟩ :: windows) finish

/-- Whether a cue has its window, when its cursor is `now`. -/
structure CueSolves (plan : Plan) (sceneId : String) (c : Cue) (beats : List Beat) (ctx : Context)
    (now : Float) (window : CueWindow) : Prop where
  /-- The window is that of the cue. -/
  id : window.id = c.id
  /-- It belongs to the scene. -/
  sceneId : window.sceneId = sceneId
  /-- It shows what the cue says. -/
  text : window.text = c.text
  /-- It shows the lines of the cue. -/
  bullets : window.bullets = c.bullets
  /-- The cue starts where it is authored to, or else at the cursor; its parts lie one behind the
  other from there, and it ends where it is authored to. -/
  timed : ∃ timing partsEnd, TimeRange.Solves c.time ctx now timing ∧
    window.start = timing.start.getD now ∧
    plan.Strung window.start beats window.segments partsEnd ∧
    c.EndsAt plan ctx timing window.start partsEnd window.finish
  /-- It does not end before it starts. -/
  ordered : ¬ window.finish < window.start

/-- Whether the parts of a scene lie one behind the other from a moment on, with these windows and
silences, up to where the last part ends. -/
inductive LaidOut (plan : Plan) (sceneId : String) (ctx : Context) :
    Float → List DrawnItem → List CueWindow → List Silence → Float → Prop where
  /-- Nothing takes no time. -/
  | nil (now : Float) : LaidOut plan sceneId ctx now [] [] [] now
  /-- A cue follows the pause before it. What is behind it follows its end, or the pause if that is
  later. -/
  | cue {now next finish : Float} {gap : Option Float} {c : Cue} {beats : List Beat}
    {window : CueWindow} {rest : List DrawnItem} {cues : List CueWindow}
    {opening pauses : List Silence} (before : GapLies sceneId now gap opening next)
    (stands : plan.CueSolves sceneId c beats ctx next window)
    (others : LaidOut plan sceneId ctx (if next < window.finish then window.finish else next) rest
      cues pauses finish) :
    LaidOut plan sceneId ctx now (⟨gap, .cue c beats⟩ :: rest) (window :: cues)
      (opening ++ pauses) finish
  /-- A pause takes its length behind the pause before it. -/
  | pause {now next finish seconds : Float} {gap : Option Float} {rest : List DrawnItem}
    {cues : List CueWindow} {opening pauses : List Silence}
    (before : GapLies sceneId now gap opening next)
    (others : LaidOut plan sceneId ctx (next + seconds) rest cues pauses finish) :
    LaidOut plan sceneId ctx now (⟨gap, .pause seconds⟩ :: rest) cues
      (opening ++ ⟨some sceneId, next, next + seconds, seconds⟩ :: pauses) finish

end Plan

/-! ## Entities -/

namespace Timeline

/-- Whether a position is the cursor before a place in a timeline: the end of the nearest entity
before it that moves the cursor, and the lead-in if there is none. -/
def CursorAt (timeline : Timeline) (plan : Plan) (index : Nat) (cursor : Float) : Prop :=
  (∀ j < index, ¬ plan.MovesCursor j) ∧ cursor = plan.composition.voiceover.leadInSeconds ∨
    ∃ j entry, plan.IsCursorSource index j ∧ timeline.entryAt plan j = some entry ∧
      cursor = entry.finish

/-- Whether a moment is the start of a transition that leads into a place. -/
def LeadsAt (timeline : Timeline) (plan : Plan) (index : Nat) (moment : Float) : Prop :=
  ∃ j t entry, plan.LeadsInto index j t ∧ timeline.entryAt plan j = some entry ∧
    moment = entry.start

/-- The equations of a scene at a place: its row, its window, the cursor before it, its timing and
where its last part ends. -/
structure SceneSolves (timeline : Timeline) (plan : Plan) (index : Nat) (s : Scene)
    (parts : List DrawnItem) (entry : Entry) (window : SceneWindow) (cursor : Float)
    (timing : Timing) (contentEnd : Float) : Prop where
  /-- The row is that of the scene. -/
  row : timeline.entryAt plan index = some entry
  /-- The window is that of the scene. -/
  shown : timeline.scene? s.id = some window
  /-- The window has the bounds of the row. -/
  bounds : window.start = entry.start ∧ window.finish = entry.finish
  /-- The cursor is the one before the scene. -/
  counted : timeline.CursorAt plan index cursor
  /-- The timing is as authored. -/
  authored : TimeRange.Solves s.time (timeline.context plan index) cursor timing
  /-- The parts lie one behind the other from the authored start, or else from the cursor. -/
  laid : plan.LaidOut s.id (timeline.context plan index) (timing.start.getD cursor) parts
    window.cues (timeline.pauses.filter fun silence => silence.sceneId == some s.id) contentEnd
  /-- The scene starts with its parts if no transition leads into it, and else with its parts or
  with the earliest of these transitions, whichever is earlier. -/
  start : (∀ j t, ¬ plan.LeadsInto index j t) ∧ entry.start = timing.start.getD cursor ∨
    ∃ pull, IsEarliest (timeline.LeadsAt plan index) pull ∧
      entry.start = if pull < timing.start.getD cursor then pull else timing.start.getD cursor
  /-- The scene ends with its parts if no end is authored, and else with its parts or at that end,
  whichever is later. -/
  finish : timing.IsOpen ∧ entry.finish = contentEnd ∨
    ∃ held, timing.EndsAt (timing.start.getD cursor) held ∧
      entry.finish = if contentEnd < held then held else contentEnd

/-- The equations of a transition at a place: its row, the cursor before it, its timing and its
length. -/
structure TransitionSolves (timeline : Timeline) (plan : Plan) (index : Nat) (t : Transition)
    (entry : Entry) (cursor : Float) (timing : Timing) (seconds : Float) : Prop where
  /-- The row is that of the transition. -/
  row : timeline.entryAt plan index = some entry
  /-- The cursor is the one before the transition. -/
  counted : timeline.CursorAt plan index cursor
  /-- The timing is as authored. -/
  authored : TimeRange.Solves t.time (timeline.context plan index) cursor timing
  /-- The length is as authored. -/
  lasts : t.Lasts (timeline.context plan index) timing seconds
  /-- It starts as authored. -/
  start_authored : ∀ start, timing.start = some start → entry.start = start
  /-- Without an authored start one that overlaps ends with the scene before it, but does not start
  before zero. -/
  start_over : timing.start = none → plan.Overlaps index t → ∀ j, plan.IsPrevScene index j →
    ∃ before, timeline.entryAt plan j = some before ∧
      entry.start = if 0.0 < before.finish - seconds then before.finish - seconds else 0.0
  /-- Any other one without an authored start starts at the cursor. -/
  start_cursor : timing.start = none →
    ¬ plan.Overlaps index t ∨ (∀ j < index, ¬ plan.HasScene j) → entry.start = cursor
  /-- It ends as authored, or with its length. -/
  finish : entry.finish = timing.finish.getD (entry.start + seconds)

/-- Whether all that is authored holds in a timeline at once. -/
structure Solves (timeline : Timeline) (plan : Plan) (drawn : List (List DrawnItem)) : Prop where
  /-- A mark stands at its position. -/
  mark : ∀ index m, plan.items[index]? = some (.mark m) →
    ∃ entry, timeline.entryAt plan index = some entry ∧
      m.position.evaluate (timeline.context plan index) = .ok entry.start ∧
      entry.finish = entry.start
  /-- A scene satisfies its equations. -/
  scene : ∀ index s, plan.items[index]? = some (.scene s) →
    ∃ entry window cursor timing contentEnd,
      timeline.SceneSolves plan index s (drawn[index]?.getD []) entry window cursor timing
        contentEnd
  /-- A transition satisfies its equations. -/
  transition : ∀ index t, plan.items[index]? = some (.transition t) →
    ∃ entry cursor timing seconds,
      timeline.TransitionSolves plan index t entry cursor timing seconds

end Timeline
end Storyboard
