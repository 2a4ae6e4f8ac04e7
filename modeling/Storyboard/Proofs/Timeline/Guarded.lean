import Storyboard.Proofs.Timeline.Attempt
import Storyboard.Proofs.Timeline.Samples
/-!
# Guarded attempts

A guarded attempt holds the cursor only if the timing of the entity reads it, and reads the lengths
of pauses out of the table of samples. To use a cursor that it does not hold, or a sample that was
not drawn, ends it in a way of its own. No attempt ends so: guarded attempts are the attempts
(`guardedPlace_eq`). Likewise the placements that a timeline is written from are all there
(`guardedPlacements_eq`).
-/
namespace Storyboard

/-- What is read where it is not. -/
inductive Misread where
  /-- The cursor, by an attempt that does not hold it. -/
  | cursor
  /-- A sample that was not drawn. -/
  | sample (place : PausePlace)
  /-- The placement of an entity that is not placed. -/
  | placement (index : Nat)

/-- Why a guarded attempt ends early. -/
inductive Halt where
  /-- It reads something that is not there. -/
  | misreads (what : Misread)
  /-- It stops as an attempt does. -/
  | stops (cause : Stop)

namespace Halt

/-- A cursor that has to be there. -/
def cursor : Option Float → Except Halt Float
  | some seconds => .ok seconds
  | none => .error (.misreads .cursor)

end Halt

namespace TimeRange

/-- The position of a value, counted from the cursor if it is relative. -/
def guardedPosition (ctx : Context) (cursor : Option Float) (isRelative : Bool) :
    Option TimeValue → Except Halt (Option Float)
  | none => .ok none
  | some value => do
    let seconds ← (value.seconds? ctx).mapError .stops
    if isRelative then
      let cursor ← Halt.cursor cursor
      .ok (some (seconds + cursor))
    else .ok (some seconds)

/-- The parts of a timing that may be absent. -/
def guardedEvaluate? (time : Option TimeRange) (ctx : Context) (cursor : Option Float)
    (label : String) : Except Halt Timing :=
  match time with
  | none => .ok {}
  | some range =>
    if range.start.isNone && range.finish.isSome then
      .error (.stops (.ofTime (.defect (.startRequired label) none)))
    else do
      let start ← guardedPosition ctx cursor range.startIsRelative range.start
      let finish ← guardedPosition ctx cursor range.finishIsRelative range.finish
      let duration ← guardedPosition ctx cursor false range.duration
      .ok ⟨start, finish, duration⟩

end TimeRange

namespace Timing

/-- The authored start, or else the cursor. -/
def guardedStart (timing : Timing) (cursor : Option Float) : Except Halt Float :=
  match timing.start with
  | some start => .ok start
  | none => Halt.cursor cursor

end Timing

namespace Plan

/-- The cursor before a place, if a timing there reads it. -/
def guardedCursor (plan : Plan) (placed : Placed) (index : Nat) (time : Option TimeRange) :
    Except Halt (Option Float) :=
  if TimeRange.needsCursor time then
    (plan.cursor placed index).map some |>.mapError fun anchor => .stops (.waits anchor)
  else .ok none

/-- Place the scene at a place. -/
def guardedScene (plan : Plan) (samples : Samples) (placed : Placed) (index : Nat) (s : Scene) :
    Except Halt Placement := do
  let label := "Scene \"" ++ s.id ++ "\""
  let cursor ← plan.guardedCursor placed index s.time
  let ctx := placed.context plan.fps index
  let timing ← TimeRange.guardedEvaluate? s.time ctx cursor label
  let start ← timing.guardedStart cursor
  let pull ← (earliest placed none (plan.incoming index)).mapError fun anchor =>
    .stops (.waits anchor)
  let parts ← (SceneItem.recallAll samples s.id 0 s.items).mapError fun place =>
    .misreads (.sample place)
  let layout ← (plan.layOut s.id ctx start parts).mapError .stops
  if layout.cues.isEmpty && (timing.finishFrom start).isNone then
    .error (.stops (Stop.compile (.noContent label)))
  else .ok (scenePlacement s start timing pull layout)

/-- The start of the transition at a place. -/
def guardedTransitionStart (plan : Plan) (placed : Placed) (index : Nat) (mode : TransitionMode)
    (timing : Timing) (cursor : Option Float) (seconds : Float) : Except Halt Float :=
  match timing.start, mode, plan.prevScene? index with
  | some start, _, _ => .ok start
  | none, .overlap, some (s, j) =>
    match placed.finish? j with
    | some finish => .ok (Number.larger 0.0 (finish - seconds))
    | none => .error (.stops (.waits (.sceneEnd s.id)))
  | none, _, _ => Halt.cursor cursor

/-- Place the transition at a place. -/
def guardedTransition (plan : Plan) (placed : Placed) (index : Nat) (t : Transition) :
    Except Halt Placement := do
  let label := "Transition \"" ++ t.id ++ "\""
  let cursor ← plan.guardedCursor placed index t.time
  let ctx := placed.context plan.fps index
  let timing ← TimeRange.guardedEvaluate? t.time ctx cursor label
  let seconds ← (transitionSeconds t ctx timing).mapError .stops
  let mode := plan.mode index t
  let start ← plan.guardedTransitionStart placed index mode timing cursor seconds
  let finish := timing.finish.getD (start + seconds)
  if finish < start then .error (.stops (Stop.compile (.endsBeforeStart label finish start)))
  else
    .ok {
      entry := {
        kind := .transition, id := t.id, start, finish
        fromScene := (plan.prevScene? index).map (·.1.id)
        toScene := (plan.nextScene? index).map (·.1.id)
        effect := some t.effect, ease := t.ease, mode := some mode, props := t.props } }

/-- Try to place the entity at an index. -/
def guardedPlace (plan : Plan) (samples : Samples) (placed : Placed) (index : Nat) :
    Except Halt Placement :=
  match plan.items[index]? with
  | some (.scene s) => plan.guardedScene samples placed index s
  | some (.transition t) => plan.guardedTransition placed index t
  | some (.mark m) => (plan.placeMark placed index m).mapError .stops
  | none => .error (.stops (Stop.compile .notConverged))

/-- The placements of some entities, all of which have to be there. -/
def guardedPlacements (placed : Placed) : List Nat → Except Misread (List Placement)
  | [] => .ok []
  | index :: rest =>
    match placed.lookup index with
    | some p => (guardedPlacements placed rest).map (p :: ·)
    | none => .error (.placement index)

end Plan

/-! ## What attempts read is there -/

namespace TimeRange

variable {ctx : Context} {cursor : Option Float} {seconds : Float}

/-- A position that reads no absent cursor is guarded by nothing. -/
theorem guardedPosition_eq {isRelative : Bool} {value : Option TimeValue}
    (held : isRelative = true → cursor = some seconds) :
    guardedPosition ctx cursor isRelative value =
      (position ctx seconds isRelative value).mapError fun cause => .stops (.ofTime cause) := by
  cases value with
  | none => rfl
  | some value =>
    rw [guardedPosition, position, TimeValue.seconds?]
    cases value.evaluate ctx with
    | error cause => rfl
    | ok found =>
      cases isRelative with
      | false => rfl
      | true =>
        rw [held rfl]
        rfl

/-- A timing that reads no absent cursor is guarded by nothing. -/
theorem guardedEvaluate?_eq {time : Option TimeRange} {label : String}
    (held : needsCursor time = true → cursor = some seconds) :
    guardedEvaluate? time ctx cursor label =
      (evaluate? time ctx seconds label).mapError .stops := by
  cases time with
  | none => rfl
  | some range =>
    rw [guardedEvaluate?, evaluate?]
    by_cases uncovered : (range.start.isNone && range.finish.isSome) = true
    · rw [if_pos uncovered, evaluate, if_pos uncovered]
      rfl
    · have heldStart : range.startIsRelative = true → cursor = some seconds := fun relative =>
        held (by simp [needsCursor, relative])
      have heldFinish : range.finishIsRelative = true → cursor = some seconds := fun relative =>
        held (by simp [needsCursor, relative])
      have unread : false = true → cursor = some seconds := by simp
      rw [if_neg uncovered, evaluate_eq range uncovered, guardedPosition_eq heldStart,
        guardedPosition_eq heldFinish, guardedPosition_eq unread]
      cases position ctx seconds range.startIsRelative range.start with
      | error cause => rfl
      | ok start =>
        cases position ctx seconds range.finishIsRelative range.finish with
        | error cause => rfl
        | ok finish => cases position ctx seconds false range.duration <;> rfl

/-- What begins at the cursor holds it. -/
theorem guardedStart_eq {time : Option TimeRange} {timing : Timing}
    (held : needsCursor time = true → cursor = some seconds)
    (solves : Solves time ctx seconds timing) :
    timing.guardedStart cursor = .ok (timing.start.getD seconds) := by
  rw [Timing.guardedStart]
  cases start : timing.start with
  | some moment => rfl
  | none =>
    cases needs : needsCursor time with
    | true =>
      rw [held needs]
      rfl
    | false =>
      have authored := solves.start_isSome needs
      rw [start] at authored
      cases authored

end TimeRange

namespace Plan

variable {plan : Plan} {samples : Samples} {drawn : List (List DrawnItem)} {placed : Placed}
  {index : Nat}

/-- The cursor is held, with the value that it has, where the timing reads it. -/
theorem guardedCursor_cases (plan : Plan) (placed : Placed) (index : Nat)
    (time : Option TimeRange) :
    (∃ stop, plan.cursorFor placed index time = .error stop ∧
        plan.guardedCursor placed index time = .error (.stops stop)) ∨
      ∃ seconds cursor, plan.cursorFor placed index time = .ok seconds ∧
        plan.guardedCursor placed index time = .ok cursor ∧
        (TimeRange.needsCursor time = true → cursor = some seconds) := by
  unfold cursorFor guardedCursor
  cases needs : TimeRange.needsCursor time with
  | false => exact .inr ⟨0.0, none, rfl, rfl, by simp⟩
  | true =>
    cases plan.cursor placed index with
    | error anchor => exact .inl ⟨.waits anchor, rfl, rfl⟩
    | ok seconds => exact .inr ⟨seconds, some seconds, rfl, rfl, fun _ => rfl⟩

/-- An attempt at a scene finds what it reads. -/
theorem guardedScene_eq {s : Scene} {parts : List DrawnItem}
    (recalls : SceneItem.recallAll samples s.id 0 s.items = .ok parts) :
    plan.guardedScene samples placed index s =
      (plan.placeScene placed index s parts).mapError .stops := by
  unfold guardedScene placeScene
  rcases guardedCursor_cases plan placed index s.time with
    ⟨stop, same, sameGuarded⟩ | ⟨seconds, cursor, same, sameGuarded, held⟩
  · rw [same, sameGuarded]
    rfl
  · rw [same, sameGuarded]
    dsimp only [bind, Except.bind]
    rw [TimeRange.guardedEvaluate?_eq held]
    cases found : TimeRange.evaluate? s.time (placed.context plan.fps index) seconds
      ("Scene \"" ++ s.id ++ "\"") with
    | error stop => rfl
    | ok timing =>
      dsimp only [Except.mapError]
      rw [TimeRange.guardedStart_eq held (TimeRange.solves_of_evaluate? found), recalls]
      cases earliest placed none (plan.incoming index) with
      | error anchor => rfl
      | ok pull =>
        dsimp only
        cases plan.layOut s.id (placed.context plan.fps index)
          (timing.start.getD seconds) parts with
        | error stop => rfl
        | ok layout =>
          dsimp only
          split <;> rfl

/-- A transition that begins at the cursor holds it. -/
theorem guardedTransitionStart_eq {t : Transition} {timing : Timing} {mode : TransitionMode}
    {ctx : Context} {cursor : Option Float} {seconds length : Float}
    (held : TimeRange.needsCursor t.time = true → cursor = some seconds)
    (solves : TimeRange.Solves t.time ctx seconds timing) :
    plan.guardedTransitionStart placed index mode timing cursor length =
      (plan.transitionStart placed index mode timing seconds length).mapError .stops := by
  have start := TimeRange.guardedStart_eq held solves
  unfold guardedTransitionStart transitionStart
  unfold Timing.guardedStart at start
  cases authored : timing.start with
  | some moment => rfl
  | none =>
    rw [authored] at start
    have atCursor : Halt.cursor cursor = .ok seconds := start
    cases mode with
    | insert => exact atCursor
    | overlap =>
      cases plan.prevScene? index with
      | none => exact atCursor
      | some before =>
        dsimp only
        cases placed.finish? before.2 <;> rfl

/-- An attempt at a transition finds what it reads. -/
theorem guardedTransition_eq (t : Transition) :
    plan.guardedTransition placed index t =
      (plan.placeTransition placed index t).mapError .stops := by
  unfold guardedTransition placeTransition
  rcases guardedCursor_cases plan placed index t.time with
    ⟨stop, same, sameGuarded⟩ | ⟨seconds, cursor, same, sameGuarded, held⟩
  · rw [same, sameGuarded]
    rfl
  · rw [same, sameGuarded]
    dsimp only [bind, Except.bind]
    rw [TimeRange.guardedEvaluate?_eq held]
    cases found : TimeRange.evaluate? t.time (placed.context plan.fps index) seconds
      ("Transition \"" ++ t.id ++ "\"") with
    | error stop => rfl
    | ok timing =>
      dsimp only [Except.mapError]
      cases transitionSeconds t (placed.context plan.fps index) timing with
      | error stop => rfl
      | ok length =>
        dsimp only
        rw [guardedTransitionStart_eq held (TimeRange.solves_of_evaluate? found)]
        cases plan.transitionStart placed index (plan.mode index t) timing seconds length with
        | error stop => rfl
        | ok start =>
          dsimp only [Except.mapError]
          split <;> rfl

/-- An attempt finds what it reads. -/
theorem guardedPlace_eq (recalls : plan.Recalls samples drawn) :
    plan.guardedPlace samples placed index = (plan.place drawn placed index).mapError .stops := by
  unfold guardedPlace place
  cases present : plan.items[index]? with
  | none => rfl
  | some item =>
    cases item with
    | scene s => exact guardedScene_eq (recalls index s present)
    | transition t => exact guardedTransition_eq t
    | mark m => rfl

/-- All placements are found where all of some entities are placed. -/
theorem guardedPlacements_eq {indices : List Nat}
    (all : ∀ index ∈ indices, ∃ p, placed.lookup index = some p) :
    guardedPlacements placed indices =
      .ok (indices.filterMap fun index => placed.lookup index) := by
  induction indices with
  | nil => rfl
  | cons index rest ih =>
    obtain ⟨p, found⟩ := all index List.mem_cons_self
    rw [guardedPlacements, ih fun j member => all j (List.mem_cons_of_mem _ member),
      List.filterMap_cons, found]
    rfl

end Plan
end Storyboard
