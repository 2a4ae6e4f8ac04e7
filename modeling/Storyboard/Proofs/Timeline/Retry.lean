import Storyboard.Proofs.Timeline.Table
/-!
# Attempts repeated

An attempt on a larger table comes to the same end, unless it waited (`place_persists`): a
placement is never revised, and an error that is final stays. Each step of an attempt has this
law, and the laws chain.
-/
namespace Storyboard

/-- Whether an attempt ends by waiting for an anchor. -/
def Stop.Waits (cause : Stop) : Prop := ∃ anchor, cause = .waits anchor

/-- An expression that waits for an anchor ends an attempt that waits. -/
theorem Stop.waits_ofTime {cause : TimeError} (missing : cause.IsMissing) :
    (Stop.ofTime cause).Waits := by
  obtain ⟨anchor, rfl⟩ := missing
  exact ⟨anchor, rfl⟩

namespace Placed

variable {placed more : Placed}

/-- Starts stay as they are. -/
theorem Le.start? (grows : placed.Le more) {j : Nat} {value : Float}
    (found : placed.start? j = some value) : more.start? j = some value := by
  obtain ⟨p, held, rfl⟩ := Option.map_eq_some_iff.mp found
  exact Option.map_eq_some_iff.mpr ⟨p, grows j p held, rfl⟩

/-- Ends stay as they are. -/
theorem Le.finish? (grows : placed.Le more) {j : Nat} {value : Float}
    (found : placed.finish? j = some value) : more.finish? j = some value := by
  obtain ⟨p, held, rfl⟩ := Option.map_eq_some_iff.mp found
  exact Option.map_eq_some_iff.mpr ⟨p, grows j p held, rfl⟩

end Placed

/-! ## Steps that read a context -/

section Context

variable {ctx other : Context}

/-- The position of a value persists. -/
theorem TimeRange.position_persists (grows : ctx.ExtendedBy other) (cursor : Float)
    (isRelative : Bool) (value : Option TimeValue) :
    Persists TimeError.IsMissing (position ctx cursor isRelative value)
      (position other cursor isRelative value) := by
  cases value with
  | none => exact .refl _
  | some value => exact (value.evaluate_persists grows).map _

/-- A position is the same in a context that knows more. -/
theorem TimeRange.IsPosition.of_extendedBy {origin : Float} {isRelative : Bool}
    {value : Option TimeValue} {found : Option Float}
    (is : IsPosition ctx origin isRelative value found) (grows : ctx.ExtendedBy other) :
    IsPosition other origin isRelative value found :=
  isPosition_iff.mpr ((position_persists grows origin _ _).of_ok (isPosition_iff.mp is))

/-- The parts of a timing are the same in a context that knows more. -/
theorem TimeRange.Solves.of_extendedBy {time : Option TimeRange} {cursor : Float}
    {timing : Timing} (solves : Solves time ctx cursor timing) (grows : ctx.ExtendedBy other) :
    Solves time other cursor timing :=
  ⟨solves.start.of_extendedBy grows, solves.finish.of_extendedBy grows,
    solves.duration.of_extendedBy grows⟩

/-- The parts of a timing persist. -/
theorem TimeRange.evaluate?_persists (grows : ctx.ExtendedBy other) (time : Option TimeRange)
    (cursor : Float) (label : String) :
    Persists Stop.Waits (evaluate? time ctx cursor label)
      (evaluate? time other cursor label) := by
  cases time with
  | none => exact .refl _
  | some range =>
    refine Persists.mapError (?_ : Persists TimeError.IsMissing _ _) _ fun _ => Stop.waits_ofTime
    by_cases uncovered : (range.start.isNone && range.finish.isSome) = true
    · rw [evaluate, evaluate, if_pos uncovered, if_pos uncovered]
      exact .refl _
    · rw [evaluate_eq range uncovered, evaluate_eq range uncovered]
      exact (position_persists grows cursor _ _).bind fun start _ =>
        (position_persists grows cursor _ _).bind fun finish _ =>
          (position_persists grows cursor _ _).map _

/-- The seconds of a value persist. -/
theorem TimeValue.seconds?_persists (grows : ctx.ExtendedBy other) (value : TimeValue) :
    Persists Stop.Waits (value.seconds? ctx) (value.seconds? other) :=
  (value.evaluate_persists grows).mapError _ fun _ => Stop.waits_ofTime

namespace Plan

variable {plan : Plan}

/-- The end of a cue persists. -/
theorem cueFinish_persists (grows : ctx.ExtendedBy other) (c : Cue) (timing : Timing)
    (start segmentsEnd : Float) :
    Persists Stop.Waits (plan.cueFinish c ctx timing start segmentsEnd)
      (plan.cueFinish c other timing start segmentsEnd) := by
  unfold cueFinish
  cases timing.finishFrom start with
  | some finish => exact .refl _
  | none =>
    cases c.duration with
    | none => exact .refl _
    | some duration => exact (duration.seconds?_persists grows).map _

/-- The window of a cue persists. -/
theorem placeCue_persists (grows : ctx.ExtendedBy other) (sceneId : String) (c : Cue)
    (beats : List Beat) (now : Float) :
    Persists Stop.Waits (plan.placeCue sceneId c beats ctx now)
      (plan.placeCue sceneId c beats other now) :=
  (TimeRange.evaluate?_persists grows c.time now _).bind fun timing _ =>
    (cueFinish_persists grows c timing _ _).bind fun _ _ => .refl _

/-- The layout of the parts of a scene persists. -/
theorem layOut_persists (grows : ctx.ExtendedBy other) (sceneId : String) (now : Float)
    (parts : List DrawnItem) :
    Persists Stop.Waits (plan.layOut sceneId ctx now parts)
      (plan.layOut sceneId other now parts) := by
  induction parts generalizing ctx other now with
  | nil => exact .refl _
  | cons part rest ih =>
    rcases part with ⟨gap, ⟨c, beats⟩ | seconds⟩
    · rw [layOut_cue, layOut_cue]
      refine (placeCue_persists grows sceneId c beats _).bind fun window _ => ?_
      exact (ih (grows.withCue window.id window.start) _).bind fun _ _ => .refl _
    · rw [layOut_pause, layOut_pause]
      exact (ih grows _).bind fun _ _ => .refl _

/-- The length of a transition persists. -/
theorem transitionSeconds_persists (grows : ctx.ExtendedBy other) (t : Transition)
    (timing : Timing) :
    Persists Stop.Waits (transitionSeconds t ctx timing)
      (transitionSeconds t other timing) := by
  unfold transitionSeconds
  split
  · exact .refl _
  · exact .refl _
  · exact TimeValue.seconds?_persists grows _
  · exact .refl _

end Plan

end Context

/-! ## Steps that read a table -/

namespace Plan

variable {plan : Plan} {placed more : Placed}

/-- The cursor persists. -/
theorem cursor_persists (grows : placed.Le more) (index : Nat) :
    Persists (fun _ => True) (plan.cursor placed index) (plan.cursor more index) := by
  rcases plan.cursor_cases index with ⟨_, cursor⟩ | ⟨j, anchor, _, _, cursor⟩
  · rw [cursor, cursor]
    exact .refl _
  · rw [cursor, cursor]
    cases found : placed.finish? j with
    | none => exact .of_waits trivial
    | some finish =>
      rw [grows.finish? found]
      exact .refl _

/-- The cursor for a timing persists. -/
theorem cursorFor_persists (grows : placed.Le more) (index : Nat) (time : Option TimeRange) :
    Persists Stop.Waits (plan.cursorFor placed index time)
      (plan.cursorFor more index time) := by
  unfold cursorFor
  split
  · exact (cursor_persists grows index).mapError _ fun anchor _ => ⟨anchor, rfl⟩
  · exact .refl _

/-- The earliest start among transitions persists. -/
theorem earliest_persists (grows : placed.Le more) (found : Option Float)
    (transitions : List (Transition × Nat)) :
    Persists (fun _ => True) (earliest placed found transitions)
      (earliest more found transitions) := by
  induction transitions generalizing found with
  | nil => exact .refl _
  | cons first rest ih =>
    obtain ⟨t, j⟩ := first
    rw [earliest, earliest]
    cases known : placed.start? j with
    | none => exact .of_waits trivial
    | some start =>
      rw [grows.start? known]
      exact ih _

/-- The start of a transition persists. -/
theorem transitionStart_persists (grows : placed.Le more) (index : Nat) (mode : TransitionMode)
    (timing : Timing) (cursor seconds : Float) :
    Persists Stop.Waits (plan.transitionStart placed index mode timing cursor seconds)
      (plan.transitionStart more index mode timing cursor seconds) := by
  unfold transitionStart
  split
  · exact .refl _
  · rename_i s j _ _
    cases known : placed.finish? j with
    | none => exact .of_waits ⟨_, rfl⟩
    | some finish =>
      rw [grows.finish? known]
      exact .refl _
  · exact .refl _

/-! ## Whole attempts -/

/-- An attempt at a scene persists. -/
theorem placeScene_persists {index : Nat} (grows : placed.Le more)
    (known : (placed.context plan.fps index).ExtendedBy (more.context plan.fps index)) (s : Scene)
    (parts : List DrawnItem) :
    Persists Stop.Waits (plan.placeScene placed index s parts)
      (plan.placeScene more index s parts) := by
  refine (cursorFor_persists grows index s.time).bind fun cursor _ => ?_
  refine (TimeRange.evaluate?_persists known s.time cursor _).bind fun timing _ => ?_
  have pulls : Persists Stop.Waits
      ((earliest placed none (plan.incoming index)).mapError .waits)
      ((earliest more none (plan.incoming index)).mapError .waits) :=
    (earliest_persists grows none _).mapError _ fun anchor _ => ⟨anchor, rfl⟩
  refine pulls.bind fun pull _ => ?_
  exact (layOut_persists known s.id _ parts).bind fun layout _ => .refl _

/-- An attempt at a transition persists. -/
theorem placeTransition_persists {index : Nat} (grows : placed.Le more)
    (known : (placed.context plan.fps index).ExtendedBy (more.context plan.fps index))
    (t : Transition) :
    Persists Stop.Waits (plan.placeTransition placed index t)
      (plan.placeTransition more index t) := by
  refine (cursorFor_persists grows index t.time).bind fun cursor _ => ?_
  refine (TimeRange.evaluate?_persists known t.time cursor _).bind fun timing _ => ?_
  refine (transitionSeconds_persists known t timing).bind fun seconds _ => ?_
  exact (transitionStart_persists grows index _ timing cursor seconds).bind fun _ _ => .refl _

/-- An attempt at a mark persists. -/
theorem placeMark_persists {index : Nat}
    (known : (placed.context plan.fps index).ExtendedBy (more.context plan.fps index)) (m : Mark) :
    Persists Stop.Waits (plan.placeMark placed index m) (plan.placeMark more index m) :=
  (m.position.seconds?_persists known).bind fun _ _ => .refl _

/-- An attempt on a larger table comes to the same end, unless it waited. -/
theorem place_persists (drawn : List (List DrawnItem)) (unique : plan.HasUniqueNames)
    (faithful : plan.Faithful placed) (faithfulMore : plan.Faithful more)
    (grows : placed.Le more) (index : Nat) :
    Persists Stop.Waits (plan.place drawn placed index) (plan.place drawn more index) := by
  have known := faithful.context_extendedBy unique faithfulMore grows index
  unfold place
  cases plan.items[index]? with
  | none => exact .refl _
  | some item =>
    cases item with
    | scene s => exact placeScene_persists grows known s _
    | transition t => exact placeTransition_persists grows known t
    | mark m => exact placeMark_persists known m

end Plan
end Storyboard
