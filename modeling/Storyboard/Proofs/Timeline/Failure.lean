import Storyboard.Proofs.Timeline.Attempt
/-!
# How attempts fail

An attempt at an entity that fails for good does so with an error of an expression or a defect of
the composition, and a fault of arithmetic comes out of a value that the author has written
(`place_faults_of`). Errors about loops and about anchors without a position come from elsewhere.
-/
namespace Storyboard

/-! ## What the author has written -/

/-- The values of a timing, if there is one. -/
def TimeRange.values (time : Option TimeRange) : List TimeValue :=
  (time.bind (·.start)).toList ++ (time.bind (·.finish)).toList ++
    (time.bind (·.duration)).toList

/-- The values of a cue. -/
def Cue.values (c : Cue) : List TimeValue := TimeRange.values c.time ++ c.duration.toList

/-- The values of an entity. -/
def Item.values : Item → List TimeValue
  | .scene s => TimeRange.values s.time ++ s.cues.flatMap Cue.values
  | .transition t => TimeRange.values t.time ++ t.duration.toList
  | .mark m => [m.position]

/-- Whether an error of an expression is no missing position, and comes out of one of some values
if it is a fault of arithmetic. -/
def TimeError.ComesFrom (authored : TimeValue → Prop) : TimeError → Prop
  | .defect _ _ => True
  | .missing _ => False
  | .arithmetic fault =>
    ∃ value ctx, authored value ∧ value.evaluate ctx = .error (.arithmetic fault)

section Expressions

variable {authored : TimeValue → Prop} {ctx : Context} {cursor : Float}

/-- How the evaluation of an authored value fails. -/
theorem TimeValue.evaluate_faults {value : TimeValue} (written : authored value) :
    FailsIn (fun cause => cause.IsMissing ∨ cause.ComesFrom authored) (value.evaluate ctx) := by
  intro cause failed
  cases cause with
  | missing anchor => exact .inl ⟨anchor, rfl⟩
  | defect _ _ => exact .inr trivial
  | arithmetic fault => exact .inr ⟨value, ctx, written, failed⟩

/-- How the position of an authored value fails. -/
theorem TimeRange.position_faults {isRelative : Bool} {value : Option TimeValue}
    (written : ∀ one ∈ value, authored one) :
    FailsIn (fun cause => cause.IsMissing ∨ cause.ComesFrom authored)
      (position ctx cursor isRelative value) := by
  cases value with
  | none => exact .of_ok _
  | some one => exact (TimeValue.evaluate_faults (written one rfl)).map _

/-- How the evaluation of a timing fails. -/
theorem TimeRange.evaluate_faults {range : TimeRange} {label : String}
    (written : ∀ value ∈ values (some range), authored value) :
    FailsIn (fun cause => cause.IsMissing ∨ cause.ComesFrom authored)
      (range.evaluate ctx cursor label) := by
  have part : ∀ value : Option TimeValue,
      value = range.start ∨ value = range.finish ∨ value = range.duration →
        ∀ one ∈ value, authored one := by
    rintro value source one rfl
    refine written one ?_
    rcases source with same | same | same <;> simp [values, ← same]
  by_cases uncovered : (range.start.isNone && range.finish.isSome) = true
  · rw [evaluate, if_pos uncovered]
    exact .of_error (.inr trivial)
  · rw [evaluate_eq range uncovered]
    exact (position_faults (part _ (.inl rfl))).bind fun _ _ =>
      (position_faults (part _ (.inr (.inl rfl)))).bind fun _ _ =>
        (position_faults (part _ (.inr (.inr rfl)))).map _

end Expressions

namespace Stop

/-- Whether an attempt may end so, if the author has written some values: it waits, or fails with
an error of an expression other than a missing position, or with a defect of the composition. -/
def IsFault (authored : TimeValue → Prop) : Stop → Prop
  | .waits _ => True
  | .fails (.time cause) => cause.ComesFrom authored
  | .fails (.compile defect) => defect ≠ .notConverged
  | .fails _ => False

/-- Every error of an authored expression ends an attempt in such a way. -/
theorem isFault_ofTime {authored : TimeValue → Prop} {cause : TimeError}
    (kind : cause.IsMissing ∨ cause.ComesFrom authored) : (ofTime cause).IsFault authored := by
  cases cause with
  | missing anchor => trivial
  | defect _ _ => trivial
  | arithmetic fault =>
    rcases kind with ⟨anchor, same⟩ | comes
    · cases same
    · exact comes

end Stop

namespace Plan

variable {plan : Plan} {placed : Placed} {index : Nat} {ctx : Context}
  {authored : TimeValue → Prop}

/-- How the evaluation of an authored value fails in an attempt. -/
theorem seconds?_faults {value : TimeValue} (written : authored value) :
    FailsIn (Stop.IsFault authored) (value.seconds? ctx) :=
  (TimeValue.evaluate_faults written).mapError _ fun _ => Stop.isFault_ofTime

/-- How the evaluation of a timing fails in an attempt. -/
theorem evaluate?_faults {time : Option TimeRange} (cursor : Float) (label : String)
    (written : ∀ value ∈ TimeRange.values time, authored value) :
    FailsIn (Stop.IsFault authored) (TimeRange.evaluate? time ctx cursor label) := by
  cases time with
  | none => exact .of_ok _
  | some range =>
    exact (TimeRange.evaluate_faults written).mapError _ fun _ => Stop.isFault_ofTime

/-- How the end of a cue fails. -/
theorem cueFinish_faults {c : Cue} (timing : Timing) (start segmentsEnd : Float)
    (written : ∀ value ∈ c.values, authored value) :
    FailsIn (Stop.IsFault authored) (plan.cueFinish c ctx timing start segmentsEnd) := by
  unfold cueFinish
  split
  · exact .of_ok _
  · rename_i duration _ found
    exact (seconds?_faults (written duration (by simp [Cue.values, found]))).map _
  · split
    · exact .of_ok _
    · split <;> exact .of_ok _

/-- How a cue fails. -/
theorem placeCue_faults (sceneId : String) {c : Cue} (beats : List Beat) (now : Float)
    (written : ∀ value ∈ c.values, authored value) :
    FailsIn (Stop.IsFault authored) (plan.placeCue sceneId c beats ctx now) := by
  refine (evaluate?_faults now _ fun value member => written value ?_).bind fun timing _ =>
    (cueFinish_faults timing _ _ written).bind fun finish _ => ?_
  · exact List.mem_append_left _ member
  · split
    · exact .of_error (by simp [Stop.compile, Stop.IsFault])
    · exact .of_ok _

/-- How a layout fails. -/
theorem layOut_faults (sceneId : String) (now : Float) {parts : List DrawnItem}
    (written : ∀ c ∈ DrawnItem.cuesOf parts, ∀ value ∈ c.values, authored value) :
    FailsIn (Stop.IsFault authored) (plan.layOut sceneId ctx now parts) := by
  induction parts generalizing ctx now with
  | nil => exact .of_ok _
  | cons part rest ih =>
    rcases part with ⟨gap, ⟨c, beats⟩ | seconds⟩
    · rw [layOut_cue]
      have own := written c List.mem_cons_self
      have others := fun c' member => written c' (List.mem_cons_of_mem c member)
      exact (placeCue_faults sceneId beats _ own).bind fun window _ =>
        (ih _ others).bind fun _ _ => .of_ok _
    · rw [layOut_pause]
      exact (ih _ written).bind fun _ _ => .of_ok _

/-- How the length of a transition fails. -/
theorem transitionSeconds_faults {t : Transition} (timing : Timing)
    (written : ∀ value ∈ t.duration.toList, authored value) :
    FailsIn (Stop.IsFault authored) (transitionSeconds t ctx timing) := by
  unfold transitionSeconds
  split
  · exact .of_ok _
  · exact .of_ok _
  · rename_i duration _ found _
    exact seconds?_faults (written duration (by simp [found]))
  · exact .of_ok _

/-- How the start of a transition fails. -/
theorem transitionStart_faults (mode : TransitionMode) (timing : Timing)
    (cursor seconds : Float) :
    FailsIn (Stop.IsFault authored)
      (plan.transitionStart placed index mode timing cursor seconds) := by
  unfold transitionStart
  split
  · exact .of_ok _
  · split
    · exact .of_ok _
    · exact .of_error trivial
  · exact .of_ok _

/-- How the cursor for a timing fails. -/
theorem cursorFor_faults (time : Option TimeRange) :
    FailsIn (Stop.IsFault authored) (plan.cursorFor placed index time) := by
  unfold cursorFor
  split
  · exact .of_mapError _ fun _ => trivial
  · exact .of_ok _

/-- How an attempt at a scene fails. -/
theorem placeScene_faults {s : Scene} {parts : List DrawnItem}
    (written : ∀ value ∈ TimeRange.values s.time, authored value)
    (inside : ∀ c ∈ DrawnItem.cuesOf parts, ∀ value ∈ c.values, authored value) :
    FailsIn (Stop.IsFault authored) (plan.placeScene placed index s parts) := by
  refine (cursorFor_faults s.time).bind fun cursor _ => ?_
  refine (evaluate?_faults cursor _ written).bind fun timing _ => ?_
  refine (FailsIn.of_mapError _ fun _ => trivial).bind fun pull _ => ?_
  refine (layOut_faults s.id _ inside).bind fun layout _ => ?_
  split
  · exact .of_error (by simp [Stop.compile, Stop.IsFault])
  · exact .of_ok _

/-- How an attempt at a transition fails. -/
theorem placeTransition_faults {t : Transition}
    (written : ∀ value ∈ (Item.transition t).values, authored value) :
    FailsIn (Stop.IsFault authored) (plan.placeTransition placed index t) := by
  refine (cursorFor_faults t.time).bind fun cursor _ => ?_
  refine (evaluate?_faults cursor _ fun value member =>
    written value (List.mem_append_left _ member)).bind fun timing _ => ?_
  refine (transitionSeconds_faults timing fun value member =>
    written value (List.mem_append_right _ member)).bind fun seconds _ => ?_
  refine (transitionStart_faults _ timing cursor seconds).bind fun start _ => ?_
  dsimp only
  split
  · exact .of_error (by simp [Stop.compile, Stop.IsFault])
  · exact .of_ok _

/-- How an attempt at an entity fails, where the author has written its values and those of the
cues drawn for it. -/
theorem place_faults_of {drawn : List (List DrawnItem)} (inside : index < plan.items.length)
    (written : ∀ value ∈ plan.items[index].values, authored value)
    (cues : ∀ c ∈ DrawnItem.cuesOf (drawn[index]?.getD []), ∀ value ∈ c.values, authored value) :
    FailsIn (Stop.IsFault authored) (plan.place drawn placed index) := by
  unfold place
  rw [List.getElem?_eq_getElem inside]
  generalize plan.items[index] = item at written
  cases item with
  | scene s =>
    exact placeScene_faults (fun value member => written value (List.mem_append_left _ member)) cues
  | transition t => exact placeTransition_faults written
  | mark m =>
    exact (seconds?_faults (written m.position (List.mem_singleton.mpr rfl))).bind fun _ _ =>
      .of_ok _

/-- How an attempt at an entity fails, whatever the author has written. -/
theorem place_faults (drawn : List (List DrawnItem)) (inside : index < plan.items.length) :
    FailsIn (Stop.IsFault fun _ => True) (plan.place drawn placed index) :=
  place_faults_of inside (fun _ _ => trivial) fun _ _ _ _ => trivial

end Plan
end Storyboard
