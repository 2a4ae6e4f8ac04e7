import Storyboard.Proofs.Expr.References
import Storyboard.Proofs.Number.Floors
/-!
# The faults of arithmetic in expressions

Literals, units, signs, operators, bounds and anchors never fail by arithmetic where a second has
frames: the four operations overflow to an infinity, and division by zero is a defect of the text.
The one operation of the language that can fail is the floor inside `snap`, of a quotient that is
infinite or no number (`Expr.eval_fault`). So a text has a position, or a defect that names it, or
an anchor to wait for, or such a snap (`TimeValue.evaluate_outcome`); and there are finite positions
that a snap fails on (`TimeValue.farMark_snap_overflows`).
-/
namespace Storyboard

namespace Expr

/-! ## The snaps of an expression -/

/-- What is snapped, and to which grid, where two arguments are given. -/
def snapOf : List Expr → List (Expr × Expr)
  | [value, grid] => [(value, grid)]
  | _ => []

mutual

/-- What is snapped in an expression, each with its grid, in the order of evaluation. -/
def snaps : Expr → List (Expr × Expr)
  | .number _ _ => []
  | .identifier _ => []
  | .unary _ operand => snaps operand
  | .binary _ left right => snaps left ++ snaps right
  | .call function args => snapsAll args ++ if function = "snap" then snapOf args else []
  | .property _ _ => []

/-- What is snapped in arguments, from the left. -/
def snapsAll : List Expr → List (Expr × Expr)
  | [] => []
  | first :: rest => snaps first ++ snapsAll rest

end

/-- Whether a snap fails: its quotient, with the half that makes the floor round, has no floor. -/
def SnapFails (ctx : Context) (snap : Expr × Expr) (fault : Fault) : Prop :=
  ∃ value grid, eval ctx snap.1 = .ok value ∧ eval ctx snap.2 = .ok grid ∧ ¬ (grid == 0.0) = true ∧
    ((fault = .overflow ∧ (value / grid + 0.5).isInf = true) ∨
      (fault = .undefinedInteger ∧ (value / grid + 0.5).isNaN = true))

/-! ## The operation that fails -/

variable {ctx : Context} {fault : Fault}

/-- Snapping fails only where its quotient has no floor. -/
theorem snap_fault {value grid : Float} (failed : snap value grid = .error (.arithmetic fault)) :
    ¬ (grid == 0.0) = true ∧
      ((fault = .overflow ∧ (value / grid + 0.5).isInf = true) ∨
        (fault = .undefinedInteger ∧ (value / grid + 0.5).isNaN = true)) := by
  unfold snap at failed
  split at failed
  · cases failed
  · rename_i nonzero
    cases floored : Number.floor (value / grid + 0.5) with
    | ok count => simp [floored] at failed
    | error other =>
      simp only [floored, Except.error.injEq, TimeError.arithmetic.injEq] at failed
      subst failed
      exact ⟨nonzero, (Binary64.floor_eq_error floored).symm⟩

/-- Of the functions that there are, only snapping fails by arithmetic, and on two values. -/
theorem applyFunction_fault {function : String} {count : Nat} {values : List Float}
    (counted : checkArity function count = .ok ())
    (failed : applyFunction function values = .error (.arithmetic fault)) :
    function = "snap" ∧ ∃ value grid, values = [value, grid] ∧
      snap value grid = .error (.arithmetic fault) := by
  unfold applyFunction at failed
  split at failed
  · split at failed <;> cases failed
  split at failed
  · split at failed <;> cases failed
  split at failed
  · split at failed <;> cases failed
  rename_i notMin notMax notClamp
  have snapping : function = "snap" := by
    by_contra other
    simp [checkArity, notMin, notMax, notClamp, other] at counted
  split at failed
  · rename_i value grid
    exact ⟨snapping, value, grid, rfl, failed⟩
  · cases failed

/-- Two values are those of two arguments. -/
theorem evalAll_eq_pair {args : List Expr} {one two : Float}
    (done : evalAll ctx args = .ok [one, two]) :
    ∃ first second, args = [first, second] ∧ eval ctx first = .ok one ∧
      eval ctx second = .ok two := by
  cases args with
  | nil => cases done
  | cons first rest =>
    obtain ⟨_, _, foundFirst, foundRest, ⟨⟩⟩ := evalAll_cons_eq_ok done
    cases rest with
    | nil => cases foundRest
    | cons second others =>
      obtain ⟨_, _, foundSecond, foundOthers, ⟨⟩⟩ := evalAll_cons_eq_ok foundRest
      cases others with
      | nil => exact ⟨first, second, rfl, foundFirst, foundSecond⟩
      | cons third last =>
        obtain ⟨_, _, _, _, ⟨⟩⟩ := evalAll_cons_eq_ok foundOthers

mutual

/-- Where a second has frames, an expression fails by arithmetic only in a snap that does. -/
theorem eval_fault (positive : 0.0 < ctx.fps) : ∀ e : Expr,
    eval ctx e = .error (.arithmetic fault) → ∃ snap ∈ snaps e, SnapFails ctx snap fault
  | .number value unit, failed => by
    rw [eval] at failed
    exact absurd (inSeconds_eq_error failed).2 (Binary64.ne_zero_of_pos positive)
  | .identifier name, failed => by
    rw [eval] at failed
    split at failed <;> simp at failed
  | .unary op operand, failed => by
    rw [eval_unary] at failed
    rw [snaps]
    exact eval_fault positive operand (map_eq_error failed)
  | .binary op left right, failed => by
    rw [eval_binary] at failed
    simp only [snaps, List.mem_append]
    rcases bind_eq_error failed with inLeft | ⟨l, _, later⟩
    · obtain ⟨snap, member, fails⟩ := eval_fault positive left inLeft
      exact ⟨snap, .inl member, fails⟩
    · rcases bind_eq_error later with inRight | ⟨r, _, applied⟩
      · obtain ⟨snap, member, fails⟩ := eval_fault positive right inRight
        exact ⟨snap, .inr member, fails⟩
      · exact absurd (apply_fails op l r _ applied) (TimeError.not_isDefect_arithmetic _)
  | .call function args, failed => by
    simp only [snaps, List.mem_append]
    cases named : namedAnchor? function with
    | none =>
      rw [eval_call_of_none ctx function args named] at failed
      rcases bind_eq_error failed with uncounted | ⟨_, counted, later⟩
      · exact absurd (checkArity_fails _ _ _ uncounted) (TimeError.not_isDefect_arithmetic _)
      rcases bind_eq_error later with inArgs | ⟨values, found, applied⟩
      · obtain ⟨snap, member, fails⟩ := evalAll_fault positive args inArgs
        exact ⟨snap, .inl member, fails⟩
      · -- Only snapping is left, and its values are those of its two arguments.
        obtain ⟨rfl, value, grid, rfl, stopped⟩ := applyFunction_fault counted applied
        obtain ⟨first, second, rfl, foundValue, foundGrid⟩ := evalAll_eq_pair found
        exact ⟨(first, second), .inr (by simp [snapOf]), value, grid, foundValue, foundGrid,
          snap_fault stopped⟩
    | some kind =>
      rw [eval, named] at failed
      cases sole : soleName function args with
      | error cause =>
        simp only [sole] at failed
        cases failed
        exact absurd (soleName_fails _ _ _ sole) (TimeError.not_isDefect_arithmetic _)
      | ok ref =>
        simp only [sole] at failed
        cases (readAnchor_eq_error failed).1
  | .property target name, failed => by
    rw [eval] at failed
    cases read : propertyAnchor target name with
    | error cause =>
      simp only [read] at failed
      cases failed
      exact absurd (propertyAnchor_fails _ _ _ read) (TimeError.not_isDefect_arithmetic _)
    | ok anchor =>
      simp only [read] at failed
      cases (readAnchor_eq_error failed).1

/-- Arguments fail by arithmetic likewise. -/
theorem evalAll_fault (positive : 0.0 < ctx.fps) : ∀ args : List Expr,
    evalAll ctx args = .error (.arithmetic fault) → ∃ snap ∈ snapsAll args, SnapFails ctx snap fault
  | [], failed => by
    rw [evalAll] at failed
    cases failed
  | first :: rest, failed => by
    rw [evalAll_cons] at failed
    simp only [snapsAll, List.mem_append]
    rcases bind_eq_error failed with inFirst | ⟨value, _, later⟩
    · obtain ⟨snap, member, fails⟩ := eval_fault positive first inFirst
      exact ⟨snap, .inl member, fails⟩
    · obtain ⟨snap, member, fails⟩ := evalAll_fault positive rest (map_eq_error later)
      exact ⟨snap, .inr member, fails⟩

end

end Expr

/-! ## Texts -/

/-- An expression keeps the text it was read from. -/
theorem TimeExpression.text_of_parse {text : String} {parsed : TimeExpression}
    (done : parse text = .ok parsed) : parsed.text = String.ofList (Text.trim text.toList) := by
  unfold parse at done
  dsimp only at done
  split at done
  · rw [← Except.ok.inj done]
  · cases done

namespace TimeValue

/-- What is snapped in a position as authored; a text that is no expression snaps nothing. -/
def snaps : TimeValue → List (Expr × Expr)
  | .seconds _ => []
  | .expression text =>
    match TimeExpression.parse text with
    | .ok parsed => parsed.tree.snaps
    | .error _ => []

/-- Where a second has frames, a text has a position, or a defect that is reported with it, or it
waits for an anchor that it reads and that is not known, or one of its snaps fails: of a quotient
that is infinite by an overflow, and of one that is no number by that. -/
theorem evaluate_outcome (text : String) (ctx : Context) (positive : 0.0 < ctx.fps) :
    (∃ position, (expression text).evaluate ctx = .ok position) ∨
      (∃ flaw, (expression text).evaluate ctx =
        .error (.defect flaw (some (String.ofList (Text.trim text.toList))))) ∨
      (∃ anchor ∈ (expression text).reads, ctx.lookup? anchor = none ∧
        (expression text).evaluate ctx = .error (.missing anchor)) ∨
      (∃ fault, ∃ snap ∈ (expression text).snaps, Expr.SnapFails ctx snap fault ∧
        (expression text).evaluate ctx = .error (.arithmetic fault)) := by
  cases outcome : (expression text).evaluate ctx with
  | ok position => exact .inl ⟨position, rfl⟩
  | error cause =>
    rcases bind_eq_error outcome with unread | ⟨parsed, read, failed⟩
    · obtain ⟨flaw, rfl⟩ := TimeExpression.parse_eq_error unread
      exact .inr (.inl ⟨flaw, rfl⟩)
    obtain ⟨origin, stopped, rfl⟩ := mapError_eq_error failed
    cases origin with
    | defect flaw note =>
      rw [TimeError.within, TimeExpression.text_of_parse read]
      exact .inr (.inl ⟨flaw, rfl⟩)
    | missing anchor =>
      obtain ⟨member, unknown⟩ := evaluate_missing outcome
      exact .inr (.inr (.inl ⟨anchor, member, unknown, rfl⟩))
    | arithmetic fault =>
      obtain ⟨snap, member, fails⟩ := Expr.eval_fault positive parsed.tree stopped
      rw [snaps, read]
      exact .inr (.inr (.inr ⟨fault, snap, member, fails, rfl⟩))

/-- The fault of arithmetic that an outcome is, if it is one. -/
def fault? : Except TimeError Float → Option Fault
  | .error (.arithmetic fault) => some fault
  | _ => none

/-- What shows a fault of arithmetic ends with it. -/
theorem eq_of_fault? {outcome : Except TimeError Float} {fault : Fault}
    (shown : fault? outcome = some fault) : outcome = .error (.arithmetic fault) := by
  unfold fault? at shown
  split at shown
  · rw [Option.some.inj shown]
  · cases shown

/-- Thirty frames in a second, and a mark at the largest double. -/
def farMark : Context where
  fps := 30.0
  markStarts := [("far", 1.7976931348623157e308)]

/-- Twice the position of the mark is infinite, so its difference to itself is no number and has no
multiple of a second next to it. -/
theorem farMark_outcome : 0.0 < farMark.fps ∧
    ∃ snap ∈ (expression "snap(2 * mark(far) - 2 * mark(far), 1)").snaps,
      Expr.SnapFails farMark snap .undefinedInteger := by
  have positive : 0.0 < farMark.fps := by decide +kernel
  have stopped : (expression "snap(2 * mark(far) - 2 * mark(far), 1)").evaluate farMark =
      .error (.arithmetic .undefinedInteger) := eq_of_fault? (by decide +kernel)
  refine ⟨positive, ?_⟩
  rcases evaluate_outcome "snap(2 * mark(far) - 2 * mark(far), 1)" farMark positive with
    ⟨_, done⟩ | ⟨_, defective⟩ | ⟨_, _, _, waits⟩ | ⟨fault, snap, member, fails, failed⟩
  · rw [stopped] at done
    cases done
  · rw [stopped] at defective
    cases defective
  · rw [stopped] at waits
    cases waits
  · rw [stopped] at failed
    cases failed
    exact ⟨snap, member, fails⟩

/-- All that is known is finite and a second has frames, and the largest double is a multiple of a
half; yet snapping it to halves is no position, no defect and no wait, but an overflow. -/
theorem farMark_snap_overflows : 0.0 < farMark.fps ∧
    (∀ anchor position, farMark.lookup? anchor = some position → position.isFinite = true) ∧
    (expression "snap(mark(far), 0.5)").evaluate farMark = .error (.arithmetic .overflow) := by
  refine ⟨by decide +kernel, ?_, eq_of_fault? (by decide +kernel)⟩
  rintro ⟨kind, ref⟩ position known
  cases kind with
  | timelineStart =>
    cases known
    decide +kernel
  | markStart =>
    obtain ⟨name, rfl, found⟩ := Option.bind_eq_some_iff.mp known
    simp only [farMark, List.lookup_cons, List.lookup_nil] at found
    split at found
    · rw [← Option.some.inj found]
      decide +kernel
    · cases found
  | sceneStart | sceneEnd | cueStart =>
    obtain ⟨_, _, found⟩ := Option.bind_eq_some_iff.mp known
    cases found
  | prevStart | prevEnd | nextStart | transition => cases known

end TimeValue
end Storyboard
