import Storyboard.Keyframe.Value
import Storyboard.Number.Literal
import Storyboard.Order.Sort
/-!
# Schedules

A schedule writes keyframes in one line: a frame, a colon, and a value in parentheses, as in
`0:(1), 30:("b")`. What stands between such pairs does not count. A text without any pair is a
single value at the first frame, and zero if it is no number.
-/
namespace Storyboard.Schedule

/-- The decimal digits at the front of a text, and the rest. -/
def digits (text : List Char) : List Char × List Char :=
  (text.takeWhile Text.isDecimal, text.dropWhile Text.isDecimal)

/-- A frame at the front of a text, digits with an optional fraction, and the rest. -/
def frame? (text : List Char) : Option (List Char × List Char) :=
  let (whole, rest) := digits text
  if whole.isEmpty then none
  else
    match rest with
    | '.' :: more =>
      let (fraction, after) := digits more
      if fraction.isEmpty then some (whole, rest) else some (whole ++ '.' :: fraction, after)
    | _ => some (whole, rest)

/-- What stands in parentheses at the front of a text, behind a colon with any blanks around it,
and the rest. -/
def enclosed? (text : List Char) : Option (List Char × List Char) :=
  match text.dropWhile Text.isBlank with
  | ':' :: rest =>
    match rest.dropWhile Text.isBlank with
    | '(' :: inner =>
      match inner.dropWhile (· != ')') with
      | _ :: after => some (inner.takeWhile (· != ')'), after)
      | [] => none
    | _ => none
  | _ => none

/-- A pair at the front of a text: the text of its frame, that of its value, and the rest. -/
def pair? (text : List Char) : Option (List Char × List Char × List Char) :=
  match frame? text with
  | none => none
  | some (frame, behind) =>
    match enclosed? behind with
    | none => none
    | some (value, rest) => some (frame, value, rest)

/-- What is left behind a pair is shorter. -/
theorem length_of_enclosed? {text value rest : List Char}
    (h : enclosed? text = some (value, rest)) : rest.length < text.length := by
  unfold enclosed? at h
  have blanks := (List.dropWhile_suffix (l := text) Text.isBlank).length_le
  split at h
  next more first =>
    have inner := (List.dropWhile_suffix (l := more) Text.isBlank).length_le
    split at h
    next body second =>
      have last := (List.dropWhile_suffix (l := body) (· != ')')).length_le
      split at h
      next after third =>
        simp only [Option.some.injEq, Prod.mk.injEq] at h
        obtain ⟨_, rfl⟩ := h
        rw [first] at blanks
        rw [second] at inner
        rw [third] at last
        simp only [List.length_cons] at *
        omega
      · simp at h
    · simp at h
  · simp at h

/-- Behind a frame there is no more than before. -/
theorem length_of_frame? {text frame rest : List Char} (h : frame? text = some (frame, rest)) :
    rest.length ≤ text.length := by
  unfold frame? digits at h
  have front := (List.dropWhile_suffix (l := text) Text.isDecimal).length_le
  simp only at h
  split at h
  · simp at h
  · split at h
    next more first =>
      have back := (List.dropWhile_suffix (l := more) Text.isDecimal).length_le
      split at h
      · simp only [Option.some.injEq, Prod.mk.injEq] at h
        obtain ⟨_, rfl⟩ := h
        exact first ▸ front
      · simp only [Option.some.injEq, Prod.mk.injEq] at h
        obtain ⟨_, rfl⟩ := h
        rw [first, List.length_cons] at front
        omega
    · simp only [Option.some.injEq, Prod.mk.injEq] at h
      obtain ⟨_, rfl⟩ := h
      exact front

/-- What is left behind a pair is shorter. -/
theorem length_of_pair? {text frame value rest : List Char}
    (h : pair? text = some (frame, value, rest)) : rest.length < text.length := by
  unfold pair? at h
  split at h
  · simp at h
  next first =>
    split at h
    · simp at h
    next second =>
      simp only [Option.some.injEq, Prod.mk.injEq] at h
      obtain ⟨_, _, rfl⟩ := h
      have := length_of_frame? first
      have := length_of_enclosed? second
      omega

/-- All pairs of a text, from the left, as the texts of their frames and values. -/
def pairs (text : List Char) : List (List Char × List Char) :=
  match text with
  | [] => []
  | c :: rest =>
    match _found : pair? (c :: rest) with
    | some (frame, value, after) => (frame, value) :: pairs after
    | none => pairs rest
termination_by text.length
decreasing_by
  · exact length_of_pair? _found
  · simp

/-- A text without the quotes around it, if there are any. -/
def unquote (text : List Char) : List Char :=
  match text with
  | quote :: rest =>
    if (quote = '"' || quote = '\'') && rest.getLast? = some quote then rest.dropLast else text
  | [] => []

/-- A value as written: a number, or a text, which may stand in quotes. -/
def value (text : List Char) : Value :=
  let trimmed := Text.trim text
  match Number.ofText? trimmed with
  | some x => .number x
  | none => .text (String.ofList (unquote trimmed))

/-- The frame that a text writes. -/
def frameNumber (text : List Char) : Float := (Number.ofText? text).getD 0.0

/-- Zero at the first frame. -/
def fallback : List (Float × Value) := [(0.0, .number 0.0)]

/-- The keyframes of a schedule, ordered by frame; pairs without a value do not count. -/
def parse (text : String) : List (Float × Value) :=
  let trimmed := Text.trim text.toList
  match pairs trimmed with
  | [] => [(0.0, .number ((Number.ofText? trimmed).getD 0.0))]
  | found =>
    let kept := found.filter fun pair => !(Text.trim pair.2).isEmpty
    if kept.isEmpty then fallback
    else
      Order.sortBy Prod.fst (kept.map fun pair => (frameNumber pair.1, value pair.2))

end Storyboard.Schedule
