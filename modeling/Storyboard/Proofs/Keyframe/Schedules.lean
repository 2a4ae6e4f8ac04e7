import Storyboard.Keyframe.Schedule
import Storyboard.Proofs.Expr.Spelling
import Storyboard.Proofs.Keyframe.Scan
import Storyboard.Proofs.Number.Decimals
/-!
# Schedules read back

A schedule that is written pair by pair, each text in quotes, is read as these pairs. A pair is
found where it stands as it begins with a digit and nothing between two pairs does, and it ends at
the first closing parenthesis, which no text holds. Its value keeps the quotes, so whatever the text
is the value is neither empty nor a number, and the quotes that are taken off are those that were
put on.

Main statement: the keyframes are those of the pairs, in stable order (`Schedule.parse_render`).
-/
namespace Storyboard.Schedule

open Binary64

/-- A pair of a frame and a text as it is written. -/
structure WrittenPair where
  /-- The digits of the frame in front of the point. -/
  whole : List Char
  /-- The digits behind the point, which is left out with them. -/
  fraction : List Char
  /-- The blanks in front of the colon. -/
  before : List Char
  /-- The blanks behind the colon. -/
  after : List Char
  /-- The text. -/
  text : String
  /-- There are digits in front of the point. -/
  some_digits : whole ≠ []
  /-- All of them are digits. -/
  digits : ∀ c ∈ whole ++ fraction, Text.isDecimal c = true
  /-- Around the colon there is nothing but blanks. -/
  blanks : ∀ c ∈ before ++ after, Text.isBlank c = true
  /-- Nothing in the text closes the parenthesis. -/
  unclosed : ')' ∉ text.toList

namespace WrittenPair

/-- The frame as it is written. -/
def frameText (pair : WrittenPair) : List Char :=
  pair.whole ++ if pair.fraction = [] then [] else '.' :: pair.fraction

/-- The text in quotes. -/
def quoted (pair : WrittenPair) : List Char := '"' :: (pair.text.toList ++ ['"'])

/-- The pair as it is written. -/
def render (pair : WrittenPair) : List Char :=
  pair.frameText ++ (pair.before ++ ':' :: (pair.after ++ '(' :: (pair.quoted ++ [')'])))

/-- The frame as a decimal number. -/
def decimal (pair : WrittenPair) : Decimal :=
  ⟨Number.ofDigits ((pair.whole ++ pair.fraction).filterMap Text.decimalValue),
    -(pair.fraction.length : Int)⟩

/-- The keyframe that the pair means. -/
def keyframe (pair : WrittenPair) : Float × Value := (pair.decimal.toFloat, .text pair.text)

end WrittenPair

/-- A schedule as it is written, with a comma and a space between pairs. -/
def render (written : List WrittenPair) : List Char :=
  [',', ' '].intercalate (written.map WrittenPair.render)

/-! ## One pair -/

/-- A run of characters of a class is taken up to one that is not of it. -/
theorem span_append {p : Char → Bool} {run : List Char} (all : ∀ c ∈ run, p c = true)
    {stop : Char} (stops : p stop = false) (rest : List Char) :
    (run ++ stop :: rest).takeWhile p = run ∧
      (run ++ stop :: rest).dropWhile p = stop :: rest := by
  have ends : ¬ p stop = true := Bool.eq_false_iff.mp stops
  rw [List.takeWhile_append_of_pos all, List.dropWhile_append_of_pos all,
    List.takeWhile_cons_of_neg ends, List.dropWhile_cons_of_neg ends, List.append_nil]
  exact ⟨rfl, rfl⟩

/-- Digits are read up to what is no digit. -/
theorem digits_append {run : List Char} (all : ∀ c ∈ run, Text.isDecimal c = true) {stop : Char}
    (stops : Text.isDecimal stop = false) (rest : List Char) :
    digits (run ++ stop :: rest) = (run, stop :: rest) := by
  obtain ⟨taken, left⟩ := span_append all stops rest
  rw [digits, taken, left]

namespace WrittenPair

variable (pair : WrittenPair)

/-- A frame is read up to what does not go on with it. -/
theorem frame?_frameText {stop : Char} (noDigit : Text.isDecimal stop = false)
    (noPoint : stop ≠ '.') (rest : List Char) :
    frame? (pair.frameText ++ stop :: rest) = some (pair.frameText, stop :: rest) := by
  obtain ⟨whole, fraction⟩ := List.forall_mem_append.mp pair.digits
  have some_digits : pair.whole.isEmpty = false := List.isEmpty_eq_false_iff.mpr pair.some_digits
  rw [frameText, frame?]
  by_cases without : pair.fraction = []
  · rw [if_pos without, List.append_nil, digits_append whole noDigit]
    dsimp only
    rw [some_digits, if_neg Bool.false_ne_true]
    split
    · rename_i same
      exact absurd (List.cons.inj same).1 noPoint
    · rfl
  · have noDigitPoint : Text.isDecimal '.' = false := by decide
    have point := digits_append whole noDigitPoint (pair.fraction ++ stop :: rest)
    have ends := digits_append fraction noDigit rest
    rw [if_neg without, List.append_assoc, List.cons_append]
    have more_digits : pair.fraction.isEmpty = false := List.isEmpty_eq_false_iff.mpr without
    simp only [point, ends, some_digits, more_digits, Bool.false_eq_true, if_false]

/-- What is enclosed behind the colon is read up to the parenthesis that closes it. -/
theorem enclosed?_quoted (rest : List Char) :
    enclosed? (pair.before ++ ':' :: (pair.after ++ '(' :: (pair.quoted ++ ')' :: rest))) =
      some (pair.quoted, rest) := by
  obtain ⟨before, after⟩ := List.forall_mem_append.mp pair.blanks
  have unclosed : ∀ c ∈ pair.quoted, (c != ')') = true := by
    intro c member
    rw [bne_iff_ne]
    rintro rfl
    rcases List.mem_cons.mp member with quote | member
    · exact absurd quote (by decide)
    · rcases List.mem_append.mp member with inside | quote
      · exact pair.unclosed inside
      · exact absurd (List.mem_singleton.mp quote) (by decide)
  have colonStops : Text.isBlank ':' = false := by decide
  have openingStops : Text.isBlank '(' = false := by decide
  have closingStops : (')' != ')') = false := by decide
  have colon := fun rest => (span_append before colonStops rest).2
  have opening := fun rest => (span_append after openingStops rest).2
  obtain ⟨inside, closing⟩ := span_append unclosed closingStops rest
  simp only [enclosed?, colon, opening, inside, closing]

/-- A pair is read from the front of a text, whatever follows. -/
theorem pair?_render (rest : List Char) :
    pair? (pair.render ++ rest) = some (pair.frameText, pair.quoted, rest) := by
  -- Behind the frame stands a blank or the colon, and neither goes on with it.
  obtain ⟨stop, behind, same, noDigit, noPoint⟩ : ∃ stop behind,
      pair.before ++ ':' :: (pair.after ++ '(' :: (pair.quoted ++ ')' :: rest)) = stop :: behind ∧
        Text.isDecimal stop = false ∧ stop ≠ '.' := by
    cases first : pair.before with
    | nil => exact ⟨':', _, rfl, by decide, by decide⟩
    | cons blank others =>
      have isBlank : Text.isBlank blank = true := pair.blanks blank (by rw [first]; simp)
      refine ⟨blank, _, rfl, ?_, ?_⟩
      · rw [Bool.eq_false_iff]
        intro digit
        rw [Text.isBlank_eq_false_of_isDecimal digit] at isBlank
        cases isBlank
      · rintro rfl
        exact absurd isBlank (by decide)
  have found := pair.enclosed?_quoted rest
  have split : pair.render ++ rest = pair.frameText ++
      (pair.before ++ ':' :: (pair.after ++ '(' :: (pair.quoted ++ ')' :: rest))) := by
    simp [render]
  rw [same] at found split
  rw [pair?, split, pair.frame?_frameText noDigit noPoint]
  dsimp only
  rw [found]

/-- A pair begins with a digit. -/
theorem exists_digit : ∃ first behind, pair.render = first :: behind ∧
    Text.isDecimal first = true := by
  obtain ⟨first, more, same⟩ := List.exists_cons_of_ne_nil pair.some_digits
  have digit : Text.isDecimal first = true := pair.digits first (by rw [same]; simp)
  rw [render, frameText, same]
  exact ⟨first, _, rfl, digit⟩

/-- A text in quotes has no blanks around it. -/
theorem trim_quoted : Text.trim pair.quoted = pair.quoted := by
  apply TimeExpression.trim_eq_self
  · rintro _ ⟨⟩
    decide
  · rw [quoted, ← List.cons_append, List.getLast?_concat]
    rintro _ ⟨⟩
    decide

/-- A text in quotes is no number. -/
theorem ofText?_quoted : Number.ofText? pair.quoted = none := by
  rw [quoted, Number.ofText?_eq_unsigned? (by decide) (by decide) (by decide) (by decide),
    Number.unsigned?_of_none (by decide) (by decide), Option.map_none]

/-- The value of a pair is its text, without the quotes. -/
theorem value_quoted : value pair.quoted = .text pair.text := by
  have unquoted : unquote pair.quoted = pair.text.toList := by
    simp [quoted, unquote]
  rw [value, pair.trim_quoted, pair.ofText?_quoted, unquoted, String.ofList_toList]

end WrittenPair

/-! ## All pairs -/

/-- A pair at the front of a text is the first of its pairs. -/
theorem pairs_of_some {text frame value rest : List Char}
    (found : pair? text = some (frame, value, rest)) :
    pairs text = (frame, value) :: pairs rest := by
  cases text with
  | nil => cases found
  | cons c behind =>
    rw [pairs]
    split
    · rename_i same
      rw [found] at same
      cases same
      rfl
    · rename_i none_found
      rw [found] at none_found
      cases none_found

/-- What begins with no digit begins with no pair, and is passed over. -/
theorem pairs_cons_of_not_digit {c : Char} (noDigit : Text.isDecimal c = false)
    (rest : List Char) : pairs (c :: rest) = pairs rest := by
  have none_found : pair? (c :: rest) = none := by
    have empty : digits (c :: rest) = ([], c :: rest) := by
      rw [digits, List.takeWhile_cons_of_neg (by rw [noDigit]; decide),
        List.dropWhile_cons_of_neg (by rw [noDigit]; decide)]
    simp only [pair?, frame?, empty, List.isEmpty_nil, if_true]
  rw [pairs]
  split
  · rename_i found
    rw [none_found] at found
    cases found
  · rfl

/-- The pairs of a schedule are those that are written. -/
theorem pairs_render (written : List WrittenPair) :
    pairs (render written) = written.map fun pair => (pair.frameText, pair.quoted) := by
  induction written with
  | nil => rw [render, List.map_nil, List.intercalate_nil, pairs, List.map_nil]
  | cons pair rest ih =>
    have last : pairs [] = [] := by rw [pairs]
    cases rest with
    | nil =>
      have found := pairs_of_some (pair.pair?_render [])
      rw [List.append_nil, last] at found
      rw [render, List.map_singleton, List.intercalate_singleton, found, List.map_singleton]
    | cons next others =>
      rw [render, List.map_cons, List.map_cons, List.intercalate_cons_cons, ← List.map_cons,
        ← render, List.append_assoc, pairs_of_some (pair.pair?_render _)]
      rw [List.cons_append, pairs_cons_of_not_digit (by decide), List.cons_append,
        pairs_cons_of_not_digit (by decide), List.nil_append, ih]
      rfl

/-- A schedule begins with a digit. -/
theorem exists_digit {written : List WrittenPair} (some_pair : written ≠ []) :
    ∃ first behind, render written = first :: behind ∧ Text.isDecimal first = true := by
  cases written with
  | nil => exact absurd rfl some_pair
  | cons pair rest =>
    obtain ⟨first, behind, same, digit⟩ := pair.exists_digit
    cases rest with
    | nil =>
      rw [render, List.map_singleton, List.intercalate_singleton]
      exact ⟨first, behind, same, digit⟩
    | cons next others =>
      rw [render, List.map_cons, List.map_cons, List.intercalate_cons_cons, same]
      exact ⟨first, _, rfl, digit⟩

/-- A schedule ends with a closing parenthesis. -/
theorem getLast?_render {written : List WrittenPair} (some_pair : written ≠ []) :
    (render written).getLast? = some ')' := by
  induction written with
  | nil => exact absurd rfl some_pair
  | cons pair rest ih =>
    cases rest with
    | nil =>
      have whole : pair.render = pair.frameText ++ pair.before ++ ':' :: pair.after ++
          '(' :: pair.quoted ++ [')'] := by simp [WrittenPair.render]
      rw [render, List.map_singleton, List.intercalate_singleton, whole, List.getLast?_concat]
    | cons next others =>
      rw [render, List.map_cons, List.map_cons, List.intercalate_cons_cons, ← List.map_cons,
        ← render, List.getLast?_append, ih (List.cons_ne_nil _ _), Option.some_or]

/-- A schedule of at least one pair has no blanks around it. -/
theorem trim_render {written : List WrittenPair} (some_pair : written ≠ []) :
    Text.trim (render written) = render written := by
  apply TimeExpression.trim_eq_self
  · obtain ⟨first, behind, same, digit⟩ := exists_digit some_pair
    rw [same]
    rintro _ ⟨⟩
    exact Text.isBlank_eq_false_of_isDecimal digit
  · rw [getLast?_render some_pair]
    rintro _ ⟨⟩
    decide

/-- The frame of a pair is read as the decimal number that its digits write. -/
theorem WrittenPair.ofText?_frameText (pair : WrittenPair) :
    Number.ofText? pair.frameText = some pair.keyframe.1 :=
  Number.ofText?_digits pair.some_digits pair.digits

/-- The keyframes of a schedule are those of its pairs, sorted by frame. -/
theorem parse_render_eq {written : List WrittenPair} (some_pair : written ≠ []) :
    parse (String.ofList (render written)) =
      Order.sortBy Prod.fst (written.map WrittenPair.keyframe) := by
  have each : (written.map fun pair => (pair.frameText, pair.quoted)).filter
      (fun pair => !(Text.trim pair.2).isEmpty) =
        written.map fun pair => (pair.frameText, pair.quoted) := by
    refine List.filter_eq_self.mpr ?_
    intro found member
    obtain ⟨pair, _, rfl⟩ := List.mem_map.mp member
    rw [pair.trim_quoted]
    rfl
  have meant : ∀ pair : WrittenPair,
      (frameNumber pair.frameText, value pair.quoted) = pair.keyframe := by
    intro pair
    rw [frameNumber, pair.ofText?_frameText, pair.value_quoted]
    rfl
  rw [parse, String.toList_ofList, trim_render some_pair, pairs_render]
  dsimp only
  split
  · rename_i none_found
    exact absurd (List.map_eq_nil_iff.mp none_found) some_pair
  · rw [each, if_neg, List.map_map]
    · exact congrArg _ (List.map_congr_left fun pair _ => meant pair)
    · rwa [List.isEmpty_iff, List.map_eq_nil_iff]

/-- A schedule is read as the pairs that it is written with: each frame as the double of its digits,
the nearest one to their value, and each text as it is. The keyframes are in the order of their
frames, and those of one frame in the order in which they are written. -/
theorem parse_render {written : List WrittenPair} (some_pair : written ≠ []) :
    (∀ pair ∈ written, Number.ofText? pair.frameText = some pair.keyframe.1 ∧
      IsRoundingOf pair.keyframe.1 (pair.decimal.value * whole)) ∧
    Order.IsStablySorted Prod.fst (written.map WrittenPair.keyframe)
      (parse (String.ofList (render written))) := by
  have rounding : ∀ pair : WrittenPair,
      IsRoundingOf pair.keyframe.1 (pair.decimal.value * whole) :=
    fun pair => pair.decimal.isRoundingOf_toFloat
  refine ⟨fun pair _ => ⟨pair.ofText?_frameText, rounding pair⟩, ?_⟩
  rw [parse_render_eq some_pair]
  refine Order.isStablySorted_sortBy fun keyframe member => ?_
  obtain ⟨pair, _, rfl⟩ := List.mem_map.mp member
  exact (rounding pair).number

/-- Pairs out of order, two of them at one frame, whose texts look like pairs, numbers and quotes or
are empty. -/
def lookalikes : List WrittenPair := [
  ⟨['3', '0'], [], [' '], ['\t', ' '], "5:(\"x\", 7.5:('", by decide,
    List.all_eq_true.mp rfl, List.all_eq_true.mp rfl, by decide⟩,
  ⟨['1', '2'], ['5'], [], [], "", by decide,
    List.all_eq_true.mp rfl, List.all_eq_true.mp rfl, by decide⟩,
  ⟨['3', '0'], ['0'], [], [' '], "\"4\"", by decide,
    List.all_eq_true.mp rfl, List.all_eq_true.mp rfl, by decide⟩]

/-- Texts that look like something else are read as they are. -/
theorem parse_lookalikes : lookalikes ≠ [] ∧
    (∀ pair ∈ lookalikes, Number.ofText? pair.frameText = some pair.keyframe.1 ∧
      IsRoundingOf pair.keyframe.1 (pair.decimal.value * whole)) ∧
    Order.IsStablySorted Prod.fst (lookalikes.map WrittenPair.keyframe)
      (parse (String.ofList (render lookalikes))) := by
  have some_pair : lookalikes ≠ [] := by
    rintro ⟨⟩
  exact ⟨some_pair, parse_render some_pair⟩

end Storyboard.Schedule
