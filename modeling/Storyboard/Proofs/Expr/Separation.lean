import Storyboard.Expr.Scan
import Storyboard.Proofs.Outcome
/-!
# Words of separated texts

Where a separator stands between two texts, no word reaches from one into the other: numbers, units
and identifiers end before it. So the words of the whole are those of the first text and then those
of the second, and there are such words exactly if both texts have some (`ofText_separated`).
-/
namespace Storyboard.Token

/-! ## Separators end words -/

/-- The separators are the space, the tab, the line feed and the carriage return. -/
theorem isSeparator_iff {c : Char} :
    isSeparator c = true ↔ c = ' ' ∨ c = '\t' ∨ c = '\n' ∨ c = '\r' := by
  simp only [isSeparator, Bool.or_eq_true, beq_iff_eq, or_assoc]

/-- No number goes on with a separator. -/
theorem not_continuesNumber {c : Char} (separates : isSeparator c = true) :
    continuesNumber c = false := by
  rcases isSeparator_iff.mp separates with rfl | rfl | rfl | rfl <;> decide

/-- No identifier goes on with a separator. -/
theorem not_continuesIdentifier {c : Char} (separates : isSeparator c = true) :
    continuesIdentifier c = false := by
  rcases isSeparator_iff.mp separates with rfl | rfl | rfl | rfl <;> decide

section Runs

variable {p : Char → Bool} {stop : Char} (stops : p stop = false) (text more : List Char)
include stops

/-- A run ends before a character that cannot go on with it. -/
theorem takeWhile_append_stop :
    (text ++ stop :: more).takeWhile p = text.takeWhile p := by
  induction text with
  | nil => simp [stops]
  | cons c rest ih => cases goesOn : p c <;> simp [goesOn, ih]

/-- What is left behind a run keeps a character that cannot go on with it, and all behind that. -/
theorem dropWhile_append_stop :
    (text ++ stop :: more).dropWhile p = text.dropWhile p ++ stop :: more := by
  induction text with
  | nil => simp [stops]
  | cons c rest ih => cases goesOn : p c <;> simp [goesOn, ih]

end Runs

/-- A unit ends before a separator. -/
theorem takeUnit_append_separator {c : Char} (separates : isSeparator c = true)
    (text more : List Char) :
    takeUnit (text ++ c :: more) = ((takeUnit text).1, (takeUnit text).2 ++ c :: more) := by
  obtain ⟨notF, notS, notM⟩ : c ≠ 'f' ∧ c ≠ 's' ∧ c ≠ 'm' := by
    rcases isSeparator_iff.mp separates with rfl | rfl | rfl | rfl <;> decide
  fun_cases takeUnit text with
  | case1 | case2 | case3 => rfl
  | case4 _ noMilliseconds noFrames noSeconds =>
    -- neither the text nor what a separator makes of it begins with a unit
    apply takeUnit.eq_4
    · intro rest same
      rcases text with _ | ⟨d, _ | ⟨e, others⟩⟩ <;>
        simp only [List.nil_append, List.cons_append, List.cons.injEq] at same
      · exact notM same.1
      · exact notS same.2.1
      · exact noMilliseconds others (by rw [same.1, same.2.1])
    · intro rest same
      rcases text with _ | ⟨d, others⟩ <;>
        simp only [List.nil_append, List.cons_append, List.cons.injEq] at same
      · exact notF same.1
      · exact noFrames others (by rw [same.1])
    · intro rest same
      rcases text with _ | ⟨d, others⟩ <;>
        simp only [List.nil_append, List.cons_append, List.cons.injEq] at same
      · exact notS same.1
      · exact noSeconds others (by rw [same.1])

/-! ## Words one behind the other -/

/-- The words of two texts one behind the other, if both have some. -/
def joined (left right : Except Defect (List Token)) : Option (List Token) :=
  left.toOption.bind fun words => right.toOption.map (words ++ ·)

/-- Two texts have words one behind the other exactly if both have some. -/
theorem joined_eq_some {left right : Except Defect (List Token)} {words : List Token} :
    joined left right = some words ↔
      ∃ front back, left = .ok front ∧ right = .ok back ∧ words = front ++ back := by
  cases left <;> cases right <;> simp [joined, Except.toOption, eq_comm]

/-- Behind no words stand those of the second text. -/
theorem joined_nil (right : Except Defect (List Token)) :
    joined (.ok []) right = right.toOption := by
  cases right <;> rfl

/-- A word in front of the first words is in front of all. -/
theorem joined_map_cons (token : Token) (left right : Except Defect (List Token)) :
    joined (left.map (token :: ·)) right = (joined left right).map (token :: ·) := by
  cases left <;> cases right <;> rfl

/-- To put a word in front leaves open whether there are words. -/
theorem toOption_map_cons (token : Token) (words : Except Defect (List Token)) :
    (words.map (token :: ·)).toOption = words.toOption.map (token :: ·) := by
  cases words <;> rfl

/-! ## The words of the whole -/

/-- Separators in front of a text are passed over. -/
theorem scan_separators {gap : List Char} (blank : ∀ c ∈ gap, isSeparator c = true)
    (text : List Char) : scan (gap ++ text) = scan text := by
  induction gap with
  | nil => rfl
  | cons c rest ih =>
    rw [List.cons_append, scan, if_pos (blank c List.mem_cons_self)]
    exact ih fun d member => blank d (List.mem_cons_of_mem c member)

/-- The words of a text that goes on with a separator are those before it and those from there
on. -/
theorem scan_append_separator {stop : Char} (separates : isSeparator stop = true)
    (text more : List Char) :
    (scan (text ++ stop :: more)).toOption = joined (scan text) (scan (stop :: more)) := by
  have numberEnds := not_continuesNumber separates
  have identifierEnds := not_continuesIdentifier separates
  fun_induction scan text with
  | case1 => exact (joined_nil _).symm
  | case2 c rest blank ih => rw [List.cons_append, scan, if_pos blank, ih]
  | case3 c rest notBlank token symbol ih =>
    rw [List.cons_append, scan, if_neg notBlank, symbol]
    dsimp only
    rw [toOption_map_cons, ih, joined_map_cons]
  | case4 c rest notBlank notSymbol digit value number after ih =>
    rw [List.cons_append, scan, if_neg notBlank, notSymbol]
    dsimp only
    rw [if_pos digit, takeWhile_append_stop numberEnds, number, dropWhile_append_stop numberEnds,
      takeUnit_append_separator separates]
    dsimp only
    rw [toOption_map_cons, ih, joined_map_cons]
  | case5 c rest notBlank notSymbol digit malformed =>
    rw [List.cons_append, scan, if_neg notBlank, notSymbol]
    dsimp only
    rw [if_pos digit, takeWhile_append_stop numberEnds, malformed]
    rfl
  | case6 c rest notBlank notSymbol notDigit letter ih =>
    rw [List.cons_append, scan, if_neg notBlank, notSymbol]
    dsimp only
    rw [if_neg notDigit, if_pos letter, takeWhile_append_stop identifierEnds,
      dropWhile_append_stop identifierEnds, toOption_map_cons, ih, joined_map_cons]
  | case7 c rest notBlank notSymbol notDigit notLetter =>
    rw [List.cons_append, scan, if_neg notBlank, notSymbol]
    dsimp only
    rw [if_neg notDigit, if_neg notLetter]
    rfl

/-- A text has certain words exactly if its characters do. -/
theorem ofText_eq_ok {text : String} {words : List Token} :
    ofText text = .ok words ↔ scan text.toList = .ok words := by
  refine ⟨mapError_eq_ok, fun scanned => ?_⟩
  rw [ofText, scanned]
  rfl

/-- Two texts with one or more separators between them have words exactly if both have some, and
these are the words of the first text and then those of the second. -/
theorem ofText_separated (first gap second : String) (separated : gap ≠ "")
    (blank : ∀ c ∈ gap.toList, isSeparator c = true) (words : List Token) :
    ofText (first ++ gap ++ second) = .ok words ↔
      ∃ front back, ofText first = .ok front ∧ ofText second = .ok back ∧
        words = front ++ back := by
  obtain ⟨stop, rest, spelled⟩ : ∃ stop rest, gap.toList = stop :: rest :=
    List.exists_cons_of_ne_nil fun empty => separated (String.toList_eq_nil_iff.mp empty)
  have separates : isSeparator stop = true := blank stop (by rw [spelled]; exact List.mem_cons_self)
  have passed : scan (stop :: (rest ++ second.toList)) = scan second.toList := by
    rw [← List.cons_append, ← spelled]
    exact scan_separators blank _
  have whole : (first ++ gap ++ second).toList =
      first.toList ++ stop :: (rest ++ second.toList) := by
    simp [spelled]
  have cut := scan_append_separator separates first.toList (rest ++ second.toList)
  rw [← whole, passed] at cut
  simp only [ofText_eq_ok]
  rw [← joined_eq_some, ← cut]
  cases scan (first ++ gap ++ second).toList <;> simp [Except.toOption]

/-- With a tab and a space between them, `1.5m` and `s-1` are a number and two names; no unit of
milliseconds is found across the gap. -/
theorem name_apart_from_unit : "\t " ≠ "" ∧ (∀ c ∈ "\t ".toList, isSeparator c = true) ∧
    ofText ("1.5m" ++ "\t " ++ "s-1") =
      .ok [.number 1.5 none, .identifier "m", .identifier "s-1"] := by
  have separated : "\t " ≠ "" := by decide
  have blank : ∀ c ∈ "\t ".toList, isSeparator c = true := List.all_eq_true.mp rfl
  have front : ofText "1.5m" = .ok [.number 1.5 none, .identifier "m"] := by
    with_unfolding_all rfl
  have back : ofText "s-1" = .ok [.identifier "s-1"] := by with_unfolding_all rfl
  exact ⟨separated, blank,
    (ofText_separated "1.5m" "\t " "s-1" separated blank _).mpr ⟨_, _, front, back, rfl⟩⟩

end Storyboard.Token
