/-!
# Symbols of a text

A document may name one half of a surrogate pair alone, which is no character. The symbols of a
text are its characters and such halves. In a text a half is written as a character of plane 13,
in which Unicode assigns none; a character that could be taken for a half, or for the mark
itself, is written behind a mark. The main statements say that the pieces of a text, one for
each symbol, make up the text, and that symbols are read back as they were written.
-/
namespace Storyboard

/-- What a text is made of. -/
inductive Symbol where
  /-- A character. -/
  | char (c : Char)
  /-- Half of a surrogate pair alone, by its place among all halves. -/
  | half (place : Fin 2048)
  deriving DecidableEq, Repr

namespace Text

/-- Whether a unit of sixteen bits is the first half of a pair. -/
def isFirstHalf (unit : Nat) : Bool := 0xd800 ≤ unit && unit ≤ 0xdbff

/-- Whether a unit of sixteen bits is the second half of a pair. -/
def isSecondHalf (unit : Nat) : Bool := 0xdc00 ≤ unit && unit ≤ 0xdfff

/-- The code point of the mark; the characters that halves are written as follow it. -/
def markPoint : Nat := 0xdd7ff

/-- What stands before a character that could be taken for something else. -/
def mark : Char := Char.ofNat markPoint

/-- Whether a character is one that a half is written as. -/
def standsForHalf (c : Char) : Bool := markPoint < c.toNat && c.toNat ≤ markPoint + 2048

/-- Whether a character is written behind a mark. -/
def isReserved (c : Char) : Bool := c == mark || standsForHalf c

end Text

namespace Symbol

/-- The unit of sixteen bits that half of a pair is. -/
def unitOfHalf (place : Fin 2048) : Nat := 0xd800 + place

/-- The symbol of a unit of sixteen bits. -/
def ofUnit (unit : Nat) : Symbol :=
  if Text.isFirstHalf unit || Text.isSecondHalf unit then .half (Fin.ofNat 2048 (unit - 0xd800))
  else .char (Char.ofNat unit)

/-- The character of a pair. -/
def ofPair (first second : Nat) : Symbol :=
  .char (Char.ofNat (0x10000 + (first - 0xd800) * 1024 + (second - 0xdc00)))

/-- A symbol as it is written in a text. -/
def written : Symbol → List Char
  | .char c => if Text.isReserved c then [Text.mark, c] else [c]
  | .half place => [Char.ofNat (Text.markPoint + 1 + place)]

/-- The symbol that is written so. -/
def ofPiece : List Char → Symbol
  | [] => .char Text.mark
  | [c] =>
    if Text.standsForHalf c then .half (Fin.ofNat 2048 (c.toNat - (Text.markPoint + 1)))
    else .char c
  | _ :: c :: _ => .char c

/-- Whether a symbol is a character. -/
def isChar : Symbol → Bool
  | .char _ => true
  | .half _ => false

end Symbol

namespace Text

/-- A text cut into pieces, one for each symbol. -/
def pieces : List Char → List (List Char)
  | [] => []
  | [c] => [[c]]
  | c :: d :: rest => if c = mark then [c, d] :: pieces rest else [c] :: pieces (d :: rest)

/-- The number of symbols of a text. -/
def size (text : List Char) : Nat := (pieces text).length

/-- The first symbols of a text. -/
def front (count : Nat) (text : List Char) : List Char := ((pieces text).take count).flatten

/-- The symbols of a text. -/
def symbols (text : String) : List Symbol := (pieces text.toList).map Symbol.ofPiece

/-- The text of some symbols. -/
def ofSymbols (symbols : List Symbol) : String :=
  String.ofList (symbols.flatMap Symbol.written)

/-- The text whose symbols are the given characters. -/
def ofCharacters (characters : String) : String :=
  ofSymbols (characters.toList.map Symbol.char)

/-- Whether a text holds no half of a pair. -/
def isWhole (text : String) : Bool := (symbols text).all Symbol.isChar

/-- The pieces of a text make up the text. -/
theorem flatten_pieces (text : List Char) : (pieces text).flatten = text := by
  fun_induction pieces text with
  | case1 => rfl
  | case2 => rfl
  | case3 => simp [*]
  | case4 => simp [*]

/-- The character that a half is written as has its place among those that halves are written
as. -/
theorem toNat_written_half (place : Fin 2048) :
    (Char.ofNat (markPoint + 1 + place)).toNat = markPoint + 1 + place := by
  have valid : (markPoint + 1 + (place : Nat)).isValidChar := by
    right
    simp only [markPoint]
    omega
  rw [Char.ofNat, dif_pos valid]
  rfl

/-- The mark has its code point. -/
theorem toNat_mark : mark.toNat = markPoint := by decide

/-- A symbol written is read back. -/
theorem ofPiece_written (symbol : Symbol) : Symbol.ofPiece symbol.written = symbol := by
  cases symbol with
  | char c =>
    by_cases reserved : isReserved c
    · simp [Symbol.written, Symbol.ofPiece, reserved]
    · have other : standsForHalf c = false := by
        simp only [isReserved, Bool.or_eq_true, not_or, Bool.not_eq_true] at reserved
        exact reserved.2
      simp [Symbol.written, Symbol.ofPiece, reserved, other]
  | half place =>
    have stands : standsForHalf (Char.ofNat (markPoint + 1 + place)) = true := by
      simp only [standsForHalf, toNat_written_half, Bool.and_eq_true, decide_eq_true_eq]
      omega
    simp only [Symbol.written, Symbol.ofPiece, stands, if_true, toNat_written_half]
    refine congrArg Symbol.half (Fin.ext ?_)
    simp only [Fin.ofNat]
    omega

/-- A character that is no mark is a piece of its own. -/
theorem pieces_cons {c : Char} (other : c ≠ mark) (rest : List Char) :
    pieces (c :: rest) = [c] :: pieces rest := by
  cases rest with
  | nil => rfl
  | cons d rest => simp [pieces, other]

/-- What a symbol is written as is a piece of its own. -/
theorem pieces_written_append (symbol : Symbol) (rest : List Char) :
    pieces (symbol.written ++ rest) = symbol.written :: pieces rest := by
  cases symbol with
  | char c =>
    by_cases reserved : isReserved c
    · simp [Symbol.written, reserved, pieces]
    · have other : c ≠ mark := by
        rintro rfl
        exact reserved (by decide)
      simpa [Symbol.written, reserved] using pieces_cons other rest
  | half place =>
    refine pieces_cons (fun same => ?_) rest
    have point := congrArg Char.toNat same
    rw [toNat_written_half, toNat_mark] at point
    omega

/-- The symbols of a text are those that it was written of. -/
theorem symbols_ofSymbols (given : List Symbol) : symbols (ofSymbols given) = given := by
  simp only [symbols, ofSymbols, String.toList_ofList]
  induction given with
  | nil => rfl
  | cons symbol rest ih =>
    rw [List.flatMap_cons, pieces_written_append, List.map_cons, ofPiece_written, ih]

end Text
end Storyboard
