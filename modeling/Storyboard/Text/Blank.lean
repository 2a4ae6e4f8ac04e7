/-!
# Blank characters

`isBlank` is the class of characters that trimming removes and that separates words: the
white space of Unicode together with the four separators U+001C to U+001F. `isSpacing` leaves
those four out. Neither class holds the zero-width characters U+180E, U+200B and U+FEFF.
-/
namespace Storyboard.Text

/-- Whether a code point lies in one of the closed ranges. -/
def inRanges (ranges : List (Nat × Nat)) (point : Nat) : Bool :=
  ranges.any fun range => range.1 ≤ point && point ≤ range.2

/-- The white space of Unicode, as closed ranges. -/
def spacingRanges : List (Nat × Nat) :=
  [(0x9, 0xd), (0x20, 0x20), (0x85, 0x85), (0xa0, 0xa0), (0x1680, 0x1680), (0x2000, 0x200a),
    (0x2028, 0x2029), (0x202f, 0x202f), (0x205f, 0x205f), (0x3000, 0x3000)]

/-- Whether a character is white space. -/
def isSpacing (c : Char) : Bool := inRanges spacingRanges c.toNat

/-- Whether a character is white space or an information separator. -/
def isBlank (c : Char) : Bool := isSpacing c || (0x1c ≤ c.toNat && c.toNat ≤ 0x1f)

/-- Drop the characters of a class at both ends. -/
def trimBy (drop : Char → Bool) (text : List Char) : List Char :=
  ((text.dropWhile drop).reverse.dropWhile drop).reverse

/-- Drop the blanks at both ends. -/
def trim (text : List Char) : List Char := trimBy isBlank text

/-- The words of a text: its longest pieces without blanks. -/
def words (text : List Char) : List (List Char) :=
  (text.splitBy fun a b => isBlank a == isBlank b).filter fun piece => !piece.any isBlank

end Storyboard.Text
