import Storyboard.Expr.Error
import Storyboard.Number.Literal
import Storyboard.Text.Symbol
/-!
# Text to words

`Token.scan` cuts a text into words from the left. Spaces, tabs, line feeds and carriage returns
separate words; each other word is the longest one that can stand there. A number begins with a
digit of any kind and goes on over decimal digits and points, so that malformed numbers are
found as a whole, and a unit may follow it at once. An identifier begins with an ASCII letter or
an underscore and goes on over letters, ASCII digits, underscores and hyphens.
-/
namespace Storyboard.Token

/-- Whether a character only separates words. -/
def isSeparator (c : Char) : Bool := c == ' ' || c == '\t' || c == '\n' || c == '\r'

/-- The word that a single character is. -/
def ofSymbol? (c : Char) : Option Token :=
  if c = '+' then some (.operator .plus)
  else if c = '-' then some (.operator .minus)
  else if c = '*' then some (.operator .times)
  else if c = '/' then some (.operator .over)
  else if c = '(' then some .openParen
  else if c = ')' then some .closeParen
  else if c = '.' then some .dot
  else if c = ',' then some .comma
  else none

/-- Whether a number can go on with a character. -/
def continuesNumber (c : Char) : Bool := Text.isDecimal c || c == '.'

/-- Whether a character begins an identifier. -/
def startsIdentifier (c : Char) : Bool := c.isAlpha || c == '_'

/-- Whether an identifier can go on with a character. -/
def continuesIdentifier (c : Char) : Bool := c.isAlphanum || c == '_' || c == '-'

/-- Take a unit from the front; the longest spelling is tried first. -/
def takeUnit : List Char → Option TimeUnit × List Char
  | 'm' :: 's' :: rest => (some .milliseconds, rest)
  | 'f' :: rest => (some .frames, rest)
  | 's' :: rest => (some .seconds, rest)
  | rest => (none, rest)

/-- Taking a unit leaves no longer text. -/
theorem length_takeUnit (text : List Char) : (takeUnit text).2.length ≤ text.length := by
  unfold takeUnit
  split <;> simp
  omega

/-- Dropping characters leaves no longer text. -/
theorem length_dropWhile_le (p : Char → Bool) (text : List Char) :
    (text.dropWhile p).length ≤ text.length :=
  (List.dropWhile_suffix p).length_le

/-- The words of a text. -/
def scan : List Char → Except Defect (List Token)
  | [] => .ok []
  | c :: rest =>
    if isSeparator c then scan rest
    else
      match ofSymbol? c with
      | some token => (scan rest).map (token :: ·)
      | none =>
        if Text.isDigitLike c then
          match Number.ofText? (c :: rest.takeWhile continuesNumber) with
          | some value =>
            let after := takeUnit (rest.dropWhile continuesNumber)
            (scan after.2).map (.number value after.1 :: ·)
          | none =>
            .error (.invalidNumber (String.ofList (c :: rest.takeWhile continuesNumber)))
        else if startsIdentifier c then
          (scan (rest.dropWhile continuesIdentifier)).map
            (.identifier (String.ofList (c :: rest.takeWhile continuesIdentifier)) :: ·)
        else .error (.unexpectedCharacter (String.ofList (Text.front 1 (c :: rest))))
termination_by text => text.length
decreasing_by
  · simp
  · simp
  · have := length_takeUnit (rest.dropWhile continuesNumber)
    have := length_dropWhile_le continuesNumber rest
    simp only [List.length_cons]
    omega
  · have := length_dropWhile_le continuesIdentifier rest
    simp only [List.length_cons]
    omega

/-- The words of a text; what is wrong is reported with the text. -/
def ofText (text : String) : Except TimeError (List Token) :=
  (scan text.toList).mapError fun cause => .defect cause (some text)

end Storyboard.Token
