import Storyboard.Number.Decimal
import Storyboard.Text.Digit
/-!
# Reading numbers

A numeral is an optional sign, digits with at most one point among them, and an optional
exponent; single underscores may stand between digits. The words for infinity and for no number
are numerals too, in any case. Which characters are digits is a parameter, since some readers
take the digits of all scripts and others those of ASCII alone.
-/
namespace Storyboard.Number

/-- The digits at the front of a text, where a single underscore may stand between two of
them, and the text after them. -/
def digitRun (value : Char → Option Nat) : List Char → List Nat × List Char
  | c :: '_' :: d :: rest =>
    match value c with
    | none => ([], c :: '_' :: d :: rest)
    | some n =>
      if (value d).isSome then
        let (digits, after) := digitRun value (d :: rest)
        (n :: digits, after)
      else ([n], '_' :: d :: rest)
  | c :: rest =>
    match value c with
    | none => ([], c :: rest)
    | some n =>
      let (digits, after) := digitRun value rest
      (n :: digits, after)
  | [] => ([], [])

/-- The number that digits write. -/
def ofDigits (digits : List Nat) : Nat := digits.foldl (fun n d => 10 * n + d) 0

/-- Take a sign from the front; `true` for a minus. -/
def takeSign : List Char → Bool × List Char
  | '-' :: rest => (true, rest)
  | '+' :: rest => (false, rest)
  | rest => (false, rest)

/-- Read an exponent, or nothing, up to the end. -/
def exponentOf (value : Char → Option Nat) : List Char → Option Int
  | [] => some 0
  | c :: rest =>
    if c = 'e' || c = 'E' then
      let (negative, rest) := takeSign rest
      match digitRun value rest with
      | (d :: digits, []) =>
        let n : Int := ofDigits (d :: digits)
        some (if negative then -n else n)
      | _ => none
    else none

/-- Read an unsigned numeral of digits. -/
def unsigned? (value : Char → Option Nat) (text : List Char) : Option Decimal :=
  let (whole, rest) := digitRun value text
  let (fraction, rest) :=
    match rest with
    | '.' :: more => digitRun value more
    | _ => ([], rest)
  if whole.isEmpty && fraction.isEmpty then none
  else
    (exponentOf value rest).map fun exponent =>
      ⟨ofDigits (whole ++ fraction), exponent - fraction.length⟩

/-- Read a numeral as the nearest double. -/
def read? (value : Char → Option Nat) (text : List Char) : Option Float :=
  let (negative, rest) := takeSign text
  let word := String.ofList (rest.map Char.toLower)
  let absolute :=
    if word = "inf" || word = "infinity" then some infinity
    else if word = "nan" then some undefined
    else (unsigned? value rest).map Decimal.toFloat
  absolute.map fun x => if negative then -x else x

/-- Read a numeral in the digits of any script. -/
def ofText? (text : List Char) : Option Float := read? Text.decimalValue text

/-- A text without its underscores, if it has any and each stands alone between two other
characters. -/
def withoutUnderscores? (text : List Char) : Option (List Char) :=
  let misplaced := text.head? == some '_' || text.getLast? == some '_' ||
    (text.zip text.tail).contains ('_', '_')
  if misplaced || !text.contains '_' then none else some (text.filter (· != '_'))

/-- Read a numeral in ASCII digits and without underscores. -/
def plain? (text : List Char) : Option Float :=
  if text.contains '_' then none else read? Text.asciiDigitValue text

/-- Read a numeral in ASCII digits, with white space around it or else with single underscores
anywhere in it. -/
def ofAscii? (text : List Char) : Option Float :=
  match plain? (Text.trimBy Text.isSpacing text) with
  | some x => some x
  | none => (withoutUnderscores? text).bind plain?

/-! ## Whole numbers -/

/-- Whether a character is one of the ASCII digits above zero. -/
def isPositiveDigit (c : Char) : Bool := c != '0' && (Text.asciiDigitValue c).isSome

/-- What is left of a text behind its leading zeros and the underscores among them, where `last`
was the one dropped last: the last one stays when a point or nothing comes behind it. -/
def behindZeros (last : Char) : List Char → Option (List Char)
  | [] => some [last]
  | c :: rest =>
    if c = '0' || c = '_' then behindZeros c rest
    else if c = '.' then some (last :: c :: rest)
    else if isPositiveDigit c || c = '-' then some (c :: rest)
    else none

/-- A text without leading zeros, if it begins as a whole number does. -/
def withoutLeadingZeros? : List Char → Option (List Char)
  | [] => none
  | c :: rest =>
    if c = '0' then behindZeros c rest
    else if isPositiveDigit c || c = '-' then some (c :: rest)
    else none

/-- A text without a fraction of zeros, at least one, behind its first point. -/
def withoutZeroFraction (text : List Char) : List Char :=
  match text.dropWhile (· != '.') with
  | '.' :: zero :: zeros =>
    if (zero :: zeros).all (· == '0') then text.takeWhile (· != '.') else text
  | _ => text

/-- Read digits without leading zeros and underscores, behind a minus for a number below zero. -/
def plainInt? (text : List Char) : Option Int :=
  let (negative, digits) := match text with
    | '-' :: rest => (true, rest)
    | _ => (false, text)
  match digits.mapM Text.asciiDigitValue with
  | none => none
  | some [] => none
  | some (0 :: _ :: _) => none
  | some (d :: values) =>
    let n : Int := ofDigits (d :: values)
    some (if negative then -n else n)

/-- The sign in front of a whole number, `true` for a minus, and the text behind it. A second
sign is refused behind a plus. -/
def signOfInt? : List Char → Option (Bool × List Char)
  | '+' :: '-' :: _ => none
  | '+' :: rest => some (false, rest)
  | '-' :: rest => some (true, rest)
  | rest => some (false, rest)

/-- How many digits stand at the front of a text, behind a minus if there is one; none do if the
first of them is a zero. -/
def leadingDigits (text : List Char) : Nat :=
  let unsigned := match text with
    | '-' :: rest => rest
    | _ => text
  if unsigned.head?.any isPositiveDigit then
    (unsigned.takeWhile fun c => (Text.asciiDigitValue c).isSome).length
  else 0

/-- The bare digits of a whole number, behind a minus for one below zero: white space around it,
zeros in front of it, a fraction of zeros and single underscores do not count. -/
def bareInt? (text : List Char) : Option (List Char) := do
  let (negative, unsigned) ← signOfInt? (Text.trimBy Text.isSpacing text)
  let digits := withoutZeroFraction (← withoutLeadingZeros? unsigned)
  let number := (withoutUnderscores? digits).getD digits
  return if negative then '-' :: number else number

end Storyboard.Number
