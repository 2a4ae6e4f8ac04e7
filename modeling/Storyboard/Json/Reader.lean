import Storyboard.Json.Basic
import Storyboard.Number.Layout
import Storyboard.Number.Literal
/-!
# Reading plain data

`Json.parse` reads a whole text as one value. Beyond the usual form it takes the words `NaN`,
`Infinity` and `-Infinity`, gives the last value of a repeated key, reads a numeral with a point
or an exponent as a double and any other as a whole number. Characters below U+0020 are refused
inside a text. Whole numbers have a greatest length and values a greatest depth, beyond which
reading stops.

Each recursive call takes at least one character, so the length of the text bounds them all.
-/
namespace Storyboard.Json

/-- Why a text is no value. -/
inductive ParseError where
  /-- It has another form. -/
  | malformed
  /-- A whole number has so many digits, which are too many. -/
  | longInteger (digits : Nat)
  /-- Its lists and objects lie too deep within one another. -/
  | tooDeep
  deriving DecidableEq, Repr

/-- The most digits that a whole number may have. -/
def mostDigits : Nat := 4300

/-- The most lists and objects that may lie within one another. -/
def mostNested : Nat := 990

namespace ParseError

/-- The wording of an error; some have none. -/
def message : ParseError → Option String
  | .malformed => none
  | .tooDeep => none
  | .longInteger digits =>
    some ("Exceeds the limit (" ++ Number.intText mostDigits ++
      " digits) for integer string conversion: value has " ++ Number.intText digits ++
      " digits; use sys.set_int_max_str_digits() to increase the limit")

end ParseError

/-- The characters between values that mean nothing. -/
def skipSpace : List Char → List Char :=
  List.dropWhile fun c => c == ' ' || c == '\t' || c == '\n' || c == '\r'

/-- The value of a hexadecimal digit. -/
def hexValue (c : Char) : Option Nat :=
  if '0' ≤ c ∧ c ≤ '9' then some (c.toNat - 48)
  else if 'a' ≤ c ∧ c ≤ 'f' then some (c.toNat - 87)
  else if 'A' ≤ c ∧ c ≤ 'F' then some (c.toNat - 55)
  else none

/-- Four hexadecimal digits at the front. -/
def hexUnit : List Char → Option (Nat × List Char)
  | a :: b :: c :: d :: rest => do
    let a ← hexValue a
    let b ← hexValue b
    let c ← hexValue c
    let d ← hexValue d
    some (((a * 16 + b) * 16 + c) * 16 + d, rest)
  | _ => none

/-- The symbol that an escape names by units of sixteen bits, after `\u`; half of a pair may
stand alone. -/
def escapedUnits (text : List Char) : Option (Symbol × List Char) := do
  let (unit, rest) ← hexUnit text
  let alone := (Symbol.ofUnit unit, rest)
  match Text.isFirstHalf unit, rest with
  | true, '\\' :: 'u' :: more =>
    match hexUnit more with
    | some (second, after) =>
      some (if Text.isSecondHalf second then (Symbol.ofPair unit second, after) else alone)
    | none => some alone
  | _, _ => some alone

/-- The text up to the closing quote; the characters before stand in reverse. -/
def stringBody : (fuel : Nat) → List Char → List Char → Option (String × List Char)
  | 0, _, _ => none
  | fuel + 1, before, text =>
    match text with
    | '"' :: rest => some (String.ofList before.reverse, rest)
    | '\\' :: 'u' :: rest => do
      let (symbol, rest) ← escapedUnits rest
      stringBody fuel (symbol.written.reverse ++ before) rest
    | '\\' :: e :: rest =>
      let escaped := match e with
        | '"' => some '"'
        | '\\' => some '\\'
        | '/' => some '/'
        | 'b' => some '\x08'
        | 'f' => some '\x0c'
        | 'n' => some '\n'
        | 'r' => some '\r'
        | 't' => some '\t'
        | _ => none
      match escaped with
      | some c => stringBody fuel (c :: before) rest
      | none => none
    | c :: rest => if c.toNat < 0x20 then none else stringBody fuel (c :: before) rest
    | [] => none

/-- The ASCII digits at the front. -/
def digitsOf (text : List Char) : List Char × List Char :=
  (text.takeWhile Char.isDigit, text.dropWhile Char.isDigit)

/-- The point and the digits after it, if both are there. -/
def fractionOf : List Char → List Char × List Char
  | '.' :: rest =>
    match digitsOf rest with
    | ([], _) => ([], '.' :: rest)
    | (digits, after) => ('.' :: digits, after)
  | rest => ([], rest)

/-- The exponent, if it has digits. -/
def powerOf : List Char → List Char × List Char
  | c :: rest =>
    if c = 'e' || c = 'E' then
      let (sign, more) := match rest with
        | '+' :: more => (['+'], more)
        | '-' :: more => (['-'], more)
        | more => ([], more)
      match digitsOf more with
      | ([], _) => ([], c :: rest)
      | (digits, after) => (c :: (sign ++ digits), after)
    else ([], c :: rest)
  | [] => ([], [])

/-- The whole part of a numeral: a lone zero, or digits that start with none. -/
def wholeOf : List Char → Option (List Char × List Char)
  | '0' :: rest => some (['0'], rest)
  | rest =>
    match digitsOf rest with
    | ([], _) => none
    | found => some found

/-- A value that is there, or else a text of another form. -/
def wellFormed {α : Type} : Option α → Except ParseError α
  | some found => .ok found
  | none => .error .malformed

/-- A numeral at the front. -/
def numberOf (text : List Char) : Except ParseError (Json × List Char) := do
  let (negative, unsigned) := match text with
    | '-' :: rest => (true, rest)
    | rest => (false, rest)
  let (whole, rest) ← wellFormed (wholeOf unsigned)
  let (fraction, rest) := fractionOf rest
  let (power, rest) := powerOf rest
  if fraction.isEmpty && power.isEmpty then
    if mostDigits < whole.length then .error (.longInteger whole.length)
    else
      let n : Int := Number.ofDigits (whole.map fun c => c.toNat - 48)
      return (.int (if negative then -n else n), rest)
  else
    let absolute ← wellFormed (Number.ofText? (whole ++ fraction ++ power))
    return (.float (if negative then -absolute else absolute), rest)

mutual

/-- A value at the front, with so many more lists and objects within one another. -/
def value : (fuel : Nat) → (levels : Nat) → List Char → Except ParseError (Json × List Char)
  | 0, _, _ => .error .malformed
  | fuel + 1, levels, text =>
    match text with
    | '"' :: rest =>
      (wellFormed (stringBody fuel [] rest)).map fun (text, rest) => (.str text, rest)
    | '[' :: rest =>
      match levels, skipSpace rest with
      | 0, _ => .error .tooDeep
      | _, ']' :: after => .ok (.arr [], after)
      | levels + 1, more => elements fuel levels [] more
    | '{' :: rest =>
      match levels, skipSpace rest with
      | 0, _ => .error .tooDeep
      | _, '}' :: after => .ok (.obj [], after)
      | levels + 1, more => members fuel levels [] more
    | 'n' :: 'u' :: 'l' :: 'l' :: rest => .ok (.null, rest)
    | 't' :: 'r' :: 'u' :: 'e' :: rest => .ok (.bool true, rest)
    | 'f' :: 'a' :: 'l' :: 's' :: 'e' :: rest => .ok (.bool false, rest)
    | 'N' :: 'a' :: 'N' :: rest => .ok (.float Number.undefined, rest)
    | 'I' :: 'n' :: 'f' :: 'i' :: 'n' :: 'i' :: 't' :: 'y' :: rest =>
      .ok (.float Number.infinity, rest)
    | '-' :: 'I' :: 'n' :: 'f' :: 'i' :: 'n' :: 'i' :: 't' :: 'y' :: rest =>
      .ok (.float (-Number.infinity), rest)
    | _ => numberOf text

/-- The values of a list up to its closing bracket; those before stand in reverse. -/
def elements : (fuel : Nat) → (levels : Nat) → List Json → List Char →
    Except ParseError (Json × List Char)
  | 0, _, _, _ => .error .malformed
  | fuel + 1, levels, before, text =>
    match value fuel levels text with
    | .error cause => .error cause
    | .ok (item, rest) =>
      match skipSpace rest with
      | ',' :: more => elements fuel levels (item :: before) (skipSpace more)
      | ']' :: after => .ok (.arr (item :: before).reverse, after)
      | _ => .error .malformed

/-- The members of an object up to its closing brace; those before stand in reverse. -/
def members : (fuel : Nat) → (levels : Nat) → List (String × Json) → List Char →
    Except ParseError (Json × List Char)
  | 0, _, _, _ => .error .malformed
  | fuel + 1, levels, before, text =>
    match text with
    | '"' :: rest =>
      match stringBody fuel [] rest with
      | none => .error .malformed
      | some (key, rest) =>
        match skipSpace rest with
        | ':' :: more =>
          match value fuel levels (skipSpace more) with
          | .error cause => .error cause
          | .ok (item, rest) =>
            match skipSpace rest with
            | ',' :: more => members fuel levels ((key, item) :: before) (skipSpace more)
            | '}' :: after =>
              .ok (.obj (Fields.ofPairs ((key, item) :: before).reverse), after)
            | _ => .error .malformed
        | _ => .error .malformed
    | _ => .error .malformed

end

/-- Read a whole text as one value. -/
def parse (text : String) : Except ParseError Json :=
  let text := text.toList
  match value (2 * text.length + 2) mostNested (skipSpace text) with
  | .error cause => .error cause
  | .ok (found, rest) =>
    if (skipSpace rest).isEmpty then .ok found else .error .malformed

end Storyboard.Json
