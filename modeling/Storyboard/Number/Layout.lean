import Storyboard.Number.Decimal
/-!
# Numbers as text

A `Layout` holds every decision on how digits become text: between which powers of ten a number
is written with a plain point, whether a whole number keeps `.0`, how wide an exponent is, and
the words for what is no finite number. `Layout.answer` is the form of values and messages,
`Layout.document` that of written documents, and `Layout.brief` that of times in messages, which
have six digits. A style value that is whole has no point (`Number.cssText`).
-/
namespace Storyboard

/-- How the digits of a number become text. -/
structure Layout where
  /-- The least power of ten of a first digit that is written with a plain point. -/
  least : Int
  /-- The least power of ten of a first digit from which an exponent is written. -/
  most : Int
  /-- Whether a whole number with a plain point ends in `.0`. -/
  keepsPoint : Bool
  /-- The least number of digits of an exponent. -/
  exponentWidth : Nat
  /-- The text of no number. -/
  undefined : String
  /-- The text of the positive infinity. -/
  infinite : String
  /-- The text before that of a negative infinity. -/
  minus : String

namespace Layout

/-- Values and messages: the point is plain from `0.0001` up to sixteen whole digits. -/
def answer : Layout := ⟨-4, 16, true, 2, "nan", "inf", "-"⟩

/-- Documents: as in answers, but plain from `0.00001`, exponents unpadded, and `null` for what
is no finite number. -/
def document : Layout := ⟨-5, 16, true, 1, "null", "null", ""⟩

/-- Times in messages: plain from `0.0001` up to six whole digits, without idle zeros. -/
def brief : Layout := ⟨-4, 6, false, 2, "nan", "inf", "-"⟩

/-- An exponent with its sign and at least `width` digits. -/
def exponentText (width : Nat) (exponent : Int) : List Char :=
  let digits := Nat.toDigits 10 exponent.natAbs
  'e' :: (if exponent < 0 then '-' else '+') ::
    (List.replicate (width - digits.length) '0' ++ digits)

/-- Digits whose first one counts `10 ^ leading`, with a plain point. -/
def plainText (keepsPoint : Bool) (digits : List Char) : Int → List Char
  | .ofNat leading =>
    let whole := digits.take (leading + 1)
    let fraction := digits.drop (leading + 1)
    whole ++ List.replicate (leading + 1 - whole.length) '0' ++
      (if fraction.isEmpty then (if keepsPoint then ['.', '0'] else []) else '.' :: fraction)
  | .negSucc zeros => '0' :: '.' :: (List.replicate zeros '0' ++ digits)

/-- Digits whose first one counts `10 ^ leading`, with an exponent. -/
def exponentForm (width : Nat) (digits : List Char) (leading : Int) : List Char :=
  match digits with
  | [] => []
  | first :: rest =>
    first :: ((if rest.isEmpty then [] else '.' :: rest) ++ exponentText width leading)

/-- A positive decimal number without idle zeros. -/
def decimalText (layout : Layout) (d : Decimal) : List Char :=
  if layout.least ≤ d.leading ∧ d.leading < layout.most then
    plainText layout.keepsPoint d.significant d.leading
  else exponentForm layout.exponentWidth d.significant d.leading

/-- The text of a double whose digits `choose` picks from its significand and exponent. -/
def render (layout : Layout) (choose : Nat → Int → Decimal) (x : Float) : String :=
  match Reading.ofFloat x with
  | .undefined => layout.undefined
  | .infinite negative => (if negative then layout.minus else "") ++ layout.infinite
  | .finite negative significand exponent =>
    let body :=
      if significand = 0 then (if layout.keepsPoint then ['0', '.', '0'] else ['0'])
      else layout.decimalText (choose significand exponent)
    String.ofList (if negative then '-' :: body else body)

end Layout

namespace Number

/-- The text of a value: the fewest digits that read back the same. -/
def text (x : Float) : String := Layout.answer.render Decimal.shortest x

/-- The text of a value in a document. -/
def documentText (x : Float) : String := Layout.document.render Decimal.shortest x

/-- The text of a time in a message, with six digits. -/
def briefText (x : Float) : String := Layout.brief.render (Decimal.rounded 6) x

/-- The text of an integer, with all its digits. -/
def intText (n : Int) : String :=
  String.ofList ((if n < 0 then ['-'] else []) ++ Nat.toDigits 10 n.natAbs)

/-- The text of a style value: a whole number has no point, and zero no sign. -/
def cssText (x : Float) : String :=
  if x == 0.0 then "0"
  else
    match (Reading.ofFloat x).whole? with
    | some n => intText n
    | none => text x

end Number
end Storyboard
