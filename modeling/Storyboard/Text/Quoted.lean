/-!
# Quoted text

Two ways to quote a text. `quoted` is that of messages: single quotes, or double ones when the
text holds a single quote and no double one, with control characters escaped. `documentQuoted`
is that of written documents: double quotes, with escapes below U+0020 only.
-/
namespace Storyboard.Text

/-- A number in lower-case hexadecimal with at least `width` digits. -/
def hexText (width n : Nat) : List Char :=
  let digits := Nat.toDigits 16 n
  List.replicate (width - digits.length) '0' ++ digits

/-- A character between quotes of a message. -/
def escapeIn (quote c : Char) : List Char :=
  if c = quote || c = '\\' then ['\\', c]
  else if c = '\n' then ['\\', 'n']
  else if c = '\r' then ['\\', 'r']
  else if c = '\t' then ['\\', 't']
  else if c.toNat < 0x20 || (0x7f ≤ c.toNat && c.toNat ≤ 0xa0) || c.toNat = 0xad then
    ['\\', 'x'] ++ hexText 2 c.toNat
  else [c]

/-- A text in the quotes of messages. -/
def quoted (text : String) : String :=
  let quote := if text.contains '\'' && !text.contains '"' then '"' else '\''
  String.ofList ([quote] ++ text.toList.flatMap (escapeIn quote) ++ [quote])

/-- A character between the quotes of a document. -/
def escapeInDocument (c : Char) : List Char :=
  if c = '"' || c = '\\' then ['\\', c]
  else if c = '\n' then ['\\', 'n']
  else if c = '\r' then ['\\', 'r']
  else if c = '\t' then ['\\', 't']
  else if c.toNat = 0x8 then ['\\', 'b']
  else if c.toNat = 0xc then ['\\', 'f']
  else if c.toNat < 0x20 then ['\\', 'u'] ++ hexText 4 c.toNat
  else [c]

/-- A text in the quotes of documents. -/
def documentQuoted (text : String) : String :=
  String.ofList (['"'] ++ text.toList.flatMap escapeInDocument ++ ['"'])

end Storyboard.Text
