import Storyboard.Text.Symbol
/-!
# Bytes in a text

An environment holds bytes, and a text names a byte above 127 that belongs to no character by
the half of a surrogate pair at U+DC00 and so much. When such a text is read back, a run of
bytes that encodes a character is that character. `spelled` gives what is read back.
-/
namespace Storyboard

namespace Symbol

/-- The byte above 127 that a symbol names. -/
def byte? : Symbol → Option Nat
  | .char _ => none
  | .half place => if 0x480 ≤ place.val && place.val ≤ 0x4ff then some (place - 0x400) else none

/-- The six bits of a byte behind the first of a character. -/
def laterBits? (symbol : Symbol) : Option Nat :=
  symbol.byte?.bind fun byte => if byte < 0xc0 then some (byte - 0x80) else none

end Symbol

namespace Text

/-- The character that the bytes of some symbols encode, with how many bytes there are and the
least code point that takes so many. -/
def encoded? : List Symbol → Option (Nat × Nat × Nat)
  | first :: rest => do
    let lead ← first.byte?
    let second ← (rest[0]?).bind Symbol.laterBits?
    if lead < 0xc0 then none
    else if lead < 0xe0 then some ((lead - 0xc0) * 64 + second, 2, 0x80)
    else do
      let third ← (rest[1]?).bind Symbol.laterBits?
      if lead < 0xf0 then some (((lead - 0xe0) * 64 + second) * 64 + third, 3, 0x800)
      else do
        let fourth ← (rest[2]?).bind Symbol.laterBits?
        some ((((lead - 0xf0) * 64 + second) * 64 + third) * 64 + fourth, 4, 0x10000)
  | [] => none

/-- The character at the front of some symbols that is spelled in bytes, and how many there are;
only the shortest encoding of a character counts. -/
def character? (symbols : List Symbol) : Option (Char × Nat) := do
  let (point, count, least) ← encoded? symbols
  if h : point.isValidChar ∧ least ≤ point then some (Char.ofNatAux point h.1, count) else none

/-- Read the characters that are spelled in bytes, passing over some symbols first. -/
def spelledFrom : (passed : Nat) → List Symbol → List Symbol
  | _, [] => []
  | passed + 1, _ :: rest => spelledFrom passed rest
  | 0, symbol :: rest =>
    match character? (symbol :: rest) with
    | some (c, count) => .char c :: spelledFrom (count - 1) rest
    | none => symbol :: spelledFrom 0 rest

/-- A text with the characters that are spelled in bytes. -/
def spelled (text : String) : String := ofSymbols (spelledFrom 0 (symbols text))

end Text
end Storyboard
