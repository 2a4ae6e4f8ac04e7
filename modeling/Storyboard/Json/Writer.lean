import Storyboard.Json.Basic
import Storyboard.Number.Layout
import Storyboard.Text.Quoted
/-!
# Writing plain data

`Json.document` writes a value either on one line without spaces, or with one value a line and
a number of spaces for each level. Empty lists and objects stay closed. Doubles are written in
the document layout, so that what is no finite number becomes `null`.
-/
namespace Storyboard.Json

/-- A new line at a depth, or nothing when all stands on one line. -/
def lineBreak (indent : Option Nat) (depth : Nat) : String :=
  match indent with
  | none => ""
  | some width => String.ofList ('\n' :: List.replicate (width * depth) ' ')

/-- What stands between a key and its value. -/
def colon (indent : Option Nat) : String := if indent.isSome then ": " else ":"

mutual

/-- Write a value at a depth. -/
def write (indent : Option Nat) (depth : Nat) : Json → String
  | .null => "null"
  | .bool true => "true"
  | .bool false => "false"
  | .int n => Number.intText n
  | .float x => Number.documentText x
  | .str s => Text.documentQuoted s
  | .arr [] => "[]"
  | .arr (item :: items) =>
    "[" ++ lineBreak indent (depth + 1) ++ write indent (depth + 1) item ++
      writeItems indent (depth + 1) items ++ lineBreak indent depth ++ "]"
  | .obj [] => "\x7b\x7d"
  | .obj ((key, item) :: fields) =>
    "\x7b" ++ lineBreak indent (depth + 1) ++ Text.documentQuoted key ++ colon indent ++
      write indent (depth + 1) item ++ writeFields indent (depth + 1) fields ++
      lineBreak indent depth ++ "\x7d"

/-- Write the values after the first of a list, each after a comma. -/
def writeItems (indent : Option Nat) (depth : Nat) : List Json → String
  | [] => ""
  | item :: items =>
    "," ++ lineBreak indent depth ++ write indent depth item ++ writeItems indent depth items

/-- Write the members after the first of an object, each after a comma. -/
def writeFields (indent : Option Nat) (depth : Nat) : List (String × Json) → String
  | [] => ""
  | (key, item) :: fields =>
    "," ++ lineBreak indent depth ++ Text.documentQuoted key ++ colon indent ++
      write indent depth item ++ writeFields indent depth fields

end

/-- A value as a document, with a number of spaces for each level or all on one line. -/
def document (indent : Option Nat) (value : Json) : String := write indent 0 value

end Storyboard.Json
