import Storyboard.Json.Basic
import Storyboard.Number.Literal
import Storyboard.Number.Layout
import Storyboard.Text.LowerCase
/-!
# Reading fields of plain data

A `Reader` turns a plain value into one of the domain, or lists everything that is wrong with
it, each `Issue` with the path to its place. Readers of several fields are joined so that the
issues of all fields are reported, in the order of the fields. Within its parts a document is
read kindly: numerals may be texts, truth values may be numbers or words, and a double without a
fraction is a whole number.
-/
namespace Storyboard.Schema

/-- What can be wrong with a value. -/
inductive IssueKind where
  /-- A required field is absent. -/
  | missing
  /-- A field that nothing asks for. -/
  | extraForbidden
  /-- No object where one is read. -/
  | modelType
  /-- No object where one of several kinds is read. -/
  | modelAttributesType
  /-- The field that tells the kind is absent. -/
  | tagNotFound
  /-- There is no such kind. -/
  | tagInvalid
  /-- No list. -/
  | listType
  /-- No object of free keys. -/
  | dictType
  /-- No text. -/
  | stringType
  /-- A text or a key with half of a surrogate pair. -/
  | stringUnicode
  /-- No number. -/
  | floatType
  /-- A text that writes no number. -/
  | floatParsing
  /-- No whole number. -/
  | intType
  /-- A text that writes no whole number. -/
  | intParsing
  /-- A whole number that is too large to be read. -/
  | intParsingSize
  /-- A number with a fraction where a whole one is read. -/
  | intFromFloat
  /-- No finite number where a whole one is read. -/
  | finiteNumber
  /-- No truth value. -/
  | boolType
  /-- A number or a text that means no truth value. -/
  | boolParsing
  /-- Not one of the values allowed. -/
  | literalError
  /-- Not one of the names allowed. -/
  | enumeration
  /-- Not above the bound. -/
  | greaterThan
  /-- Below the bound. -/
  | greaterThanEqual
  /-- Not a function. -/
  | callableType
  deriving DecidableEq, Repr

namespace IssueKind

/-- The name that reports use. -/
def label : IssueKind → String
  | .missing => "missing"
  | .extraForbidden => "extra_forbidden"
  | .modelType => "model_type"
  | .modelAttributesType => "model_attributes_type"
  | .tagNotFound => "union_tag_not_found"
  | .tagInvalid => "union_tag_invalid"
  | .listType => "list_type"
  | .dictType => "dict_type"
  | .stringType => "string_type"
  | .stringUnicode => "string_unicode"
  | .floatType => "float_type"
  | .floatParsing => "float_parsing"
  | .intType => "int_type"
  | .intParsing => "int_parsing"
  | .intParsingSize => "int_parsing_size"
  | .intFromFloat => "int_from_float"
  | .finiteNumber => "finite_number"
  | .boolType => "bool_type"
  | .boolParsing => "bool_parsing"
  | .literalError => "literal_error"
  | .enumeration => "enum"
  | .greaterThan => "greater_than"
  | .greaterThanEqual => "greater_than_equal"
  | .callableType => "callable_type"

end IssueKind

/-- Something wrong, and where. -/
structure Issue where
  /-- The keys and positions that lead to the place, from the outside. -/
  path : List String
  /-- What is wrong there. -/
  kind : IssueKind
  deriving DecidableEq, Repr

namespace Issue

/-- An issue as reported. -/
def text (issue : Issue) : String := ".".intercalate issue.path ++ ":" ++ issue.kind.label

/-- The issue seen from one level further out. -/
def below (key : String) (issue : Issue) : Issue := { issue with path := key :: issue.path }

end Issue

/-- A value, or all that is wrong with what it was read from. -/
inductive Checked (α : Type) where
  /-- Nothing is wrong. -/
  | valid (value : α)
  /-- Something is wrong. -/
  | invalid (issues : List Issue)

namespace Checked

variable {α β : Type}

/-- Change the value. -/
def map (f : α → β) : Checked α → Checked β
  | .valid value => .valid (f value)
  | .invalid issues => .invalid issues

/-- Apply one checked value to another; the issues of both are kept. -/
def apply (f : Checked (α → β)) (x : Checked α) : Checked β :=
  match f, x with
  | .valid f, .valid value => .valid (f value)
  | .valid _, .invalid issues => .invalid issues
  | .invalid issues, .valid _ => .invalid issues
  | .invalid issues, .invalid more => .invalid (issues ++ more)

instance : Functor Checked where
  map := map

instance : Seq Checked where
  seq f x := apply f (x ())

/-- One issue at the place itself. -/
def fail (kind : IssueKind) : Checked α := .invalid [⟨[], kind⟩]

/-- Place all issues below a key. -/
def within (key : String) : Checked α → Checked α
  | .valid value => .valid value
  | .invalid issues => .invalid (issues.map (·.below key))

/-- Ask more of a value. -/
def also (more : α → Option IssueKind) : Checked α → Checked α
  | .valid value =>
    match more value with
    | none => .valid value
    | some kind => fail kind
  | .invalid issues => .invalid issues

/-- A value, or the report of all that is wrong. -/
def result : Checked α → Except (List Issue) α
  | .valid value => .ok value
  | .invalid issues => .error issues

end Checked

/-- The report of issues. -/
def report (issues : List Issue) : String := "; ".intercalate (issues.map Issue.text)

/-- How a plain value is read. -/
abbrev Reader (α : Type) := Json → Checked α

namespace Reader

/-- Read a text. -/
def string : Reader String
  | .str text => .valid text
  | _ => .fail .stringType

/-- Read something from a text, which has to be whole for that. -/
def ofText {α : Type} (text : String) (read : String → Checked α) : Checked α :=
  if Text.isWhole text then read text else .fail .stringUnicode

/-- Read a number. -/
def float : Reader Float
  | .float x => .valid x
  | .int n => if (Number.ofInt n).isFinite then .valid (Number.ofInt n) else .fail .floatType
  | .bool b => .valid (if b then 1.0 else 0.0)
  | .str text => ofText text fun text =>
    match Number.ofAscii? text.toList with
    | some x => .valid x
    | none => .fail .floatParsing
  | _ => .fail .floatType

/-- The most digits that a text may have as a whole number. -/
def longestInt : Nat := 4300

/-- Read a whole number from a text. That it is too long is told only where its digits stand at
the front of the text. -/
def intOfText (text : String) : Checked Int :=
  if longestInt < Number.leadingDigits text.toList then .fail .intParsingSize
  else
    match Number.bareInt? text.toList with
    | none => .fail .intParsing
    | some bare =>
      match Number.plainInt? bare with
      | some n => if longestInt < Number.leadingDigits bare then .fail .intParsing else .valid n
      | none => .fail .intParsing

/-- Whether a double may stand for an integer: it fits a word and is not the least one. -/
def standsForInt (n : Int) : Bool := Number.fitsSignedWord n && n != -Int.pow 2 63

/-- Read a whole number. -/
def int : Reader Int
  | .int n => .valid n
  | .bool b => .valid (if b then 1 else 0)
  | .float x =>
    if !x.isFinite then .fail .finiteNumber
    else
      match (Reading.ofFloat x).whole? with
      | none => .fail .intFromFloat
      | some n => if standsForInt n then .valid n else .fail .intParsingSize
  | .str text => ofText text intOfText
  | _ => .fail .intType

/-- The words for true. -/
def trueWords : List String := ["1", "on", "t", "true", "y", "yes"]

/-- The words for false. -/
def falseWords : List String := ["0", "off", "f", "false", "n", "no"]

/-- The truth value of a whole number. -/
def boolOfInt (n : Int) : Checked Bool :=
  if n = 0 then .valid false
  else if n = 1 then .valid true
  else if Number.fitsSignedWord n then .fail .boolParsing
  else .fail .boolType

/-- Read a truth value. -/
def bool : Reader Bool
  | .bool b => .valid b
  | .int n => boolOfInt n
  | .float x =>
    match (Reading.ofFloat x).whole? with
    | some n => if standsForInt n then boolOfInt n else .fail .boolType
    | none => .fail .boolType
  | .str text => ofText text fun text =>
    let word := String.ofList (text.toList.map Char.toLower)
    if trueWords.contains word then .valid true
    else if falseWords.contains word then .valid false
    else .fail .boolParsing
  | _ => .fail .boolType

/-- Read an object of free keys. -/
def fields : Reader Fields
  | .obj fields => .valid fields
  | _ => .fail .dictType

/-- Read nothing, or a value. -/
def nullable {α : Type} (read : Reader α) : Reader (Option α)
  | .null => .valid none
  | value => (read value).map some

/-- Read the values of a list, counting from a position. -/
def itemsFrom {α : Type} (read : Reader α) : Nat → List Json → Checked (List α)
  | _, [] => .valid []
  | position, item :: rest =>
    List.cons <$> (read item).within (Number.intText position) <*>
      itemsFrom read (position + 1) rest

/-- Read a list. -/
def list {α : Type} (read : Reader α) : Reader (List α)
  | .arr items => itemsFrom read 0 items
  | _ => .fail .listType

/-- Read a number of at least zero. -/
def nonNegative : Reader Float := fun value =>
  (float value).also fun x => if 0.0 ≤ x then none else some .greaterThanEqual

/-- Read a number above zero. -/
def positive : Reader Float := fun value =>
  (float value).also fun x => if 0.0 < x then none else some .greaterThan

/-- Read a whole number above zero. -/
def positiveInt : Reader Int := fun value =>
  (int value).also fun n => if n ≤ 0 then some .greaterThan else none

/-- Read one of several names; anything else is an issue of the given kind. -/
def oneOf {α : Type} (otherwise : IssueKind) (choices : List (String × α)) : Reader α
  | .str text => ofText text fun text =>
    match choices.lookup text with
    | some value => .valid value
    | none => .fail otherwise
  | _ => .fail otherwise

/-- Read a field that has to be there. -/
def required {α : Type} (given : Fields) (key : String) (read : Reader α) : Checked α :=
  match given.lookup key with
  | some value => (read value).within key
  | none => (Checked.fail .missing).within key

/-- Read a field that may be left out. -/
def defaulted {α : Type} (given : Fields) (key : String) (default : α) (read : Reader α) :
    Checked α :=
  match given.lookup key with
  | some value => (read value).within key
  | none => .valid default

/-- Read a field that may be left out or be nothing. -/
def optional {α : Type} (given : Fields) (key : String) (read : Reader α) :
    Checked (Option α) :=
  defaulted given key none (nullable read)

/-- The issues of the fields that nothing asks for. -/
def unknownFields (known : List String) (given : Fields) : List Issue :=
  (given.filter fun field => !known.contains field.1).map fun field =>
    ⟨[field.1], .extraForbidden⟩

/-- Refuse the fields that nothing asks for, after all other issues. -/
def closed {α : Type} (known : List String) (given : Fields) (read : Checked α) : Checked α :=
  match unknownFields known given with
  | [] => read
  | extra => Checked.apply (read.map fun value (_ : Unit) => value) (.invalid extra)

/-- Read an object whose fields are fixed, where what is given may settle under which of its
names a field is known. All its keys have to be whole, or nothing else is reported. -/
def modelKnowing {α : Type} (known : Fields → List String) (read : Fields → Checked α) :
    Reader α
  | .obj given =>
    if given.all fun field => Text.isWhole field.1 then closed (known given) given (read given)
    else .fail .stringUnicode
  | _ => .fail .modelType

/-- Read an object of fixed fields. -/
def model {α : Type} (known : List String) (read : Fields → Checked α) : Reader α :=
  modelKnowing (fun _ => known) read

/-- Read an object of one of several kinds, which a field tells apart. The kind is part of the
path to what is wrong. -/
def tagged {α : Type} (tag : String) (kinds : List (String × Reader α)) : Reader α
  | .obj given =>
    match given.lookup tag with
    | none => .fail .tagNotFound
    | some (.str kind) =>
      match kinds.lookup kind with
      | some read => (read (.obj given)).within kind
      | none => .fail .tagInvalid
    | some _ => .fail .tagInvalid
  | _ => .fail .modelAttributesType

/-- Read a value in one of two ways; when both fail, the issues of each stand below its name. -/
def either {α : Type} (firstName : String) (first : Reader α) (secondName : String)
    (second : Reader α) : Reader α := fun value =>
  match first value with
  | .valid found => .valid found
  | .invalid issues =>
    match second value with
    | .valid found => .valid found
    | .invalid more =>
      .invalid (issues.map (·.below firstName) ++ more.map (·.below secondName))

end Reader
end Storyboard.Schema
