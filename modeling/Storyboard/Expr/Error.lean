import Storyboard.Expr.Token
import Storyboard.Expr.Anchor
/-!
# Errors of time expressions

A `Defect` is a fault of the text itself, which no later attempt mends. A `TimeError` is a
defect with the text it was found in, an anchor whose position is not known yet, or a fault of
arithmetic.
-/
namespace Storyboard

/-- What is wrong with an expression or with the timing of an entity. -/
inductive Defect where
  /-- Characters that begin like a number and are none. -/
  | invalidNumber (text : String)
  /-- A symbol that begins no word. -/
  | unexpectedCharacter (text : String)
  /-- No word at all. -/
  | empty
  /-- A word after the end of the expression. -/
  | unexpectedToken (token : Token)
  /-- A parenthesis that is not closed. -/
  | unclosed
  /-- An end where an operand has to stand. -/
  | unexpectedEnd
  /-- A word that is no operand where one has to stand. -/
  | invalid
  /-- A dot without a property. -/
  | missingProperty
  /-- The timeline itself, without a property. -/
  | bareTimeline
  /-- A name that means nothing by itself. -/
  | unknownIdentifier (name : String)
  /-- A division by zero. -/
  | divisionByZero
  /-- Less than two arguments of a function that takes more. -/
  | tooFewArguments (function : String)
  /-- A number of arguments that a function does not take. -/
  | wrongArguments (function : String) (count : Nat)
  /-- Something else than one name given to a function that takes one. -/
  | needsIdentifier (function : String)
  /-- A property that its target does not have. -/
  | unsupportedProperty (property : String)
  /-- A function that there is not. -/
  | unknownFunction (name : String)
  /-- An end without a start in the timing of an entity. -/
  | startRequired (label : String)

namespace Defect

/-- The wording of a defect. -/
def message : Defect → String
  | .invalidNumber text => "Invalid number \"" ++ text ++ "\""
  | .unexpectedCharacter text => "Unexpected character \"" ++ text ++ "\""
  | .empty => "Empty time expression"
  | .unexpectedToken token => "Unexpected token " ++ token.shown
  | .unclosed => "Expected closing ')'"
  | .unexpectedEnd => "Unexpected end of input"
  | .invalid => "Invalid time expression"
  | .missingProperty => "Expected property name after '.'"
  | .bareTimeline => "timeline requires a property (e.g. timeline.start)"
  | .unknownIdentifier name => "Unknown identifier \"" ++ name ++ "\""
  | .divisionByZero => "Division by zero"
  | .tooFewArguments function => function ++ " requires at least 2 arguments"
  | .wrongArguments function count =>
    function ++ " requires " ++ Number.intText count ++ " arguments"
  | .needsIdentifier function => function ++ "() requires a single identifier argument"
  | .unsupportedProperty property => "Unsupported property access \"." ++ property ++ "\""
  | .unknownFunction name => "Unknown function \"" ++ name ++ "\""
  | .startRequired label => label ++ " timing requires start when end is provided"

end Defect

/-- Why an expression has no value. -/
inductive TimeError where
  /-- The expression is defective; its text is given when it is known. -/
  | defect (cause : Defect) (expression : Option String)
  /-- An anchor has no position yet. -/
  | missing (anchor : Anchor)
  /-- An operation has no result. -/
  | arithmetic (fault : Fault)

namespace TimeError

/-- Name the text in which a defect was found. -/
def within (text : String) : TimeError → TimeError
  | .defect cause _ => .defect cause (some text)
  | other => other

/-- The wording of an error; some faults of arithmetic have none. -/
def message : TimeError → Option String
  | .defect cause none => some cause.message
  | .defect cause (some text) =>
    some (cause.message ++ " in time expression \"" ++ text ++ "\"")
  | .missing anchor => some ("Unknown time reference: " ++ anchor.describe)
  | .arithmetic fault => fault.message

end TimeError
end Storyboard
