import Storyboard.Number.Layout
import Storyboard.Text.Quoted
/-!
# Words of time expressions

A time expression is a small arithmetic language for positions in seconds, such as
`scene(intro).end + 15f`. Its words are numbers with an optional unit, identifiers, four
operators, parentheses, dots and commas.
-/
namespace Storyboard

/-- The unit that a number is written with. -/
inductive TimeUnit where
  /-- Frames, written `f`. -/
  | frames
  /-- Seconds, written `s`. -/
  | seconds
  /-- Milliseconds, written `ms`. -/
  | milliseconds
  deriving DecidableEq, Repr

namespace TimeUnit

/-- The spelling of a unit. -/
def spelling : TimeUnit → String
  | .frames => "f"
  | .seconds => "s"
  | .milliseconds => "ms"

end TimeUnit

/-- The four operators; the first two also stand before an operand. -/
inductive Operator where
  /-- Addition, or no change of sign. -/
  | plus
  /-- Subtraction, or a change of sign. -/
  | minus
  /-- Multiplication. -/
  | times
  /-- Division. -/
  | over
  deriving DecidableEq, Repr

namespace Operator

/-- The character of an operator. -/
def symbol : Operator → Char
  | .plus => '+'
  | .minus => '-'
  | .times => '*'
  | .over => '/'

/-- Whether an operator adds or subtracts. -/
def isAdditive : Operator → Bool
  | .plus => true
  | .minus => true
  | .times => false
  | .over => false

end Operator

/-- One word of a time expression. -/
inductive Token where
  /-- A number with its unit. -/
  | number (value : Float) (unit : Option TimeUnit)
  /-- A name. -/
  | identifier (name : String)
  /-- An operator. -/
  | operator (op : Operator)
  /-- An opening parenthesis. -/
  | openParen
  /-- A closing parenthesis. -/
  | closeParen
  /-- The dot before a property. -/
  | dot
  /-- The comma between arguments. -/
  | comma

namespace Token

/-- What a message shows of a word: its value, or the name of its kind for a word without one;
the number zero counts as one without. -/
def shown : Token → String
  | .number value _ => if value == 0.0 then Text.quoted "number" else Number.text value
  | .identifier name => Text.quoted name
  | .operator op => Text.quoted (String.singleton op.symbol)
  | .openParen => Text.quoted "("
  | .closeParen => Text.quoted ")"
  | .dot => Text.quoted "dot"
  | .comma => Text.quoted "comma"

end Token
end Storyboard
