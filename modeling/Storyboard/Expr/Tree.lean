import Storyboard.Expr.Token
/-!
# Trees of time expressions

`Expr` is what the words of a time expression mean as a tree; parentheses leave no node.
-/
namespace Storyboard

/-- A time expression. -/
inductive Expr where
  /-- A number with its unit. -/
  | number (value : Float) (unit : Option TimeUnit)
  /-- A name by itself. -/
  | identifier (name : String)
  /-- A sign before an operand. -/
  | unary (op : Operator) (operand : Expr)
  /-- An operator between two operands. -/
  | binary (op : Operator) (left right : Expr)
  /-- A function with its arguments. -/
  | call (name : String) (args : List Expr)
  /-- A property of something. -/
  | property (target : Expr) (name : String)

end Storyboard
