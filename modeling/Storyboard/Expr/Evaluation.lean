import Storyboard.Expr.Parse
/-!
# Values of time expressions

`Expr.eval` gives a tree its position in seconds, reading anchors in a context. Operands are
evaluated from the left, and an anchor that is not known yet ends the evaluation with its name,
so that whoever asked can try again later. `Expr.anchors` lists what a tree reads, in the same
order, without evaluating it. As in reading, a tree may be of any depth: the depth of the stack is
left out.
-/
namespace Storyboard

namespace Expr

/-- The functions that take a name, with the anchor each stands for. -/
def namedAnchor? (function : String) : Option AnchorKind :=
  if function = "scene" then some .sceneStart
  else if function = "cue" then some .cueStart
  else if function = "mark" then some .markStart
  else none

/-- The one name that a function is given. -/
def soleName (function : String) : List Expr → Except TimeError String
  | [.identifier name] => .ok name
  | _ => .error (.defect (.needsIdentifier function) none)

/-- The anchor that a property of a name by itself stands for. -/
def relativeAnchor? (name property : String) : Option AnchorKind :=
  if name = "prev" ∧ property = "start" then some .prevStart
  else if name = "prev" ∧ property = "end" then some .prevEnd
  else if name = "next" ∧ property = "start" then some .nextStart
  else if name = "timeline" ∧ property = "start" then some .timelineStart
  else none

/-- A property that its target does not have. -/
def unsupported {α : Type} (property : String) : Except TimeError α :=
  .error (.defect (.unsupportedProperty property) none)

/-- The anchor that a property reads. -/
def propertyAnchor (target : Expr) (property : String) : Except TimeError Anchor :=
  match target with
  | .identifier name =>
    match relativeAnchor? name property with
    | some kind => .ok ⟨kind, none⟩
    | none => unsupported property
  | .call function args =>
    if function = "scene" then
      match soleName function args with
      | .error cause => .error cause
      | .ok ref =>
        if property = "start" then .ok (.sceneStart ref)
        else if property = "end" then .ok (.sceneEnd ref)
        else unsupported property
    else unsupported property
  | _ => unsupported property

/-- The position of an anchor in a context. -/
def readAnchor (ctx : Context) (anchor : Anchor) : Except TimeError Float :=
  match ctx.lookup? anchor with
  | some position => .ok position
  | none => .error (.missing anchor)

/-- A number in seconds. -/
def inSeconds (fps value : Float) : Option TimeUnit → Except TimeError Float
  | some .frames => (Number.divide value fps).mapError .arithmetic
  | some .milliseconds => .ok (value / 1000.0)
  | some .seconds => .ok value
  | none => .ok value

/-- The result of an operator. -/
def apply (op : Operator) (left right : Float) : Except TimeError Float :=
  match op with
  | .plus => .ok (left + right)
  | .minus => .ok (left - right)
  | .times => .ok (left * right)
  | .over =>
    if right == 0.0 then .error (.defect .divisionByZero none) else .ok (left / right)

/-- The multiple of a grid that is nearest to a value; a grid of zero moves nothing. -/
def snap (value grid : Float) : Except TimeError Float :=
  if grid == 0.0 then .ok value
  else
    match Number.floor (value / grid + 0.5) with
    | .ok count => .ok (Number.ofInt count * grid)
    | .error fault => .error (.arithmetic fault)

/-- The numbers of arguments that a function of numbers takes, checked before any of them is
evaluated. -/
def checkArity (function : String) (count : Nat) : Except TimeError Unit :=
  if function = "min" ∨ function = "max" then
    if count < 2 then .error (.defect (.tooFewArguments function) none) else .ok ()
  else if function = "clamp" then
    if count = 3 then .ok () else .error (.defect (.wrongArguments function 3) none)
  else if function = "snap" then
    if count = 2 then .ok () else .error (.defect (.wrongArguments function 2) none)
  else .error (.defect (.unknownFunction function) none)

/-- The result of a function of numbers. -/
def applyFunction (function : String) (values : List Float) : Except TimeError Float :=
  if function = "min" then
    match values with
    | first :: rest => .ok (Number.smallest first rest)
    | [] => .error (.defect (.tooFewArguments function) none)
  else if function = "max" then
    match values with
    | first :: rest => .ok (Number.largest first rest)
    | [] => .error (.defect (.tooFewArguments function) none)
  else if function = "clamp" then
    match values with
    | [value, low, high] => .ok (Number.clamp value low high)
    | _ => .error (.defect (.wrongArguments function 3) none)
  else
    match values with
    | [value, grid] => snap value grid
    | _ => .error (.defect (.wrongArguments function 2) none)

mutual

/-- The position of an expression, in seconds. -/
def eval (ctx : Context) : Expr → Except TimeError Float
  | .number value unit => inSeconds ctx.fps value unit
  | .identifier name =>
    if name = "timeline" then .error (.defect .bareTimeline none)
    else .error (.defect (.unknownIdentifier name) none)
  | .unary op operand =>
    match eval ctx operand with
    | .ok value => .ok (if op = .minus then -value else value)
    | .error cause => .error cause
  | .binary op left right =>
    match eval ctx left with
    | .error cause => .error cause
    | .ok l =>
      match eval ctx right with
      | .error cause => .error cause
      | .ok r => apply op l r
  | .call function args =>
    match namedAnchor? function with
    | some kind =>
      match soleName function args with
      | .ok ref => readAnchor ctx ⟨kind, some ref⟩
      | .error cause => .error cause
    | none =>
      match checkArity function args.length with
      | .error cause => .error cause
      | .ok () =>
        match evalAll ctx args with
        | .ok values => applyFunction function values
        | .error cause => .error cause
  | .property target name =>
    match propertyAnchor target name with
    | .ok anchor => readAnchor ctx anchor
    | .error cause => .error cause

/-- The positions of arguments, from the left. -/
def evalAll (ctx : Context) : List Expr → Except TimeError (List Float)
  | [] => .ok []
  | first :: rest =>
    match eval ctx first with
    | .error cause => .error cause
    | .ok value =>
      match evalAll ctx rest with
      | .ok values => .ok (value :: values)
      | .error cause => .error cause

end

mutual

/-- The anchors that an expression reads, in the order of evaluation. -/
def anchors : Expr → Except TimeError (List Anchor)
  | .number _ _ => .ok []
  | .identifier _ => .ok []
  | .unary _ operand => anchors operand
  | .binary _ left right =>
    match anchors left with
    | .error cause => .error cause
    | .ok first => (anchors right).map (first ++ ·)
  | .call function args =>
    match namedAnchor? function with
    | some kind => (soleName function args).map fun ref => [⟨kind, some ref⟩]
    | none => anchorsAll args
  | .property target name => (propertyAnchor target name).map fun anchor => [anchor]

/-- The anchors that arguments read, from the left. -/
def anchorsAll : List Expr → Except TimeError (List Anchor)
  | [] => .ok []
  | first :: rest =>
    match anchors first with
    | .error cause => .error cause
    | .ok found => (anchorsAll rest).map (found ++ ·)

end

end Expr

namespace TimeExpression

/-- The value of an expression in seconds. -/
def evaluate (expression : TimeExpression) (ctx : Context) : Except TimeError Float :=
  (expression.tree.eval ctx).mapError (·.within expression.text)

/-- The anchors that an expression reads, each once. -/
def references (expression : TimeExpression) : Except TimeError (List Anchor) :=
  expression.tree.anchors.map List.eraseDups

/-- How an expression is shown to a developer. -/
def shown (expression : TimeExpression) : String :=
  "TimeExpression(" ++ Text.quoted expression.text ++ ")"

end TimeExpression

/-- A position as authored: seconds, or an expression. -/
inductive TimeValue where
  /-- A number of seconds. -/
  | seconds (value : Float)
  /-- The text of an expression. -/
  | expression (text : String)

namespace TimeValue

/-- The position in seconds. -/
def evaluate (value : TimeValue) (ctx : Context) : Except TimeError Float :=
  match value with
  | .seconds value => .ok value
  | .expression text => TimeExpression.parse text >>= (·.evaluate ctx)

end TimeValue
end Storyboard
