import Storyboard.Expr.Scan
import Storyboard.Expr.Tree
/-!
# Words to trees

The grammar, from the loosest to the tightest binding:

* a sum is terms joined by `+` and `-`, to the left;
* a term is signed operands joined by `*` and `/`, to the left;
* a signed operand is an operand behind any number of `+` and `-`;
* an operand is a number, a sum in parentheses, or a name, which may take arguments in
  parentheses and any number of properties behind dots.

Each function below reads one of these from the front of the words and returns the words after
it, of which there are fewer, so the recursion ends on every list of words. Parentheses may be
nested to any depth: how deep the stack of a machine lets a reader go is left out here, while the
reader of JSON and the writer of documents have an error for it (`Json.ParseError.tooDeep`,
`DocumentError.tooDeep`).
-/
namespace Storyboard.Expr

/-- What is read from the front of some words: a value, and the words after it, of which there
are fewer. -/
abbrev Taken (α : Type) (words : List Token) : Type :=
  { result : α × List Token // result.2.length < words.length }

/-- What is read from the front of some words, if anything: a value, and the words after it. -/
abbrev Kept (α : Type) (words : List Token) : Type :=
  { result : α × List Token // result.2.length ≤ words.length }

/-- Read the properties behind an operand. -/
def properties (target : Expr) : (words : List Token) → Except Defect (Kept Expr words)
  | .dot :: .identifier name :: rest =>
    match properties (.property target name) rest with
    | .ok ⟨result, fewer⟩ =>
      .ok ⟨result, Nat.le_trans fewer (by simp only [List.length_cons]; omega)⟩
    | .error cause => .error cause
  | .dot :: _ => .error .missingProperty
  | words => .ok ⟨(target, words), Nat.le_refl _⟩

/-- Read a closing parenthesis. -/
def closing : (words : List Token) → Except Defect (Taken Unit words)
  | .closeParen :: rest => .ok ⟨((), rest), by simp⟩
  | _ => .error .unclosed

mutual

/-- Read a sum. -/
def sum (words : List Token) : Except Defect (Taken Expr words) :=
  match term words with
  | .error cause => .error cause
  | .ok ⟨(left, rest), fewer⟩ =>
    match sumTail left rest with
    | .error cause => .error cause
    | .ok ⟨result, kept⟩ => .ok ⟨result, Nat.lt_of_le_of_lt kept fewer⟩
termination_by 6 * words.length + 4
decreasing_by
  · omega
  · simp only at fewer; omega

/-- Read the terms that follow a part of a sum. -/
def sumTail (left : Expr) (words : List Token) : Except Defect (Kept Expr words) :=
  match words with
  | .operator op :: rest =>
    if op.isAdditive then
      match term rest with
      | .error cause => .error cause
      | .ok ⟨(right, after), fewer⟩ =>
        match sumTail (.binary op left right) after with
        | .error cause => .error cause
        | .ok ⟨result, kept⟩ =>
          .ok ⟨result, by simp only [List.length_cons]; simp only at fewer; omega⟩
    else .ok ⟨(left, .operator op :: rest), Nat.le_refl _⟩
  | other => .ok ⟨(left, other), Nat.le_refl _⟩
termination_by 6 * words.length
decreasing_by
  · simp only [List.length_cons]; omega
  · simp only [List.length_cons]; simp only at fewer; omega

/-- Read a term. -/
def term (words : List Token) : Except Defect (Taken Expr words) :=
  match signed words with
  | .error cause => .error cause
  | .ok ⟨(left, rest), fewer⟩ =>
    match termTail left rest with
    | .error cause => .error cause
    | .ok ⟨result, kept⟩ => .ok ⟨result, Nat.lt_of_le_of_lt kept fewer⟩
termination_by 6 * words.length + 3
decreasing_by
  · omega
  · simp only at fewer; omega

/-- Read the operands that follow a part of a term. -/
def termTail (left : Expr) (words : List Token) : Except Defect (Kept Expr words) :=
  match words with
  | .operator op :: rest =>
    if op.isAdditive then .ok ⟨(left, .operator op :: rest), Nat.le_refl _⟩
    else
      match signed rest with
      | .error cause => .error cause
      | .ok ⟨(right, after), fewer⟩ =>
        match termTail (.binary op left right) after with
        | .error cause => .error cause
        | .ok ⟨result, kept⟩ =>
          .ok ⟨result, by simp only [List.length_cons]; simp only at fewer; omega⟩
  | other => .ok ⟨(left, other), Nat.le_refl _⟩
termination_by 6 * words.length
decreasing_by
  · simp only [List.length_cons]; omega
  · simp only [List.length_cons]; simp only at fewer; omega

/-- Read a signed operand. -/
def signed (words : List Token) : Except Defect (Taken Expr words) :=
  match words with
  | .operator op :: rest =>
    if op.isAdditive then
      match signed rest with
      | .error cause => .error cause
      | .ok ⟨(operand, after), fewer⟩ =>
        .ok ⟨(.unary op operand, after), by
          simp only [List.length_cons]; simp only at fewer; omega⟩
    else .error .invalid
  | .number value unit :: rest => .ok ⟨(.number value unit, rest), by simp⟩
  | .openParen :: rest =>
    match sum rest with
    | .error cause => .error cause
    | .ok ⟨(inner, after), fewer⟩ =>
      match closing after with
      | .error cause => .error cause
      | .ok ⟨((), last), fewerStill⟩ =>
        .ok ⟨(inner, last), by simp only [List.length_cons] at *; omega⟩
  | .identifier name :: .openParen :: .closeParen :: rest =>
    match properties (.call name []) rest with
    | .error cause => .error cause
    | .ok ⟨result, kept⟩ => .ok ⟨result, by simp only [List.length_cons]; omega⟩
  | .identifier name :: .openParen :: rest =>
    match arguments rest with
    | .error cause => .error cause
    | .ok ⟨(args, after), fewer⟩ =>
      match closing after with
      | .error cause => .error cause
      | .ok ⟨((), last), fewerStill⟩ =>
        match properties (.call name args) last with
        | .error cause => .error cause
        | .ok ⟨result, kept⟩ =>
          .ok ⟨result, by simp only [List.length_cons] at *; omega⟩
  | .identifier name :: rest =>
    match properties (.identifier name) rest with
    | .error cause => .error cause
    | .ok ⟨result, kept⟩ => .ok ⟨result, by simp only [List.length_cons]; omega⟩
  | [] => .error .unexpectedEnd
  | _ => .error .invalid
termination_by 6 * words.length + 2
decreasing_by all_goals (simp only [List.length_cons]; omega)

/-- Read one or more sums with commas between them. -/
def arguments (words : List Token) : Except Defect (Taken (List Expr) words) :=
  match sum words with
  | .error cause => .error cause
  | .ok ⟨(first, rest), fewer⟩ =>
    match argumentsTail rest with
    | .error cause => .error cause
    | .ok ⟨(others, after), kept⟩ =>
      .ok ⟨(first :: others, after), Nat.lt_of_le_of_lt kept fewer⟩
termination_by 6 * words.length + 5
decreasing_by
  · omega
  · simp only at fewer; omega

/-- Read the sums that follow one, each behind a comma. -/
def argumentsTail (words : List Token) : Except Defect (Kept (List Expr) words) :=
  match words with
  | .comma :: rest =>
    match arguments rest with
    | .error cause => .error cause
    | .ok ⟨result, fewer⟩ => .ok ⟨result, by simp only [List.length_cons]; omega⟩
  | other => .ok ⟨([], other), Nat.le_refl _⟩
termination_by 6 * words.length
decreasing_by simp only [List.length_cons]; omega

end

/-- Read all words as one sum. -/
def ofTokens (words : List Token) : Except Defect Expr :=
  if words.isEmpty then .error .empty
  else
    match sum words with
    | .error cause => .error cause
    | .ok ⟨(tree, []), _⟩ => .ok tree
    | .ok ⟨(_, next :: _), _⟩ => .error (.unexpectedToken next)

end Storyboard.Expr

namespace Storyboard

/-- A time expression with the text it was read from. -/
structure TimeExpression where
  /-- The text, without blanks around it. -/
  text : String
  /-- Its meaning. -/
  tree : Expr

namespace TimeExpression

/-- Read a time expression; blanks around it do not count. -/
def parse (text : String) : Except TimeError TimeExpression :=
  let trimmed := Text.trim text.toList
  match Token.scan trimmed >>= Expr.ofTokens with
  | .ok tree => .ok ⟨String.ofList trimmed, tree⟩
  | .error cause => .error (.defect cause (some (String.ofList trimmed)))

end TimeExpression
end Storyboard
