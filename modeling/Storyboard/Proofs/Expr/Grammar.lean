import Storyboard.Expr.Parse
import Storyboard.Proofs.Outcome
/-!
# The grammar of time expressions

The grammar says which words are an expression, and with which tree. The functions that read an
expression accept exactly this grammar: what they read derives (`isExpression_of_sum`), and what
derives they read, whatever stands behind it that does not go on with it (`sum_of_isExpression`).
So the tree of some words is the only one (`ofTokens_eq_ok_iff`).
-/
namespace Storyboard.Expr

/-! ## The grammar -/

mutual

/-- Whether words are an expression: terms joined by `+` and `-`, to the left. -/
inductive IsExpression : List Token → Expr → Prop where
  /-- One term. -/
  | term {words : List Token} {tree : Expr} (only : IsTerm words tree) : IsExpression words tree
  /-- An expression and one more term. -/
  | joined {before after : List Token} {left right : Expr} {op : Operator}
    (first : IsExpression before left) (additive : op.isAdditive = true)
    (last : IsTerm after right) :
    IsExpression (before ++ .operator op :: after) (.binary op left right)

/-- Whether words are a term: signed operands joined by `*` and `/`, to the left. -/
inductive IsTerm : List Token → Expr → Prop where
  /-- One operand. -/
  | unary {words : List Token} {tree : Expr} (only : IsUnary words tree) : IsTerm words tree
  /-- A term and one more operand. -/
  | joined {before after : List Token} {left right : Expr} {op : Operator}
    (first : IsTerm before left) (multiplicative : op.isAdditive = false)
    (last : IsUnary after right) :
    IsTerm (before ++ .operator op :: after) (.binary op left right)

/-- Whether words are an operand behind any number of `+` and `-`. -/
inductive IsUnary : List Token → Expr → Prop where
  /-- A sign before a signed operand. -/
  | sign {words : List Token} {tree : Expr} {op : Operator} (additive : op.isAdditive = true)
    (operand : IsUnary words tree) : IsUnary (.operator op :: words) (.unary op tree)
  /-- An operand. -/
  | primary {words : List Token} {tree : Expr} (only : IsPrimary words tree) : IsUnary words tree

/-- Whether words are an operand: a number, an expression in parentheses, which leave no node, or
a name. -/
inductive IsPrimary : List Token → Expr → Prop where
  /-- A number. -/
  | number (value : Float) (unit : Option TimeUnit) :
    IsPrimary [.number value unit] (.number value unit)
  /-- An expression in parentheses. -/
  | parentheses {words : List Token} {tree : Expr} (inner : IsExpression words tree) :
    IsPrimary (.openParen :: (words ++ [.closeParen])) tree
  /-- A name. -/
  | named {words : List Token} {tree : Expr} (only : IsNamed words tree) : IsPrimary words tree

/-- Whether words are a name, which may have arguments in parentheses, and properties behind it. -/
inductive IsNamed : List Token → Expr → Prop where
  /-- The name by itself. -/
  | name (name : String) : IsNamed [.identifier name] (.identifier name)
  /-- The name of a function with its arguments. -/
  | call {words : List Token} {args : List Expr} (name : String) (given : AreArguments words args) :
    IsNamed (.identifier name :: .openParen :: (words ++ [.closeParen])) (.call name args)
  /-- A property of what stands before it. -/
  | property {words : List Token} {tree : Expr} (target : IsNamed words tree) (name : String) :
    IsNamed (words ++ [.dot, .identifier name]) (.property tree name)

/-- Whether words are arguments: none, or some. -/
inductive AreArguments : List Token → List Expr → Prop where
  /-- No argument. -/
  | none : AreArguments [] []
  /-- One argument or more. -/
  | some {words : List Token} {args : List Expr} (listed : AreListed words args) :
    AreArguments words args

/-- Whether words are one or more expressions with commas between them. -/
inductive AreListed : List Token → List Expr → Prop where
  /-- One expression. -/
  | last {words : List Token} {tree : Expr} (only : IsExpression words tree) :
    AreListed words [tree]
  /-- An expression, and others behind a comma. -/
  | more {before after : List Token} {tree : Expr} {others : List Expr}
    (first : IsExpression before tree) (rest : AreListed after others) :
    AreListed (before ++ .comma :: after) (tree :: others)

end

/-! ## Reading without the proofs of progress -/

/-- What is read, without the proof that words were taken. -/
def bare {α : Type} {p : α → Prop} (outcome : Except Defect { result : α // p result }) :
    Except Defect α :=
  outcome.map Subtype.val

/-- What is read has the proof that comes with it. -/
theorem of_bare {α : Type} {p : α → Prop} {outcome : Except Defect { result : α // p result }}
    {result : α} (done : bare outcome = .ok result) : p result := by
  obtain ⟨⟨_, holds⟩, _, rfl⟩ := map_eq_ok done
  exact holds

section Equations

variable (words rest : List Token) (left : Expr) (op : Operator) (name : String)

/-- Properties are read one after another. -/
theorem properties_dot :
    bare (properties left (.dot :: .identifier name :: rest)) =
      bare (properties (.property left name) rest) := by
  rw [properties]
  cases properties (.property left name) rest <;> rfl

/-- A sum is a term and what follows it. -/
theorem bare_sum :
    bare (sum words) = (bare (term words) >>= fun read => bare (sumTail read.1 read.2)) := by
  rw [sum]
  cases term words with
  | error cause => rfl
  | ok read =>
    obtain ⟨⟨first, after⟩, fewer⟩ := read
    dsimp only [bare, Except.map, bind, Except.bind]
    cases sumTail first after <;> rfl

/-- A sum goes on behind an additive operator. -/
theorem bare_sumTail (additive : op.isAdditive = true) :
    bare (sumTail left (.operator op :: rest)) =
      (bare (term rest) >>= fun read => bare (sumTail (.binary op left read.1) read.2)) := by
  rw [sumTail, if_pos additive]
  cases term rest with
  | error cause => rfl
  | ok read =>
    obtain ⟨⟨right, after⟩, fewer⟩ := read
    dsimp only [bare, Except.map, bind, Except.bind]
    cases sumTail (.binary op left right) after <;> rfl

/-- A term is a signed operand and what follows it. -/
theorem bare_term :
    bare (term words) = (bare (signed words) >>= fun read => bare (termTail read.1 read.2)) := by
  rw [term]
  cases signed words with
  | error cause => rfl
  | ok read =>
    obtain ⟨⟨first, after⟩, fewer⟩ := read
    dsimp only [bare, Except.map, bind, Except.bind]
    cases termTail first after <;> rfl

/-- A term goes on behind a multiplicative operator. -/
theorem bare_termTail (multiplicative : op.isAdditive = false) :
    bare (termTail left (.operator op :: rest)) =
      (bare (signed rest) >>= fun read => bare (termTail (.binary op left read.1) read.2)) := by
  rw [termTail, if_neg (by simp [multiplicative])]
  cases signed rest with
  | error cause => rfl
  | ok read =>
    obtain ⟨⟨right, after⟩, fewer⟩ := read
    dsimp only [bare, Except.map, bind, Except.bind]
    cases termTail (.binary op left right) after <;> rfl

/-- A sign stands before a signed operand. -/
theorem bare_signed_operator (additive : op.isAdditive = true) :
    bare (signed (.operator op :: rest)) =
      (bare (signed rest)).map fun read => (.unary op read.1, read.2) := by
  rw [signed, if_pos additive]
  cases signed rest <;> rfl

/-- A closing parenthesis ends what an opening one begins. -/
theorem bare_signed_openParen :
    bare (signed (.openParen :: rest)) =
      (bare (sum rest) >>= fun read =>
        (bare (closing read.2)).map fun closed => (read.1, closed.2)) := by
  rw [signed]
  cases sum rest with
  | error cause => rfl
  | ok read =>
    obtain ⟨⟨inner, after⟩, fewer⟩ := read
    dsimp only [bare, Except.map, bind, Except.bind]
    cases closing after <;> rfl

/-- Properties may follow a function without arguments. -/
theorem bare_signed_call_nil :
    bare (signed (.identifier name :: .openParen :: .closeParen :: rest)) =
      bare (properties (.call name []) rest) := by
  rw [signed]
  cases properties (.call name []) rest <;> rfl

/-- Properties may follow a function with arguments. -/
theorem bare_signed_call (some : ∀ after, rest ≠ .closeParen :: after) :
    bare (signed (.identifier name :: .openParen :: rest)) =
      (bare (arguments rest) >>= fun read => bare (closing read.2) >>= fun closed =>
        bare (properties (.call name read.1) closed.2)) := by
  rw [signed]
  · cases arguments rest with
    | error cause => rfl
    | ok read =>
      obtain ⟨⟨args, after⟩, fewer⟩ := read
      dsimp only [bare, Except.map, bind, Except.bind]
      cases closing after with
      | error cause => rfl
      | ok closed =>
        obtain ⟨⟨⟨⟩, last⟩, fewerStill⟩ := closed
        dsimp only
        cases properties (.call name args) last <;> rfl
  · exact some

/-- Properties may follow a name. -/
theorem bare_signed_name (apart : ∀ after, rest ≠ .openParen :: after) :
    bare (signed (.identifier name :: rest)) = bare (properties (.identifier name) rest) := by
  rw [signed]
  · cases properties (.identifier name) rest <;> rfl
  · exact fun after => apart _
  · exact apart

/-- Arguments are a sum and what follows it. -/
theorem bare_arguments :
    bare (arguments words) =
      (bare (sum words) >>= fun read =>
        (bare (argumentsTail read.2)).map fun others => (read.1 :: others.1, others.2)) := by
  rw [arguments]
  cases sum words with
  | error cause => rfl
  | ok read =>
    obtain ⟨⟨first, after⟩, fewer⟩ := read
    dsimp only [bare, Except.map, bind, Except.bind]
    cases argumentsTail after <;> rfl

/-- Arguments go on behind a comma. -/
theorem bare_argumentsTail :
    bare (argumentsTail (.comma :: rest)) = bare (arguments rest) := by
  rw [argumentsTail]
  cases arguments rest <;> rfl

end Equations

/-! ## What does not go on -/

/-- Whether words do not go on with the name before them. -/
def EndsName : List Token → Prop
  | .dot :: _ => False
  | .openParen :: _ => False
  | _ => True

/-- Whether words do not go on with the term before them. -/
def EndsTerm : List Token → Prop
  | .operator op :: _ => op.isAdditive = true
  | words => EndsName words

/-- Whether words do not go on with the sum before them. -/
def EndsSum : List Token → Prop
  | .operator _ :: _ => False
  | words => EndsName words

/-- What does not go on with a term does not with a name. -/
theorem EndsTerm.endsName {words : List Token} (ends : EndsTerm words) : EndsName words := by
  match words, ends with
  | [], _ => trivial
  | .operator _ :: _, _ => trivial
  | .number _ _ :: _, _ | .identifier _ :: _, _ | .closeParen :: _, _ | .comma :: _, _ => trivial

/-- What does not go on with a sum does not with a term. -/
theorem EndsSum.endsTerm {words : List Token} (ends : EndsSum words) : EndsTerm words := by
  match words, ends with
  | [], _ => trivial
  | .number _ _ :: _, _ | .identifier _ :: _, _ | .closeParen :: _, _ | .comma :: _, _ => trivial

/-- What does not go on with a name opens no arguments. -/
theorem EndsName.not_open {words : List Token} (ends : EndsName words) (after : List Token) :
    words ≠ .openParen :: after := by
  rintro rfl
  exact ends

/-- A name is read up to what does not go on with it. -/
theorem properties_of_ends {words : List Token} (target : Expr) (ends : EndsName words) :
    bare (properties target words) = .ok (target, words) := by
  match words, ends with
  | [], _ => rfl
  | .operator _ :: _, _ => rfl
  | .number _ _ :: _, _ | .identifier _ :: _, _ | .closeParen :: _, _ | .comma :: _, _ => rfl

/-- A term is read up to what does not go on with it. -/
theorem termTail_of_ends {words : List Token} (left : Expr) (ends : EndsTerm words) :
    bare (termTail left words) = .ok (left, words) := by
  unfold termTail
  split
  · rename_i op rest
    have additive : op.isAdditive = true := ends
    rw [if_pos additive]
    rfl
  · rfl

/-- A sum is read up to what does not go on with it. -/
theorem sumTail_of_ends {words : List Token} (left : Expr) (ends : EndsSum words) :
    bare (sumTail left words) = .ok (left, words) := by
  unfold sumTail
  split
  · exact ends.elim
  · rfl

/-! ## What derives is read -/

/-- No argument begins with a closing parenthesis. -/
theorem arguments_closeParen (rest : List Token) :
    bare (arguments (.closeParen :: rest)) = .error .invalid := by
  rw [bare_arguments, bare_sum, bare_term, signed]
  · rfl
  all_goals simp

mutual

/-- An expression is read as a sum, which goes on if what stands behind it does. -/
theorem sum_of_isExpression {words : List Token} {tree : Expr} :
    IsExpression words tree → ∀ rest, EndsTerm rest →
      bare (sum (words ++ rest)) = bare (sumTail tree rest)
  | .term only, rest, ends => by
    rw [bare_sum, term_of_isTerm only rest ends.endsName, termTail_of_ends tree ends]
    rfl
  | @IsExpression.joined before after left right op first additive last, rest, ends => by
    rw [List.append_assoc, List.cons_append,
      sum_of_isExpression first (.operator op :: (after ++ rest)) additive,
      bare_sumTail _ _ _ additive, term_of_isTerm last rest ends.endsName,
      termTail_of_ends _ ends]
    rfl

/-- A term is read as one, which goes on if what stands behind it does. -/
theorem term_of_isTerm {words : List Token} {tree : Expr} :
    IsTerm words tree → ∀ rest, EndsName rest →
      bare (term (words ++ rest)) = bare (termTail tree rest)
  | .unary only, rest, ends => by
    rw [bare_term, signed_of_isUnary only rest ends]
    rfl
  | @IsTerm.joined before after left right op first multiplicative last, rest, ends => by
    rw [List.append_assoc, List.cons_append,
      term_of_isTerm first (.operator op :: (after ++ rest)) trivial,
      bare_termTail _ _ _ multiplicative, signed_of_isUnary last rest ends]
    rfl

/-- A signed operand is read as one. -/
theorem signed_of_isUnary {words : List Token} {tree : Expr} :
    IsUnary words tree → ∀ rest, EndsName rest →
      bare (signed (words ++ rest)) = .ok (tree, rest)
  | .sign additive operand, rest, ends => by
    rw [List.cons_append, bare_signed_operator _ _ additive, signed_of_isUnary operand rest ends]
    rfl
  | .primary only, rest, ends => signed_of_isPrimary only rest ends

/-- An operand is read as one without signs. -/
theorem signed_of_isPrimary {words : List Token} {tree : Expr} :
    IsPrimary words tree → ∀ rest, EndsName rest →
      bare (signed (words ++ rest)) = .ok (tree, rest)
  | .number value unit, rest, _ => by
    rw [List.cons_append, List.nil_append, signed]
    rfl
  | .parentheses inner, rest, _ => by
    have closed : EndsSum (.closeParen :: rest) := trivial
    rw [List.cons_append, List.append_assoc, bare_signed_openParen, List.cons_append,
      List.nil_append, sum_of_isExpression inner _ closed.endsTerm, sumTail_of_ends _ closed]
    rfl
  | .named only, rest, ends => by
    rw [signed_of_isNamed only rest ends.not_open, properties_of_ends tree ends]

/-- A name is read with its properties, which go on if what stands behind it does. -/
theorem signed_of_isNamed {words : List Token} {tree : Expr} :
    IsNamed words tree → ∀ rest, (∀ after, rest ≠ .openParen :: after) →
      bare (signed (words ++ rest)) = bare (properties tree rest)
  | .name name, rest, apart => bare_signed_name rest name apart
  | .call name .none, rest, _ => bare_signed_call_nil rest name
  | .call name (.some listed), rest, _ => by
    have read := arguments_of_areListed listed (.closeParen :: rest) ⟨rest, rfl⟩
    rw [List.cons_append, List.cons_append, List.append_assoc, List.cons_append,
      List.nil_append, bare_signed_call, read]
    · rfl
    · intro after closed
      rw [closed, arguments_closeParen] at read
      cases read
  | .property target name, rest, _ => by
    rw [List.append_assoc, signed_of_isNamed target _ (by simp)]
    exact properties_dot rest _ name

/-- Listed arguments are read up to the closing parenthesis. -/
theorem arguments_of_areListed {words : List Token} {args : List Expr} :
    AreListed words args → ∀ rest, (∃ after, rest = .closeParen :: after) →
      bare (arguments (words ++ rest)) = .ok (args, rest)
  | .last only, _, ⟨after, rfl⟩ => by
    have closed : EndsSum (.closeParen :: after) := trivial
    rw [bare_arguments, sum_of_isExpression only _ closed.endsTerm, sumTail_of_ends _ closed]
    change (bare (argumentsTail (.closeParen :: after))).map _ = _
    rw [argumentsTail]
    · rfl
    · simp
  | @AreListed.more before after tree others first rest, behind, closed => by
    have parted : EndsSum (.comma :: (after ++ behind)) := trivial
    rw [List.append_assoc, List.cons_append, bare_arguments,
      sum_of_isExpression first _ parted.endsTerm, sumTail_of_ends _ parted]
    change (bare (argumentsTail (.comma :: (after ++ behind)))).map _ = _
    rw [bare_argumentsTail, arguments_of_areListed rest behind closed]
    rfl

end

/-! ## What is read derives -/

/-- A closing parenthesis is read where there is one. -/
theorem eq_of_closing {words rest : List Token} {done : Unit}
    (read : bare (closing words) = .ok (done, rest)) : words = .closeParen :: rest := by
  unfold closing at read
  split at read
  · cases read
    rfl
  · cases read

/-- The properties that are read go on with a name. -/
theorem isNamed_of_properties {target tree : Expr} {words rest : List Token}
    (read : bare (properties target words) = .ok (tree, rest)) :
    ∃ taken, words = taken ++ rest ∧
      ∀ before, IsNamed before target → IsNamed (before ++ taken) tree := by
  fun_induction properties target words with
  | case1 target name words result fewer done ih =>
    obtain ⟨taken, rfl, derives⟩ := ih (by rw [done]; exact read)
    refine ⟨.dot :: .identifier name :: taken, rfl, fun before named => ?_⟩
    rw [← List.singleton_append, ← List.append_assoc, ← List.singleton_append]
    simpa using derives _ (.property named name)
  | case2 => cases read
  | case3 => cases read
  | case4 =>
    cases read
    exact ⟨[], rfl, fun before named => by rwa [List.append_nil]⟩

/-- A sum stops, or goes on behind an additive operator. -/
theorem sumTail_cases (left : Expr) (words : List Token) :
    bare (sumTail left words) = .ok (left, words) ∨
      ∃ op after, words = .operator op :: after ∧ op.isAdditive = true := by
  unfold sumTail
  split
  · rename_i op after
    cases additive : op.isAdditive with
    | true => exact .inr ⟨op, after, rfl, additive⟩
    | false => exact .inl rfl
  · exact .inl rfl

/-- A term stops, or goes on behind a multiplicative operator. -/
theorem termTail_cases (left : Expr) (words : List Token) :
    bare (termTail left words) = .ok (left, words) ∨
      ∃ op after, words = .operator op :: after ∧ op.isAdditive = false := by
  unfold termTail
  split
  · rename_i op after
    cases additive : op.isAdditive with
    | true => exact .inl rfl
    | false => exact .inr ⟨op, after, rfl, additive⟩
  · exact .inl rfl

/-- Arguments stop, or go on behind a comma. -/
theorem argumentsTail_cases (words : List Token) :
    bare (argumentsTail words) = .ok ([], words) ∨ ∃ after, words = .comma :: after := by
  unfold argumentsTail
  split
  · exact .inr ⟨_, rfl⟩
  · exact .inl rfl

/-- What can be read as a signed operand begins with a sign, a number, an opening parenthesis or a
name. -/
theorem signed_cases (words : List Token) {result : Expr × List Token}
    (read : bare (signed words) = .ok result) :
    (∃ op after, words = .operator op :: after ∧ op.isAdditive = true) ∨
    (∃ value unit after, words = .number value unit :: after ∧
      result = (.number value unit, after)) ∨
    (∃ after, words = .openParen :: after) ∨
    (∃ name after, words = .identifier name :: .openParen :: after) ∨
    ∃ name after, words = .identifier name :: after ∧ ∀ inner, after ≠ .openParen :: inner := by
  unfold signed at read
  split at read
  · rename_i op after
    cases additive : op.isAdditive with
    | true => exact .inl ⟨op, after, rfl, additive⟩
    | false =>
      rw [additive] at read
      cases read
  · cases read
    exact .inr (.inl ⟨_, _, _, rfl, rfl⟩)
  · exact .inr (.inr (.inl ⟨_, rfl⟩))
  · exact .inr (.inr (.inr (.inl ⟨_, _, rfl⟩)))
  · exact .inr (.inr (.inr (.inl ⟨_, _, rfl⟩)))
  · rename_i apart
    exact .inr (.inr (.inr (.inr ⟨_, _, rfl, apart⟩)))
  · cases read
  · cases read

mutual

/-- A sum that is read is an expression. -/
theorem isExpression_of_sum (words : List Token) {tree : Expr} {rest : List Token}
    (read : bare (sum words) = .ok (tree, rest)) :
    ∃ taken, words = taken ++ rest ∧ IsExpression taken tree := by
  rw [bare_sum] at read
  obtain ⟨⟨first, after⟩, foundFirst, foundRest⟩ := bind_eq_ok read
  have fewer : after.length < words.length := by simpa using of_bare foundFirst
  obtain ⟨taken, split, only⟩ := isTerm_of_term words foundFirst
  obtain ⟨more, rfl, derives⟩ := isExpression_of_sumTail after foundRest
  exact ⟨taken ++ more, by rw [split, List.append_assoc], derives taken (.term only)⟩
termination_by 6 * words.length + 4

/-- What follows a part of a sum goes on with an expression. -/
theorem isExpression_of_sumTail (words : List Token) {left tree : Expr} {rest : List Token}
    (read : bare (sumTail left words) = .ok (tree, rest)) :
    ∃ taken, words = taken ++ rest ∧
      ∀ before, IsExpression before left → IsExpression (before ++ taken) tree := by
  rcases sumTail_cases left words with stops | ⟨op, after, rfl, additive⟩
  · rw [stops] at read
    cases read
    exact ⟨[], rfl, fun before derives => by rwa [List.append_nil]⟩
  · rw [bare_sumTail _ _ _ additive] at read
    obtain ⟨⟨right, behind⟩, foundRight, foundRest⟩ := bind_eq_ok read
    have fewer : behind.length < after.length := by simpa using of_bare foundRight
    obtain ⟨taken, split, last⟩ := isTerm_of_term after foundRight
    obtain ⟨more, rfl, derives⟩ := isExpression_of_sumTail behind foundRest
    refine ⟨.operator op :: taken ++ more, by rw [split]; simp, fun before first => ?_⟩
    rw [← List.append_assoc]
    exact derives _ (.joined first additive last)
termination_by 6 * words.length

/-- A term that is read is one. -/
theorem isTerm_of_term (words : List Token) {tree : Expr} {rest : List Token}
    (read : bare (term words) = .ok (tree, rest)) :
    ∃ taken, words = taken ++ rest ∧ IsTerm taken tree := by
  rw [bare_term] at read
  obtain ⟨⟨first, after⟩, foundFirst, foundRest⟩ := bind_eq_ok read
  have fewer : after.length < words.length := by simpa using of_bare foundFirst
  obtain ⟨taken, split, only⟩ := isUnary_of_signed words foundFirst
  obtain ⟨more, rfl, derives⟩ := isTerm_of_termTail after foundRest
  exact ⟨taken ++ more, by rw [split, List.append_assoc], derives taken (.unary only)⟩
termination_by 6 * words.length + 3

/-- What follows a part of a term goes on with a term. -/
theorem isTerm_of_termTail (words : List Token) {left tree : Expr} {rest : List Token}
    (read : bare (termTail left words) = .ok (tree, rest)) :
    ∃ taken, words = taken ++ rest ∧
      ∀ before, IsTerm before left → IsTerm (before ++ taken) tree := by
  rcases termTail_cases left words with stops | ⟨op, after, rfl, multiplicative⟩
  · rw [stops] at read
    cases read
    exact ⟨[], rfl, fun before derives => by rwa [List.append_nil]⟩
  · rw [bare_termTail _ _ _ multiplicative] at read
    obtain ⟨⟨right, behind⟩, foundRight, foundRest⟩ := bind_eq_ok read
    have fewer : behind.length < after.length := by simpa using of_bare foundRight
    obtain ⟨taken, split, last⟩ := isUnary_of_signed after foundRight
    obtain ⟨more, rfl, derives⟩ := isTerm_of_termTail behind foundRest
    refine ⟨.operator op :: taken ++ more, by rw [split]; simp, fun before first => ?_⟩
    rw [← List.append_assoc]
    exact derives _ (.joined first multiplicative last)
termination_by 6 * words.length

/-- A signed operand that is read is one. -/
theorem isUnary_of_signed (words : List Token) {tree : Expr} {rest : List Token}
    (read : bare (signed words) = .ok (tree, rest)) :
    ∃ taken, words = taken ++ rest ∧ IsUnary taken tree := by
  rcases signed_cases words read with ⟨op, after, rfl, additive⟩ | ⟨value, unit, after, rfl, same⟩ |
    ⟨after, rfl⟩ | ⟨name, after, rfl⟩ | ⟨name, after, rfl, apart⟩
  · rw [bare_signed_operator _ _ additive] at read
    obtain ⟨⟨operand, behind⟩, found, same⟩ := map_eq_ok read
    obtain ⟨taken, split, derives⟩ := isUnary_of_signed after found
    cases same
    exact ⟨.operator op :: taken, by rw [split]; rfl, .sign additive derives⟩
  · cases same
    exact ⟨[.number value unit], rfl, .primary (.number value unit)⟩
  · rw [bare_signed_openParen] at read
    obtain ⟨⟨inner, behind⟩, found, foundRest⟩ := bind_eq_ok read
    obtain ⟨⟨_, last⟩, closed, same⟩ := map_eq_ok foundRest
    obtain ⟨taken, split, derives⟩ := isExpression_of_sum after found
    have next : behind = .closeParen :: last := eq_of_closing closed
    cases same
    refine ⟨.openParen :: (taken ++ [.closeParen]), ?_, .primary (.parentheses derives)⟩
    simp [split, next]
  · by_cases empty : ∃ behind, after = .closeParen :: behind
    · obtain ⟨behind, rfl⟩ := empty
      rw [bare_signed_call_nil] at read
      obtain ⟨taken, split, derives⟩ := isNamed_of_properties read
      exact ⟨_, by rw [split]; rfl, .primary (.named (derives _ (.call name .none)))⟩
    · rw [bare_signed_call _ _ fun behind same => empty ⟨behind, same⟩] at read
      obtain ⟨⟨args, behind⟩, found, foundRest⟩ := bind_eq_ok read
      obtain ⟨⟨_, last⟩, closed, foundLast⟩ := bind_eq_ok foundRest
      obtain ⟨given, split, listed⟩ := areListed_of_arguments after found
      obtain ⟨taken, splitLast, derives⟩ := isNamed_of_properties foundLast
      have next : behind = .closeParen :: last := eq_of_closing closed
      refine ⟨_, ?_, .primary (.named (derives _ (.call name (.some listed))))⟩
      simp [split, next, show last = taken ++ rest from splitLast]
  · rw [bare_signed_name _ _ apart] at read
    obtain ⟨taken, split, derives⟩ := isNamed_of_properties read
    exact ⟨_, by rw [split]; rfl, .primary (.named (derives _ (.name name)))⟩
termination_by 6 * words.length + 2

/-- Arguments that are read are listed. -/
theorem areListed_of_arguments (words : List Token) {args : List Expr} {rest : List Token}
    (read : bare (arguments words) = .ok (args, rest)) :
    ∃ taken, words = taken ++ rest ∧ AreListed taken args := by
  rw [bare_arguments] at read
  obtain ⟨⟨first, after⟩, foundFirst, foundRest⟩ := bind_eq_ok read
  obtain ⟨⟨others, behind⟩, foundOthers, same⟩ := map_eq_ok foundRest
  have fewer : after.length < words.length := by simpa using of_bare foundFirst
  obtain ⟨taken, split, only⟩ := isExpression_of_sum words foundFirst
  cases same
  rcases argumentsTail_cases after with stops | ⟨more, rfl⟩
  · rw [stops] at foundOthers
    cases foundOthers
    exact ⟨taken, split, .last only⟩
  · rw [bare_argumentsTail] at foundOthers
    rw [List.length_cons] at fewer
    obtain ⟨given, splitMore, listed⟩ := areListed_of_arguments more foundOthers
    exact ⟨taken ++ .comma :: given, by rw [split, splitMore]; simp, .more only listed⟩
termination_by 6 * words.length + 5

end

/-! ## All words -/

/-- Words are read as a tree exactly if they are an expression of that tree. -/
theorem ofTokens_eq_ok_iff {words : List Token} {tree : Expr} :
    ofTokens words = .ok tree ↔ IsExpression words tree := by
  constructor
  · intro read
    unfold ofTokens at read
    split at read
    · cases read
    · split at read
      · cases read
      · rename_i found
        cases read
        obtain ⟨taken, same, derives⟩ :=
          isExpression_of_sum words (show bare (sum words) = .ok (tree, []) by rw [found]; rfl)
        rwa [same, List.append_nil]
      · cases read
  · intro derives
    have read : bare (sum words) = .ok (tree, []) := by
      have ended : EndsSum [] := trivial
      have done := sum_of_isExpression derives [] ended.endsTerm
      rwa [List.append_nil, sumTail_of_ends tree ended] at done
    obtain ⟨⟨_, fewer⟩, found, same⟩ := map_eq_ok read
    cases same
    have some : words.isEmpty = false := by
      cases words with
      | nil => exact absurd fewer (Nat.lt_irrefl 0)
      | cons first rest => rfl
    unfold ofTokens
    rw [some, found]
    rfl

/-- Words have no two trees. -/
theorem IsExpression.unique {words : List Token} {tree other : Expr}
    (derives : IsExpression words tree) (again : IsExpression words other) : tree = other := by
  have read := ofTokens_eq_ok_iff.mpr derives
  rw [ofTokens_eq_ok_iff.mpr again] at read
  cases read
  rfl

end Storyboard.Expr

namespace Storyboard.TimeExpression

/-- A text is read as its words are, and keeps itself without the blanks around it. -/
theorem parse_of_scan {text : String} {words : List Token}
    (cut : Token.scan (Text.trim text.toList) = .ok words) :
    parse text =
      match Expr.ofTokens words with
      | .ok tree => .ok ⟨String.ofList (Text.trim text.toList), tree⟩
      | .error cause => .error (.defect cause (some (String.ofList (Text.trim text.toList)))) := by
  simp only [parse, cut]
  rfl

end Storyboard.TimeExpression
