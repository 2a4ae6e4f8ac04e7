import Storyboard.Proofs.Expr.Dependence
/-!
# The anchors listed for an expression

Listing the anchors of an expression and evaluating it are two walks over its tree. They agree:
contexts alike on what is listed give one outcome (`eval_congr`), a value needs every anchor named
(`known_of_eval`), and evaluation waits for the first one that is not known (`find?_of_eval`).
The list keeps each anchor once, where it is named first (`find?_eraseDups`).

Only reading an anchor waits. The other parts of an evaluation report defects of the text, or fail
by arithmetic.
-/
namespace Storyboard

/-- The first element that passes a test is not among the repetitions. -/
theorem find?_eraseDups {α : Type} [BEq α] [LawfulBEq α] (test : α → Bool) :
    ∀ items : List α, items.eraseDups.find? test = items.find? test
  | [] => rfl
  | first :: rest => by
    rw [List.eraseDups_cons, List.find?_cons, List.find?_cons,
      find?_eraseDups test (rest.filter fun x => !x == first), List.find?_filter]
    cases fits : test first with
    | true => rfl
    | false =>
      -- What is filtered out are copies of an element that fails the test.
      dsimp only
      congr 1
      funext x
      by_cases copy : x = first
      · simp [copy, fits]
      · simp [copy]
termination_by items => items.length
decreasing_by
  have := List.length_filter_le (fun x => !x == first) rest
  simp only [List.length_cons]
  omega

namespace Context

/-- Whether the position of an anchor is not known. -/
def lacks (ctx : Context) (anchor : Anchor) : Bool := (ctx.lookup? anchor).isNone

/-- Where all anchors are known none is found that is not. -/
theorem find?_lacks_eq_none {ctx : Context} {anchors : List Anchor} :
    anchors.find? ctx.lacks = none ↔ ∀ anchor ∈ anchors, (ctx.lookup? anchor).isSome = true := by
  simp [lacks, Option.isSome_iff_ne_none]

end Context

/-! ## Errors of the parts -/

/-- Whether an error is that of a defect, which is one in every context. -/
def TimeError.IsDefect (cause : TimeError) : Prop := ∃ flaw note, cause = .defect flaw note

namespace TimeError

/-- A defect waits for no anchor. -/
theorem not_isDefect_missing (anchor : Anchor) : ¬ (missing anchor).IsDefect := by
  rintro ⟨_, _, ⟨⟩⟩

/-- A defect is no fault of arithmetic. -/
theorem not_isDefect_arithmetic (fault : Fault) : ¬ (arithmetic fault).IsDefect := by
  rintro ⟨_, _, ⟨⟩⟩

end TimeError

namespace Expr

/-- An operator fails only by division by zero, which is a defect of the text. -/
theorem apply_fails (op : Operator) (left right : Float) :
    FailsIn TimeError.IsDefect (apply op left right) := by
  unfold apply
  split
  · exact .of_ok _
  · exact .of_ok _
  · exact .of_ok _
  · split
    · exact .of_error ⟨_, _, rfl⟩
    · exact .of_ok _

/-- A count of arguments fails by a defect. -/
theorem checkArity_fails (function : String) (count : Nat) :
    FailsIn TimeError.IsDefect (checkArity function count) := by
  unfold checkArity
  repeat' split
  all_goals first | exact .of_ok _ | exact .of_error ⟨_, _, rfl⟩

/-- A name that is not given, or not alone, is a defect. -/
theorem soleName_fails (function : String) (args : List Expr) :
    FailsIn TimeError.IsDefect (soleName function args) := by
  unfold soleName
  split
  · exact .of_ok _
  · exact .of_error ⟨_, _, rfl⟩

/-- A property that its target does not have is a defect. -/
theorem propertyAnchor_fails (target : Expr) (name : String) :
    FailsIn TimeError.IsDefect (propertyAnchor target name) := by
  have unsupported_fails : FailsIn TimeError.IsDefect (unsupported name : Except _ Anchor) :=
    .of_error ⟨_, _, rfl⟩
  unfold propertyAnchor
  split
  · split
    · exact .of_ok _
    · exact unsupported_fails
  · split
    · split
      · rename_i failed
        exact .of_error (soleName_fails _ _ _ failed)
      · repeat' split
        all_goals first | exact .of_ok _ | exact unsupported_fails
    · exact unsupported_fails
  · exact unsupported_fails

/-- A number in seconds fails only where a second has no frames. -/
theorem inSeconds_eq_error {fps value : Float} {unit : Option TimeUnit} {cause : TimeError}
    (failed : inSeconds fps value unit = .error cause) :
    cause = .arithmetic .divisionByZero ∧ (fps == 0.0) = true := by
  unfold inSeconds at failed
  split at failed
  · obtain ⟨fault, divided, rfl⟩ := mapError_eq_error failed
    unfold Number.divide at divided
    split at divided
    · rename_i zero
      exact ⟨congrArg _ (Except.error.inj divided).symm, zero⟩
    · cases divided
  all_goals cases failed

/-- No function of numbers waits. -/
theorem applyFunction_ne_missing (function : String) (values : List Float) (anchor : Anchor) :
    applyFunction function values ≠ .error (.missing anchor) := by
  unfold applyFunction snap
  repeat' split
  all_goals simp

/-- Reading an anchor waits for that anchor, and only where its position is not known. -/
theorem readAnchor_eq_error {ctx : Context} {anchor : Anchor} {cause : TimeError}
    (failed : readAnchor ctx anchor = .error cause) :
    cause = .missing anchor ∧ ctx.lookup? anchor = none := by
  unfold readAnchor at failed
  cases known : ctx.lookup? anchor with
  | some position => simp [known] at failed
  | none =>
    simp only [known, Except.error.injEq] at failed
    exact ⟨failed.symm, rfl⟩

/-! ## Contexts alike on what is named -/

/-- An anchor has one position in contexts that agree on it. -/
theorem readAnchor_congr {ctx other : Context} {anchor : Anchor}
    (same : ctx.lookup? anchor = other.lookup? anchor) :
    readAnchor ctx anchor = readAnchor other anchor := by
  rw [readAnchor, readAnchor, same]

mutual

/-- Contexts with frames of one length that agree on every anchor an expression names give it one
outcome. -/
theorem eval_congr {ctx other : Context} (fps : ctx.fps = other.fps) : ∀ e : Expr,
    (∀ anchor ∈ reads e, ctx.lookup? anchor = other.lookup? anchor) → eval ctx e = eval other e
  | .number value unit, _ => by rw [eval, eval, fps]
  | .identifier name, _ => by rw [eval, eval]
  | .unary op operand, same => by
    rw [eval_unary, eval_unary, eval_congr fps operand (by rwa [reads] at same)]
  | .binary op left right, same => by
    simp only [reads, List.mem_append] at same
    rw [eval_binary, eval_binary,
      eval_congr fps left fun anchor member => same anchor (.inl member),
      eval_congr fps right fun anchor member => same anchor (.inr member)]
  | .call function args, same => by
    rw [reads] at same
    cases named : namedAnchor? function with
    | none =>
      simp only [named] at same
      rw [eval_call_of_none ctx function args named, eval_call_of_none other function args named,
        evalAll_congr fps args same]
    | some kind =>
      rw [eval, eval, named]
      cases sole : soleName function args with
      | error cause => rfl
      | ok ref => exact readAnchor_congr (same _ (by simp [named, sole]))
  | .property target name, same => by
    rw [reads] at same
    rw [eval, eval]
    cases read : propertyAnchor target name with
    | error cause => rfl
    | ok anchor => exact readAnchor_congr (same _ (by simp [read]))

/-- Such contexts give arguments one outcome. -/
theorem evalAll_congr {ctx other : Context} (fps : ctx.fps = other.fps) : ∀ args : List Expr,
    (∀ anchor ∈ readsAll args, ctx.lookup? anchor = other.lookup? anchor) →
      evalAll ctx args = evalAll other args
  | [], _ => by rw [evalAll, evalAll]
  | first :: rest, same => by
    simp only [readsAll, List.mem_append] at same
    rw [evalAll_cons, evalAll_cons,
      eval_congr fps first fun anchor member => same anchor (.inl member),
      evalAll_congr fps rest fun anchor member => same anchor (.inr member)]

end

/-! ## The first anchor that is not known -/

/-- The values of arguments are those of the first one and of the rest. -/
theorem evalAll_cons_eq_ok {ctx : Context} {first : Expr} {rest : List Expr} {values : List Float}
    (done : evalAll ctx (first :: rest) = .ok values) :
    ∃ value others, eval ctx first = .ok value ∧ evalAll ctx rest = .ok others ∧
      value :: others = values := by
  rw [evalAll_cons] at done
  obtain ⟨value, foundFirst, done⟩ := bind_eq_ok done
  obtain ⟨others, foundRest, same⟩ := map_eq_ok done
  exact ⟨value, others, foundFirst, foundRest, same⟩

/-- An anchor that is read is known. -/
theorem known_of_readAnchor {ctx : Context} {anchor : Anchor} {value : Float}
    (done : readAnchor ctx anchor = .ok value) : (ctx.lookup? anchor).isSome = true := by
  unfold readAnchor at done
  cases known : ctx.lookup? anchor with
  | some position => rfl
  | none => simp [known] at done

mutual

/-- An expression with a value names anchors only that are known. -/
theorem known_of_eval {ctx : Context} : ∀ (e : Expr) {value : Float}, eval ctx e = .ok value →
    ∀ anchor ∈ reads e, (ctx.lookup? anchor).isSome = true
  | .number _ _, _, _ => by simp [reads]
  | .identifier _, _, _ => by simp [reads]
  | .unary op operand, _, done => by
    rw [eval_unary] at done
    obtain ⟨value, found, _⟩ := map_eq_ok done
    rw [reads]
    exact known_of_eval operand found
  | .binary op left right, _, done => by
    rw [eval_binary] at done
    obtain ⟨l, foundLeft, done⟩ := bind_eq_ok done
    obtain ⟨r, foundRight, _⟩ := bind_eq_ok done
    intro anchor member
    rw [reads, List.mem_append] at member
    rcases member with inLeft | inRight
    · exact known_of_eval left foundLeft anchor inLeft
    · exact known_of_eval right foundRight anchor inRight
  | .call function args, _, done => by
    rw [reads]
    cases named : namedAnchor? function with
    | none =>
      rw [eval_call_of_none ctx function args named] at done
      obtain ⟨_, _, done⟩ := bind_eq_ok done
      obtain ⟨values, found, _⟩ := bind_eq_ok done
      exact known_of_evalAll args found
    | some kind =>
      rw [eval, named] at done
      cases sole : soleName function args with
      | error cause => simp [sole] at done
      | ok ref =>
        simp only [sole] at done
        simpa using known_of_readAnchor done
  | .property target name, _, done => by
    rw [eval] at done
    rw [reads]
    cases read : propertyAnchor target name with
    | error cause => simp [read] at done
    | ok anchor =>
      simp only [read] at done
      simpa using known_of_readAnchor done

/-- Arguments with values name anchors only that are known. -/
theorem known_of_evalAll {ctx : Context} : ∀ (args : List Expr) {values : List Float},
    evalAll ctx args = .ok values →
      ∀ anchor ∈ readsAll args, (ctx.lookup? anchor).isSome = true
  | [], _, _ => by simp [readsAll]
  | first :: rest, _, done => by
    obtain ⟨value, others, foundFirst, foundRest, _⟩ := evalAll_cons_eq_ok done
    intro anchor member
    rw [readsAll, List.mem_append] at member
    rcases member with inFirst | inRest
    · exact known_of_eval first foundFirst anchor inFirst
    · exact known_of_evalAll rest foundRest anchor inRest

end

/-- Behind anchors that are all known the search goes on. -/
theorem find?_lacks_append {ctx : Context} {first rest : List Anchor}
    (known : ∀ anchor ∈ first, (ctx.lookup? anchor).isSome = true) :
    (first ++ rest).find? ctx.lacks = rest.find? ctx.lacks := by
  rw [List.find?_append, Context.find?_lacks_eq_none.mpr known, Option.none_or]

/-- An anchor that is found among the first ones is found. -/
theorem find?_append_of_eq_some {ctx : Context} {first : List Anchor} {anchor : Anchor}
    (found : first.find? ctx.lacks = some anchor) (rest : List Anchor) :
    (first ++ rest).find? ctx.lacks = some anchor := by
  rw [List.find?_append, found, Option.some_or]

/-- A single anchor that reading waits for is the one that is not known. -/
theorem find?_of_readAnchor {ctx : Context} {anchor missing : Anchor}
    (waits : readAnchor ctx anchor = .error (.missing missing)) :
    [anchor].find? ctx.lacks = some missing := by
  obtain ⟨⟨⟩, unknown⟩ := readAnchor_eq_error waits
  simp [Context.lacks, unknown]

mutual

/-- An expression waits for the first anchor it names that is not known. -/
theorem find?_of_eval {ctx : Context} {anchor : Anchor} : ∀ e : Expr,
    eval ctx e = .error (.missing anchor) → (reads e).find? ctx.lacks = some anchor
  | .number value unit, waits => by
    rw [eval] at waits
    cases (inSeconds_eq_error waits).1
  | .identifier name, waits => by
    rw [eval] at waits
    split at waits <;> simp at waits
  | .unary op operand, waits => by
    rw [eval_unary] at waits
    rw [reads]
    exact find?_of_eval operand (map_eq_error waits)
  | .binary op left right, waits => by
    rw [eval_binary] at waits
    rw [reads]
    rcases bind_eq_error waits with inLeft | ⟨l, found, later⟩
    · exact find?_append_of_eq_some (find?_of_eval left inLeft) _
    · -- All that is named on the left is known, and the search goes on to the right.
      rw [find?_lacks_append (known_of_eval left found)]
      rcases bind_eq_error later with inRight | ⟨r, _, applied⟩
      · exact find?_of_eval right inRight
      · exact absurd (apply_fails op l r _ applied) (TimeError.not_isDefect_missing _)
  | .call function args, waits => by
    rw [reads]
    cases named : namedAnchor? function with
    | none =>
      rw [eval_call_of_none ctx function args named] at waits
      rcases bind_eq_error waits with counted | ⟨_, _, later⟩
      · exact absurd (checkArity_fails _ _ _ counted) (TimeError.not_isDefect_missing _)
      · rcases bind_eq_error later with inArgs | ⟨values, _, applied⟩
        · exact find?_of_evalAll args inArgs
        · exact absurd applied (applyFunction_ne_missing _ _ _)
    | some kind =>
      rw [eval, named] at waits
      cases sole : soleName function args with
      | error cause =>
        simp only [sole] at waits
        cases waits
        exact absurd (soleName_fails _ _ _ sole) (TimeError.not_isDefect_missing _)
      | ok ref =>
        simp only [sole] at waits
        exact find?_of_readAnchor waits
  | .property target name, waits => by
    rw [eval] at waits
    rw [reads]
    cases read : propertyAnchor target name with
    | error cause =>
      simp only [read] at waits
      cases waits
      exact absurd (propertyAnchor_fails _ _ _ read) (TimeError.not_isDefect_missing _)
    | ok named =>
      simp only [read] at waits
      exact find?_of_readAnchor waits

/-- Arguments wait for the first anchor they name that is not known. -/
theorem find?_of_evalAll {ctx : Context} {anchor : Anchor} : ∀ args : List Expr,
    evalAll ctx args = .error (.missing anchor) → (readsAll args).find? ctx.lacks = some anchor
  | [], waits => by
    rw [evalAll] at waits
    cases waits
  | first :: rest, waits => by
    rw [evalAll_cons] at waits
    rw [readsAll]
    rcases bind_eq_error waits with inFirst | ⟨value, found, later⟩
    · exact find?_append_of_eq_some (find?_of_eval first inFirst) _
    · rw [find?_lacks_append (known_of_eval first found)]
      exact find?_of_evalAll rest (map_eq_error later)

end

/-- An expression waits only for an anchor that it names and whose position is not known. -/
theorem eval_missing {ctx : Context} {anchor : Anchor} (e : Expr)
    (waits : eval ctx e = .error (.missing anchor)) :
    anchor ∈ reads e ∧ ctx.lookup? anchor = none := by
  have found := find?_of_eval e waits
  have unknown : ctx.lacks anchor = true := List.find?_some found
  exact ⟨List.mem_of_find?_eq_some found, Option.isNone_iff_eq_none.mp unknown⟩

end Expr

/-! ## Texts -/

/-- A text that is no expression has a defect, which is reported with it. -/
theorem TimeExpression.parse_eq_error {text : String} {cause : TimeError}
    (failed : parse text = .error cause) :
    ∃ flaw, cause = .defect flaw (some (String.ofList (Text.trim text.toList))) := by
  unfold parse at failed
  dsimp only at failed
  split at failed
  · cases failed
  · exact ⟨_, (Except.error.inj failed).symm⟩

/-- An expression waits where its tree does. -/
theorem TimeExpression.eval_of_evaluate {expression : TimeExpression} {ctx : Context}
    {anchor : Anchor} (waits : expression.evaluate ctx = .error (.missing anchor)) :
    expression.tree.eval ctx = .error (.missing anchor) := by
  obtain ⟨cause, failed, same⟩ := mapError_eq_error waits
  cases cause with
  | missing other =>
    cases same
    exact failed
  | defect flaw note => cases same
  | arithmetic fault => cases same

/-- A value waits only for an anchor that it names and whose position is not known. -/
theorem TimeValue.evaluate_missing {ctx : Context} {value : TimeValue} {anchor : Anchor}
    (waits : value.evaluate ctx = .error (.missing anchor)) :
    anchor ∈ value.reads ∧ ctx.lookup? anchor = none := by
  cases value with
  | seconds value => cases waits
  | expression text =>
    rcases bind_eq_error waits with unread | ⟨parsed, read, later⟩
    · obtain ⟨_, ⟨⟩⟩ := TimeExpression.parse_eq_error unread
    · rw [reads, read]
      exact Expr.eval_missing _ (TimeExpression.eval_of_evaluate later)

/-! ## The list of an expression -/

namespace TimeExpression

variable {expression : TimeExpression} {listed : List Anchor}

/-- What is listed of an expression are the anchors it names, each once. -/
theorem listed_eq (found : expression.references = .ok listed) :
    listed = expression.tree.reads.eraseDups := by
  obtain ⟨named, anchors, rfl⟩ := map_eq_ok found
  rw [Expr.reads_of_anchors _ _ anchors]

/-- The anchors listed for an expression are exact. Contexts with frames of one length that agree
on all of them, known or not, give the expression one outcome; an expression that waits waits for
the first one listed that the context does not know; and where all are known it never waits. -/
theorem evaluate_of_references (found : expression.references = .ok listed) :
    (∀ ctx other : Context, ctx.fps = other.fps →
      (∀ anchor ∈ listed, ctx.lookup? anchor = other.lookup? anchor) →
        expression.evaluate ctx = expression.evaluate other) ∧
    (∀ (ctx : Context) (anchor : Anchor), expression.evaluate ctx = .error (.missing anchor) →
      listed.find? (fun named => (ctx.lookup? named).isNone) = some anchor) ∧
    (∀ ctx : Context, (∀ anchor ∈ listed, (ctx.lookup? anchor).isSome = true) →
      ∀ anchor, expression.evaluate ctx ≠ .error (.missing anchor)) := by
  have first : ∀ (ctx : Context) (anchor : Anchor),
      expression.evaluate ctx = .error (.missing anchor) →
        listed.find? ctx.lacks = some anchor := by
    intro ctx anchor waits
    rw [listed_eq found, find?_eraseDups]
    exact Expr.find?_of_eval _ (eval_of_evaluate waits)
  refine ⟨fun ctx other fps same => ?_, first, fun ctx known anchor waits => ?_⟩
  · unfold evaluate
    rw [Expr.eval_congr fps expression.tree fun anchor member => same anchor ?_]
    rw [listed_eq found]
    exact List.mem_eraseDups.mpr member
  · have missing := first ctx anchor waits
    rw [Context.find?_lacks_eq_none.mpr known] at missing
    cases missing

/-- `scene(intro).end + min(cue(hook), mark(beat)) - cue(hook)`, which names a cue twice. -/
def twice : TimeExpression where
  text := "scene(intro).end + min(cue(hook), mark(beat)) - cue(hook)"
  tree := .binary .minus
    (.binary .plus (.property (.call "scene" [.identifier "intro"]) "end")
      (.call "min" [.call "cue" [.identifier "hook"], .call "mark" [.identifier "beat"]]))
    (.call "cue" [.identifier "hook"])

/-- An expression that names a cue twice lists it once, and waits for the mark where the mark alone
is not known. -/
theorem twice_evaluate : ∃ listed, twice.references = .ok listed ∧ listed.length = 3 ∧
    listed.find? (fun named => (Context.lookup?
      { fps := 30.0, sceneEnds := [("intro", 4.0)], cueStarts := [("hook", 1.0)] } named).isNone) =
      some ⟨.markStart, some "beat"⟩ := by
  have found : twice.references = .ok [.sceneEnd "intro", ⟨.cueStart, some "hook"⟩,
      ⟨.markStart, some "beat"⟩] := rfl
  exact ⟨_, found, rfl, (evaluate_of_references found).2.1 _ _ rfl⟩

end TimeExpression
end Storyboard
