import Storyboard.Expr.Evaluation
import Storyboard.Proofs.Outcome
/-!
# What the value of an expression depends on

An expression sees a context only through the positions of the anchors it reads. So a context
that knows more keeps every outcome but one, that of waiting for an anchor (`eval_persists`).
-/
namespace Storyboard

/-! ## Contexts that know more -/

namespace Context

/-- Whether a context knows all that another one knows, and alike. -/
structure ExtendedBy (ctx other : Context) : Prop where
  /-- Frames take as long. -/
  fps : ctx.fps = other.fps
  /-- Known positions are known. -/
  known : ∀ anchor position, ctx.lookup? anchor = some position →
    other.lookup? anchor = some position

/-- A context that knows the start of one more cue. -/
def withCue (ctx : Context) (id : String) (start : Float) : Context :=
  { ctx with cueStarts := (id, start) :: ctx.cueStarts }

/-- What a context with one more cue knows: that cue, and all else as before. -/
theorem lookup?_withCue (ctx : Context) (id : String) (start : Float) (anchor : Anchor) :
    (ctx.withCue id start).lookup? anchor =
      if anchor.kind = .cueStart ∧ anchor.ref = some id then some start
      else ctx.lookup? anchor := by
  rcases anchor with ⟨kind, ref⟩
  cases kind <;> cases ref <;> simp [lookup?, withCue, List.lookup_cons]
  rename_i name
  by_cases same : name = id
  · simp [same]
  · simp [same, beq_eq_false_iff_ne.mpr same]

/-- The same cue may be added to a context and to one that extends it. -/
theorem ExtendedBy.withCue {ctx other : Context} (grows : ctx.ExtendedBy other) (id : String)
    (start : Float) : (ctx.withCue id start).ExtendedBy (other.withCue id start) := by
  refine ⟨grows.fps, fun anchor position known => ?_⟩
  rw [lookup?_withCue] at known ⊢
  split
  · rename_i own
    rwa [if_pos own] at known
  · rename_i foreign
    rw [if_neg foreign] at known
    exact grows.known anchor position known

end Context

/-! ## Expressions -/

/-- Whether an error of an expression is that of an anchor without a position. -/
def TimeError.IsMissing (cause : TimeError) : Prop := ∃ anchor, cause = .missing anchor

namespace Expr

mutual

/-- The anchors that an expression names, in the order of evaluation; a part that is defective
names none. -/
def reads : Expr → List Anchor
  | .number _ _ => []
  | .identifier _ => []
  | .unary _ operand => reads operand
  | .binary _ left right => reads left ++ reads right
  | .call function args =>
    match namedAnchor? function with
    | some kind =>
      match soleName function args with
      | .ok ref => [⟨kind, some ref⟩]
      | .error _ => []
    | none => readsAll args
  | .property target name =>
    match propertyAnchor target name with
    | .ok anchor => [anchor]
    | .error _ => []

/-- The anchors that arguments name, from the left. -/
def readsAll : List Expr → List Anchor
  | [] => []
  | first :: rest => reads first ++ readsAll rest

end

mutual

/-- Where the anchors of an expression can be listed, they are the ones it names. -/
theorem reads_of_anchors : ∀ (e : Expr) (listed : List Anchor), anchors e = .ok listed →
    reads e = listed
  | .number _ _, _, found => Except.ok.inj found
  | .identifier _, _, found => Except.ok.inj found
  | .unary _ operand, listed, found => by
    rw [anchors] at found
    rw [reads, reads_of_anchors operand listed found]
  | .binary _ left right, listed, found => by
    rw [anchors] at found
    cases first : anchors left with
    | error cause => simp [first] at found
    | ok one =>
      cases second : anchors right with
      | error cause => simp [first, second, Except.map] at found
      | ok two =>
        simp only [first, second, Except.map, Except.ok.injEq] at found
        rw [reads, reads_of_anchors left one first, reads_of_anchors right two second, found]
  | .call function args, listed, found => by
    rw [anchors] at found
    rw [reads]
    cases named : namedAnchor? function with
    | none =>
      simp only [named] at found
      exact readsAll_of_anchorsAll args listed found
    | some kind =>
      cases sole : soleName function args with
      | error cause => simp [named, sole, Except.map] at found
      | ok ref => simpa [named, sole, Except.map] using found
  | .property target name, listed, found => by
    rw [anchors] at found
    rw [reads]
    cases read : propertyAnchor target name with
    | error cause => simp [read, Except.map] at found
    | ok anchor => simpa [read, Except.map] using found

/-- Where the anchors of arguments can be listed, they are the ones named there. -/
theorem readsAll_of_anchorsAll : ∀ (args : List Expr) (listed : List Anchor),
    anchorsAll args = .ok listed → readsAll args = listed
  | [], _, found => Except.ok.inj found
  | first :: rest, listed, found => by
    rw [anchorsAll] at found
    cases head : anchors first with
    | error cause => simp [head] at found
    | ok one =>
      cases tail : anchorsAll rest with
      | error cause => simp [head, tail, Except.map] at found
      | ok others =>
        simp only [head, tail, Except.map, Except.ok.injEq] at found
        rw [readsAll, reads_of_anchors first one head, readsAll_of_anchorsAll rest others tail,
          found]

end

/-- A position that a context has is the same in one that extends it. -/
theorem readAnchor_persists {ctx other : Context} (grows : ctx.ExtendedBy other) (anchor : Anchor) :
    Persists TimeError.IsMissing (readAnchor ctx anchor) (readAnchor other anchor) := by
  unfold readAnchor
  cases known : ctx.lookup? anchor with
  | none => exact .of_waits ⟨anchor, rfl⟩
  | some position =>
    rw [grows.known anchor position known]
    exact .refl _

/-- Both operands are evaluated, the left one first. -/
theorem eval_binary (ctx : Context) (op : Operator) (left right : Expr) :
    eval ctx (.binary op left right) =
      (eval ctx left >>= fun l => eval ctx right >>= fun r => apply op l r) := by
  rw [eval]
  cases eval ctx left with
  | error cause => rfl
  | ok l => cases eval ctx right <;> rfl

/-- A sign acts on the value of its operand. -/
theorem eval_unary (ctx : Context) (op : Operator) (operand : Expr) :
    eval ctx (.unary op operand) =
      (eval ctx operand).map fun value => if op = .minus then -value else value := by
  rw [eval]
  cases eval ctx operand <;> rfl

/-- A function of numbers is applied once its arguments are counted and evaluated. -/
theorem eval_call_of_none (ctx : Context) (function : String) (args : List Expr)
    (plain : namedAnchor? function = none) :
    eval ctx (.call function args) =
      (checkArity function args.length >>= fun _ =>
        evalAll ctx args >>= fun values => applyFunction function values) := by
  rw [eval, plain]
  cases checkArity function args.length with
  | error cause => rfl
  | ok done => cases evalAll ctx args <;> rfl

/-- Arguments are evaluated from the left. -/
theorem evalAll_cons (ctx : Context) (first : Expr) (rest : List Expr) :
    evalAll ctx (first :: rest) =
      (eval ctx first >>= fun value => (evalAll ctx rest).map (value :: ·)) := by
  rw [evalAll]
  cases eval ctx first with
  | error cause => rfl
  | ok value => cases evalAll ctx rest <;> rfl

mutual

/-- A context that knows more keeps the value of an expression, and every error but that of
waiting for an anchor. -/
theorem eval_persists {ctx other : Context} (grows : ctx.ExtendedBy other) : ∀ e : Expr,
    Persists TimeError.IsMissing (eval ctx e) (eval other e)
  | .number value unit => by
    rw [eval, eval, grows.fps]
    exact .refl _
  | .identifier name => by
    rw [eval, eval]
    exact .refl _
  | .unary op operand => by
    rw [eval_unary, eval_unary]
    exact (eval_persists grows operand).map _
  | .binary op left right => by
    rw [eval_binary, eval_binary]
    exact (eval_persists grows left).bind fun l _ =>
      (eval_persists grows right).bind fun r _ => .refl _
  | .call function args => by
    cases named : namedAnchor? function with
    | none =>
      rw [eval_call_of_none ctx function args named, eval_call_of_none other function args named]
      exact (Persists.refl _).bind fun _ _ => (evalAll_persists grows args).bind fun _ _ => .refl _
    | some kind =>
      rw [eval, eval, named]
      cases soleName function args with
      | error cause => exact .refl _
      | ok ref => exact readAnchor_persists grows _
  | .property target name => by
    rw [eval, eval]
    cases propertyAnchor target name with
    | error cause => exact .refl _
    | ok anchor => exact readAnchor_persists grows anchor

/-- A context that knows more keeps the values of arguments likewise. -/
theorem evalAll_persists {ctx other : Context} (grows : ctx.ExtendedBy other) :
    ∀ args : List Expr, Persists TimeError.IsMissing (evalAll ctx args) (evalAll other args)
  | [] => by
    rw [evalAll, evalAll]
    exact .refl _
  | first :: rest => by
    rw [evalAll_cons, evalAll_cons]
    exact (eval_persists grows first).bind fun value _ => (evalAll_persists grows rest).map _

end

end Expr

/-! ## The anchors that can be written -/

/-- Whether an anchor is one that an author can write: of a name where its kind has one. -/
def Anchor.IsWritable (anchor : Anchor) : Prop :=
  match anchor.kind with
  | .sceneStart | .sceneEnd | .cueStart | .markStart => ∃ name, anchor.ref = some name
  | .prevStart | .prevEnd | .nextStart | .timelineStart => anchor.ref = none
  | .transition => False

namespace Expr

/-- The anchor of a function that takes a name can be written. -/
theorem namedAnchor?_writable {function : String} {kind : AnchorKind}
    (named : namedAnchor? function = some kind) (name : String) :
    Anchor.IsWritable ⟨kind, some name⟩ := by
  unfold namedAnchor? at named
  repeat' split at named
  all_goals cases named
  all_goals exact ⟨name, rfl⟩

/-- The anchor of a property of a name by itself can be written. -/
theorem relativeAnchor?_writable {name property : String} {kind : AnchorKind}
    (relative : relativeAnchor? name property = some kind) :
    Anchor.IsWritable ⟨kind, none⟩ := by
  unfold relativeAnchor? at relative
  repeat' split at relative
  all_goals cases relative
  all_goals rfl

/-- The anchor of a property can be written. -/
theorem propertyAnchor_writable {target : Expr} {name : String} {anchor : Anchor}
    (read : propertyAnchor target name = .ok anchor) : anchor.IsWritable := by
  unfold propertyAnchor unsupported at read
  split at read
  · split at read
    · rename_i kind relative
      cases read
      exact relativeAnchor?_writable relative
    · cases read
  · repeat' split at read
    all_goals cases read
    all_goals exact ⟨_, rfl⟩
  · cases read

mutual

/-- Every anchor that an expression names can be written. -/
theorem writable_of_reads {anchor : Anchor} : ∀ e : Expr, anchor ∈ reads e → anchor.IsWritable
  | .number _ _, member => by simp [reads] at member
  | .identifier _, member => by simp [reads] at member
  | .unary _ operand, member => writable_of_reads operand (by rwa [reads] at member)
  | .binary _ left right, member => by
    rw [reads, List.mem_append] at member
    rcases member with inLeft | inRight
    · exact writable_of_reads left inLeft
    · exact writable_of_reads right inRight
  | .call function args, member => by
    rw [reads] at member
    cases named : namedAnchor? function with
    | none =>
      simp only [named] at member
      exact writable_of_readsAll args member
    | some kind =>
      cases sole : soleName function args with
      | error cause => simp [named, sole] at member
      | ok ref =>
        simp only [named, sole, List.mem_singleton] at member
        rw [member]
        exact namedAnchor?_writable named ref
  | .property target name, member => by
    rw [reads] at member
    cases read : propertyAnchor target name with
    | error cause => simp [read] at member
    | ok named =>
      simp only [read, List.mem_singleton] at member
      rw [member]
      exact propertyAnchor_writable read

/-- Every anchor that arguments name can be written. -/
theorem writable_of_readsAll {anchor : Anchor} : ∀ args : List Expr,
    anchor ∈ readsAll args → anchor.IsWritable
  | [], member => by simp [readsAll] at member
  | first :: rest, member => by
    rw [readsAll, List.mem_append] at member
    rcases member with inFirst | inRest
    · exact writable_of_reads first inFirst
    · exact writable_of_readsAll rest inRest

end

end Expr

/-! ## Authored values -/

namespace TimeValue

/-- The anchors that a value names; a number names none, and so does a text that is no
expression. -/
def reads : TimeValue → List Anchor
  | .seconds _ => []
  | .expression text =>
    match TimeExpression.parse text with
    | .ok parsed => parsed.tree.reads
    | .error _ => []

/-- A context that knows more keeps the position of a value. -/
theorem evaluate_persists {ctx other : Context} (grows : ctx.ExtendedBy other)
    (value : TimeValue) :
    Persists TimeError.IsMissing (value.evaluate ctx) (value.evaluate other) := by
  cases value with
  | seconds value => exact .refl _
  | expression text =>
    refine (Persists.refl _).bind fun parsed _ => ?_
    refine (Expr.eval_persists grows parsed.tree).mapError _ ?_
    rintro _ ⟨anchor, rfl⟩
    exact ⟨anchor, rfl⟩

end TimeValue
end Storyboard
