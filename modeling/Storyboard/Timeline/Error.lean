import Storyboard.Expr.Error
/-!
# Errors of resolution

An attempt to place an entity ends early for one of two reasons: it waits for an anchor that has
no position yet, or it fails for good. `ResolveError` is what a whole resolution can end in.
-/
namespace Storyboard

/-- What is wrong with a composition that is well formed. -/
inductive CompileDefect where
  /-- Two entities of one name, with their kinds. -/
  | duplicateId (id first second : String)
  /-- A lead-in together with authored scene times. -/
  | leadInWithTimes
  /-- A scene without cues and without an authored end or duration. -/
  | noContent (label : String)
  /-- An end before its start. -/
  | endsBeforeStart (label : String) (finish start : Float)
  /-- A scene whose authored start lies before the end of what it follows. -/
  | startsEarly (id : String) (start cursor : Float)
  /-- More passes than there are entities to place. -/
  | notConverged

namespace CompileDefect

/-- The wording of a defect. -/
def message : CompileDefect → String
  | .duplicateId id first second =>
    "Duplicate id \"" ++ id ++ "\": used by a " ++ first ++ " and a " ++ second
  | .leadInWithTimes =>
    "voiceover.lead_in_seconds is only supported when scene times are omitted"
  | .noContent label => label ++ " has no cues; give it an end or a duration"
  | .endsBeforeStart label finish start =>
    label ++ " ends at " ++ Number.briefText finish ++ "s, before it starts at " ++
      Number.briefText start ++ "s"
  | .startsEarly id start cursor =>
    "Scene \"" ++ id ++ "\" starts at " ++ Number.briefText start ++
      "s, before the previous item ends at " ++ Number.briefText cursor ++ "s"
  | .notConverged => "Time resolution did not converge"

end CompileDefect

/-- What a resolution can end in. -/
inductive ResolveError where
  /-- An expression has no value. -/
  | time (cause : TimeError)
  /-- The composition is defective. -/
  | compile (cause : CompileDefect)
  /-- An entity reads an anchor that nothing places. -/
  | unresolved (entity : String) (anchor : Anchor)
  /-- Entities read one another in a loop; the first name is repeated at the end. -/
  | circular (cycle : List String)

namespace ResolveError

/-- The wording of an error; some faults of arithmetic have none. -/
def message : ResolveError → Option String
  | .time cause => cause.message
  | .compile cause => some cause.message
  | .unresolved entity anchor =>
    some ("Unresolved time reference " ++ anchor.describe ++ " in timeline item \"" ++ entity ++
      "\"")
  | .circular cycle => some ("Circular time reference: " ++ " -> ".intercalate cycle)

end ResolveError

/-- Why an attempt to place an entity ends early. -/
inductive Stop where
  /-- It waits for an anchor. -/
  | waits (anchor : Anchor)
  /-- It fails for good. -/
  | fails (cause : ResolveError)

namespace Stop

/-- An anchor without a position is waited for; any other error of an expression is final. -/
def ofTime : TimeError → Stop
  | .missing anchor => .waits anchor
  | other => .fails (.time other)

/-- A defect of the composition. -/
def compile (cause : CompileDefect) : Stop := .fails (.compile cause)

end Stop
end Storyboard
