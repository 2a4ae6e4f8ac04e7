import Storyboard.Composition.Reader
import Storyboard.Json.Reader
import Storyboard.Timeline.Plain
import Storyboard.Timeline.Resolve
/-!
# Compositions in files

A file holds one composition as plain data. `Composition.load` reads the text of a file, and
`Composition.resolveFile` gives its timeline. Reading and writing the files themselves is left to
the caller.
-/
namespace Storyboard

/-- Why a file gives no timeline. -/
inductive FileError where
  /-- There is no file. -/
  | absent
  /-- Its text would hold half of a surrogate pair, which no file does. -/
  | broken
  /-- Its text is no plain data. -/
  | unreadable (cause : Json.ParseError)
  /-- Its data are no composition. -/
  | invalid (issues : List Schema.Issue)
  /-- Its composition has no timeline. -/
  | unresolved (cause : ResolveError)

namespace FileError

/-- The wording of an error; some have none. -/
def message : FileError → Option String
  | .absent => none
  | .broken => none
  | .unreadable cause => cause.message
  | .invalid issues => some (Schema.report issues)
  | .unresolved cause => cause.message

end FileError

namespace Composition

/-- Read the composition of a file, given its text if there is a file. -/
def load (text : Option String) : Except FileError Composition :=
  match text with
  | none => .error .absent
  | some text =>
    if !Text.isWhole text then .error .broken
    else
      match Json.parse text with
      | .error cause => .error (.unreadable cause)
      | .ok data =>
        match Composition.read data with
        | .valid composition => .ok composition
        | .invalid issues => .error (.invalid issues)

/-- The timeline of a file. -/
def resolveFile (text : Option String) (seed : Option Int) : Except FileError Timeline :=
  match load text with
  | .error cause => .error cause
  | .ok composition => (composition.resolve seed none).2.mapError .unresolved

end Composition
end Storyboard
