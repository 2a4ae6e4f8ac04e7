import Storyboard.Text.LowerCase
import Storyboard.Text.Byte
import Storyboard.Number.Layout
/-!
# Console messages

A console has a threshold of severity, set once, on first use, from a word of the environment.
Messages below the threshold are dropped; the others are written on lines of their own behind a
coloured label. A threshold of zero defers to that of all consoles, which lets warnings through.
Two words name the layout of plain messages and the styles of layouts instead of a threshold, and
cannot be used.
-/
namespace Storyboard

/-- How severe a message is. -/
inductive Severity where
  /-- For developers. -/
  | debug
  /-- Of what went well. -/
  | info
  /-- Of what may be wrong. -/
  | warning
  /-- Of what went wrong. -/
  | error
  deriving DecidableEq, Repr

namespace Severity

/-- The number of a severity. -/
def rank : Severity → Nat
  | .debug => 10
  | .info => 20
  | .warning => 30
  | .error => 40

/-- The name of a severity. -/
def label : Severity → String
  | .debug => "DEBUG"
  | .info => "INFO"
  | .warning => "WARNING"
  | .error => "ERROR"

/-- The number of the colour of a severity. -/
def colour : Severity → String
  | .debug => "94"
  | .info => "92"
  | .warning => "93"
  | .error => "91"

end Severity

/-- Why a console cannot be used. -/
inductive ConsoleError where
  /-- The environment holds no word with a null character. -/
  | nullCharacter
  /-- The environment holds no word with half of a surrogate pair, unless that names a byte. -/
  | brokenWord
  /-- The word of the environment names a layout. -/
  | layout (text : String)
  /-- The word of the environment names the styles of layouts. -/
  | styles
  deriving DecidableEq, Repr

namespace ConsoleError

/-- The wording of an error; one has none. -/
def message : ConsoleError → Option String
  | .nullCharacter => some "embedded null byte"
  | .brokenWord => none
  | .layout text => some ("Unknown level: '" ++ text ++ "'")
  | .styles => none

end ConsoleError

/-- A console, before or after its first use. -/
structure Console where
  /-- The threshold, once it is set. -/
  threshold : Option Nat := none

namespace Console

/-- The thresholds by name. -/
def thresholds : List (String × Nat) :=
  [("DEBUG", 10), ("INFO", 20), ("WARN", 30), ("WARNING", 30), ("ERROR", 40), ("FATAL", 50),
    ("CRITICAL", 50), ("NOTSET", 0)]

/-- The threshold of all consoles, which a threshold of zero defers to. -/
def commonThreshold : Nat := 30

/-- The word that names a layout, and that layout. -/
def plainLayout : String × String := ("BASIC_FORMAT", "%(levelname)s:%(name)s:%(message)s")

/-- The word that names the styles of layouts. -/
def layoutStyles : String := "_STYLES"

/-- Whether a symbol is half of a surrogate pair that names no byte. -/
def isBroken (symbol : Symbol) : Bool := !symbol.isChar && symbol.byte?.isNone

/-- A word as it is read back from the environment. -/
def environmentWord (word : String) : Except ConsoleError String :=
  if (Text.symbols word).any isBroken then .error .brokenWord
  else if word.contains '\x00' then .error .nullCharacter
  else .ok (Text.spelled word)

/-- The threshold that a word of the environment asks for, in any case; without a word, or with
one that names nothing, that of warnings. -/
def thresholdOf (word : Option String) : Except ConsoleError Nat :=
  let name := String.ofList (Text.upperAscii (word.getD "WARNING").toList)
  if name = plainLayout.1 then .error (.layout plainLayout.2)
  else if name = layoutStyles then .error .styles
  else .ok ((thresholds.lookup name).getD 30)

/-- A message on a line of its own behind the coloured label. -/
def line (severity : Severity) (message : String) : String :=
  "\x1b[" ++ severity.colour ++ "m[framecue]\x1b[0m " ++ message ++ "\n"

/-- Send a message: the console after it, its threshold, and what was written. -/
def send (console : Console) (environment : Option String) (severity : Severity)
    (message : String) : Except ConsoleError (Console × Nat × String) := do
  let threshold ← match console.threshold with
    | some threshold => .ok threshold
    | none => thresholdOf environment
  let effective := if threshold = 0 then commonThreshold else threshold
  let written := if effective ≤ severity.rank then line severity message else ""
  return (⟨some threshold⟩, threshold, written)

end Console
end Storyboard
