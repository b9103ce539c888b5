import Haybuild.Derivation.Highlight
import Haybuild.Recipe

/-!
# Events

What a build tells its user, as data. The console gives each `Event` its words.
-/

namespace Haybuild

/-- How a recipe ended. -/
inductive Status where
  | ok
  | failed
  | cancelled
  | skipped
  deriving Repr, DecidableEq

/-- The word for a status. -/
def Status.name : Status → Text
  | ok => "ok"
  | failed => "failed"
  | cancelled => "cancelled"
  | skipped => "skipped"

/-- A variable as it is shown: its derived value and the spans that references filled in, or its raw
text. -/
structure ShownVariable where
  name : Text
  value : Text
  spans : List Span
  deriving Repr, DecidableEq

/-- Something to tell the user. -/
inductive Event where
  | variableTable (rows : List ShownVariable)
  | recipe (r : Recipe)
  /-- The recipes that are about to run together. -/
  | frontier (index : Int) (names : List Text)
  | command (recipe cmd : Text)
  /-- A command with the debug marker, and the context it runs in. -/
  | commandDebug (recipe : Text) (line : Int) (cmd : Text) (environment : Environment)
  /-- What a command wrote. -/
  | output (recipe output errors : Text)
  | success (name : Text)
  | failure (name reason : Text)
  | results (rows : List (Text × Text))
  | diagnostic (d : Diagnostic)
  | error (title message : Text) (details : List Text) (suggestion : Text)
  | exception (message : Text)
  | info (message : Text)
  /-- Told in debug mode only. -/
  | debug (message : Text)
  deriving Repr, DecidableEq

namespace Event

/-- The rows in which variables are shown: derived where that is possible. -/
def variableRows (vars : Variables) : List (Text × Text) → Derivation (List ShownVariable)
  | [] => pure []
  | (name, raw) :: r => do
    let outcome ← (deriveSpans vars false raw).attempt
    let rest ← variableRows vars r
    pure <| match outcome with
      | .ok (value, spans) => ⟨name, value, spans⟩ :: rest
      | .error _ => ⟨name, raw, []⟩ :: rest

/-- The event that shows every variable. -/
def ofVariables (vars : Variables) : Derivation Event := do
  let rows ← variableRows vars vars.entries
  pure (.variableTable rows)

end Event

end Haybuild
