import Haybuild.Error
import Haybuild.Rule

/-!
# Recipes

A recipe builds its targets from its prerequisites by commands. The text of a command is kept as it
was written, to be derived when the recipe runs; the other fields locate its line.
-/

namespace Haybuild

/-- A command of a recipe and where it was written. -/
structure Command where
  text : Text
  debug : Bool := false
  line : Int := 0
  neglect : Bool := false
  filename : Text := unnamedFile
  source : Text := []
  column : Int := 0
  deriving Repr, DecidableEq

namespace Command

/-- The diagnostic for a command that fails to derive: it points at the reference at fault, in the
line as it was written. -/
def diagnose (c : Command) (e : Derivation.Error) : Diagnostic where
  kind := .subcall
  message := e.message
  filename := c.filename
  text := if c.source = [] then c.text else c.source
  line := c.line
  column := c.column + offsetOf e.reference c.text
  notes := originNotes c.text c.debug

end Command

/-- What is built, what it needs and how it is built. -/
structure Recipe where
  targets : List Text
  prerequisites : List Text := []
  commands : List Command := []
  deriving Repr, DecidableEq

namespace Recipe

/-- The recipe that a rule opens. -/
def ofRule (r : Rule) : Recipe where
  targets := r.targets
  prerequisites := r.prerequisites

/-- The name of a recipe: its targets. -/
def name (r : Recipe) : Text :=
  Text.join " " r.targets

/-- The recipe with one more command at its end. -/
def addCommand (r : Recipe) (c : Command) : Recipe :=
  { r with commands := r.commands ++ [c] }

/-- The recipe as a rule line and indented commands. -/
def render (r : Recipe) : Text :=
  let head := Text.trimRight (r.name ++ ": " ++ Text.join " " r.prerequisites)
  Text.join "\n" (head :: r.commands.map fun c => "    " ++ c.text)

end Recipe

end Haybuild
