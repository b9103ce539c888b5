import Haybuild.Derivation.Expand
import Haybuild.Line
import Haybuild.Recipe
import Haybuild.Text.Escaped

/-!
# The context of a line

The meaning of a line depends on the lines above it: a shell line belongs to the recipe that the
closest rule line opened. `Context` is what the lines read so far leave behind. This module holds
the kinds of line that need nothing else: shell lines and assignments.
-/

namespace Haybuild

namespace BuildFile

/-- What the lines read so far leave behind. -/
structure Context where
  filename : Text := unnamedFile
  vars : Variables := .empty
  recipes : List Recipe := []
  /-- The recipe that shell lines belong to, by its place among the recipes. -/
  openRecipe : Option Nat := none
  /-- A rule line failed and was passed over, and its shell lines are dropped. -/
  skipping : Bool := false
  /-- The files being read, each included by the one before it. -/
  includeStack : List Text := []

namespace Context

/-- Leaves the block of a recipe. -/
def closeRecipe (ctx : Context) : Context :=
  { ctx with openRecipe := none, skipping := false }

/-- Adds a recipe and opens it. -/
def addRecipe (ctx : Context) (r : Recipe) : Context :=
  { ctx with recipes := ctx.recipes ++ [r], openRecipe := some ctx.recipes.length }

/-- Adds a command to a recipe. -/
def addCommand (ctx : Context) (index : Nat) (c : Command) : Context :=
  { ctx with recipes := ctx.recipes.modify index (·.addCommand c) }

/-- Reads a shell line. It belongs to the open recipe; without one it is dropped or stray. -/
def shellLine (ctx : Context) (line : Line) (source : Text) (number : Nat) :
    Except Diagnostic Context :=
  match ctx.openRecipe with
  | some index =>
    .ok <| ctx.addCommand index
      { text := Text.trim line.content, debug := line.debug, line := number,
        neglect := line.neglect, filename := ctx.filename, source, column := line.split }
  | none =>
    if ctx.skipping then .ok ctx
    else
      .error
        { kind := .structural, message := "stray shell code outside of a recipe",
          filename := ctx.filename, text := source, line := number, column := line.split,
          notes := [] }

/-- Assigns along a chain of sides, given from right to left: the names in each side get the text of
the side before it. -/
def assignSides (v : Variables) : List Text → Variables
  | value :: names :: r =>
    assignSides (v.assign (Variables.namesIn names) (Text.trim value)) (names :: r)
  | _ => v

/-- Reads an assignment `a = b = value`. Every side but the last holds names. -/
def assignLine (ctx : Context) (content : Text) : Context :=
  { ctx with vars := assignSides ctx.vars (Text.splitUnescaped "=" content).reverse }

end Context

end BuildFile

end Haybuild
