import Haybuild.Derivation.Basic
import Haybuild.Text.Replace

/-!
# Errors of a build

A `Diagnostic` is an error tied to a line of a build file. A `BuildError` is any error that the
program reports to its user: a diagnostic, or an error of the graph or of a command.
-/

namespace Haybuild

/-- What kind of thing went wrong. -/
inductive Kind where
  | structural
  | subcall
  | inclusion
  | cycle
  | malformed
  | dependency
  | execution
  | other (name : Text)
  deriving Repr, DecidableEq

namespace Kind

/-- The name under which a kind is reported. -/
def name : Kind → Text
  | structural => "Structure"
  | subcall => "Subcall"
  | inclusion => "Include"
  | cycle => "Cycle"
  | malformed => "ParseError"
  | dependency => "Dependency"
  | execution => "Execution"
  | other name => name

/-- The kinds that have a name of their own. -/
def known : List Kind :=
  [structural, subcall, inclusion, cycle, malformed, dependency, execution]

/-- The kind with a name. -/
def ofName (name : Text) : Kind :=
  (known.find? fun k => k.name = name).getD (other name)

end Kind

/-- The file name of a build file that was not read from a file. -/
def unnamedFile : Text := "<hayfile>"

/-- The hint about the debug marker. -/
def debugHelp : Text := "help: place a + before the line to enable debug mode"

/-- The notes on a line that was derived from `raw`. The hint is left out where it was followed. -/
def originNotes (raw : Text) (debug : Bool) : List Text :=
  if debug then ["note: this was " ++ raw] else ["note: this was " ++ raw, debugHelp]

/-- An error tied to a line of a build file. The column counts from zero. -/
structure Diagnostic where
  kind : Kind
  message : Text
  filename : Text
  text : Text
  line : Int
  column : Int
  notes : List Text
  deriving Repr, DecidableEq

/-- The offset of a reference in a text, or zero for one that does not stand there. -/
def offsetOf (reference t : Text) : Nat :=
  if reference = [] then 0 else (Text.find? reference t).getD 0

/-- An error that the program reports to its user. -/
inductive BuildError where
  | general (kind : Kind) (message : Text)
  | diagnostic (d : Diagnostic)
  | derivation (e : Derivation.Error)
  | malformedRule (message : Text) (column : Int)
  /-- The named recipes can never become ready. -/
  | cycle (stuck : List Text)
  /-- A prerequisite that is neither a target nor a file. -/
  | dependency (target prerequisite : Text)
  /-- A command that ended badly. -/
  | command (recipe command : Text) (code : Int)
  deriving Repr, DecidableEq

namespace BuildError

/-- The kind of an error. -/
def kind : BuildError → Kind
  | general k _ => k
  | diagnostic d => d.kind
  | derivation _ => .subcall
  | malformedRule _ _ => .malformed
  | cycle _ => .cycle
  | dependency _ _ => .dependency
  | command _ _ _ => .execution

/-- An error in words. -/
def message : BuildError → Text
  | general _ m => m
  | diagnostic d => d.message
  | derivation e => e.message
  | malformedRule m _ => m
  | cycle stuck => "dependency cycle between recipes: " ++ Text.join ", " stuck
  | dependency target prerequisite =>
    "recipe '" ++ target ++ "' needs '" ++ prerequisite ++
      "', which no recipe builds and no file provides"
  | command recipe cmd code =>
    "[" ++ recipe ++ "] command failed (exit=" ++ Text.ofInt code ++ "): " ++ cmd

/-- An error on one line: its kind, its message and, for a diagnostic, its place. -/
def render (e : BuildError) : Text :=
  let told := e.kind.name ++ ": " ++ e.message
  match e with
  | diagnostic d =>
    told ++ " (" ++ d.filename ++ ":" ++ Text.ofInt d.line ++ ":" ++ Text.ofInt (d.column + 1) ++
      ")"
  | _ => told

end BuildError

end Haybuild
