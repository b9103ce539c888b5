import Haybuild.Derivation.Expand
import Haybuild.Fault
import Haybuild.FilePattern
import Haybuild.Text.Lines

/-!
# The host

A `Host` is what a build needs from outside: the files as they are at a moment, a shell that runs
commands and may change them, and the schedule by which recipes run side by side. Its state is of
any type, so a host can be a file tree held in memory or a table of fixed answers. `Host.derive`
answers the questions of a derivation, and `Host.capture` is the rule by which the output of
commands is read.
-/

namespace Haybuild

/-- What a finished program leaves, as bytes. -/
structure Finished where
  code : Int
  output : Bytes
  errors : Bytes

/-- What happens next while recipes run side by side. -/
inductive Turn where
  /-- A worker takes the recipe of a node one step further. -/
  | work (node : Int)
  /-- The result of a recipe that ended is handled. -/
  | handle (node : Int)
  deriving Repr, DecidableEq

/-- The outside of a build, in states of type `σ`. -/
structure Host (σ : Type) where
  /-- The working directory, an absolute path. -/
  directory : Text
  /-- The files in a state. -/
  files : σ → FileView
  /-- The content of a file. -/
  read : σ → Text → Except PathCause Bytes
  /-- The number of files that can be read. -/
  fileCount : σ → Nat
  /-- Runs a command with a shell program; `exports` are added to the environment. -/
  run : (shell : Text) → (exports : Environment) → (command : Text) → σ →
    Except PathCause Finished × σ
  /-- The turns of a round, as far as they are not taken in order: one recipe after the other, and
  each result before the next recipe. -/
  schedule : (round : Nat) → List Turn := fun _ => []

/-- The shell that derivations use. -/
def standardShell : Text := "/bin/sh"

namespace Host

variable {σ α : Type}

/-- The output of a finished program as text. What it wrote as output is read before what it wrote
as errors. -/
def capture (f : Finished) : Except Fault Derivation.ShellAnswer :=
  match Utf8.decode f.output with
  | .error e => .error (.decoding e)
  | .ok output =>
    match Utf8.decode f.errors with
    | .error e => .error (.decoding e)
    | .ok errors => .ok ⟨f.code, Text.unifyNewlines output, Text.unifyNewlines errors⟩

/-- Runs a command and reads its output. -/
def ask (h : Host σ) (shell : Text) (exports : Environment) (command : Text) (s : σ) :
    Except Fault Derivation.ShellAnswer × σ :=
  if exports.any fun e => e.1.contains '=' then (.error .environmentName, s)
  else if (shell ++ command).contains '\x00' ||
      exports.any fun e => (e.1 ++ e.2).contains '\x00' then
    (.error .embeddedNull, s)
  else
    match h.run shell exports command s with
    | (.error cause, s) => (.error (.path cause shell), s)
    | (.ok finished, s) => (capture finished, s)

/-- The outcome of a derivation on a host. -/
def derive (h : Host σ) : Derivation α → σ → Except Fault (Except Derivation.Error α) × σ
  | .done value, s => (.ok (.ok value), s)
  | .failed e, s => (.ok (.error e), s)
  | .shell command next, s =>
    match h.ask standardShell [] command s with
    | (.error fault, s) => (.error fault, s)
    | (.ok answer, s) => h.derive (next answer) s
  | .wildcard pattern next, s =>
    if FilePattern.listsNull pattern then (.error .embeddedNull, s)
    else h.derive (next (FilePattern.expand (h.files s) pattern)) s

/-- The text of a file, with its line ends unified. -/
def readText (h : Host σ) (s : σ) (path : Text) : Except Fault Text :=
  if path.contains '\x00' then .error .embeddedNull
  else
    match h.read s path with
    | .error cause => .error (.path cause path)
    | .ok bytes =>
      match Utf8.decode bytes with
      | .error e => .error (.decoding e)
      | .ok t => .ok (Text.unifyNewlines t)

end Host

end Haybuild
