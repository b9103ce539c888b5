import Haybuild.Host
import Haybuild.Text.Case.Lower
import Haybuild.Text.Integer

/-!
# Settings

The settings come from environment variables. A worker count that is no number is warned about and
replaced by the default, which leaves one processor free; one that is not positive is replaced
without a warning.
-/

namespace Haybuild

/-- What the environment sets, and the warnings about it. -/
structure Settings where
  workers : Int
  keepGoing : Bool := false
  shell : Text := standardShell
  warnings : List Text := []
  deriving Repr, DecidableEq

namespace Settings

/-- The names under which a build file is looked for, in order. -/
def defaultFiles : List Text :=
  ["hayfile", "Hayfile", "makefile", "Makefile"]

/-- The number of workers for a number of processors; two are assumed where it is unknown. -/
def defaultWorkers (processors : Option Int) : Int :=
  let count := match processors with
    | some n => if n = 0 then 2 else n
    | none => 2
  max 1 (count - 1)

/-- The number of workers that a value asks for, and what there is to warn about. -/
def readWorkers (processors : Option Int) (value : Option Text) : Int × List Text :=
  let asked := match value with
    | some v => if v = [] then ['0'] else v
    | none => ['0']
  match Text.readInt? asked with
  | some n => (if 0 < n then n else defaultWorkers processors, [])
  | none =>
    (defaultWorkers processors,
      ["WARNING haymaker.settings: Ignoring HAYMAKER_WORKERS=" ++ Text.literal asked ++
        ": not a number"])

/-- The words that switch a flag on. -/
def yesWords : List Text := ["1", "true", "yes", "on"]

/-- A flag is on for a word that says so, in any case and with blanks around it. -/
def readFlag (value : Option Text) : Bool :=
  yesWords.contains (Text.lower (Text.trim (value.getD [])))

/-- Reads the settings from an environment, on a machine with so many processors. -/
def read (environment : Environment) (processors : Option Int) : Settings :=
  let (workers, warnings) := readWorkers processors (environment.lookup ("HAYMAKER_WORKERS" : Text))
  { workers
    warnings
    keepGoing := readFlag (environment.lookup ("HAYMAKER_KEEP_GOING" : Text))
    shell := (environment.lookup ("HAYMAKER_SHELL" : Text)).getD standardShell }

end Settings

end Haybuild
