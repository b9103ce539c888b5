import Haybuild.BuildFile.Load
import Haybuild.Graph.Build
import Haybuild.Graph.Drain
import Haybuild.Settings

/-!
# The command line

`CommandLine.run` is the whole program on a host: it finds and loads the build file, shows variables
and recipes, plans the graph, and either shows the plan or runs it and shows the results. The exit
code is zero if and only if nothing went wrong on the way and every recipe ended well.
-/

namespace Haybuild

namespace CommandLine

/-- What is asked for when a build is asked for. -/
structure Request where
  file : Option Text := none
  workers : Int
  failFast : Bool
  dryRun : Bool := false
  debug : Bool := false
  deriving Repr, DecidableEq

/-! ## Arguments -/

/-- The arguments taken apart: the operands in order, and what the options say. Of several contrary
options the last counts. -/
structure Arguments where
  operands : List Text := []
  workers : Option Text := none
  failFast : Option Bool := none
  dryRun : Bool := false
  debug : Bool := false
  help : Bool := false
  deriving Repr, DecidableEq

namespace Arguments

/-- The arguments with one more option that takes no value, if there is one of this name. -/
def switch? (a : Arguments) (name : Text) : Option Arguments :=
  if name = "--fail-fast" then some { a with failFast := some true }
  else if name = "--keep-going" then some { a with failFast := some false }
  else if name = "--dry-run" then some { a with dryRun := true }
  else if name = "--debug" then some { a with debug := true }
  else if name = "--verbose" then some a
  else if name = "--help" then some { a with help := true }
  else none

/-- The name of an option and the value that it carries behind an equals sign. -/
def splitOption (option : Text) : Text × Option Text :=
  match Text.splitAt? '=' option with
  | some (name, value) => (name, some value)
  | none => (option, none)

/-- The complaint about an option that there is not. One dash stands before single letters. -/
def unknownOption (name : Text) : Text :=
  "No such option: " ++ if Text.stripPrefix? "--" name = none then name.take 2 else name

/-- Takes arguments apart, after those that were taken apart before. A dash alone is an operand, and
so is all that follows two dashes. -/
def takeApart (a : Arguments) : List Text → Except Text Arguments
  | [] => .ok a
  | arg :: rest =>
    if arg = "--" then .ok { a with operands := a.operands ++ rest }
    else if arg.head? = some '-' && 1 < arg.length then
      let (name, carried) := splitOption arg
      if name = "--workers" then
        match carried with
        | some value => takeApart { a with workers := some value } rest
        | none =>
          match rest with
          | [] => .error "Option '--workers' requires an argument."
          | value :: rest => takeApart { a with workers := some value } rest
      else
        match a.switch? name, carried with
        | some a, none => takeApart a rest
        | some _, some _ => .error ("Option '" ++ name ++ "' does not take a value.")
        | none, _ => .error (unknownOption name)
    else takeApart { a with operands := a.operands ++ [arg] } rest

/-- The number of workers. -/
def readWorkers (s : Settings) (a : Arguments) : Except Text Int :=
  match a.workers with
  | none => .ok s.workers
  | some value =>
    match Text.readInt? value with
    | some n => .ok n
    | none =>
      .error ("Invalid value for '--workers': " ++ Text.literal value ++
        " is not a valid integer.")

/-- The name of the build file, if there is one. There is at most one operand. -/
def readFile (a : Arguments) : Except Text (Option Text) :=
  match a.operands with
  | [] => .ok none
  | [name] => .ok (some name)
  | [_, extra] => .error ("Got unexpected extra argument (" ++ extra ++ ")")
  | _ :: extra => .error ("Got unexpected extra arguments (" ++ Text.join " " extra ++ ")")

/-- The request that the arguments make; what they do not say the settings say. -/
def request (s : Settings) (a : Arguments) : Except Text Request :=
  match readWorkers s a, readFile a with
  | .error e, _ | .ok _, .error e => .error e
  | .ok workers, .ok file =>
    .ok ⟨file, workers, a.failFast.getD !s.keepGoing, a.dryRun, a.debug⟩

end Arguments

/-- What the arguments ask for. -/
inductive Asked where
  | help
  | build (r : Request)
  deriving Repr, DecidableEq

/-- Reads the arguments. They are all taken apart before any of them is understood, and who asks for
help gets it, whatever else is asked for. -/
def readArguments (s : Settings) (arguments : List Text) : Except Text Asked :=
  match Arguments.takeApart {} arguments with
  | .error e => .error e
  | .ok a =>
    if a.help then .ok .help
    else
      match a.request s with
      | .error e => .error e
      | .ok r => .ok (.build r)

/-! ## Endings -/

/-- How the program ends: its exit code, what it tells, and the fault that escaped it, if one
did. -/
structure Finish (σ : Type) where
  code : Nat
  events : List Event
  debug : Bool
  raised : Option Fault
  host : σ

variable {σ : Type}

namespace Finish

/-- The ending with events before it. -/
def after (events : List Event) (f : Finish σ) : Finish σ :=
  { f with events := events ++ f.events }

end Finish

/-- Ends with an exit code after telling something. -/
def finish (r : Request) (code : Nat) (events : List Event) (s : σ) : Finish σ :=
  ⟨code, events, r.debug, none, s⟩

/-- Ends with a fault that nothing handles. -/
def escape (r : Request) (fault : Fault) (s : σ) : Finish σ :=
  ⟨1, [], r.debug, some fault, s⟩

/-! ## Building -/

/-- The build file that the arguments name. An empty name counts as none. -/
def Request.named? (r : Request) : Option Text :=
  r.file.filter (· ≠ [])

/-- How the graph is to be run. -/
def Request.options (r : Request) (settings : Settings) : Graph.Options :=
  ⟨some r.workers, r.failFast, settings.shell⟩

/-- The fault with which looking for a path ends, if no file could have such a name. -/
def nameFault? (h : Host σ) (s : σ) (path : Text) : Option Fault :=
  match h.read s path with
  | .error .nameTooLong => some (.path .nameTooLong path)
  | _ => none

/-- The build file, or the error that there is none. -/
def discover (files : FileView) (r : Request) : Except Event Text :=
  match r.named? with
  | some name =>
    if files.exists? (Path.display name) then .ok name
    else .error (.error "Hayfile not found" ("Could not find hayfile: " ++ name) [] [])
  | none =>
    match Settings.defaultFiles.find? files.exists? with
    | some name => .ok name
    | none =>
      .error <| .error "No hayfile found" "No hayfile in current directory."
        (("Looked for:" : Text) :: Settings.defaultFiles.map fun name => ("  " : Text) ++ name)
        "Create a hayfile or name one explicitly:\n  haymaker path/to/hayfile"

/-- The event for an error of the graph or of the run. -/
def errorEvent : Halt → Event
  | .error e => .error e.kind.name e.message [] []
  | .fault f => .exception f.message

/-- The rows that show the plan. -/
def planEvents (levels : List (List Text)) : List Event :=
  levels.mapIdx fun i level => .frontier (i + 1) level

/-- Runs a planned graph and shows the results. -/
def runGraph (h : Host σ) (settings : Settings) (r : Request) (ctx : BuildFile.Context) (g : Graph)
    (s : σ) : Finish σ :=
  match g.run h ctx.vars (r.options settings) s with
  | (some halt, d) => finish r 1 (d.events ++ [errorEvent halt]) d.host
  | (none, d) =>
    let rows := d.results.entries
    let code := if rows.all fun row => row.2 = .ok then 0 else 1
    finish r code (d.events ++ [.results (rows.map fun row => (row.1, row.2.name))]) d.host

/-- Builds and plans the graph, and shows the plan or runs it. -/
def build (h : Host σ) (settings : Settings) (r : Request) (ctx : BuildFile.Context) (s : σ) :
    Finish σ :=
  match Graph.build (h.files s).exists? ctx.recipes with
  | .error halt => finish r 1 [errorEvent halt] s
  | .ok g =>
    match g.plan with
    | .error halt => finish r 1 [errorEvent halt] s
    | .ok levels =>
      if r.dryRun then finish r 0 (planEvents levels) s else runGraph h settings r ctx g s

/-- Shows what was loaded and goes on to the graph. -/
def showAndBuild (h : Host σ) (settings : Settings) (r : Request) (ctx : BuildFile.Context)
    (s : σ) : Finish σ :=
  match h.derive (Event.ofVariables ctx.vars) s with
  | (.error fault, s) => escape r fault s
  | (.ok (.error e), s) => finish r 1 [errorEvent (.error (.derivation e))] s
  | (.ok (.ok shown), s) =>
    .after (shown :: ctx.recipes.map Event.recipe) (build h settings r ctx s)

/-- What follows a failure to load a build file. -/
def loadFailure (r : Request) (path : Text) (halt : Halt) (s : σ) : Finish σ :=
  match halt with
  | .error (.diagnostic d) => finish r 1 [.diagnostic d] s
  | .error e => finish r 1 [errorEvent (.error e)] s
  | .fault (.path cause at_) =>
    finish r 1 [.error "Could not open hayfile" ("Could not open " ++ path)
      [(Fault.path cause at_).message] []] s
  | .fault fault => escape r fault s

/-- Carries out a request. -/
def perform (h : Host σ) (settings : Settings) (r : Request) (s : σ) : Finish σ :=
  match r.named?.bind fun name => nameFault? h s (Path.display name) with
  | some fault => escape r fault s
  | none =>
    match discover (h.files s) r with
    | .error e => finish r 1 [e] s
    | .ok name =>
      let path := Path.display name
      let (st, stop) := BuildFile.loadFile h path s
      .after (st.reports.map Event.diagnostic) <|
        match stop with
        | some halt => loadFailure r path halt st.host
        | none => showAndBuild h settings r st.context st.host

/-- The whole program: its arguments, the settings and the host. Wrong arguments end it with the
exit code two. The help text comes from outside. -/
def run (h : Host σ) (settings : Settings) (arguments : List Text) (s : σ) : Finish σ :=
  match readArguments settings arguments with
  | .error message => ⟨2, [.exception message], false, none, s⟩
  | .ok .help => ⟨0, [], false, none, s⟩
  | .ok (.build r) => perform h settings r s

end CommandLine

end Haybuild
