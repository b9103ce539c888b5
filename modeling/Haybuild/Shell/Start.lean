import Haybuild.Shell.Find
import Haybuild.Shell.Redirect

/-!
# Starting programs

`Act.start` starts what stands at a path: a program of the system, a file with a script, or a shell.
A shell that is started as a program knows of its caller only the environment, the open files and
the working directory.
-/

namespace Haybuild

namespace Shell

namespace Launcher

/-- The programs that need a session, by name. -/
def table : List (Raw × (Runner → Raw → List Raw → Act Unit)) :=
  [("env", env), ("xargs", xargs), ("echo", echo), ("printf", printf), ("test", test), ("[", test),
    ("which", which), ("find", find), ("nohup", through { flags := [] } 0),
    ("nice", through { flags := [], valued := "n" } 0),
    ("timeout", timeout), ("sleep", sleep),
    ("stdbuf", through { flags := [], valued := "ioe" } 0), ("setsid", through { flags := "w" } 0)]

end Launcher

/-- How a shell is called. -/
structure Invocation where
  /-- The text to carry out is the first operand. -/
  ofText : Bool := false
  operands : List Raw := []

namespace Act

/-- The variables that a shell sets for itself. -/
def ownVariables (s : Session) : List (Raw × Raw) :=
  [("PWD", s.directoryPath), ("OPTIND", "1"), ("PS1", "# "), ("PS2", "> "), ("PS4", "+ "),
    ("IFS", Fields.standardSeparators), ("PPID", Text.ofNat (Session.processNumber - 1))]

/-- A session that starts with an environment. -/
def freshSession (s : Session) (dialect : Dialect) (name : Raw)
    (environment : List (Raw × Raw)) : Session :=
  let own : List Raw := ["IFS", "OPTIND"]
  let named := environment.filter fun e => Raw.isName e.1 && !own.contains e.1
  let exports := NameMap.ofPairs (named.map fun e => (e.1, Variable.mk (some (.text e.2)) true false))
  let fresh : Session :=
    { tree := s.tree, directory := s.directory, vars := exports, name, channels := s.channels
      descriptors := s.descriptors, processes := s.processes, process := s.process
      clock := s.clock, pending := s.pending, deferred := s.deferred
      dialect, umask := s.umask, line := 0
      traps := NameMap.ofPairs (s.traps.entries.filter fun t => t.2 = []) }
  (ownVariables s).foldl (fun f v => f.put v.1 (.text v.2)) fresh

/-- Sets the options with which a shell is called; the number bounds the arguments. -/
def readInvocation : Nat → Invocation → List Raw → Act Invocation
  | 0, i, _ => return i
  | _ + 1, i, [] => return i
  | n + 1, i, a :: rest => do
    match a with
    | ['-'] | ['-', '-'] => return { i with operands := rest }
    | '-' :: '-' :: long =>
      if (← get).dialect = .standard then
        fatal ("Illegal option --" ++ long) 2
      else readInvocation n i rest
    | '-' :: cs =>
      let others := cs.filter fun c => c ≠ 'c' && c ≠ 'l'
      let rest ← Builtin.switchAll (← get).name true others rest
      readInvocation n { i with ofText := i.ofText || cs.contains 'c' } rest
    | '+' :: c :: cs => readInvocation n i (← Builtin.switchAll (← get).name false (c :: cs) rest)
    | _ => return { i with operands := a :: rest }

/-- Carries out what a shell is called for: a text, a file or the input. -/
def carryOut (run : Runner) (arguments : List Raw) : Act Unit := do
  let i ← readInvocation (arguments.length + 1) {} arguments
  let s ← get
  if i.ofText then
    match i.operands with
    | [] => fatal "-c requires an argument" 2
    | [t] => runText run t
    | t :: name :: parameters =>
      set { s with name, parameters }
      runText run t
  else
    match if s.has 's' then [] else i.operands with
    | path :: parameters =>
      match s.tree.read s.directory (Raw.toText path) with
      | .ok content =>
        set { s with name := path, parameters }
        runText run (Raw.ofBytes content)
      | .error cause =>
        if cause = .isDirectory && s.dialect = .standard then finish 0
        else fatal (s.openingWords path cause false) (if s.dialect = .standard then 2 else 127)
    | [] =>
      set { s with parameters := i.operands }
      runText run (← Launcher.takeInput)

/-- A shell that is started as a program. -/
def shell (run : Runner) (dialect : Dialect) (name : Raw) (arguments : List Raw) : Act Unit := do
  let outer ← get
  set (freshSession outer dialect name outer.environment)
  toEnd run (carryOut run arguments)
  modify outer.rejoin

/-- The dialect of a shell by the name of its program. -/
def shellDialect? (name : Raw) : Option Dialect :=
  if name = "sh" || name = "dash" then some .standard
  else if name = "bash" then some .extended
  else none

/-- Starts a program of the system. -/
def startNamed (run : Runner) (program name : Raw) (arguments : List Raw) : Act Unit := do
  match shellDialect? program, Launcher.table.lookup program, Program.table.lookup program with
  | some dialect, _, _ => shell run dialect name arguments
  | none, some launcher, _ => launcher run name arguments
  | none, none, some program => perform program name arguments
  | none, none, none => finish 0

/-- The words after `#!` on the first line of a text. -/
def interpreter (t : Raw) : List Raw :=
  match t with
  | '#' :: '!' :: r => Raw.words (r.takeWhile (· ≠ '\n'))
  | _ => []

/-- Starts what stands at a path. -/
def start (run : Runner) (path name : Raw) (arguments : List Raw) : Act Unit := do
  match (← get).find? path with
  | .ok (.program p) => startNamed run (Raw.ofText p) name arguments
  | .ok (.file content _) =>
    match interpreter (Raw.ofBytes content) with
    | [] => shell run .standard path (path :: arguments)
    | command :: rest =>
      match (← get).find? command with
      | .ok (.program p) => startNamed run (Raw.ofText p) command (rest ++ path :: arguments)
      | _ => fail (name ++ ": not found") 127
  | _ => fail (name ++ ": not found") 127

/-- Starts a program by its name. -/
def startByName (run : Runner) (name : Raw) (arguments : List Raw) : Act Unit := do
  let s ← get
  match s.commandPath? name with
  | some path => start run path name arguments
  | none =>
    let isThere := name.contains '/' && (s.find? name).toBool
    match isThere, s.dialect with
    | true, _ => fail (name ++ ": Permission denied") 126
    | false, .standard => fail (name ++ ": not found") 127
    | false, .extended =>
      if name.contains '/' then fail (name ++ ": No such file or directory") 127
      else fail (name ++ ": command not found") 127

end Act

end Shell

end Haybuild
