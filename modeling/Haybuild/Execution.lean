import Haybuild.Console.Event
import Haybuild.Host

/-!
# Executing recipes

The commands of a recipe are derived and run in order, up to the first that fails. Before each one
the cancel flag is looked at; once it is set no further command starts. A command with the neglect
marker that fails to derive is reported and passed over. `Recipe.execute` does all this in one go.
Where recipes run side by side, each of them is at a `Stage`, and `Stage.step` is what it does
before another one gets its turn: it has the host do at most one thing.
-/

namespace Haybuild

/-- How the execution of a recipe ends. -/
inductive Ending where
  | completed
  | cancelled
  | failed (e : BuildError)
  /-- A fault ends the whole run. -/
  | aborted (f : Fault)
  deriving Repr, DecidableEq

/-- What an execution tells, how it ends and the host it leaves. -/
structure Executed (σ : Type) where
  events : List Event
  ending : Ending
  host : σ

namespace Executed

variable {σ : Type}

/-- The execution with events before it. -/
def after (events : List Event) (x : Executed σ) : Executed σ :=
  { x with events := events ++ x.events }

end Executed

/-- What the commands of a run have in common: the raw variables they are derived against, the
values they find in their environment, and the shell. -/
structure Setting where
  vars : Variables
  environment : Environment
  shell : Text

namespace Execution

variable {σ : Type}

/-- Runs a derived command through the shell and goes on with `next` if it ends well. -/
def runCommand (h : Host σ) (setting : Setting) (recipe derived : Text) (s : σ)
    (next : σ → Executed σ) : Executed σ :=
  let cmd := unescapeDollars derived
  let started := Event.command recipe cmd
  match h.ask setting.shell setting.environment.unescaped cmd s with
  | (.error fault, s) => ⟨[started], .aborted fault, s⟩
  | (.ok answer, s) =>
    .after [started, .output recipe answer.output answer.errors] <|
      if answer.code = 0 then next s
      else ⟨[], .failed (.command recipe cmd answer.code), s⟩

/-- The events before a command with the debug marker. -/
def debugEvents (setting : Setting) (recipe : Text) (c : Command) (derived : Text) : List Event :=
  if c.debug then [.commandDebug recipe c.line derived setting.environment] else []

/-- Runs commands in order. `checks` is the number of times the cancel flag is found not set; it is
never set without a number. -/
def runCommands (h : Host σ) (setting : Setting) (recipe : Text) :
    Option Nat → List Command → σ → Executed σ
  | _, [], s => ⟨[], .completed, s⟩
  | checks, c :: rest, s =>
    if checks = some 0 then
      ⟨[.debug ("[" ++ recipe ++ "] cancelled before: " ++ c.text)], .cancelled, s⟩
    else
      let checks := checks.map (· - 1)
      match h.derive (derive setting.vars c.debug c.text) s with
      | (.error fault, s) => ⟨[], .aborted fault, s⟩
      | (.ok (.error e), s) =>
        let d := c.diagnose e
        if c.neglect then .after [.diagnostic d] (runCommands h setting recipe checks rest s)
        else ⟨[], .failed (.diagnostic d), s⟩
      | (.ok (.ok derived), s) =>
        .after (debugEvents setting recipe c derived) <|
          runCommand h setting recipe derived s (runCommands h setting recipe checks rest)

end Execution

/-- Executes a recipe. -/
def Recipe.execute {σ : Type} (r : Recipe) (h : Host σ) (setting : Setting) (checks : Option Nat)
    (s : σ) : Executed σ :=
  Execution.runCommands h setting r.name checks r.commands s

/-! ## Step by step -/

/-- What a recipe has the host do, and what comes of it. -/
inductive Deed where
  /-- A command is derived. -/
  | derived (c : Command) (outcome : Except Fault (Except Derivation.Error Text))
  /-- A derived command is run by the shell. -/
  | ran (cmd : Text) (answer : Except Fault Derivation.ShellAnswer)

/-- How far the execution of a recipe is. -/
inductive Stage where
  /-- No worker has taken it yet. -/
  | queued
  /-- These commands are left. -/
  | ready (rest : List Command)
  /-- The next command is derived. -/
  | derived (cmd : Text) (rest : List Command)
  /-- The next command is told of and about to run. -/
  | started (cmd : Text) (rest : List Command)
  | ended (e : Ending)

/-- One step of an execution. -/
structure Step (σ : Type) where
  stage : Stage
  events : List Event
  deeds : List Deed
  host : σ

namespace Stage

variable {σ : Type}

/-- The recipe waits for a worker. -/
def isQueued : Stage → Bool
  | queued => true
  | _ => false

/-- A worker is at the recipe. -/
def isBusy : Stage → Bool
  | queued | ended _ => false
  | _ => true

/-- The step in which a command is derived. -/
def derive (h : Host σ) (setting : Setting) (recipe : Text) (c : Command) (rest : List Command)
    (s : σ) : Step σ :=
  let (outcome, s) := h.derive (Haybuild.derive setting.vars c.debug c.text) s
  let after (stage : Stage) (events : List Event) : Step σ :=
    ⟨stage, events, [.derived c outcome], s⟩
  match outcome with
  | .error fault => after (.ended (.aborted fault)) []
  | .ok (.error e) =>
    let d := c.diagnose e
    if c.neglect then after (.ready rest) [.diagnostic d]
    else after (.ended (.failed (.diagnostic d))) []
  | .ok (.ok text) =>
    after (.derived (unescapeDollars text) rest) (Execution.debugEvents setting recipe c text)

/-- The step in which a command is run. -/
def run (h : Host σ) (setting : Setting) (recipe cmd : Text) (rest : List Command) (s : σ) :
    Step σ :=
  let (answer, s) := h.ask setting.shell setting.environment.unescaped cmd s
  let after (stage : Stage) (events : List Event) : Step σ :=
    ⟨stage, events, [.ran cmd answer], s⟩
  match answer with
  | .error fault => after (.ended (.aborted fault)) []
  | .ok answer =>
    after
      (if answer.code = 0 then .ready rest else .ended (.failed (.command recipe cmd answer.code)))
      [.output recipe answer.output answer.errors]

/-- The next step of the execution of a recipe, with the cancel flag set or not. -/
def step (h : Host σ) (setting : Setting) (r : Recipe) (cancelled : Bool) (s : σ) :
    Stage → Step σ
  | .queued => ⟨.ready r.commands, [], [], s⟩
  | .ready [] => ⟨.ended .completed, [], [], s⟩
  | .ready (c :: rest) =>
    if cancelled then
      ⟨.ended .cancelled, [.debug ("[" ++ r.name ++ "] cancelled before: " ++ c.text)], [], s⟩
    else derive h setting r.name c rest s
  | .derived cmd rest => ⟨.started cmd rest, [.command r.name cmd], [], s⟩
  | .started cmd rest => run h setting r.name cmd rest s
  | .ended e => ⟨.ended e, [], [], s⟩

/-- So many steps take a recipe to its end. -/
def left (r : Recipe) : Stage → Nat
  | .queued => 3 * r.commands.length + 2
  | .ready rest => 3 * rest.length + 1
  | .derived _ rest => 3 * rest.length + 3
  | .started _ rest => 3 * rest.length + 2
  | .ended _ => 0

end Stage

end Haybuild
