import Haybuild.Execution
import Haybuild.Graph.Node

/-!
# Pools

The recipes of a frontier are put into a pool at once. Workers take them in order, at most so many
at the same time, and carry them out side by side, while the results are handled one by one as they
come. Only there is the cancel flag set, so a recipe may start commands after another one failed.
The first result that is a fault is the last one handled. The recipes that are left, also those that
no worker has taken yet, may still be carried out after it, as far as they get turns.

In which order all this happens is given from outside, as a list of turns; what the list leaves open
is done in order. A turn whose time has not come does nothing.

Main definition: `Crew.run`.
-/

namespace Haybuild

/-- The status under which an ending is reported. An aborted execution has none. -/
def Ending.status? : Ending → Option Status
  | completed => some .ok
  | cancelled => some .cancelled
  | failed _ => some .failed
  | aborted _ => none

/-- The execution of a recipe when its result is handled: its node, what it told, and how it
ended. -/
structure LogEntry where
  node : Int
  events : List Event
  ending : Ending

namespace LogEntry

/-- The status under which an execution is reported. -/
def status? (x : LogEntry) : Option Status :=
  x.ending.status?

/-- The fault that ended the execution and ends the run. -/
def fault? (x : LogEntry) : Option Fault :=
  match x.ending with
  | .aborted fault => some fault
  | _ => none

/-- The execution failed. -/
def Failed (x : LogEntry) : Prop := x.status? = some .failed

instance (x : LogEntry) : Decidable x.Failed := inferInstanceAs (Decidable (_ = _))

/-- What is told about an error: the line it points into, if any, and the failure. -/
def failureEvents (label : Text) (e : BuildError) : List Event :=
  (match e with
    | .diagnostic d => [.diagnostic d]
    | _ => []) ++ [.failure label e.render]

/-- What is told when the result is handled. -/
def report (label : Text) (x : LogEntry) : List Event :=
  match x.ending with
  | .completed => [.success label]
  | .failed e => failureEvents label e
  | _ => []

end LogEntry

/-- A recipe in a pool: how far it is, and what it told. -/
structure Job where
  recipe : Recipe
  stage : Stage := .queued
  told : List Event := []

/-- The state of a pool: the recipes whose results were not handled yet, the cancel flag, the host,
the results that were handled, what the recipes had the host do, and what was told. -/
structure Pool (σ : Type) where
  jobs : NodeMap Job
  cancelled : Bool
  host : σ
  log : List LogEntry := []
  journal : List (Int × Deed) := []
  events : List Event := []

namespace Pool

variable {σ : Type}

/-- The nodes that failed. -/
def failed (p : Pool σ) : List Int :=
  (p.log.filter (·.Failed)).map LogEntry.node

/-- The fault that ends the run. -/
def fault? (p : Pool σ) : Option Fault :=
  p.log.findSome? LogEntry.fault?

/-- The node whose recipe the next free worker takes. -/
def next? (p : Pool σ) : Option Int :=
  (p.jobs.entries.find? (·.2.stage.isQueued)).map Prod.fst

/-- The number of workers that are at a recipe. -/
def busy (p : Pool σ) : Nat :=
  p.jobs.entries.countP (·.2.stage.isBusy)

end Pool

/-- Those who carry out recipes: the host they have, what all commands have in common, the number of
workers, if it is limited, and how results are handled and reported. -/
structure Crew (σ : Type) where
  host : Host σ
  setting : Setting
  workers : Option Int
  failFast : Bool
  label : Int → Text

namespace Crew

variable {σ : Type} (crew : Crew σ)

/-- Takes the recipe of a node one step further. -/
def advance (n : Int) (p : Pool σ) : Pool σ :=
  match p.jobs.get? n with
  | none => p
  | some j =>
    let x := j.stage.step crew.host crew.setting j.recipe p.cancelled p.host
    { p with
      jobs := p.jobs.set n ⟨j.recipe, x.stage, j.told ++ x.events⟩
      host := x.host
      journal := p.journal ++ x.deeds.map (n, ·)
      events := p.events ++ x.events }

/-- Handles the result of a node, if it is there and no fault came before. -/
def handle (n : Int) (p : Pool σ) : Pool σ :=
  match p.fault?, p.jobs.get? n with
  | none, some ⟨_, .ended e, told⟩ =>
    let x : LogEntry := ⟨n, told, e⟩
    { p with
      jobs := p.jobs.erase n
      cancelled := p.cancelled || crew.failFast && x.Failed
      log := p.log ++ [x]
      events := p.events ++ x.report (crew.label n) }
  | _, _ => p

/-- A worker may take the recipe of a node further: one is at it, or is free to take it as the
next. -/
def mayWork (n : Int) (p : Pool σ) : Bool :=
  match p.jobs.get? n with
  | none => false
  | some j =>
    !j.stage.isQueued || p.next? = some n && crew.workers.all fun w => (p.busy : Int) < w

/-- Takes a turn. -/
def take (p : Pool σ) : Turn → Pool σ
  | .work n => if crew.mayWork n p then crew.advance n p else p
  | .handle n => crew.handle n p

/-- Takes the recipe of a node so many steps further. -/
def advanceBy (n : Int) : Nat → Pool σ → Pool σ
  | 0, p => p
  | k + 1, p => advanceBy n k (crew.advance n p)

/-- Takes the recipe of a node to its end. -/
def complete (n : Int) (p : Pool σ) : Pool σ :=
  match p.jobs.get? n with
  | none => p
  | some j => crew.advanceBy n (j.stage.left j.recipe) p

/-- Takes the recipe of a node to its end and handles the result. After a fault nothing is left to
be done for a result. -/
def settle (p : Pool σ) (n : Int) : Pool σ :=
  match p.fault? with
  | some _ => p
  | none => crew.handle n (crew.complete n p)

/-- Runs a pool: takes the turns, and then settles what is left in order. -/
def run (turns : List Turn) (p : Pool σ) : Pool σ :=
  let p := turns.foldl crew.take p
  p.jobs.keys.foldl crew.settle p

end Crew

end Haybuild
