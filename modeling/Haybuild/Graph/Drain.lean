import Haybuild.Graph.Plan
import Haybuild.Graph.Pool

/-!
# Draining graphs

A graph is drained frontier by frontier. The recipes of a frontier are run by a pool, and the next
frontier starts when all of them are done. After a failure a run that fails fast starts no further
frontier; a run that keeps going drops what depends on the failed recipes.

Main definitions: `Graph.drain` and `Graph.run`.
-/

namespace Haybuild

/-- The state of a run: the graph that is left, the results so far, the cancel flag, what was told,
the host, the executions in the order in which their results were handled, and what the recipes had
the host do. -/
structure Drain (σ : Type) where
  graph : Graph
  results : NameMap Status
  cancelled : Bool
  events : List Event
  host : σ
  log : List LogEntry := []
  journal : List (Int × Deed) := []

namespace Drain

variable {σ : Type}

/-- Tells something. -/
def tell (d : Drain σ) (events : List Event) : Drain σ :=
  { d with events := d.events ++ events }

/-- Gives a label the result of a recipe that never runs, unless it has one. -/
def skip (d : Drain σ) (label : Text) : Drain σ :=
  { d with results := d.results.setDefault label .skipped }

/-- The results with those of executions. -/
def reportAll (label : Int → Text) (m : NameMap Status) (xs : List LogEntry) : NameMap Status :=
  xs.foldl (fun m x => match x.status? with
    | some st => m.set (label x.node) st
    | none => m) m

/-- Puts the recipes of nodes into a pool, or finds a node without one. -/
def enlist (g : Graph) : List Int → NodeMap Job → Except Int (NodeMap Job)
  | [], jobs => .ok jobs
  | n :: rest, jobs =>
    match g.recipe? n with
    | none => .error n
    | some r => enlist g rest (jobs.set n { recipe := r })

/-- The state of a run after a pool was run on its host. -/
def collect (label : Int → Text) (d : Drain σ) (p : Pool σ) : Drain σ where
  graph := d.graph
  results := reportAll label d.results p.log
  cancelled := p.cancelled
  events := d.events ++ p.events
  host := p.host
  log := d.log ++ p.log
  journal := d.journal ++ p.journal

/-- Removes nodes from the graph. -/
def removeAll : List Int → Drain σ → Option Fault × Drain σ
  | [], d => (none, d)
  | n :: rest, d =>
    match d.graph.removeNode n with
    | (.error missing, g) => (some (.unknownNode missing), { d with graph := g })
    | (.ok _, g) => removeAll rest { d with graph := g }

/-- Drops the nodes on a stack and all that depends on them, the top of the stack first. The
dependents of a node go on top of the stack, the last of them uppermost. -/
def dropAll (label : Int → Text) (stack : List Int) (d : Drain σ) : Option Fault × Drain σ :=
  match stack with
  | [] => (none, d)
  | n :: rest =>
    if h : d.graph.contains n then
      match d.graph.neededBy.get? n with
      | none => (some (.unknownNode n), d)
      | some dependents =>
        have := Graph.size_removeNode_lt h
        match hr : d.graph.removeNode n with
        | (.error missing, g) => (some (.unknownNode missing), { d with graph := g })
        | (.ok _, g) =>
          have : g.size < d.graph.size := by simp_all
          dropAll label (dependents.toList.reverse ++ rest)
            (Drain.skip { d with graph := g } (label n))
    else dropAll label rest d
termination_by (d.graph.size, stack.length)
decreasing_by
  · exact Prod.Lex.left _ _ (by simpa [Drain.skip] using this)
  · exact Prod.Lex.right _ (by simp)

/-- Drops each failed node with all that depends on it. -/
def dropFailed (label : Int → Text) : List Int → Drain σ → Option Fault × Drain σ
  | [], d => (none, d)
  | n :: rest, d =>
    match dropAll label [n] d with
    | (none, d) => dropFailed label rest d
    | stopped => stopped

/-- Marks every node that is left as skipped. -/
def skipAll (label : Int → Text) (d : Drain σ) : Drain σ :=
  d.graph.nodes.foldl (fun d n => d.skip (label n)) d

/-- Runs the rounds from one on, at most so many; a round runs a frontier. -/
def rounds (crew : Crew σ) : Nat → Nat → Drain σ → Option Halt × Drain σ
  | 0, _, d => (none, d)
  | bound + 1, round, d =>
    if d.graph.size = 0 then (none, d)
    else
      match d.graph.frontier with
      | [] => (some (.error (.cycle (d.graph.sortedNames d.graph.nodes))), d)
      | frontier =>
        match enlist d.graph frontier .empty with
        | .error n => (some (.fault (.unknownNode n)), d)
        | .ok jobs =>
          let d := d.tell [.frontier round (frontier.map d.graph.nameOf)]
          let p := crew.run (crew.host.schedule round) ⟨jobs, d.cancelled, d.host, [], [], []⟩
          let d := d.collect crew.label p
          match p.fault? with
          | some fault => (some (.fault fault), d)
          | none =>
            match removeAll (frontier.filter fun n => !p.failed.contains n) d with
            | (some fault, d) => (some (.fault fault), d)
            | (none, d) =>
              if crew.failFast && !p.failed.isEmpty then (none, skipAll crew.label d)
              else
                match dropFailed crew.label p.failed d with
                | (some fault, d) => (some (.fault fault), d)
                | (none, d) => rounds crew bound (round + 1) d

end Drain

namespace Graph

variable {σ : Type}

/-- The label under which the result of a node is reported. -/
def labelOf (labels : List (Int × Text)) (n : Int) : Text :=
  (labels.lookup n).getD []

/-- A run that has not begun yet. -/
def undrained (g : Graph) (s : σ) : Drain σ where
  graph := g
  results := .empty
  cancelled := false
  events := []
  host := s

/-- Has a crew drain a graph. Every round takes a node off the graph, so there are at most as many
rounds as nodes. -/
def drain (g : Graph) (crew : Crew σ) (s : σ) : Option Halt × Drain σ :=
  Drain.rounds crew (g.size + 1) 1 (g.undrained s)

/-- How a graph is run. -/
structure Options where
  /-- The number of recipes that may run at the same time, if it is limited. -/
  workers : Option Int := none
  failFast : Bool := true
  shell : Text := standardShell

/-- The crew that runs a graph. -/
def crew (g : Graph) (h : Host σ) (vars : Variables) (environment : Environment) (o : Options) :
    Crew σ where
  host := h
  setting := ⟨vars, environment, o.shell⟩
  workers := o.workers
  failFast := o.failFast
  label := labelOf g.labels

/-- Runs a graph on a host: the variables are derived once, for the environment of all commands, and
then the graph is drained. -/
def run (g : Graph) (h : Host σ) (vars : Variables) (o : Options) (s : σ) :
    Option Halt × Drain σ :=
  match h.derive vars.resolved s with
  | (.error fault, s) => (some (.fault fault), g.undrained s)
  | (.ok (.error e), s) => (some (.error (.derivation e)), g.undrained s)
  | (.ok (.ok environment), s) =>
    if o.workers.any (· ≤ 0) then (some (.fault .noWorkers), g.undrained s)
    else g.drain (g.crew h vars environment o) s

end Graph

end Haybuild
