import Haybuild.Graph.Basic
import Haybuild.Halt
import Haybuild.NameMap

/-!
# Building graphs

`Graph.build` makes one node for each recipe, in order, and lets it need every recipe that builds
one of its prerequisites. A prerequisite that no recipe builds must be a file.
-/

namespace Haybuild

namespace Graph

/-- The nodes that build each target, in order. -/
abbrev Providers := NameMap (List Int)

/-- Adds a node to those that build a target. -/
def provide (n : Int) (providers : Providers) (target : Text) : Providers :=
  providers.set target ((providers.get? target).getD [] ++ [n])

/-- Adds a node for each recipe and collects what each builds. -/
def addRecipes : List Recipe → Graph → Providers → Graph × Providers
  | [], g, providers => (g, providers)
  | r :: rest, g, providers =>
    let (n, g) := g.addNode r
    addRecipes rest g (r.targets.foldl (provide n) providers)

/-- Lets a node need each of the given ones. -/
def addEdges (n : Int) : List Int → Graph → Except Halt Graph
  | [], g => .ok g
  | provider :: rest, g =>
    match g.addEdge n provider with
    | (.error missing, _) => .error (.fault (.unknownNode missing))
    | (.ok (), g) => addEdges n rest g

/-- Lets a node need what builds its prerequisites. -/
def connect (exists_ : Text → Bool) (providers : Providers) (n : Int) (name : Text) :
    List Text → Graph → Except Halt Graph
  | [], g => .ok g
  | prerequisite :: rest, g =>
    match providers.get? prerequisite with
    | some ns =>
      match addEdges n ns g with
      | .error e => .error e
      | .ok g => connect exists_ providers n name rest g
    | none =>
      if exists_ prerequisite then connect exists_ providers n name rest g
      else .error (.error (.dependency name prerequisite))

/-- Connects each of the given nodes. -/
def connectAll (exists_ : Text → Bool) (providers : Providers) :
    List Int → Graph → Except Halt Graph
  | [], g => .ok g
  | n :: rest, g =>
    match g.recipe? n with
    | none => .error (.fault (.unknownNode n))
    | some r =>
      match connect exists_ providers n r.name r.prerequisites g with
      | .error e => .error e
      | .ok g => connectAll exists_ providers rest g

/-- The graph of recipes, in which only the names that `exists_` accepts are files. -/
def build (exists_ : Text → Bool) (recipes : List Recipe) : Except Halt Graph :=
  let (g, providers) := addRecipes recipes .empty .empty
  connectAll exists_ providers g.nodes g

end Graph

end Haybuild
