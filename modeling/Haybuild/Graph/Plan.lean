import Haybuild.Graph.Basic
import Haybuild.Halt
import Haybuild.NameMap
import Haybuild.Text.Order

/-!
# Planning

`Graph.levels` gives the frontiers in which a graph would drain, without changing it: it counts for
each node the needs that are left, and a level holds the nodes whose count reaches zero in the level
before. When nodes are left over they wait for a cycle, and the plan is an error that names them.
`Graph.labels` tells recipes of the same name apart.
-/

namespace Haybuild

namespace Graph

/-- The number of needs that are left for each node. -/
abbrev Counts := NodeMap Int

/-- Takes one from the count of each of the given nodes; those that come to zero are returned. -/
def countDown : List Int → Counts → Except Int (List Int × Counts)
  | [], counts => .ok ([], counts)
  | n :: rest, counts =>
    match counts.get? n with
    | none => .error n
    | some count =>
      match countDown rest (counts.set n (count - 1)) with
      | .error missing => .error missing
      | .ok (freed, counts) => .ok (if count - 1 = 0 then n :: freed else freed, counts)

/-- Counts down the dependents of the nodes of a level; the nodes that come to zero are returned in
the order in which they do. -/
def freeLevel (g : Graph) : List Int → Counts → Except Int (List Int × Counts)
  | [], counts => .ok ([], counts)
  | n :: rest, counts =>
    match g.neededBy.get? n with
    | none => .error n
    | some dependents =>
      match countDown dependents.toList counts with
      | .error missing => .error missing
      | .ok (freed, counts) =>
        match g.freeLevel rest counts with
        | .error missing => .error missing
        | .ok (more, counts) => .ok (freed ++ more, counts)

/-- The nodes in ascending order. -/
def ascending (ns : List Int) : List Int :=
  ns.foldr NodeSet.insertInto []

/-- The levels that start with the given one, at most so many, and the counts after the last. -/
def levelsFrom (g : Graph) : Nat → List Int → Counts → Except Int (List (List Int) × Counts)
  | 0, _, counts => .ok ([], counts)
  | _ + 1, [], counts => .ok ([], counts)
  | rounds + 1, level, counts =>
    match g.freeLevel level counts with
    | .error missing => .error missing
    | .ok (freed, counts) =>
      match g.levelsFrom rounds (ascending freed) counts with
      | .error missing => .error missing
      | .ok (levels, counts) => .ok (level :: levels, counts)

/-- The number of needs of each node of a list. -/
def countNeeds (g : Graph) : List Int → Except Int Counts
  | [] => .ok .empty
  | n :: rest =>
    match g.needs.get? n with
    | none => .error n
    | some needed =>
      match g.countNeeds rest with
      | .error missing => .error missing
      | .ok counts => .ok (counts.set n needed.toList.length)

/-- The names of nodes, sorted. -/
def sortedNames (g : Graph) (ns : List Int) : List Text :=
  Text.sort (ns.map g.nameOf)

/-- The nodes whose count passes a test, in ascending order. -/
def nodesWith (counts : Counts) (test : Int → Bool) : List Int :=
  (counts.entries.filter fun e => test e.2).map Prod.fst

/-- The levels in which a graph drains, as nodes. -/
def levels (g : Graph) : Except Halt (List (List Int)) :=
  match g.countNeeds g.nodes with
  | .error missing => .error (.fault (.unknownNode missing))
  | .ok counts =>
    match g.levelsFrom (g.size + 1) (nodesWith counts (· == 0)) counts with
    | .error missing => .error (.fault (.unknownNode missing))
    | .ok (levels, counts) =>
      if levels.flatten.length = g.size then .ok levels
      else .error (.error (.cycle (g.sortedNames (nodesWith counts (decide <| 0 < ·)))))

/-- The levels in which a graph drains, as names. -/
def plan (g : Graph) : Except Halt (List (List Text)) :=
  g.levels.map fun levels => levels.map fun level => level.map g.nameOf

/-- The labels of nodes: the name of the recipe, numbered from the second recipe of that name on.
`seen` tells how many recipes of each name came before. -/
def labelsFrom (g : Graph) (seen : NameMap Nat) : List Int → List (Int × Text)
  | [] => []
  | n :: rest =>
    let name := g.nameOf n
    let count := (seen.get? name).getD 0 + 1
    let label := if count = 1 then name else name ++ "#" ++ Text.ofNat count
    (n, label) :: g.labelsFrom (seen.set name count) rest

/-- The label of each node, under which its result is reported. -/
def labels (g : Graph) : List (Int × Text) :=
  g.labelsFrom .empty g.nodes

end Graph

end Haybuild
