import Haybuild.Graph.Node
import Haybuild.Recipe

/-!
# Graphs of recipes

A `Graph` gives each recipe a node, a number that is never used again, and knows for every node
which nodes it needs and which need it. The nodes that need nothing more are kept at hand as the
frontier. An operation that meets a node it does not know ends with that node, and what it changed
before stays changed.
-/

namespace Haybuild

/-- Recipes by node, what each needs, what needs it, and the nodes with nothing left to wait for. -/
structure Graph where
  recipes : NodeMap Recipe
  needs : NodeMap NodeSet
  neededBy : NodeMap NodeSet
  ready : NodeSet
  next : Int

namespace Graph

/-- The graph without recipes. -/
def empty : Graph :=
  ⟨.empty, .empty, .empty, .empty, 0⟩

/-- The result of an operation, or the node it did not find, and the graph it leaves. -/
abbrev Outcome (α : Type) := Except Int α × Graph

/-- The nodes in ascending order. -/
def nodes (g : Graph) : List Int :=
  g.recipes.keys

/-- The number of nodes. -/
def size (g : Graph) : Nat :=
  g.recipes.size

/-- The recipe of a node. -/
def recipe? (g : Graph) (n : Int) : Option Recipe :=
  g.recipes.get? n

/-- The graph holds a node. -/
def contains (g : Graph) (n : Int) : Bool :=
  (g.recipe? n).isSome

/-- The nodes with nothing left to wait for, in ascending order. -/
def frontier (g : Graph) : List Int :=
  g.ready.toList

/-- Adds a recipe under a new node. -/
def addNode (g : Graph) (r : Recipe) : Int × Graph :=
  (g.next,
    { recipes := g.recipes.set g.next r
      needs := g.needs.set g.next .empty
      neededBy := g.neededBy.set g.next .empty
      ready := g.ready.insert g.next
      next := g.next + 1 })

/-- Lets a node need another one. -/
def addEdge (g : Graph) (n prerequisite : Int) : Outcome Unit :=
  match g.needs.get? n with
  | none => (.error n, g)
  | some needed =>
    if prerequisite ∈ needed then (.ok (), g)
    else
      let g := { g with needs := g.needs.set n (needed.insert prerequisite) }
      match g.neededBy.get? prerequisite with
      | none => (.error prerequisite, g)
      | some dependents =>
        (.ok (),
          { g with
            neededBy := g.neededBy.set prerequisite (dependents.insert n)
            ready := g.ready.erase n })

/-- Takes a node from the needs of its dependents, and puts those with nothing left to wait for on
the frontier. -/
def release (n : Int) : List Int → Graph → Outcome Unit
  | [], g => (.ok (), g)
  | dependent :: rest, g =>
    match g.needs.get? dependent with
    | none => (.error dependent, g)
    | some needed =>
      let left := needed.erase n
      release n rest
        { g with
          needs := g.needs.set dependent left
          ready := if left.isEmpty then g.ready.insert dependent else g.ready }

/-- Takes a node from the dependents of the nodes it needs. -/
def forget (n : Int) : List Int → Graph → Outcome Unit
  | [], g => (.ok (), g)
  | prerequisite :: rest, g =>
    match g.neededBy.get? prerequisite with
    | none => (.error prerequisite, g)
    | some dependents =>
      forget n rest { g with neededBy := g.neededBy.set prerequisite (dependents.erase n) }

/-- Removes a node and its edges. -/
def removeNode (g : Graph) (n : Int) : Outcome Recipe :=
  match g.recipes.get? n with
  | none => (.error n, g)
  | some r =>
    let g := { g with recipes := g.recipes.erase n }
    match g.neededBy.get? n with
    | none => (.error n, g)
    | some dependents =>
      match release n dependents.toList { g with neededBy := g.neededBy.erase n } with
      | (.error missing, g) => (.error missing, g)
      | (.ok (), g) =>
        match g.needs.get? n with
        | none => (.error n, g)
        | some needed =>
          match forget n needed.toList { g with needs := g.needs.erase n } with
          | (.error missing, g) => (.error missing, g)
          | (.ok (), g) => (.ok r, { g with ready := g.ready.erase n })

theorem recipes_release (n : Int) (ds : List Int) (g : Graph) :
    (release n ds g).2.recipes = g.recipes := by
  induction ds generalizing g with
  | nil => rfl
  | cons d ds ih =>
    simp only [release]
    split
    · rfl
    · rw [ih]

theorem recipes_forget (n : Int) (ps : List Int) (g : Graph) :
    (forget n ps g).2.recipes = g.recipes := by
  induction ps generalizing g with
  | nil => rfl
  | cons p ps ih =>
    simp only [forget]
    split
    · rfl
    · rw [ih]

/-- A node that the graph holds is gone from its recipes, however its removal ends. -/
theorem recipes_removeNode {g : Graph} {n : Int} {r : Recipe} (h : g.recipes.get? n = some r) :
    (g.removeNode n).2.recipes = g.recipes.erase n := by
  simp only [removeNode, h]
  split
  · rfl
  · next dependents _ =>
    have hr := recipes_release n dependents.toList
      { g with recipes := g.recipes.erase n, neededBy := g.neededBy.erase n }
    split
    · next h' => rw [h'] at hr; exact hr
    · next g' h' =>
      rw [h'] at hr
      split
      · exact hr
      · next needed _ =>
        have hf := recipes_forget n needed.toList { g' with needs := g'.needs.erase n }
        split
        · next h'' => rw [h''] at hf; exact hf.trans hr
        · next h'' => rw [h''] at hf; exact hf.trans hr

theorem size_removeNode_lt {g : Graph} {n : Int} (h : g.contains n) :
    (g.removeNode n).2.size < g.size := by
  obtain ⟨r, hr⟩ := Option.isSome_iff_exists.1 h
  simpa [size, recipes_removeNode hr] using NodeMap.size_erase_lt hr

/-- The name of the recipe of a node. -/
def nameOf (g : Graph) (n : Int) : Text :=
  ((g.recipe? n).map Recipe.name).getD []

end Graph

end Haybuild
