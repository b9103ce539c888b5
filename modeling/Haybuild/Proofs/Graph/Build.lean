import Haybuild.Graph.Build
import Haybuild.Proofs.Graph.Part

/-!
# Built graphs are reachable

Building a graph only adds nodes and edges, and it stops at the first operation that fails.
-/

namespace Haybuild.Graph

variable {g g' : Graph}

theorem Reachable.addRecipes {rs : List Recipe} {providers : Providers} (h : g.Reachable) :
    (Graph.addRecipes rs g providers).1.Reachable := by
  induction rs generalizing g providers with
  | nil => exact h
  | cons r rs ih => exact ih (h.addNode r)

theorem Reachable.addEdges {n : Int} {ps : List Int} (h : g.Reachable)
    (hrun : Graph.addEdges n ps g = .ok g') : g'.Reachable := by
  induction ps generalizing g with
  | nil => cases hrun; exact h
  | cons p ps ih =>
    rw [Graph.addEdges] at hrun
    split at hrun
    · cases hrun
    · next he => exact ih (h.addEdge he) hrun

theorem Reachable.connect {exists_ : Text → Bool} {providers : Providers} {n : Int} {name : Text}
    {ps : List Text} (h : g.Reachable)
    (hrun : Graph.connect exists_ providers n name ps g = .ok g') : g'.Reachable := by
  induction ps generalizing g with
  | nil => cases hrun; exact h
  | cons p ps ih =>
    rw [Graph.connect] at hrun
    split at hrun
    · split at hrun
      · cases hrun
      · next he => exact ih (h.addEdges he) hrun
    · split at hrun
      · exact ih h hrun
      · cases hrun

theorem Reachable.connectAll {exists_ : Text → Bool} {providers : Providers} {ns : List Int}
    (h : g.Reachable) (hrun : Graph.connectAll exists_ providers ns g = .ok g') :
    g'.Reachable := by
  induction ns generalizing g with
  | nil => cases hrun; exact h
  | cons n ns ih =>
    rw [Graph.connectAll] at hrun
    split at hrun
    · cases hrun
    · split at hrun
      · cases hrun
      · next he => exact ih (h.connect he) hrun

theorem build_reachable {exists_ : Text → Bool} {rs : List Recipe}
    (h : build exists_ rs = .ok g) : g.Reachable :=
  Reachable.empty.addRecipes.connectAll h

end Haybuild.Graph
