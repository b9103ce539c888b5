import Haybuild.Graph.Drain
import Haybuild.Proofs.Graph.Valid

/-!
# Labels of nodes

Every node of a graph has a label, under which its result is reported. Where no two nodes share a
label, a label stands for one node.
-/

namespace Haybuild.Graph

variable {g : Graph} {m n : Int} {t : Text}

theorem fst_labelsFrom (seen : NameMap Nat) (ns : List Int) :
    (g.labelsFrom seen ns).map Prod.fst = ns := by
  induction ns generalizing seen with
  | nil => rfl
  | cons n ns ih => rw [labelsFrom, List.map_cons, ih]

theorem fst_labels (g : Graph) : g.labels.map Prod.fst = g.nodes := fst_labelsFrom ..

theorem lookup_labels : g.labels.lookup n = some t ↔ (n, t) ∈ g.labels :=
  NodeMap.get?_eq_some_iff (m := ⟨g.labels, fst_labels g ▸ g.nodes_ascending⟩)

theorem mem_labels : (n, t) ∈ g.labels ↔ g.contains n ∧ labelOf g.labels n = t := by
  rw [← mem_nodes, ← fst_labels, labelOf, List.mem_map]
  constructor
  · intro h
    rw [lookup_labels.2 h]
    exact ⟨⟨_, h, rfl⟩, rfl⟩
  · rintro ⟨⟨⟨_, t'⟩, h, rfl⟩, ht⟩
    rw [lookup_labels.2 h] at ht
    exact ht ▸ h

theorem mem_snd_labels :
    t ∈ g.labels.map Prod.snd ↔ ∃ n, g.contains n ∧ labelOf g.labels n = t := by
  rw [List.mem_map]
  constructor
  · rintro ⟨⟨n, t⟩, h, rfl⟩
    exact ⟨n, mem_labels.1 h⟩
  · rintro ⟨n, h⟩
    exact ⟨(n, t), mem_labels.2 h, rfl⟩

/-- Where no two nodes share a label, a label stands for one node. -/
theorem labelOf_injective (hl : (g.labels.map Prod.snd).Nodup) (hm : g.contains m)
    (hn : g.contains n) (h : labelOf g.labels m = labelOf g.labels n) : m = n :=
  congrArg Prod.fst <|
    List.inj_on_of_nodup_map hl (mem_labels.2 ⟨hm, rfl⟩) (mem_labels.2 ⟨hn, rfl⟩) h

end Haybuild.Graph
