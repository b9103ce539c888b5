import Haybuild.Proofs.Drain.Remove
import Haybuild.Proofs.Graph.Build

/-!
# Dropping a node

A node that failed is dropped with every node that needs it, however indirectly (`FallsWith`).
`Drain.dropAll_exact` says that no others go, whatever cycles the graph has: what is left is the
part of the graph on the other nodes, none of them becomes ready by it, and the nodes that went have
the result `skipped` where they had none.
-/

namespace Haybuild
open Relation

/-- Node `m` is `n` or needs it, however indirectly. -/
def Graph.FallsWith (g : Graph) (n m : Int) : Prop := m = n ∨ TransGen g.Needs m n

namespace Graph

variable {g g' : Graph} {n m b : Int}

theorem fallsWith_iff : g.FallsWith n m ↔ ReflTransGen g.Needs m n := by
  rw [reflTransGen_iff_eq_or_transGen, FallsWith, eq_comm]

/-- What needs a node that falls falls too. -/
theorem FallsWith.of_needs (H : g.FallsWith n b) (h : g.Needs m b) : g.FallsWith n m :=
  fallsWith_iff.2 (.head h (fallsWith_iff.1 H))

/-- A node that stays needs only nodes that stay, so it is ready exactly if it was ready before. -/
theorem Part.mem_frontier_of_fallsWith (H : g.Valid) (hpart : g.Part (¬g.FallsWith n ·) g') :
    m ∈ g'.frontier ↔ m ∈ g.frontier ∧ ¬g.FallsWith n m := by
  rw [hpart.mem_frontier, H.mem_frontier]
  constructor
  · rintro ⟨hm, hstays, hneeds⟩
    refine ⟨⟨hm, ?_⟩, hstays⟩
    intro b hb
    exact hneeds b hb fun hfalls => hstays (hfalls.of_needs hb)
  · rintro ⟨⟨hm, hready⟩, hstays⟩
    refine ⟨hm, hstays, ?_⟩
    intro b hb
    exact absurd hb (hready b)

end Graph

namespace Drain

variable {σ : Type} {d d' : Drain σ} {label : Int → Text} {n m : Int} {t : Text} {p : Int → Prop}
  {before after : NameMap Status}

/-- A label without a result gets `skipped` if it is that of a node which satisfies `p`, and
nothing otherwise. -/
theorem Fills.get?_iff (F : Fills label p before after) (h : before.get? t = none) (st : Status) :
    after.get? t = some st ↔ st = .skipped ∧ ∃ m, p m ∧ label m = t := by
  constructor
  · intro hst
    rcases F.get? t with hsame | ⟨-, hskipped, hm⟩
    · rw [hsame, h] at hst
      cases hst
    · rw [hskipped] at hst
      cases hst
      exact ⟨rfl, hm⟩
  · rintro ⟨rfl, m, hm, rfl⟩
    rcases F.get? (label m) with hsame | ⟨-, hskipped, -⟩
    · have hsome := F.isSome m hm
      rw [hsame, h] at hsome
      cases hsome
    · exact hskipped

/-- Dropping a node of a valid graph, or a number that is no node, goes through. What is left is the
part of the graph on the nodes that do not fall with it, and those of them are ready that were ready
before. Every result stays, and a label without one gets `skipped` if and only if it is that of a
node that falls. So where nodes do not share labels, among those without a result exactly the ones
that fall become skipped. -/
theorem dropAll_exact (H : d.graph.Valid) (n : Int)
    (hl : ∀ a b, d.graph.contains a → d.graph.contains b → label a = label b → a = b) :
    ∃ d', dropAll label [n] d = (none, d') ∧
      d' = { d with graph := d'.graph, results := d'.results } ∧
      d.graph.Part (¬d.graph.FallsWith n ·) d'.graph ∧
      (∀ m, m ∈ d'.graph.frontier ↔ m ∈ d.graph.frontier ∧ ¬d.graph.FallsWith n m) ∧
      (∀ t st, d.results.get? t = some st → d'.results.get? t = some st) ∧
      (∀ t, d.results.get? t = none → ∀ st, d'.results.get? t = some st ↔
        st = .skipped ∧ ∃ m, (d.graph.contains m ∧ d.graph.FallsWith n m) ∧ label m = t) ∧
      ∀ m, d.graph.contains m → d.results.get? (label m) = none →
        (d'.results.get? (label m) = some .skipped ↔ d.graph.FallsWith n m) := by
  obtain ⟨d', hrun, hskips, hpart⟩ := dropAll_spec label [n] d H
  have hpart' : d.graph.Part (¬d.graph.FallsWith n ·) d'.graph := by
    refine hpart.congr H ?_
    intro m _
    simp only [List.mem_singleton, exists_eq_left, Graph.fallsWith_iff]
  have hgone : ∀ m, Gone d d' m ↔ d.graph.contains m ∧ d.graph.FallsWith n m := by
    intro m
    rw [Gone, hpart'.contains_iff, not_and, not_not]
    exact ⟨fun h => ⟨h.1, h.2 h.1⟩, fun h => ⟨h.1, fun _ => h.2⟩⟩
  have hfills := hskips.fills.congr hgone
  refine ⟨d', hrun, hskips.frame, hpart', ?_, ?_, ?_, ?_⟩
  · intro m
    exact hpart'.mem_frontier_of_fallsWith H
  · intro t st hst
    rw [hfills.get?_of_isSome (by rw [hst]; rfl), hst]
  · intro t ht st
    exact hfills.get?_iff ht st
  · intro m hm hnone
    rw [hfills.get?_iff hnone]
    constructor
    · rintro ⟨-, k, ⟨hk, hfalls⟩, hlabel⟩
      exact hl k m hk hm hlabel ▸ hfalls
    · intro hfalls
      exact ⟨rfl, m, ⟨hm, hfalls⟩, rfl⟩

/-- Recipe `a` needs itself and `b`, `b` and `c` need one another, and `d` needs nothing. -/
def knot : List Recipe :=
  [⟨[['a']], [['a'], ['b']], []⟩, ⟨[['b']], [['c']], []⟩, ⟨[['c']], [['b']], []⟩, ⟨[['d']], [], []⟩]

/-- When `b` is dropped from the knot, `a` and `c` go with it, and `d` stays. The result that `c`
has already stays too. -/
theorem dropAll_exact_knot : ∃ g, Graph.build (fun _ => false) knot = .ok g ∧
    ∃ d', dropAll g.nameOf [1] ⟨g, .ofPairs [(['c'], .failed)], false, [], (), [], []⟩ =
        (none, d') ∧
      (∀ m, d'.graph.contains m ↔ m = 3) ∧ d'.results.get? ['a'] = some .skipped ∧
      d'.results.get? ['c'] = some .failed := by
  obtain ⟨g, hg, hr, hnodes, hnames, hneeds, hclosed⟩ :
      ∃ g, Graph.build (fun _ => false) knot = .ok g ∧ g.Reachable ∧ g.nodes = [0, 1, 2, 3] ∧
        g.nodes.map g.nameOf = [['a'], ['b'], ['c'], ['d']] ∧ (g.Needs 0 1 ∧ g.Needs 2 1) ∧
        ∀ a ∈ g.nodes, ∀ b ∈ g.nodes, g.Needs a b → b ≠ 3 → a ≠ 3 := by
    have hg : Graph.build (fun _ => false) knot = .ok _ := rfl
    exact ⟨_, hg, Graph.build_reachable hg, rfl, rfl, by decide, by decide⟩
  have H := hr.valid
  have hmem : ∀ m, g.contains m ↔ m ∈ [0, 1, 2, 3] := by
    intro m
    rw [← hnodes, Graph.mem_nodes]
  have hdistinct : ∀ a b, g.contains a → g.contains b → g.nameOf a = g.nameOf b → a = b := by
    intro a b ha hb
    apply List.inj_on_of_nodup_map (f := g.nameOf) (l := g.nodes)
    · rw [hnames]
      decide
    · exact Graph.mem_nodes.2 ha
    · exact Graph.mem_nodes.2 hb
  have hfalls : ∀ m ∈ [0, 1, 2], g.FallsWith 1 m := by
    simp only [List.forall_mem_cons]
    exact ⟨.inr (.single hneeds.1), .inl rfl, .inr (.single hneeds.2), nofun⟩
  have hstays : ¬g.FallsWith 1 3 := by
    -- along a path to `b`, no node is `d`
    have hreaches : ∀ m, ReflTransGen g.Needs m 1 → m ≠ 3 := by
      intro m hm
      induction hm using ReflTransGen.head_induction_on with
      | refl => decide
      | head hab _ ih =>
        have ha := Graph.mem_nodes.2 (H.contains_left hab)
        have hb := Graph.mem_nodes.2 (H.contains_right hab)
        exact hclosed _ ha _ hb hab ih
    exact fun h => hreaches 3 (Graph.fallsWith_iff.1 h) rfl
  obtain ⟨d', hrun, -, hpart, -, hkept, -, hskipped⟩ :=
    dropAll_exact (d := ⟨g, .ofPairs [(['c'], .failed)], false, [], (), [], []⟩) H 1 hdistinct
  refine ⟨g, hg, d', hrun, ?_, ?_, hkept ['c'] .failed rfl⟩
  · intro m
    rw [hpart.contains_iff, hmem]
    constructor
    · rintro ⟨hm, hnot⟩
      by_contra hother
      exact hnot (hfalls m (by simpa [hother] using hm))
    · rintro rfl
      exact ⟨by decide, hstays⟩
  · have hname : g.nameOf 0 = ['a'] := by
      rw [hnodes] at hnames
      exact (List.cons.inj hnames).1
    rw [← hname]
    exact (hskipped 0 ((hmem 0).2 (by decide)) (by rw [hname]; rfl)).2 (hfalls 0 (by decide))

end Drain

end Haybuild
