import Haybuild.Proofs.Graph.Part

/-!
# Calls on a graph

`Graph.Makes g cs g'` says that the calls `cs`, one after the other and each of them with success,
lead from `g` to `g'`. A call is noted together with what it answered, so the calls alone tell which
nodes are live: those that were added and not removed (`Live`). `makes_exact` says that every map of
the graph tells the same, and that of the edges that were ever added the graph has those between
live nodes. One call keeps this (`Told.step`), and so do any number of them (`Told.run`).
-/

namespace Haybuild.Graph

/-- A call that changes a graph, with what it answered. -/
inductive Call where
  | added (r : Recipe) (node : Int)
  | linked (node prerequisite : Int)
  | removed (node : Int) (r : Recipe)
  deriving Repr, DecidableEq

namespace Call

/-- The call succeeds on the graph `g`, gives the answer that is noted, and leaves `g'`. -/
def Does (g g' : Graph) : Call → Prop
  | added r n => g.addNode r = (n, g')
  | linked n p => g.addEdge n p = (.ok (), g')
  | removed n r => g.removeNode n = (.ok r, g')

/-- The node that a call returned, if it added one. -/
def returned? : Call → Option Int
  | added _ n => some n
  | _ => none

/-- The nodes that a call speaks of. -/
def nodes : Call → List Int
  | added _ n => [n]
  | linked n p => [n, p]
  | removed n _ => [n]

end Call

/-- Calls lead from a graph to another one, each of them with success. -/
inductive Makes : Graph → List Call → Graph → Prop
  | nil {g} : Makes g [] g
  | cons {c cs g g₁ g'} : c.Does g g₁ → Makes g₁ cs g' → Makes g (c :: cs) g'

/-- The nodes that calls returned, in order. -/
def returned (cs : List Call) : List Int := cs.filterMap Call.returned?

/-- The calls added the recipe under this node and did not remove the node. -/
def LiveAs (cs : List Call) (n : Int) (r : Recipe) : Prop :=
  .added r n ∈ cs ∧ ∀ r', .removed n r' ∉ cs

/-- The calls added the node and did not remove it. -/
def Live (cs : List Call) (n : Int) : Prop := ∃ r, LiveAs cs n r

/-- What calls tell about the graph that they made. -/
structure Told (cs : List Call) (g : Graph) : Prop where
  valid : g.Valid
  recipe?_iff : ∀ n r, g.recipe? n = some r ↔ LiveAs cs n r
  needs_iff : ∀ a b, g.Needs a b ↔ .linked a b ∈ cs ∧ g.contains a ∧ g.contains b
  ascending : (returned cs).Pairwise (· < ·)
  lt_next : ∀ c ∈ cs, ∀ n ∈ c.nodes, n < g.next

variable {cs : List Call} {g g' : Graph} {n p : Int} {r : Recipe}

theorem mem_returned : n ∈ returned cs ↔ ∃ r, .added r n ∈ cs := by
  rw [returned, List.mem_filterMap]
  constructor
  · rintro ⟨c, hc, hn⟩
    cases c with
    | added r m => cases hn; exact ⟨r, hc⟩
    | linked | removed => cases hn
  · rintro ⟨r, hr⟩
    exact ⟨_, hr, rfl⟩

theorem returned_concat {c : Call} (h : c.returned? = none) :
    returned (cs ++ [c]) = returned cs := by
  simp [returned, List.filterMap_append, h]

namespace Told

theorem empty : Told [] .empty where
  valid := .empty
  recipe?_iff _ _ := by simp [LiveAs, recipe?, Graph.empty]
  needs_iff _ _ := by simp [Needs, needsOf, Graph.empty]
  ascending := .nil
  lt_next := by simp

theorem contains_iff (T : Told cs g) : g.contains n ↔ Live cs n := by
  rw [contains, Option.isSome_iff_exists]
  exact exists_congr fun r => T.recipe?_iff n r

/-- No call speaks of the node that comes next. -/
theorem next_notMem_nodes (T : Told cs g) {c : Call} (hc : c ∈ cs) : g.next ∉ c.nodes :=
  fun h => Int.lt_irrefl _ (T.lt_next c hc _ h)

theorem lt_next_of_mem_returned (T : Told cs g) (hn : n ∈ returned cs) : n < g.next := by
  obtain ⟨r, hr⟩ := mem_returned.1 hn
  exact T.lt_next _ hr n (List.mem_singleton_self n)

theorem added (T : Told cs g) (r : Recipe) :
    Told (cs ++ [.added r g.next]) (g.addNode r).2 where
  valid := T.valid.addNode r
  recipe?_iff n r' := by
    rw [recipe?_addNode]
    simp only [LiveAs, List.mem_append, List.mem_singleton, Call.added.injEq, reduceCtorEq,
      or_false]
    split
    · next hn =>
      -- no call speaks of the new node yet, so the last one alone makes it live
      subst hn
      have hnot : ∀ r', .added r' g.next ∉ cs := fun r' h =>
        T.next_notMem_nodes h (List.mem_singleton_self _)
      have hnot' : ∀ r', .removed g.next r' ∉ cs := fun r' h =>
        T.next_notMem_nodes h (List.mem_singleton_self _)
      simp [hnot, hnot', eq_comm]
    · next hn =>
      rw [T.recipe?_iff, LiveAs]
      simp [hn]
  needs_iff a b := by
    rw [T.valid.needs_addNode, T.needs_iff]
    simp only [List.mem_append, List.mem_singleton, reduceCtorEq, or_false, contains_addNode]
    refine and_congr_right fun h => ?_
    have ha : a ≠ g.next := fun ha => T.next_notMem_nodes h (by simp [Call.nodes, ha])
    have hb : b ≠ g.next := fun hb => T.next_notMem_nodes h (by simp [Call.nodes, hb])
    simp only [ha, hb, false_or]
  ascending := by
    rw [returned, List.filterMap_append]
    refine List.pairwise_append.2 ⟨T.ascending, List.pairwise_singleton _ _, fun m hm k hk => ?_⟩
    obtain rfl : k = g.next := by simpa [Call.returned?] using hk
    exact T.lt_next_of_mem_returned hm
  lt_next c hc n hn := by
    rcases List.mem_append.1 hc with hc | hc
    · exact Int.lt_trans (T.lt_next c hc n hn) (Int.lt_succ _)
    · obtain rfl := List.mem_singleton.1 hc
      obtain rfl := List.mem_singleton.1 hn
      exact Int.lt_succ _

theorem linked (T : Told cs g) (h : g.addEdge n p = (.ok (), g')) :
    Told (cs ++ [.linked n p]) g' := by
  obtain ⟨hn, hp, -⟩ := T.valid.addEdge_ok h
  have hrecipes := T.valid.recipes_addEdge h
  have hcontains : ∀ k, g'.contains k = g.contains k := fun k => by
    rw [contains, recipe?, hrecipes]; rfl
  refine ⟨T.valid.addEdge h, fun k r => ?_, fun a b => ?_, ?_, fun c hc k hk => ?_⟩
  · rw [recipe?, hrecipes]
    refine (T.recipe?_iff k r).trans ?_
    simp [LiveAs]
  · rw [T.valid.needs_addEdge h, T.needs_iff, hcontains, hcontains]
    simp only [List.mem_append, List.mem_singleton, Call.linked.injEq]
    constructor
    · rintro (⟨hab, ha, hb⟩ | ⟨rfl, rfl⟩)
      · exact ⟨.inl hab, ha, hb⟩
      · exact ⟨.inr ⟨rfl, rfl⟩, hn, hp⟩
    · rintro ⟨hab | hab, ha, hb⟩
      · exact .inl ⟨hab, ha, hb⟩
      · exact .inr hab
  · rw [returned_concat rfl]
    exact T.ascending
  · rw [T.valid.next_addEdge h]
    rcases List.mem_append.1 hc with hc | hc
    · exact T.lt_next c hc k hk
    · obtain rfl := List.mem_singleton.1 hc
      refine T.valid.lt_next k ?_
      simp only [Call.nodes, List.mem_cons, List.not_mem_nil, or_false] at hk
      rcases hk with rfl | rfl
      · exact hn
      · exact hp

theorem removed (T : Told cs g) (h : g.removeNode n = (.ok r, g')) :
    Told (cs ++ [.removed n r]) g' := by
  obtain ⟨hr, hpart⟩ := T.valid.part_of_removeNode h
  have hn := contains_of_recipe? hr
  refine ⟨hpart.valid, fun k r => ?_, fun a b => ?_, ?_, fun c hc k hk => ?_⟩
  · rw [hpart.recipe?_iff, T.recipe?_iff]
    simp only [LiveAs, List.mem_append, List.mem_singleton, reduceCtorEq, or_false,
      Call.removed.injEq, not_or, forall_and, and_assoc]
    refine and_congr_right fun _ => and_congr_right fun _ => ?_
    simp
  · rw [hpart.needs_iff, T.needs_iff, hpart.contains_iff, hpart.contains_iff]
    simp only [List.mem_append, List.mem_singleton, reduceCtorEq, or_false]
    tauto
  · rw [returned_concat rfl]
    exact T.ascending
  · rw [hpart.next_eq]
    rcases List.mem_append.1 hc with hc | hc
    · exact T.lt_next c hc k hk
    · obtain rfl := List.mem_singleton.1 hc
      obtain rfl := List.mem_singleton.1 hk
      exact T.valid.lt_next k hn

end Told

/-- One more call that succeeds keeps what the calls tell. -/
theorem Told.step (T : Told cs g) {c : Call} (h : c.Does g g') : Told (cs ++ [c]) g' := by
  cases c with
  | added r n =>
    cases h
    exact T.added r
  | linked n p => exact T.linked h
  | removed n r => exact T.removed h

theorem Told.run {before : List Call} (T : Told before g) (h : Makes g cs g') :
    Told (before ++ cs) g' := by
  induction h generalizing before with
  | nil => exact (List.append_nil before).symm ▸ T
  | cons hc _ ih => exact List.append_cons .. ▸ ih (T.step hc)

theorem Makes.concat {c : Call} (h : Makes g cs g') {g'' : Graph} (hc : c.Does g' g'') :
    Makes g (cs ++ [c]) g'' := by
  induction h with
  | nil => exact .cons hc .nil
  | cons hc' _ ih => exact .cons hc' (ih hc)

theorem Reachable.makes (hg : g.Reachable) (h : Makes g cs g') : g'.Reachable := by
  induction h with
  | nil => exact hg
  | @cons c _ _ _ _ hc _ ih =>
    refine ih ?_
    cases c with
    | added r n =>
      cases hc
      exact hg.addNode r
    | linked => exact hg.addEdge hc
    | removed => exact hg.removeNode hc

/-- The reachable graphs are those that calls make from the empty one. -/
theorem reachable_iff_makes : g.Reachable ↔ ∃ cs, Makes .empty cs g := by
  refine ⟨fun h => ?_, fun ⟨_, h⟩ => Reachable.empty.makes h⟩
  induction h with
  | empty => exact ⟨[], .nil⟩
  | @addNode g r _ ih =>
    obtain ⟨cs, h⟩ := ih
    exact ⟨_, h.concat (c := .added r g.next) rfl⟩
  | @addEdge _ _ n p _ he ih =>
    obtain ⟨cs, h⟩ := ih
    exact ⟨_, h.concat (c := .linked n p) he⟩
  | @removeNode _ _ n r _ hr ih =>
    obtain ⟨cs, h⟩ := ih
    exact ⟨_, h.concat (c := .removed n r) hr⟩

/-- The invariant of the representation, for every graph that calls without failure make from the
empty one. Each of the three maps has the live nodes as its keys. The edge maps mirror one another,
and hold of all edges that were added those between live nodes. The frontier lists in ascending
order the live nodes that need nothing. The nodes returned ascend, so none comes twice. The removal
of a live node succeeds, gives its recipe, and leaves the other nodes and the edges among them as
they were. -/
theorem makes_exact (h : Makes .empty cs g) :
    (∀ n, n ∈ g.recipes.keys ↔ Live cs n) ∧ (∀ n, n ∈ g.needs.keys ↔ Live cs n) ∧
    (∀ n, n ∈ g.neededBy.keys ↔ Live cs n) ∧
    (∀ a b, (b ∈ g.needsOf a ↔ a ∈ g.dependentsOf b) ∧
      (b ∈ g.needsOf a ↔ .linked a b ∈ cs ∧ Live cs a ∧ Live cs b)) ∧
    g.frontier.Pairwise (· < ·) ∧
    (∀ n, n ∈ g.frontier ↔ Live cs n ∧ ∀ b, b ∉ g.needsOf n) ∧
    (returned cs).Pairwise (· < ·) ∧
    ∀ n r, LiveAs cs n r → ∃ g', g.removeNode n = (.ok r, g') ∧
      (∀ k, g'.recipe? k = if k = n then none else g.recipe? k) ∧
      ∀ a b, a ≠ n → b ≠ n → (b ∈ g'.needsOf a ↔ b ∈ g.needsOf a) := by
  have T : Told cs g := Told.empty.run h
  have H := T.valid
  refine ⟨fun n => ?_, fun n => ?_, fun n => ?_, fun a b => ⟨(H.mirrored a b).symm, ?_⟩,
    g.frontier_ascending, fun n => ?_, T.ascending, fun n r hr => ?_⟩
  · rw [← T.contains_iff]
    exact mem_nodes
  · rw [← T.contains_iff, ← H.needs_keys]
    exact NodeMap.mem_keys
  · rw [← T.contains_iff, ← H.neededBy_keys]
    exact NodeMap.mem_keys
  · rw [← T.contains_iff, ← T.contains_iff]
    exact T.needs_iff a b
  · rw [← T.contains_iff]
    exact H.mem_frontier
  · obtain ⟨g', hrun, R⟩ := H.removeNode_removed ((T.recipe?_iff n r).2 hr)
    refine ⟨g', hrun, R.recipe?, fun a b ha hb => (R.needs a b).trans ?_⟩
    exact and_iff_left ⟨ha, hb⟩

/-- Recipe `a` needs `b`, told twice, and `b` needs itself until it is removed. -/
def removal : List Call :=
  [.added ⟨[['a']], [], []⟩ 0, .added ⟨[['b']], [], []⟩ 1, .linked 0 1, .linked 0 1, .linked 1 1,
    .removed 1 ⟨[['b']], [], []⟩, .added ⟨[['c']], [], []⟩ 2]

theorem makes_exact_removal : ∃ g, Makes .empty removal g ∧ g.frontier = [0, 2] ∧
    returned removal = [0, 1, 2] ∧ (∀ n, n ∈ g.recipes.keys ↔ Live removal n) ∧
    ∃ g', g.removeNode 0 = (.ok ⟨[['a']], [], []⟩, g') := by
  obtain ⟨g, hg, hfrontier⟩ : ∃ g, Makes .empty removal g ∧ g.frontier = [0, 2] :=
    ⟨_, .cons rfl (.cons rfl (.cons rfl (.cons rfl (.cons rfl (.cons rfl (.cons rfl .nil)))))), rfl⟩
  obtain ⟨hkeys, -, -, -, -, -, -, hremove⟩ := makes_exact hg
  obtain ⟨g', hrun, -⟩ := hremove 0 ⟨[['a']], [], []⟩ ⟨by decide, fun r' => by simp [removal]⟩
  exact ⟨g, hg, hfrontier, rfl, hkeys, g', hrun⟩

end Haybuild.Graph
