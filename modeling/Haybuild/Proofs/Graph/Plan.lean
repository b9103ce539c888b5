import Haybuild.Proofs.Graph.Build
import Haybuild.Proofs.Graph.Counting
import Haybuild.Proofs.Text.Order
import Mathlib.Data.List.MinMax
import Mathlib.Order.Nat

/-!
# What a plan says

`Valid.levels_eq` computes the plan of a valid graph from its levels alone: they are listed up to
the first empty one, and when nodes remain after it the plan is an error that names them. From this,
`plan_exact` says when there is a plan and on which level it puts each node.
-/

namespace Haybuild.Graph

variable {g : Graph} {n : Int} {k : Nat} {counts : Counts}

theorem mem_ascending {ns : List Int} : n ∈ ascending ns ↔ n ∈ ns := by
  induction ns with
  | nil => exact Iff.rfl
  | cons m ns ih => rw [ascending, List.foldr_cons, NodeSet.mem_insertInto, ← ascending, ih,
      List.mem_cons]

theorem ascending_ascending (ns : List Int) : (ascending ns).Pairwise (· < ·) := by
  induction ns with
  | nil => exact .nil
  | cons m ns ih => exact NodeSet.pairwise_insertInto ih

/-- So many levels have nodes. -/
def HasHeight (g : Graph) (m : Nat) : Prop := g.level m = [] ∧ ∀ i < m, g.level i ≠ []

theorem height_unique {m m' : Nat} (h : g.HasHeight m) (h' : g.HasHeight m') : m = m' :=
  Nat.le_antisymm (Nat.le_of_not_lt fun hlt => h.2 m' hlt h'.1)
    (Nat.le_of_not_lt fun hlt => h'.2 m hlt h.1)

theorem flatten_levels_prefix {k m : Nat} (h : k ≤ m) :
    ((List.range k).map g.level).flatten <+: ((List.range m).map g.level).flatten := by
  obtain ⟨j, rfl⟩ := Nat.exists_eq_add_of_le h
  rw [List.range_add, List.map_append, List.flatten_append]
  exact List.prefix_append ..

namespace Valid

theorem exists_onLevel_of_le (H : g.Valid) {i j : Nat} (h : g.OnLevel i n) (hji : j ≤ i) :
    ∃ b, g.OnLevel j b := by
  induction hji using Nat.decreasingInduction generalizing n with
  | self => exact ⟨n, h⟩
  | of_succ j _ ih =>
    obtain ⟨b, hb⟩ := ih h
    obtain ⟨c, -, hc⟩ := H.exists_needs_onLevel hb
    exact ⟨c, hc⟩

/-- What can be done at all can be done within the height of the graph. -/
theorem doneBy_height (H : g.Valid) {m : Nat} (hm : g.HasHeight m) (h : g.doneBy k n) :
    g.doneBy m n := by
  obtain ⟨i, -, hi⟩ := exists_onLevel h
  refine H.doneBy_mono (Nat.lt_of_not_le fun hmi => ?_) hi.1
  obtain ⟨b, hb⟩ := H.exists_onLevel_of_le hi hmi
  have := H.mem_level.2 hb
  rw [hm.1] at this
  cases this

theorem doneBy_height_iff (H : g.Valid) {m : Nat} (hm : g.HasHeight m) (hn : g.contains n) :
    g.doneBy m n ↔ ¬g.ReachesCycle n := by
  rw [H.reachesCycle_iff hn]
  exact ⟨fun h hall => hall m h, fun h => by
    obtain ⟨k, hk⟩ := not_forall_not.1 h
    exact H.doneBy_height hm hk⟩

/-! ## The levels of a plan -/

theorem length_level (g : Graph) (k : Nat) :
    (g.level k).length = g.nodes.countP fun n => g.OnLevel k n :=
  List.countP_eq_length_filter.symm

theorem length_flatten_levels (H : g.Valid) (m : Nat) :
    ((List.range m).map g.level).flatten.length = g.nodes.countP fun n => g.doneBy m n := by
  induction m with
  | zero => simp [doneBy]
  | succ m ih => simp [List.range_succ, ih, H.countP_doneBy_succ, length_level]

/-- From a level on, a plan lists the levels up to the first empty one. The bound is large enough
because every level but that one takes a node. -/
theorem levelsFrom_eq (H : g.Valid) (bound : Nat) (hc : g.Counted k counts)
    (hb : g.size < bound + g.nodes.countP fun n => g.doneBy k n) :
    ∃ j counts', g.levelsFrom bound (g.level k) counts =
        .ok ((List.range' k j).map g.level, counts') ∧
      g.level (k + j) = [] ∧ (∀ i < j, g.level (k + i) ≠ []) ∧ g.Counted (k + j) counts' := by
  induction bound generalizing k counts with
  | zero =>
    have := List.countP_le_length (p := fun n => g.doneBy k n) (l := g.nodes)
    rw [length_nodes] at this
    omega
  | succ bound ih =>
    cases hlevel : g.level k with
    | nil => exact ⟨0, counts, rfl, hlevel, by simp, hc⟩
    | cons n ns =>
      rw [levelsFrom, ← hlevel]
      · obtain ⟨freed, counts₁, hrun, hc₁, -, hfreed⟩ := H.freeLevel_level hc
        have hnext : ascending freed = g.level (k + 1) :=
          (ascending_ascending _).eq_of_mem_iff (level_ascending ..) fun m => by
            rw [mem_ascending, hfreed]
        have hlen : (g.level k).length = ns.length + 1 := by rw [hlevel]; rfl
        obtain ⟨j, counts', hrest, hempty, hne, hc'⟩ := ih hc₁ (by
          rw [H.countP_doneBy_succ, ← length_level]
          omega)
        rw [hrun]
        dsimp only
        rw [hnext, hrest]
        refine ⟨j + 1, counts', rfl, ?_, fun i hi => ?_, ?_⟩
        · rwa [Nat.add_right_comm] at hempty
        · cases i with
          | zero => simp [hlevel]
          | succ i =>
            have := hne i (Nat.lt_of_succ_lt_succ hi)
            rwa [Nat.add_right_comm] at this
        · rwa [Nat.add_right_comm] at hc'
      · simp

/-- The plan of a graph: its levels, or the names of the nodes that no level holds. -/
theorem levels_eq (H : g.Valid) : ∃ m, g.HasHeight m ∧ g.levels =
    if ∀ n ∈ g.nodes, g.doneBy m n then .ok ((List.range m).map g.level)
    else .error (.error (.cycle (g.sortedNames (g.nodes.filter fun n => !g.doneBy m n)))) := by
  obtain ⟨counts, hcount, hc⟩ := H.countNeeds_nodes
  have hfirst : nodesWith counts (· == 0) = g.level 0 :=
    (nodesWith_ascending ..).eq_of_mem_iff (level_ascending ..) fun n => by
      rw [mem_nodesWith, hc, H.mem_level, OnLevel, and_iff_left not_doneBy_zero]
      split
      · next hn => rw [H.doneBy_succ_iff_undone hn]; simp
      · next hn => simp [mt H.contains_of_doneBy hn]
  obtain ⟨m, counts', hrun, hempty, hne, hc'⟩ := H.levelsFrom_eq (g.size + 1) hc (by omega)
  rw [Nat.zero_add] at hempty hc'
  simp only [Nat.zero_add] at hne
  have hstuck : nodesWith counts' (decide <| 0 < ·) = g.nodes.filter fun n => !g.doneBy m n :=
    (nodesWith_ascending ..).eq_of_mem_iff (g.nodes_ascending.filter _) fun n => by
      rw [mem_nodesWith, hc', List.mem_filter, mem_nodes, Bool.not_eq_true',
        Bool.eq_false_iff, ne_eq]
      split
      · next hn =>
        have hsucc := H.doneBy_succ_iff_undone (k := m) hn
        have : g.doneBy (m + 1) n ↔ g.doneBy m n :=
          ⟨H.doneBy_height ⟨hempty, hne⟩, H.doneBy_succ_of_doneBy⟩
        rw [← this, hsucc]
        simp [hn]
        omega
      · next hn => simp [hn]
  refine ⟨m, ⟨hempty, hne⟩, ?_⟩
  have hall : (∀ n ∈ g.nodes, g.doneBy m n) ↔
      ((List.range m).map g.level).flatten.length = g.size := by
    rw [H.length_flatten_levels, ← length_nodes, List.countP_eq_length]
  rw [levels, hcount]
  dsimp only
  rw [hfirst, hrun]
  dsimp only
  rw [← List.range_eq_range', hstuck]
  simp only [hall]

end Valid

/-! ## The level of a node -/

/-- The number of the level that holds a node, counted from one. -/
def levelIn (levels : List (List Int)) (n : Int) : Nat :=
  levels.findIdx (fun level => decide (n ∈ level)) + 1

/-- The greatest of some numbers, zero if there are none. -/
def greatest (l : List Nat) : Nat := l.foldr max 0

theorem greatest_eq {l : List Nat} {i : Nat} (hle : ∀ x ∈ l, x ≤ i) (hi : i = 0 ∨ i ∈ l) :
    greatest l = i := by
  refine Nat.le_antisymm (List.max_le_of_forall_le l i hle) ?_
  rcases hi with rfl | hi
  · exact Nat.zero_le _
  · exact List.le_max_of_le hi (Nat.le_refl i)

namespace Valid

theorem levelIn_eq (H : g.Valid) {i m : Nat} (hi : g.OnLevel i n) (him : i < m) :
    levelIn ((List.range m).map g.level) n = i + 1 := by
  have hlen : i < ((List.range m).map g.level).length := by simpa using him
  rw [levelIn, (List.findIdx_eq hlen).2]
  simp only [List.getElem_map, List.getElem_range, decide_eq_true_eq, decide_eq_false_iff_not,
    H.mem_level]
  exact ⟨hi, fun j hji hj => Nat.ne_of_lt hji (H.onLevel_unique hj hi)⟩

/-- In a plan that does every node, each stands on the level that it has in the graph. -/
theorem levelIn_of_onLevel (H : g.Valid) {i m : Nat} (hall : ∀ n, g.contains n → g.doneBy m n)
    (hi : g.OnLevel i n) : levelIn ((List.range m).map g.level) n = i + 1 :=
  H.levelIn_eq hi (H.lt_of_onLevel_of_doneBy hi (hall n (H.contains_of_doneBy hi.1)))

/-- The level of a node comes right after the greatest level of a node that it needs. -/
theorem levelIn_eq_greatest (H : g.Valid) {i m : Nat} (hi : g.OnLevel i n) (him : i < m) :
    levelIn ((List.range m).map g.level) n =
      greatest ((g.needsOf n).toList.map (levelIn ((List.range m).map g.level))) + 1 := by
  have hneeds : ∀ b ∈ (g.needsOf n).toList, ∃ j < i,
      levelIn ((List.range m).map g.level) b = j + 1 := fun b hb => by
    obtain ⟨j, hji, hj⟩ := H.onLevel_needs hi hb
    exact ⟨j, hji, H.levelIn_eq hj (Nat.lt_trans hji him)⟩
  rw [H.levelIn_eq hi him, greatest_eq]
  · intro x hx
    obtain ⟨b, hb, rfl⟩ := List.mem_map.1 hx
    obtain ⟨j, hji, hj⟩ := hneeds b hb
    rw [hj]
    exact hji
  · cases i with
    | zero => exact .inl rfl
    | succ i =>
      obtain ⟨b, hnb, hb⟩ := H.exists_needs_onLevel hi
      exact .inr (List.mem_map.2 ⟨b, hnb, H.levelIn_eq hb (Nat.lt_of_succ_lt him)⟩)

theorem levels_ok (H : g.Valid) (ha : g.Acyclic) :
    ∃ m, g.HasHeight m ∧ (∀ n, g.contains n → g.doneBy m n) ∧
      g.levels = .ok ((List.range m).map g.level) := by
  obtain ⟨m, hm, heq⟩ := H.levels_eq
  have hall : ∀ n, g.contains n → g.doneBy m n := fun n hn => by
    obtain ⟨k, hk⟩ := H.acyclic_iff.1 ha n hn
    exact H.doneBy_height hm hk
  rw [if_pos fun n hn => hall n (mem_nodes.1 hn)] at heq
  exact ⟨m, hm, hall, heq⟩

theorem levels_cycle (H : g.Valid) (ha : ¬g.Acyclic) :
    ∃ m, g.HasHeight m ∧ g.levels =
      .error (.error (.cycle (g.sortedNames (g.nodes.filter fun n => !g.doneBy m n)))) := by
  obtain ⟨m, hm, heq⟩ := H.levels_eq
  rw [if_neg fun hall => ha (H.acyclic_iff.2 fun n hn => ⟨m, hall n (mem_nodes.2 hn)⟩)] at heq
  exact ⟨m, hm, heq⟩

theorem acyclic_of_plan (H : g.Valid) {names : List (List Text)} (h : g.plan = .ok names) :
    g.Acyclic := by
  by_contra ha
  obtain ⟨m, -, heq⟩ := H.levels_cycle ha
  rw [plan, heq] at h
  cases h

theorem flatten_levels_perm (H : g.Valid) {m : Nat} (hall : ∀ n, g.contains n → g.doneBy m n) :
    ((List.range m).map g.level).flatten.Perm g.nodes := by
  refine (List.perm_ext_iff_of_nodup ?_ g.nodes_ascending.nodup).2 fun n => ?_
  · refine List.nodup_flatten.2 ⟨fun l hl => ?_, ?_⟩
    · obtain ⟨i, -, rfl⟩ := List.mem_map.1 hl
      exact (g.level_ascending i).nodup
    · refine List.pairwise_map.2 (List.nodup_range.imp fun {i j} hij => ?_)
      intro n hi hj
      exact hij (H.onLevel_unique (H.mem_level.1 hi) (H.mem_level.1 hj))
  · simp only [List.mem_flatten, List.mem_map, List.mem_range, mem_nodes]
    constructor
    · rintro ⟨_, ⟨i, -, rfl⟩, hn⟩
      exact H.contains_of_doneBy (H.mem_level.1 hn).1
    · intro hn
      obtain ⟨i, him, hi⟩ := exists_onLevel (hall n hn)
      exact ⟨_, ⟨i, him, rfl⟩, H.mem_level.2 hi⟩

end Valid

/-- Recipe `a` needs `b` and `c`, and both need `d`. Each runs a command of its own name. -/
def diamond : List Recipe :=
  [⟨[['a']], [['b'], ['c']], [{ text := ['a'] }]⟩, ⟨[['b']], [['d']], [{ text := ['b'] }]⟩,
    ⟨[['c']], [['d']], [{ text := ['c'] }]⟩, ⟨[['d']], [], [{ text := ['d'] }]⟩]

theorem build_diamond : ∃ g, build (fun _ => false) diamond = .ok g ∧ g.Reachable ∧
    g.plan = .ok [[['d']], [['b'], ['c']], [['a']]] ∧
    g.labels = [(0, ['a']), (1, ['b']), (2, ['c']), (3, ['d'])] ∧
    ∀ e ∈ g.recipes.entries, ∀ c ∈ e.2.commands, '$' ∉ c.text ∧ '\x00' ∉ c.text := by
  have hg : build (fun _ => false) diamond = .ok _ := rfl
  exact ⟨_, hg, build_reachable hg, rfl, rfl, by decide⟩

/-- A graph has a plan if and only if no recipe needs itself, however indirectly. The plan lists
every recipe once, on the level right after the greatest level of a recipe that it needs. Without a
plan the error names, in order, the recipes from which a cycle can be reached. -/
theorem plan_exact (hg : g.Reachable) :
    ((∃ names, g.plan = .ok names) ↔ g.Acyclic) ∧
    (g.Acyclic → ∃ levels, g.levels = .ok levels ∧
      g.plan = .ok (levels.map fun level => level.map g.nameOf) ∧
      levels.flatten.Perm g.nodes ∧
      (∀ level ∈ levels, level ≠ [] ∧ level.Pairwise (· < ·)) ∧
      ∀ n, g.contains n →
        levelIn levels n = greatest ((g.needsOf n).toList.map (levelIn levels)) + 1) ∧
    (¬g.Acyclic → ∃ (stuck : List Text) (ns : List Int), g.plan = .error (.error (.cycle stuck)) ∧
      (stuck.Pairwise fun t u => ¬u < t) ∧ stuck.Perm (ns.map g.nameOf) ∧ ns.Nodup ∧
      ∀ n, n ∈ ns ↔ g.contains n ∧ g.ReachesCycle n) := by
  have H := hg.valid
  refine ⟨⟨fun ⟨names, h⟩ => H.acyclic_of_plan h, fun ha => ?_⟩, fun ha => ?_, fun ha => ?_⟩
  · obtain ⟨m, -, -, heq⟩ := H.levels_ok ha
    exact ⟨_, by rw [plan, heq]; rfl⟩
  · obtain ⟨m, hm, hall, heq⟩ := H.levels_ok ha
    refine ⟨_, heq, by rw [plan, heq]; rfl, H.flatten_levels_perm hall, fun l hl => ?_,
      fun n hn => ?_⟩
    · obtain ⟨i, hi, rfl⟩ := List.mem_map.1 hl
      exact ⟨hm.2 i (List.mem_range.1 hi), g.level_ascending i⟩
    · obtain ⟨i, him, hi⟩ := exists_onLevel (hall n hn)
      exact H.levelIn_eq_greatest hi him
  · obtain ⟨m, hm, heq⟩ := H.levels_cycle ha
    refine ⟨_, _, by rw [plan, heq]; rfl, Text.pairwise_sort _, Text.perm_sort _,
      (g.nodes_ascending.filter _).nodup, fun n => ?_⟩
    rw [List.mem_filter, mem_nodes, Bool.not_eq_true', Bool.eq_false_iff, ne_eq]
    exact and_congr_right fun hn => (not_congr (H.doneBy_height_iff hm hn)).trans not_not

theorem plan_exact_diamond : ∃ g, build (fun _ => false) diamond = .ok g ∧ g.Reachable ∧
    g.plan = .ok [[['d']], [['b'], ['c']], [['a']]] ∧ g.Acyclic := by
  obtain ⟨g, hg, hr, hplan, -⟩ := build_diamond
  exact ⟨g, hg, hr, hplan, (plan_exact hr).1.1 ⟨_, hplan⟩⟩

end Haybuild.Graph
