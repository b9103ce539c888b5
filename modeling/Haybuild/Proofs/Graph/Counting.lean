import Haybuild.Graph.Plan
import Haybuild.Proofs.Graph.Level

/-!
# Counting down needs

A plan counts for each node the needs that are left. `Counted g k counts` is what the counts say
after `k` levels. Freeing a level counts each need that is met exactly once, so that no count falls
below zero and each node comes to zero at most once (`countDown_spec`), and the nodes that do are
those of the next level (`Valid.freeLevel_level`).
-/

namespace Haybuild.Graph

variable {g : Graph} {n : Int} {k : Nat} {counts : Counts}

/-- The number of needs of a node that cannot be done within so many rounds. -/
def undone (g : Graph) (k : Nat) (n : Int) : Nat :=
  (g.needsOf n).toList.countP fun b => !g.doneBy k b

/-- The counts after so many levels. -/
def Counted (g : Graph) (k : Nat) (counts : Counts) : Prop :=
  ∀ n, counts.get? n = if g.contains n then some (g.undone k n : Int) else none

theorem undone_eq_zero_iff : g.undone k n = 0 ↔ ∀ b, g.Needs n b → g.doneBy k b := by
  simp only [undone, List.countP_eq_zero, Bool.not_eq_true', Bool.not_eq_false]
  exact Iff.rfl

theorem Valid.doneBy_succ_iff_undone (H : g.Valid) (hn : g.contains n) :
    g.doneBy (k + 1) n ↔ g.undone k n = 0 := by
  rw [H.doneBy_succ, undone_eq_zero_iff]
  exact and_iff_right hn

/-! ## Counting down a list of nodes -/

theorem countDown_append (ds es : List Int) (counts : Counts) :
    countDown (ds ++ es) counts =
      match countDown ds counts with
      | .error missing => .error missing
      | .ok (freed, counts) =>
        match countDown es counts with
        | .error missing => .error missing
        | .ok (more, counts) => .ok (freed ++ more, counts) := by
  induction ds generalizing counts with
  | nil =>
    rw [List.nil_append, countDown.eq_1]
    dsimp only
    cases countDown es counts <;> rfl
  | cons d ds ih =>
    rw [List.cons_append, countDown, countDown]
    cases counts.get? d with
    | none => rfl
    | some c =>
      dsimp only
      rw [ih]
      cases countDown ds (counts.set d (c - 1)) with
      | error _ => rfl
      | ok x =>
        dsimp only
        cases countDown es x.2 with
        | error _ => rfl
        | ok y => by_cases hc : c - 1 = 0 <;> simp [hc]

/-- When every count is at least the number of times it is counted down, each node comes to zero at
most once, and exactly those do whose count is used up. -/
theorem countDown_spec (ds : List Int) (counts : Counts)
    (h : ∀ d ∈ ds, ∃ c, counts.get? d = some c ∧ ds.count d ≤ c) :
    ∃ freed counts', countDown ds counts = .ok (freed, counts') ∧
      (∀ n, counts'.get? n = (counts.get? n).map (· - (ds.count n : Int))) ∧ freed.Nodup ∧
      ∀ n, n ∈ freed ↔ n ∈ ds ∧ counts.get? n = some (ds.count n : Int) := by
  induction ds generalizing counts with
  | nil => exact ⟨[], counts, rfl, by simp, .nil, by simp⟩
  | cons d ds ih =>
    obtain ⟨c, hc, hle⟩ := h d List.mem_cons_self
    rw [List.count_cons_self] at hle
    obtain ⟨freed, counts', hrun, hcounts, hnodup, hfreed⟩ := ih (counts.set d (c - 1)) <| by
      intro e he
      by_cases hed : e = d
      · exact ⟨c - 1, by simp [hed], by rw [hed]; omega⟩
      · obtain ⟨c', hc', hle'⟩ := h e (List.mem_cons_of_mem _ he)
        rw [List.count_cons_of_ne (Ne.symm hed)] at hle'
        exact ⟨c', by simpa [hed] using hc', hle'⟩
    rw [countDown, hc]
    dsimp only
    rw [hrun]
    refine ⟨_, counts', rfl, fun n => ?_, ?_, fun n => ?_⟩
    · rw [hcounts]
      by_cases hn : n = d
      · subst hn
        simp only [NodeMap.get?_set_self, hc, Option.map_some, List.count_cons_self]
        congr 1
        omega
      · simp [hn, List.count_cons_of_ne (Ne.symm hn)]
    · split
      · next hzero =>
        refine List.nodup_cons.2 ⟨fun hd => ?_, hnodup⟩
        have := List.count_pos_iff.2 ((hfreed d).1 hd).1
        omega
      · exact hnodup
    · by_cases hn : n = d
      · subst hn
        have : n ∈ freed ↔ n ∈ ds ∧ c - 1 = ds.count n := by
          rw [hfreed, NodeMap.get?_set_self, Option.some_inj]
        have hpos := List.count_pos_iff (a := n) (l := ds)
        rw [hc, Option.some_inj, List.count_cons_self]
        split
        · next hzero =>
          refine iff_of_true List.mem_cons_self ⟨List.mem_cons_self, ?_⟩
          omega
        · next hne =>
          rw [this, ← hpos, and_iff_right List.mem_cons_self]
          omega
      · have : n ∈ freed ↔ n ∈ ds ∧ counts.get? n = some (ds.count n : Int) := by
          rw [hfreed, NodeMap.get?_set_of_ne hn]
        rw [List.count_cons_of_ne (Ne.symm hn), List.mem_cons, or_iff_right hn, ← this]
        split
        · rw [List.mem_cons, or_iff_right hn]
        · exact Iff.rfl

/-! ## Freeing a level -/

namespace Valid

theorem freeLevel_eq (H : g.Valid) {ns : List Int} (h : ∀ n ∈ ns, g.contains n) :
    g.freeLevel ns counts = countDown (ns.flatMap fun n => (g.dependentsOf n).toList) counts := by
  induction ns generalizing counts with
  | nil => rfl
  | cons n ns ih =>
    rw [freeLevel, H.neededBy_get? (h n List.mem_cons_self), List.flatMap_cons, countDown_append]
    dsimp only
    cases countDown (g.dependentsOf n).toList counts with
    | error _ => rfl
    | ok x =>
      dsimp only
      have hns : g.freeLevel ns x.2 =
          countDown (ns.flatMap fun n => (g.dependentsOf n).toList) x.2 :=
        ih fun m hm => h m (List.mem_cons_of_mem _ hm)
      cases hrest : countDown (ns.flatMap fun n => (g.dependentsOf n).toList) x.2 with
      | error _ => rw [hns, hrest]
      | ok _ => rw [hns, hrest]

/-- A node is counted down once for each node of the level that it needs. -/
theorem count_flatMap_dependentsOf (H : g.Valid) {ns : List Int} (hns : ns.Nodup) :
    (ns.flatMap fun b => (g.dependentsOf b).toList).count n =
      (g.needsOf n).toList.countP fun b => decide (b ∈ ns) := by
  have hcount : (ns.flatMap fun b => (g.dependentsOf b).toList).count n =
      ns.countP fun b => decide (g.Needs n b) := by
    clear hns
    induction ns with
    | nil => rfl
    | cons b ns ih =>
      rw [List.flatMap_cons, List.count_append, ih, List.countP_cons,
        (g.dependentsOf b).nodup.count, Nat.add_comm]
      congr 1
      exact if_congr ((H.mirrored n b).trans decide_eq_true_iff.symm) rfl rfl
  rw [hcount, List.countP_eq_length_filter, List.countP_eq_length_filter]
  refine List.Perm.length_eq ((List.perm_ext_iff_of_nodup (hns.filter _)
    ((g.needsOf n).nodup.filter _)).2 fun b => ?_)
  simp only [List.mem_filter, decide_eq_true_eq]
  exact and_comm

theorem undone_eq_add (H : g.Valid) :
    g.undone k n = (g.needsOf n).toList.countP (fun b => decide (b ∈ g.level k)) +
      g.undone (k + 1) n := by
  have hk := List.length_eq_countP_add_countP (fun b => g.doneBy k b) (l := (g.needsOf n).toList)
  have hk' := List.length_eq_countP_add_countP (fun b => g.doneBy (k + 1) b)
    (l := (g.needsOf n).toList)
  have hsucc := H.countP_doneBy_succ k (g.needsOf n).toList
  simp only [undone, H.mem_level]
  simp only [Bool.not_eq_true, Bool.decide_eq_false] at hk hk'
  omega

/-- Freeing a level leaves the counts for the next one and returns its nodes. -/
theorem freeLevel_level (H : g.Valid) (hc : g.Counted k counts) :
    ∃ freed counts', g.freeLevel (g.level k) counts = .ok (freed, counts') ∧
      g.Counted (k + 1) counts' ∧ freed.Nodup ∧ ∀ n, n ∈ freed ↔ n ∈ g.level (k + 1) := by
  have hlive : ∀ n ∈ g.level k, g.contains n := fun n hn =>
    H.contains_of_doneBy (H.mem_level.1 hn).1
  have hcount : ∀ n, ((g.level k).flatMap fun b => (g.dependentsOf b).toList).count n +
      g.undone (k + 1) n = g.undone k n := fun n => by
    rw [H.count_flatMap_dependentsOf (g.level_ascending k).nodup, ← H.undone_eq_add]
  have hmem : ∀ n, n ∈ ((g.level k).flatMap fun b => (g.dependentsOf b).toList) ↔
      ∃ b ∈ g.level k, g.Needs n b := fun n => by
    simp only [List.mem_flatMap]
    exact exists_congr fun b => and_congr_right fun _ => H.mirrored n b
  rw [H.freeLevel_eq hlive]
  obtain ⟨freed, counts', hrun, hcounts, hnodup, hfreed⟩ := countDown_spec
    ((g.level k).flatMap fun b => (g.dependentsOf b).toList) counts fun d hd => by
      obtain ⟨b, -, hdb⟩ := (hmem d).1 hd
      have := hcount d
      exact ⟨g.undone k d, by rw [hc, if_pos (H.contains_left hdb)], by omega⟩
  refine ⟨freed, counts', hrun, fun n => ?_, hnodup, fun n => ?_⟩
  · have := hcount n
    rw [hcounts, hc]
    split
    · rw [Option.map_some]
      congr 1
      omega
    · rfl
  · have := hcount n
    rw [hfreed, hmem, hc, H.mem_level]
    constructor
    · rintro ⟨⟨b, hb, hnb⟩, hzero⟩
      rw [if_pos (H.contains_left hnb), Option.some_inj] at hzero
      refine ⟨(H.doneBy_succ_iff_undone (H.contains_left hnb)).2 (by omega), fun hdone => ?_⟩
      exact (H.mem_level.1 hb).2 ((H.doneBy_succ.1 hdone).2 b hnb)
    · intro hn
      have hlive := H.contains_of_doneBy hn.1
      obtain ⟨b, hnb, hb⟩ := H.exists_needs_onLevel hn
      refine ⟨⟨b, H.mem_level.2 hb, hnb⟩, ?_⟩
      have hzero := (H.doneBy_succ_iff_undone hlive).1 hn.1
      rw [if_pos hlive, Option.some_inj]
      omega

end Valid

/-! ## The nodes with a count -/

theorem nodesWith_ascending (counts : Counts) (test : Int → Bool) :
    (nodesWith counts test).Pairwise (· < ·) :=
  counts.ascending.sublist (List.filter_sublist.map _)

theorem mem_nodesWith {test : Int → Bool} :
    n ∈ nodesWith counts test ↔ ∃ c, counts.get? n = some c ∧ test c := by
  simp only [nodesWith, List.mem_map, List.mem_filter, NodeMap.get?_eq_some_iff]
  constructor
  · rintro ⟨e, he, rfl⟩
    exact ⟨e.2, he⟩
  · rintro ⟨c, hc⟩
    exact ⟨_, hc, rfl⟩

theorem countNeeds_spec (H : g.Valid) (ns : List Int) (h : ∀ n ∈ ns, g.contains n) :
    ∃ counts, g.countNeeds ns = .ok counts ∧
      ∀ n, counts.get? n = if n ∈ ns then some ((g.needsOf n).toList.length : Int) else none := by
  induction ns with
  | nil => exact ⟨.empty, rfl, by simp⟩
  | cons m ns ih =>
    obtain ⟨counts, hrun, hcounts⟩ := ih fun n hn => h n (List.mem_cons_of_mem _ hn)
    rw [countNeeds, H.needs_get? (h m List.mem_cons_self)]
    dsimp only
    rw [hrun]
    refine ⟨_, rfl, fun n => ?_⟩
    by_cases hn : n = m
    · simp [hn]
    · simp [hn, hcounts]

theorem Valid.countNeeds_nodes (H : g.Valid) :
    ∃ counts, g.countNeeds g.nodes = .ok counts ∧ g.Counted 0 counts := by
  obtain ⟨counts, hrun, hcounts⟩ := countNeeds_spec H g.nodes fun n => mem_nodes.1
  refine ⟨counts, hrun, fun n => ?_⟩
  have : g.undone 0 n = (g.needsOf n).toList.length := by
    rw [undone, List.countP_eq_length]
    exact fun _ _ => rfl
  rw [hcounts, this]
  simp only [mem_nodes]

end Haybuild.Graph
