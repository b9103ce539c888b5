import Haybuild.Proofs.Graph.Valid
import Mathlib.Logic.Relation

/-!
# Parts of a graph

`Graph.Part g keep g'` says that `g'` is what is left of `g` when only the nodes that satisfy `keep`
stay: their recipes and the edges among them are as they were. Removing a node leaves the part
without it (`Graph.Valid.removeNode_part`), and parts compose, so a graph from which nodes are taken
one after the other is described by one predicate.
-/

namespace Haybuild.Graph
open Relation

/-- The part of `g` on the nodes that satisfy `keep`. -/
structure Part (g : Graph) (keep : Int → Prop) (g' : Graph) : Prop where
  valid : g'.Valid
  recipe?_iff : ∀ n r, g'.recipe? n = some r ↔ g.recipe? n = some r ∧ keep n
  needs_iff : ∀ a b, g'.Needs a b ↔ g.Needs a b ∧ keep a ∧ keep b
  next_eq : g'.next = g.next

/-- A path starts and ends in the graph, unless it is empty. -/
theorem Valid.contains_iff_of_reflTransGen {g : Graph} {a b : Int} (H : g.Valid)
    (h : ReflTransGen g.Needs a b) : g.contains a ↔ g.contains b := by
  induction h with
  | refl => exact Iff.rfl
  | tail _ hbc ih => exact ih.trans (iff_of_true (H.contains_left hbc) (H.contains_right hbc))

namespace Part

variable {g g₁ g₂ : Graph} {p q : Int → Prop} {a b n : Int}

theorem contains_iff (H : g.Part p g₁) : g₁.contains n ↔ g.contains n ∧ p n := by
  simp only [contains, Option.isSome_iff_exists, H.recipe?_iff, exists_and_right]

theorem recipe?_eq (H : g.Part p g₁) (h : g₁.contains n) : g₁.recipe? n = g.recipe? n := by
  obtain ⟨r, hr⟩ := exists_recipe h
  rw [hr, ((H.recipe?_iff n r).1 hr).1]

theorem nameOf_eq (H : g.Part p g₁) (h : g₁.contains n) : g₁.nameOf n = g.nameOf n := by
  rw [nameOf, nameOf, H.recipe?_eq h]

theorem mem_frontier (H : g.Part p g₁) :
    n ∈ g₁.frontier ↔ g.contains n ∧ p n ∧ ∀ b, g.Needs n b → ¬p b := by
  rw [H.valid.mem_frontier, H.contains_iff, and_assoc]
  simp only [H.needs_iff, not_and]
  exact ⟨fun ⟨hn, hp, hb⟩ => ⟨hn, hp, fun b h => hb b h hp⟩,
    fun ⟨hn, hp, hb⟩ => ⟨hn, hp, fun b h _ => hb b h⟩⟩

theorem nodes_eq [DecidablePred p] (H : g.Part p g₁) : g₁.nodes = g.nodes.filter p :=
  g₁.nodes_ascending.eq_of_mem_iff (g.nodes_ascending.filter _) fun n => by
    rw [List.mem_filter, mem_nodes, mem_nodes, H.contains_iff, decide_eq_true_iff]

theorem size_lt (H : g.Part p g₁) (hn : g.contains n) (hp : ¬p n) : g₁.size < g.size := by
  classical
  rw [← length_nodes, ← length_nodes, H.nodes_eq]
  exact List.length_filter_lt_length_iff_exists.2 ⟨n, mem_nodes.2 hn, by simpa using hp⟩

theorem refl (H : g.Valid) : g.Part (fun _ => True) g where
  valid := H
  recipe?_iff := by simp
  needs_iff := by simp
  next_eq := rfl

theorem trans (H₁ : g.Part p g₁) (H₂ : g₁.Part q g₂) : g.Part (fun n => p n ∧ q n) g₂ where
  valid := H₂.valid
  recipe?_iff n r := by rw [H₂.recipe?_iff, H₁.recipe?_iff, and_assoc]
  needs_iff a b := by rw [H₂.needs_iff, H₁.needs_iff]; tauto
  next_eq := H₂.next_eq.trans H₁.next_eq

theorem congr (H : g.Part p g₁) (hg : g.Valid) (h : ∀ n, g.contains n → (p n ↔ q n)) :
    g.Part q g₁ where
  valid := H.valid
  recipe?_iff n r := by
    rw [H.recipe?_iff]
    exact and_congr_right fun hr => h n (contains_of_recipe? hr)
  needs_iff a b := by
    rw [H.needs_iff]
    refine and_congr_right fun hab => ?_
    rw [h a (hg.contains_left hab), h b (hg.contains_right hab)]
  next_eq := H.next_eq

theorem reflTransGen (H : g.Part p g₁) (h : ReflTransGen g₁.Needs a b) :
    ReflTransGen g.Needs a b :=
  ReflTransGen.mono (fun a b hab => ((H.needs_iff a b).1 hab).1) _ _ h

/-- A path is in the part when all nodes on it are. -/
theorem reflTransGen_of_forall (H : g.Part p g₁) (h : ReflTransGen g.Needs a b)
    (hp : ∀ m, ReflTransGen g.Needs a m → ReflTransGen g.Needs m b → p m) :
    ReflTransGen g₁.Needs a b := by
  induction h using ReflTransGen.head_induction_on with
  | refl => exact .refl
  | @head a c hac hcb ih =>
    refine .head ((H.needs_iff a c).2 ⟨hac, hp a .refl (.head hac hcb), hp c (.single hac) hcb⟩) ?_
    exact ih fun m hcm hmb => hp m (.head hac hcm) hmb

end Part

/-! ## Removing a node -/

section
variable {n : Int} {g : Graph}

theorem neededBy_release (ds : List Int) : (release n ds g).2.neededBy = g.neededBy := by
  induction ds generalizing g with
  | nil => rfl
  | cons d ds ih =>
    rw [release]
    split
    · rfl
    · rw [ih]

theorem next_release (ds : List Int) : (release n ds g).2.next = g.next := by
  induction ds generalizing g with
  | nil => rfl
  | cons d ds ih =>
    rw [release]
    split
    · rfl
    · rw [ih]

/-- Releasing dependents that all have an entry goes through. -/
theorem release_spec (ds : List Int) (h : ∀ d ∈ ds, (g.needs.get? d).isSome) :
    (release n ds g).1 = .ok () ∧
    (∀ k, (release n ds g).2.needs.get? k =
      if k ∈ ds then some ((g.needsOf k).erase n) else g.needs.get? k) ∧
    ∀ k, k ∈ (release n ds g).2.ready ↔
      k ∈ g.ready ∨ k ∈ ds ∧ ((g.needsOf k).erase n).isEmpty := by
  induction ds generalizing g with
  | nil => simp [release]
  | cons d ds ih =>
    obtain ⟨needed, hd⟩ := Option.isSome_iff_exists.1 (h d List.mem_cons_self)
    have hneeded : g.needsOf d = needed := by rw [needsOf, hd, Option.getD_some]
    rw [release, hd]
    obtain ⟨hok, hneeds, hready⟩ := ih (g :=
      { g with
        needs := g.needs.set d (needed.erase n)
        ready := if (needed.erase n).isEmpty then g.ready.insert d else g.ready }) <| by
      intro k hk
      by_cases hkd : k = d
      · simp [hkd]
      · simpa [hkd] using h k (List.mem_cons_of_mem _ hk)
    refine ⟨hok, fun k => ?_, fun k => ?_⟩
    · rw [hneeds]
      by_cases hkd : k = d
      · subst hkd
        simp [needsOf, hd]
      · simp [needsOf, hkd]
    · rw [hready]
      by_cases hkd : k = d
      · subst hkd
        cases he : (needed.erase n).isEmpty <;> simp [needsOf, hd, he]
      · cases he : (needed.erase n).isEmpty <;> simp [needsOf, hkd]

theorem needs_forget (ps : List Int) : (forget n ps g).2.needs = g.needs := by
  induction ps generalizing g with
  | nil => rfl
  | cons p ps ih =>
    rw [forget]
    split
    · rfl
    · rw [ih]

theorem ready_forget (ps : List Int) : (forget n ps g).2.ready = g.ready := by
  induction ps generalizing g with
  | nil => rfl
  | cons p ps ih =>
    rw [forget]
    split
    · rfl
    · rw [ih]

theorem next_forget (ps : List Int) : (forget n ps g).2.next = g.next := by
  induction ps generalizing g with
  | nil => rfl
  | cons p ps ih =>
    rw [forget]
    split
    · rfl
    · rw [ih]

/-- Forgetting prerequisites that all have an entry goes through. -/
theorem forget_spec (ps : List Int) (h : ∀ p ∈ ps, (g.neededBy.get? p).isSome) :
    (forget n ps g).1 = .ok () ∧
    ∀ k, (forget n ps g).2.neededBy.get? k =
      if k ∈ ps then some ((g.dependentsOf k).erase n) else g.neededBy.get? k := by
  induction ps generalizing g with
  | nil => simp [forget]
  | cons p ps ih =>
    obtain ⟨dependents, hp⟩ := Option.isSome_iff_exists.1 (h p List.mem_cons_self)
    rw [forget, hp]
    obtain ⟨hok, hby⟩ := ih (g :=
      { g with neededBy := g.neededBy.set p (dependents.erase n) }) <| by
      intro k hk
      by_cases hkp : k = p
      · simp [hkp]
      · simpa [hkp] using h k (List.mem_cons_of_mem _ hk)
    refine ⟨hok, fun k => ?_⟩
    rw [hby]
    by_cases hkp : k = p
    · subst hkp
      simp [dependentsOf, hp]
    · simp [dependentsOf, hkp]

end

theorem removeNode_eq {g g₁ g₂ : Graph} {n : Int} {r : Recipe} {dependents needed : NodeSet}
    (hr : g.recipe? n = some r) (hby : g.neededBy.get? n = some dependents)
    (h₁ : release n dependents.toList
      { g with recipes := g.recipes.erase n, neededBy := g.neededBy.erase n } = (.ok (), g₁))
    (hneeds : g₁.needs.get? n = some needed)
    (h₂ : forget n needed.toList { g₁ with needs := g₁.needs.erase n } = (.ok (), g₂)) :
    g.removeNode n = (.ok r, { g₂ with ready := g₂.ready.erase n }) := by
  rw [recipe?] at hr
  simp only [removeNode, hr, hby, h₁, hneeds, h₂]

/-- A removal between its two walks: the dependents of the node are released. -/
theorem Valid.release_dependents {g : Graph} {n : Int} (H : g.Valid) :
    ∃ g₁, release n (g.dependentsOf n).toList
        { g with recipes := g.recipes.erase n, neededBy := g.neededBy.erase n } = (.ok (), g₁) ∧
      g₁.recipes = g.recipes.erase n ∧ g₁.neededBy = g.neededBy.erase n ∧ g₁.next = g.next ∧
      (∀ k, (g₁.needs.get? k).isSome = g.contains k) ∧
      (∀ a b, b ∈ (g₁.needs.get? a).getD .empty ↔ g.Needs a b ∧ b ≠ n) ∧
      ∀ k, k ∈ g₁.ready ↔ k ∈ g.ready ∨ g.Needs k n ∧ ∀ b, g.Needs k b → b = n := by
  have hmem : ∀ k, k ∈ (g.dependentsOf n).toList ↔ g.Needs k n := fun k => H.mirrored k n
  obtain ⟨hok, hneeds, hready⟩ := release_spec (n := n)
    (g := { g with recipes := g.recipes.erase n, neededBy := g.neededBy.erase n })
    (g.dependentsOf n).toList fun d hd => by
      rw [H.needs_get? (H.contains_left ((hmem d).1 hd))]; rfl
  refine ⟨_, Prod.ext hok rfl, recipes_release .., neededBy_release _, next_release _,
    fun k => ?_, fun a b => ?_, fun k => ?_⟩
  · rw [hneeds]
    split
    · next hk => exact (H.contains_left ((hmem k).1 hk)).symm
    · exact H.needs_keys k
  · rw [hneeds]
    split
    · exact NodeSet.mem_erase
    · next ha =>
      exact ⟨fun hb => ⟨hb, fun hbn => ha ((hmem a).2 (hbn ▸ hb))⟩, fun hb => hb.1⟩
  · rw [hready, hmem, NodeSet.isEmpty_iff]
    simp only [NodeSet.mem_erase, not_and, ne_eq, not_not]
    exact Iff.rfl

/-- The second walk of a removal: what the node needs forgets the node. -/
theorem Valid.forget_needed {g g₁ : Graph} {n : Int} {needed : NodeSet} (H : g.Valid)
    (hby₁ : g₁.neededBy = g.neededBy.erase n)
    (hmem : ∀ k, k ∈ needed.toList ↔ g.Needs n k ∧ k ≠ n) :
    ∃ g₂, forget n needed.toList { g₁ with needs := g₁.needs.erase n } = (.ok (), g₂) ∧
      g₂.recipes = g₁.recipes ∧ g₂.needs = g₁.needs.erase n ∧ g₂.ready = g₁.ready ∧
      g₂.next = g₁.next ∧
      (∀ k, (g₂.neededBy.get? k).isSome = (g.contains k && decide (k ≠ n))) ∧
      ∀ a b, a ∈ g₂.dependentsOf b ↔ g.Needs a b ∧ a ≠ n ∧ b ≠ n := by
  obtain ⟨hok, hby⟩ := forget_spec (n := n) (g := { g₁ with needs := g₁.needs.erase n })
    needed.toList fun p hp => by
      obtain ⟨hp, hpn⟩ := (hmem p).1 hp
      simp only [hby₁, NodeMap.get?_erase_of_ne hpn, H.neededBy_keys, H.contains_right hp]
  have hby₂ : ∀ k,
      (forget n needed.toList { g₁ with needs := g₁.needs.erase n }).2.neededBy.get? k =
        if k = n then none else if k ∈ needed.toList then some ((g.dependentsOf k).erase n)
        else g.neededBy.get? k := fun k => by
    rw [hby, dependentsOf, hby₁]
    by_cases hk : k = n
    · simp [hk, hmem]
    · simp [hk, dependentsOf]
  refine ⟨_, Prod.ext hok rfl, recipes_forget .., needs_forget _, ready_forget _, next_forget _,
    fun k => ?_, fun a b => ?_⟩
  · rw [hby₂, ← H.neededBy_keys]
    by_cases hk : k = n
    · simp [hk]
    · rw [if_neg hk]
      split
      · next hmk => simp [hk, H.neededBy_keys, H.contains_right ((hmem k).1 hmk).1]
      · simp [hk]
  · rw [dependentsOf, hby₂, ← H.mirrored]
    by_cases hb : b = n
    · simp [hb]
    · rw [if_neg hb]
      split
      · simp [hb]
      · next hnb =>
        refine ⟨fun h => ⟨h, fun ha => hnb ((hmem b).2 ⟨?_, hb⟩), hb⟩, fun h => h.1⟩
        exact ha ▸ (H.mirrored a b).1 h

/-- What the removal of a node leaves in each of the maps. -/
structure Removed (g : Graph) (n : Int) (g' : Graph) : Prop where
  recipe? : ∀ k, g'.recipe? k = if k = n then none else g.recipe? k
  needs_keys : ∀ k, (g'.needs.get? k).isSome = (g.contains k && decide (k ≠ n))
  neededBy_keys : ∀ k, (g'.neededBy.get? k).isSome = (g.contains k && decide (k ≠ n))
  needs : ∀ a b, g'.Needs a b ↔ g.Needs a b ∧ a ≠ n ∧ b ≠ n
  dependents : ∀ a b, a ∈ g'.dependentsOf b ↔ g.Needs a b ∧ a ≠ n ∧ b ≠ n
  ready : ∀ k, k ∈ g'.ready ↔ (k ∈ g.ready ∨ g.Needs k n ∧ ∀ b, g.Needs k b → b = n) ∧ k ≠ n
  next : g'.next = g.next

theorem Valid.removeNode_removed {g : Graph} {n : Int} {r : Recipe} (H : g.Valid)
    (hr : g.recipe? n = some r) : ∃ g', g.removeNode n = (.ok r, g') ∧ g.Removed n g' := by
  have hn : g.contains n := contains_of_recipe? hr
  obtain ⟨g₁, h₁, hrec₁, hby₁, hnext₁, hkeys₁, hneeds₁, hready₁⟩ := H.release_dependents (n := n)
  obtain ⟨needed, hneeded⟩ := Option.isSome_iff_exists.1 ((hkeys₁ n).trans hn)
  have hmem : ∀ k, k ∈ needed.toList ↔ g.Needs n k ∧ k ≠ n := fun k => by
    rw [← hneeds₁, hneeded]; rfl
  obtain ⟨g₂, h₂, hrec₂, hneeds₂, hready₂, hnext₂, hkeys₂, hdependents₂⟩ :=
    H.forget_needed hby₁ hmem
  refine ⟨_, removeNode_eq hr (H.neededBy_get? hn) h₁ hneeded h₂, ?_, ?_, hkeys₂, ?_,
    hdependents₂, ?_, hnext₂.trans hnext₁⟩
  · intro k
    rw [recipe?, hrec₂, hrec₁, NodeMap.get?_erase, recipe?]
  · intro k
    rw [hneeds₂, NodeMap.get?_erase, ← hkeys₁]
    by_cases hk : k = n <;> simp [hk]
  · intro a b
    change b ∈ (g₂.needs.get? a).getD .empty ↔ _
    rw [hneeds₂]
    by_cases ha : a = n
    · simp [ha]
    · rw [NodeMap.get?_erase_of_ne ha, hneeds₁]
      simp [ha]
  · intro k
    change k ∈ g₂.ready.erase n ↔ _
    rw [NodeSet.mem_erase, hready₂, hready₁]

theorem Removed.valid {g g' : Graph} {n : Int} (R : g.Removed n g') (H : g.Valid) : g'.Valid := by
  have hcontains : ∀ k, g'.contains k = (g.contains k && decide (k ≠ n)) := fun k => by
    rw [contains, R.recipe?, contains]
    by_cases hk : k = n <;> simp [hk]
  refine ⟨fun k => ?_, fun k => ?_, fun a b => ?_, fun k => ?_, fun k hk => ?_⟩
  · rw [R.needs_keys, hcontains]
  · rw [R.neededBy_keys, hcontains]
  · rw [R.dependents, R.needs]
  · rw [R.ready, H.mem_ready, hcontains]
    simp only [R.needs, Bool.and_eq_true, decide_eq_true_eq]
    constructor
    · rintro ⟨⟨hk, hb⟩ | ⟨hkn, hb⟩, hne⟩
      · exact ⟨⟨hk, hne⟩, fun b h => hb b h.1⟩
      · exact ⟨⟨H.contains_left hkn, hne⟩, fun b h => h.2.2 (hb b h.1)⟩
    · rintro ⟨⟨hk, hne⟩, hb⟩
      refine ⟨?_, hne⟩
      by_cases hkn : g.Needs k n
      · exact .inr ⟨hkn, fun b h => Decidable.not_not.1 fun hbn => hb b ⟨h, hne, hbn⟩⟩
      · exact .inl ⟨hk, fun b h => hb b ⟨h, hne, fun hbn => hkn (hbn ▸ h)⟩⟩
  · rw [hcontains, Bool.and_eq_true] at hk
    exact R.next ▸ H.lt_next k hk.1

/-- A node of a valid graph can be removed, and everything among the other nodes stays. -/
theorem Valid.removeNode_part {g : Graph} {n : Int} {r : Recipe} (H : g.Valid)
    (hr : g.recipe? n = some r) : ∃ g', g.removeNode n = (.ok r, g') ∧ g.Part (· ≠ n) g' := by
  obtain ⟨g', hrun, R⟩ := H.removeNode_removed hr
  refine ⟨g', hrun, R.valid H, fun k r => ?_, R.needs, R.next⟩
  rw [R.recipe?]
  by_cases hk : k = n <;> simp [hk]

/-- A removal that succeeds gives the recipe of the node and leaves the part without it. -/
theorem Valid.part_of_removeNode {g g' : Graph} {n : Int} {r : Recipe} (H : g.Valid)
    (h : g.removeNode n = (.ok r, g')) : g.recipe? n = some r ∧ g.Part (· ≠ n) g' := by
  cases hr : g.recipe? n with
  | none =>
    rw [recipe?] at hr
    simp only [Graph.removeNode, hr] at h
    cases h
  | some r' =>
    obtain ⟨g'', hrun, hpart⟩ := H.removeNode_part hr
    cases hrun.symm.trans h
    exact ⟨rfl, hpart⟩

theorem Valid.removeNode {g g' : Graph} {n : Int} {r : Recipe} (H : g.Valid)
    (h : g.removeNode n = (.ok r, g')) : g'.Valid :=
  (H.part_of_removeNode h).2.valid

theorem Reachable.valid {g : Graph} (h : g.Reachable) : g.Valid := by
  induction h with
  | empty => exact .empty
  | addNode r _ ih => exact ih.addNode r
  | addEdge _ he ih => exact ih.addEdge he
  | removeNode _ hr ih => exact ih.removeNode hr

end Haybuild.Graph
