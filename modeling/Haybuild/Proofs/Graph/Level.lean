import Haybuild.Proofs.Graph.Part
import Mathlib.Data.Fintype.Card
import Mathlib.Data.Set.Finite.Basic
import Mathlib.Logic.Relation

/-!
# Levels and cycles

`Graph.doneBy g k n` says that node `n` can be done within `k` rounds: all that it needs can be done
within one round less. A node is on level `i`, counted from zero, when it can be done within `i + 1`
rounds and not within `i`. A node that can never be done is one from which a cycle can be reached
(`Graph.Valid.reachesCycle_iff`).
-/

namespace Haybuild.Graph
open Relation

/-- The node can be done within so many rounds. -/
def doneBy (g : Graph) : Nat → Int → Bool
  | 0, _ => false
  | k + 1, n =>
    match g.needs.get? n with
    | none => false
    | some needed => needed.toList.all (g.doneBy k)

/-- The node is on a level, counted from zero. -/
def OnLevel (g : Graph) (i : Nat) (n : Int) : Prop := g.doneBy (i + 1) n ∧ ¬g.doneBy i n

instance (g : Graph) (i : Nat) (n : Int) : Decidable (g.OnLevel i n) :=
  inferInstanceAs (Decidable (_ ∧ _))

/-- The nodes on a level, in ascending order. -/
def level (g : Graph) (i : Nat) : List Int := g.nodes.filter (g.OnLevel i)

/-- From the node a cycle can be reached along needs. -/
def ReachesCycle (g : Graph) (n : Int) : Prop :=
  ∃ c, ReflTransGen g.Needs n c ∧ TransGen g.Needs c c

/-- No node needs itself, however indirectly. -/
def Acyclic (g : Graph) : Prop := ∀ n, ¬TransGen g.Needs n n

variable {g : Graph} {a b n : Int} {i j k l : Nat}

@[simp] theorem not_doneBy_zero : ¬g.doneBy 0 n := Bool.false_ne_true

theorem level_ascending (g : Graph) (i : Nat) : (g.level i).Pairwise (· < ·) :=
  g.nodes_ascending.filter _

theorem exists_onLevel (h : g.doneBy k n) : ∃ i < k, g.OnLevel i n := by
  induction k with
  | zero => exact absurd h not_doneBy_zero
  | succ k ih =>
    by_cases hk : g.doneBy k n
    · obtain ⟨i, hi, hn⟩ := ih hk
      exact ⟨i, Nat.lt_succ_of_lt hi, hn⟩
    · exact ⟨k, Nat.lt_succ_self k, h, hk⟩

namespace Valid

theorem doneBy_succ (H : g.Valid) :
    g.doneBy (k + 1) n ↔ g.contains n ∧ ∀ b, g.Needs n b → g.doneBy k b := by
  rw [doneBy, ← H.needs_keys]
  simp only [Needs, needsOf]
  cases g.needs.get? n with
  | none => simp
  | some needed => simp [NodeSet.mem_def]

theorem contains_of_doneBy (H : g.Valid) (h : g.doneBy k n) : g.contains n := by
  cases k with
  | zero => exact absurd h not_doneBy_zero
  | succ k => exact (H.doneBy_succ.1 h).1

theorem doneBy_succ_of_doneBy (H : g.Valid) (h : g.doneBy k n) : g.doneBy (k + 1) n := by
  induction k generalizing n with
  | zero => exact absurd h not_doneBy_zero
  | succ k ih =>
    obtain ⟨hn, hb⟩ := H.doneBy_succ.1 h
    exact H.doneBy_succ.2 ⟨hn, fun b hnb => ih (hb b hnb)⟩

theorem doneBy_mono (H : g.Valid) (hkl : k ≤ l) (h : g.doneBy k n) : g.doneBy l n := by
  induction hkl with
  | refl => exact h
  | step _ ih => exact H.doneBy_succ_of_doneBy ih

theorem mem_level (H : g.Valid) : n ∈ g.level i ↔ g.OnLevel i n := by
  rw [level, List.mem_filter, decide_eq_true_eq, mem_nodes]
  exact and_iff_right_of_imp fun h => H.contains_of_doneBy h.1

/-- One more round does the nodes of one more level. -/
theorem countP_doneBy_succ (H : g.Valid) (k : Nat) (ns : List Int) :
    ns.countP (fun n => g.doneBy (k + 1) n) =
      ns.countP (fun n => g.doneBy k n) + ns.countP (fun n => g.OnLevel k n) := by
  induction ns with
  | nil => rfl
  | cons n ns ih =>
    have hmono := H.doneBy_succ_of_doneBy (k := k) (n := n)
    simp only [List.countP_cons, decide_eq_true_eq, ih]
    by_cases hk : g.doneBy k n
    · simp [OnLevel, hk, hmono hk]
      omega
    · by_cases hk' : g.doneBy (k + 1) n
      · simp [OnLevel, hk, hk']
        omega
      · simp [OnLevel, hk, hk']

/-! ## Levels -/

theorem lt_of_onLevel_of_doneBy (H : g.Valid) (hi : g.OnLevel i n) (hk : g.doneBy k n) : i < k :=
  Nat.lt_of_not_le fun hki => hi.2 (H.doneBy_mono hki hk)

theorem onLevel_unique (H : g.Valid) (hi : g.OnLevel i n) (hj : g.OnLevel j n) : i = j :=
  Nat.le_antisymm (Nat.le_of_lt_succ (H.lt_of_onLevel_of_doneBy hi hj.1))
    (Nat.le_of_lt_succ (H.lt_of_onLevel_of_doneBy hj hi.1))

/-- What a node needs is on a lower level. -/
theorem onLevel_needs (H : g.Valid) (h : g.OnLevel i a) (hab : g.Needs a b) :
    ∃ j < i, g.OnLevel j b :=
  exists_onLevel ((H.doneBy_succ.1 h.1).2 b hab)

/-- A node above the lowest level needs one on the level just below its own. -/
theorem exists_needs_onLevel (H : g.Valid) (h : g.OnLevel (i + 1) n) :
    ∃ b, g.Needs n b ∧ g.OnLevel i b := by
  obtain ⟨hdone, hnot⟩ := h
  obtain ⟨hn, hb⟩ := H.doneBy_succ.1 hdone
  have : ¬∀ b, g.Needs n b → g.doneBy i b := fun h => hnot (H.doneBy_succ.2 ⟨hn, h⟩)
  simp only [not_forall] at this
  obtain ⟨b, hnb, hbi⟩ := this
  exact ⟨b, hnb, hb b hnb, hbi⟩

theorem doneBy_of_transGen (H : g.Valid) (h : TransGen g.Needs a b) (ha : g.doneBy (k + 1) a) :
    g.doneBy k b := by
  induction h with
  | single hab => exact (H.doneBy_succ.1 ha).2 _ hab
  | tail _ hbc ih => exact (H.doneBy_succ.1 (H.doneBy_succ_of_doneBy ih)).2 _ hbc

/-! ## Cycles -/

theorem not_doneBy_of_transGen_self (H : g.Valid) (h : TransGen g.Needs n n) : ¬g.doneBy k n := by
  induction k with
  | zero => exact not_doneBy_zero
  | succ k ih => exact fun hk => ih (H.doneBy_of_transGen h hk)

theorem not_doneBy_of_reachesCycle (H : g.Valid) (h : g.ReachesCycle n) : ¬g.doneBy k n := by
  obtain ⟨c, hnc, hcc⟩ := h
  rcases reflTransGen_iff_eq_or_transGen.1 hnc with rfl | hnc
  · exact H.not_doneBy_of_transGen_self hcc
  · exact fun hk => H.not_doneBy_of_transGen_self hcc
      (H.doneBy_of_transGen hnc (H.doneBy_succ_of_doneBy hk))

theorem exists_doneBy_forall (H : g.Valid) (ns : List Int) (h : ∀ n ∈ ns, ∃ k, g.doneBy k n) :
    ∃ k, ∀ n ∈ ns, g.doneBy k n := by
  induction ns with
  | nil => exact ⟨0, by simp⟩
  | cons n ns ih =>
    obtain ⟨k, hk⟩ := h n List.mem_cons_self
    obtain ⟨l, hl⟩ := ih fun m hm => h m (List.mem_cons_of_mem _ hm)
    refine ⟨max k l, fun m hm => ?_⟩
    rcases List.mem_cons.1 hm with rfl | hm
    · exact H.doneBy_mono (Nat.le_max_left ..) hk
    · exact H.doneBy_mono (Nat.le_max_right ..) (hl m hm)

/-- On the nodes that can be reached from one that reaches no cycle, needing is well-founded,
because they are finitely many. -/
theorem exists_doneBy (H : g.Valid) (hn : g.contains n) (hc : ¬g.ReachesCycle n) :
    ∃ k, g.doneBy k n := by
  let S := { m : Int // g.contains m ∧ ReflTransGen g.Needs n m }
  have : Finite S := Finite.of_injective (β := { m : Int // m ∈ g.nodes })
    (fun m => ⟨m.1, mem_nodes.2 m.2.1⟩) fun a b h => Subtype.ext (congrArg (·.1) h)
  have : IsTrans S fun b a => TransGen g.Needs a.1 b.1 := ⟨fun _ _ _ hab hbc => hbc.trans hab⟩
  have : Std.Irrefl fun b a : S => TransGen g.Needs a.1 b.1 :=
    ⟨fun a haa => hc ⟨a.1, a.2.2, haa⟩⟩
  have hwf := Finite.wellFounded_of_trans_of_irrefl fun b a : S => TransGen g.Needs a.1 b.1
  suffices hall : ∀ m : S, ∃ k, g.doneBy k m.1 from hall ⟨n, hn, .refl⟩
  intro m
  induction m using hwf.induction with
  | _ m ih =>
    obtain ⟨k, hk⟩ := H.exists_doneBy_forall (g.needsOf m.1).toList fun b hb =>
      ih ⟨b, H.contains_right hb, m.2.2.tail hb⟩ (.single hb)
    exact ⟨k + 1, H.doneBy_succ.2 ⟨m.2.1, fun b hb => hk b hb⟩⟩

/-- A node reaches a cycle exactly when it can never be done. -/
theorem reachesCycle_iff (H : g.Valid) (hn : g.contains n) :
    g.ReachesCycle n ↔ ∀ k, ¬g.doneBy k n := by
  refine ⟨fun h k => H.not_doneBy_of_reachesCycle h, fun h => ?_⟩
  by_contra hc
  obtain ⟨k, hk⟩ := H.exists_doneBy hn hc
  exact h k hk

theorem acyclic_iff (H : g.Valid) : g.Acyclic ↔ ∀ n, g.contains n → ∃ k, g.doneBy k n := by
  constructor
  · exact fun h n hn => H.exists_doneBy hn fun ⟨c, _, hcc⟩ => h c hcc
  · intro h n hnn
    obtain ⟨b, hnb, _⟩ := TransGen.head'_iff.1 hnn
    obtain ⟨k, hk⟩ := h n (H.contains_left hnb)
    exact H.not_doneBy_of_transGen_self hnn hk

end Valid

/-- A part with a node that can be done in the whole graph has a frontier. -/
theorem Part.frontier_ne_nil {p : Int → Prop} {g₁ : Graph} (hpart : g.Part p g₁) (H : g.Valid)
    (hn : g₁.contains n) (h : g.doneBy k n) : g₁.frontier ≠ [] := by
  induction k generalizing n with
  | zero => exact absurd h not_doneBy_zero
  | succ k ih =>
    by_cases hmem : n ∈ g₁.frontier
    · exact List.ne_nil_of_mem hmem
    · obtain ⟨hc, hp⟩ := hpart.contains_iff.1 hn
      simp only [hpart.mem_frontier, not_and, not_forall, not_not] at hmem
      obtain ⟨b, hnb, hb⟩ := hmem hc hp
      exact ih (hpart.contains_iff.2 ⟨H.contains_right hnb, hb⟩) ((H.doneBy_succ.1 h).2 b hnb)

end Haybuild.Graph
