import Haybuild.Proofs.Graph.Part

/-!
# Calls that fail

A call ends with an error at the first node that it looks up and does not find, and keeps what it
changed before. It changes nothing if that is the first lookup of all, and only then
(`Graph.failed_call_exact`). In a valid graph there is one call that fails later: the one that lets
a node of the graph need a number that is no node (`Request.Dangles`). It notes the need and then
does not find who is needed. As long as no such call was made the graph stays valid, and every other
call that fails leaves it as it is.
-/

namespace Haybuild.Graph

/-- A call that changes a graph, whether it will succeed or not. -/
inductive Request where
  | add (r : Recipe)
  | link (node prerequisite : Int)
  | remove (node : Int)
  deriving Repr, DecidableEq

namespace Request

/-- How the call ends, and the graph that it leaves. -/
def perform : Request → Graph → Outcome Unit
  | add r, g => (.ok (), (g.addNode r).2)
  | link n p, g => g.addEdge n p
  | remove n, g => ((g.removeNode n).1.map fun _ => (), (g.removeNode n).2)

/-- The call finds the first node that it looks up. -/
def Begins (g : Graph) : Request → Prop
  | add _ => True
  | link n _ => (g.needs.get? n).isSome
  | remove n => g.contains n

/-- The call lets a node of the graph need a number that is no node. -/
def Dangles (g : Graph) : Request → Prop
  | link n p => g.contains n ∧ ¬g.contains p
  | _ => False

end Request

instance (g : Graph) : DecidablePred (Request.Dangles g)
  | .link n p => inferInstanceAs (Decidable (g.contains n ∧ ¬g.contains p))
  | .add _ | .remove _ => isFalse id

/-- The graph that calls leave, of which any may fail. -/
def after (g : Graph) : List Request → Graph
  | [] => g
  | c :: cs => after (c.perform g).2 cs

/-- When it is made, none of the calls lets a node need a number that is no node. -/
def Sound (g : Graph) : List Request → Prop
  | [] => True
  | c :: cs => ¬c.Dangles g ∧ Sound (c.perform g).2 cs

instance (g : Graph) (cs : List Request) : Decidable (Sound g cs) :=
  match cs with
  | [] => isTrue trivial
  | c :: cs =>
    have := instDecidableSound (c.perform g).2 cs
    inferInstanceAs (Decidable (¬c.Dangles g ∧ Sound (c.perform g).2 cs))

/-- The graphs have the same nodes, each with the same needs and the same dependents, and the same
frontier. -/
structure SameView (g g' : Graph) : Prop where
  nodes : g'.nodes = g.nodes
  needs : ∀ n, g'.needs.get? n = g.needs.get? n
  neededBy : ∀ n, g'.neededBy.get? n = g.neededBy.get? n
  frontier : g'.frontier = g.frontier

variable {g g' : Graph} {c : Request} {cs : List Request} {n p k : Int}

theorem SameView.refl (g : Graph) : SameView g g := ⟨rfl, fun _ => rfl, fun _ => rfl, rfl⟩

/-! ## How calls fail -/

/-- An edge cannot be added for one of two reasons: its first node is unknown, and then nothing
happens, or its second one is, and then the need has been noted. -/
theorem addEdge_eq_error (h : g.addEdge n p = (.error k, g')) :
    g.needs.get? n = none ∧ k = n ∧ g' = g ∨
      ∃ needed, g.needs.get? n = some needed ∧ p ∉ needed ∧ g.neededBy.get? p = none ∧ k = p ∧
        g' = { g with needs := g.needs.set n (needed.insert p) } := by
  unfold addEdge at h
  split at h
  · next hn =>
    cases h
    exact .inl ⟨hn, rfl, rfl⟩
  · next needed hn =>
    split at h
    · cases h
    · next hp =>
      dsimp only at h
      split at h
      · next hby =>
        cases h
        exact .inr ⟨needed, hn, hp, hby, rfl, rfl⟩
      · cases h

theorem removeNode_of_not_contains (h : ¬g.contains n) : g.removeNode n = (.error n, g) := by
  have hn : g.recipes.get? n = none := Option.not_isSome_iff_eq_none.1 h
  rw [removeNode, hn]

/-- However its removal ends, a node is gone. -/
theorem not_contains_removeNode (g : Graph) (n : Int) : ¬(g.removeNode n).2.contains n := by
  by_cases h : g.contains n
  · obtain ⟨r, hr⟩ := exists_recipe h
    rw [contains, recipe?, recipes_removeNode hr, NodeMap.get?_erase, if_pos rfl]
    decide
  · rwa [removeNode_of_not_contains h]

/-- A call that fails at its first lookup changes nothing. -/
theorem eq_of_not_begins (h : c.perform g = (.error k, g')) (hc : ¬c.Begins g) : g' = g := by
  cases c with
  | add r => exact absurd trivial hc
  | link n p =>
    rcases addEdge_eq_error h with ⟨-, -, hg⟩ | ⟨needed, hn, -⟩
    · exact hg
    · refine absurd ?_ hc
      rw [Request.Begins, hn]
      rfl
  | remove n =>
    rw [Request.perform, removeNode_of_not_contains hc] at h
    cases h
    rfl

/-- A call that fails behind its first lookup has changed what can be seen of the graph. -/
theorem not_sameView_of_begins (h : c.perform g = (.error k, g')) (hc : c.Begins g) :
    ¬SameView g g' := by
  intro H
  cases c with
  | add r => cases h
  | link n p =>
    rcases addEdge_eq_error h with ⟨hn, -⟩ | ⟨needed, hn, hp, -, -, rfl⟩
    · rw [Request.Begins, hn] at hc
      cases hc
    · have hneeds := H.needs n
      rw [NodeMap.get?_set_self, hn] at hneeds
      apply hp
      rw [← Option.some.inj hneeds]
      exact NodeSet.mem_insert.2 (.inl rfl)
  | remove n =>
    obtain rfl : (g.removeNode n).2 = g' := congrArg Prod.snd h
    apply g.not_contains_removeNode n
    rw [← mem_nodes, H.nodes, mem_nodes]
    exact hc

/-! ## Calls on a valid graph -/

/-- On a valid graph, a call that does not dangle leaves a valid graph, also when it fails. -/
theorem Valid.perform (H : g.Valid) (hc : ¬c.Dangles g) : (c.perform g).2.Valid := by
  cases c with
  | add r => exact H.addNode r
  | link n p =>
    by_cases hn : g.contains n
    · have hp : g.contains p := Decidable.not_not.1 fun hp => hc ⟨hn, hp⟩
      rw [Request.perform, H.addEdge_eq hn hp]
      exact H.addEdge (H.addEdge_eq hn hp)
    · have hneeds : g.needs.get? n = none := by
        rw [← Option.not_isSome_iff_eq_none, H.needs_keys]
        exact hn
      rw [Request.perform, Graph.addEdge, hneeds]
      exact H
  | remove n =>
    by_cases hn : g.contains n
    · obtain ⟨r, hr⟩ := exists_recipe hn
      obtain ⟨g', hrun, hpart⟩ := H.removeNode_part hr
      rw [Request.perform, hrun]
      exact hpart.valid
    · rw [Request.perform, removeNode_of_not_contains hn]
      exact H

/-- On a valid graph a call that fails dangles if it gets behind its first lookup. -/
theorem Valid.begins_iff_dangles (H : g.Valid) (h : c.perform g = (.error k, g')) :
    c.Begins g ↔ c.Dangles g := by
  cases c with
  | add r => cases h
  | link n p =>
    rw [Request.Begins, H.needs_keys]
    constructor
    · intro hn
      refine ⟨hn, ?_⟩
      intro hp
      cases (H.addEdge_eq hn hp).symm.trans h
    · exact fun hc => hc.1
  | remove n =>
    refine iff_of_false ?_ id
    intro hn
    obtain ⟨r, hr⟩ := exists_recipe hn
    obtain ⟨g', hrun, -⟩ := H.removeNode_part hr
    rw [Request.perform, hrun] at h
    cases h

/-- Calls of which none dangles leave a valid graph, also when some of them fail. -/
theorem Valid.after (H : g.Valid) (hcs : Sound g cs) : (g.after cs).Valid := by
  induction cs generalizing g with
  | nil => exact H
  | cons c cs ih => exact ih (H.perform hcs.1) hcs.2

/-- After any calls, failed ones included, a call that fails leaves what can be seen of the graph as
it was if and only if it fails at its first lookup, and then it changes nothing at all. As long as
no call has let a node need a number that is no node, this is to say: unless it is such a call
itself. That one is stopped at the number, and the node needs it from then on; nothing else is
changed. -/
theorem failed_call_exact (h : c.perform (empty.after cs) = (.error k, g')) :
    (SameView (empty.after cs) g' ↔ ¬c.Begins (empty.after cs)) ∧
    (SameView (empty.after cs) g' → g' = empty.after cs) ∧
    (Sound empty cs → (SameView (empty.after cs) g' ↔ ¬c.Dangles (empty.after cs)) ∧
      ∀ n p, c = .link n p → c.Dangles (empty.after cs) →
        k = p ∧ g' = { empty.after cs with
          needs := (empty.after cs).needs.set n (((empty.after cs).needsOf n).insert p) }) := by
  have hview : SameView (empty.after cs) g' ↔ ¬c.Begins (empty.after cs) := by
    constructor
    · exact fun H hc => not_sameView_of_begins h hc H
    · intro hc
      rw [eq_of_not_begins h hc]
      exact .refl _
  refine ⟨hview, fun H => eq_of_not_begins h (hview.1 H), ?_⟩
  intro hcs
  have H : (empty.after cs).Valid := Valid.empty.after hcs
  refine ⟨hview.trans (not_congr (H.begins_iff_dangles h)), ?_⟩
  rintro n p rfl ⟨hn, -⟩
  rcases addEdge_eq_error h with ⟨hnone, -⟩ | ⟨needed, hsome, -, -, hk, hg⟩
  · rw [H.needs_get? hn] at hnone
    cases hnone
  · rw [needsOf, hsome]
    exact ⟨hk, hg⟩

/-- Two recipes are added and the first one is removed, and then once more. -/
def removedTwice : List Request :=
  [.add ⟨[['a']], [], []⟩, .add ⟨[['b']], [], []⟩, .remove 0, .remove 0]

/-- The node that is gone cannot be removed, and trying to changes nothing. Nor can the other node
be made to need it, but then trying to leaves a trace. -/
theorem failed_call_exact_removedTwice : Sound empty removedTwice ∧
    (∃ g', (Request.remove 0).perform (empty.after removedTwice) = (.error 0, g') ∧
      SameView (empty.after removedTwice) g') ∧
    ∃ g', (Request.link 1 0).perform (empty.after removedTwice) = (.error 0, g') ∧
      ¬SameView (empty.after removedTwice) g' ∧ g'.Needs 1 0 := by
  have hsound : Sound empty removedTwice := by decide
  have hremove : (Request.remove 0).perform (empty.after removedTwice) = (.error 0, _) := rfl
  have hlink : (Request.link 1 0).perform (empty.after removedTwice) = (.error 0, _) := rfl
  obtain ⟨-, -, hexact⟩ := failed_call_exact hremove
  obtain ⟨-, -, hexact'⟩ := failed_call_exact hlink
  refine ⟨hsound, ⟨_, hremove, ?_⟩, _, hlink, ?_, by decide⟩
  · exact (hexact hsound).1.2 id
  · exact mt (hexact' hsound).1.1 (not_not.2 (by decide))

/-- The one recipe of a graph is made to need a number that is no node. This fails, and yet the node
needs that number afterwards, which nothing is needed by, and is on the frontier all the same. -/
theorem failed_link_noted :
    ∃ g', (Request.link 0 7).perform (empty.after [.add ⟨[['a']], [], []⟩]) = (.error 7, g') ∧
      ¬SameView (empty.after [.add ⟨[['a']], [], []⟩]) g' ∧ g'.Needs 0 7 ∧ 0 ∈ g'.frontier := by
  refine ⟨_, rfl, ?_, by decide, by decide⟩
  intro H
  exact absurd (H.needs 0) (by decide)

end Haybuild.Graph
