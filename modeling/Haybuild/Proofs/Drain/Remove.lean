import Haybuild.Graph.Drain
import Haybuild.Proofs.Graph.Part
import Haybuild.Proofs.NameMap

/-!
# Removing and dropping nodes in a run

Between two rounds the nodes that are done are removed, and each failed node is dropped with all
that needs it. `dropAll_spec` says which nodes that are: those from which a node on the stack can be
reached along needs. `Fills` is what dropping does to the results: a label that had none may get
`skipped`, and each label of a dropped node has one afterwards.
-/

namespace Haybuild.Drain
open Relation

variable {σ : Type} {d d₁ d₂ d₃ : Drain σ} {label : Int → Text} {n : Int} {p q : Int → Prop}
  {m₁ m₂ m₃ : NameMap Status}

/-- The labels of the nodes that satisfy `p` got results unless they had them. -/
structure Fills (label : Int → Text) (p : Int → Prop) (m₁ m₂ : NameMap Status) : Prop where
  get? : ∀ t, m₂.get? t = m₁.get? t ∨
    m₁.get? t = none ∧ m₂.get? t = some .skipped ∧ ∃ n, p n ∧ label n = t
  isSome : ∀ n, p n → (m₂.get? (label n)).isSome

namespace Fills

theorem refl (m : NameMap Status) : Fills label (fun _ => False) m m :=
  ⟨fun _ => .inl rfl, fun _ h => h.elim⟩

/-- A label keeps the result that it has. -/
theorem get?_of_isSome (F : Fills label p m₁ m₂) {t : Text} (h : (m₁.get? t).isSome) :
    m₂.get? t = m₁.get? t := by
  rcases F.get? t with heq | ⟨hnone, -⟩
  · exact heq
  · simp [hnone] at h

theorem trans (F₁ : Fills label p m₁ m₂) (F₂ : Fills label q m₂ m₃) :
    Fills label (fun n => p n ∨ q n) m₁ m₃ where
  get? t := by
    rcases F₂.get? t with h₂ | ⟨hnone, hskip, n, hn, hlabel⟩
    · rw [h₂]
      rcases F₁.get? t with h₁ | ⟨hnone, hskip, n, hn, hlabel⟩
      · exact .inl h₁
      · exact .inr ⟨hnone, hskip, n, .inl hn, hlabel⟩
    · rcases F₁.get? t with h₁ | ⟨-, hsome, -⟩
      · exact .inr ⟨h₁ ▸ hnone, hskip, n, .inr hn, hlabel⟩
      · simp [hnone] at hsome
  isSome n h := by
    rcases h with h | h
    · rw [F₂.get?_of_isSome (F₁.isSome n h)]
      exact F₁.isSome n h
    · exact F₂.isSome n h

theorem congr (F : Fills label p m₁ m₂) (h : ∀ n, p n ↔ q n) : Fills label q m₁ m₂ := by
  rwa [← funext fun n => propext (h n)]

theorem setDefault (m : NameMap Status) (n : Int) :
    Fills label (· = n) m (m.setDefault (label n) .skipped) where
  get? t := by
    rw [NameMap.get?_setDefault]
    cases h : m.get? t with
    | some st => exact .inl rfl
    | none =>
      split
      · next ht => exact .inr ⟨rfl, rfl, n, rfl, ht.symm⟩
      · exact .inl rfl
  isSome k hk := by simp [hk]

end Fills

/-- A node that `d₁` holds and `d₂` does not. -/
def Gone (d₁ d₂ : Drain σ) (n : Int) : Prop := d₁.graph.contains n ∧ ¬d₂.graph.contains n

/-- From `d₁` to `d₂` nodes went away, and their labels got results unless they had them. -/
structure Skips (label : Int → Text) (d₁ d₂ : Drain σ) : Prop where
  frame : d₂ = { d₁ with graph := d₂.graph, results := d₂.results }
  contains : ∀ n, d₂.graph.contains n → d₁.graph.contains n
  fills : Fills label (Gone d₁ d₂) d₁.results d₂.results

theorem Skips.refl (d : Drain σ) : Skips label d d :=
  ⟨rfl, fun _ h => h, (Fills.refl _).congr fun _ => iff_of_false id fun h => h.2 h.1⟩

theorem Skips.trans (S₁ : Skips label d₁ d₂) (S₂ : Skips label d₂ d₃) : Skips label d₁ d₃ where
  frame := S₂.frame.trans (by rw [S₁.frame])
  contains n h := S₁.contains n (S₂.contains n h)
  fills := (S₁.fills.trans S₂.fills).congr fun n => by
    have h₂ := S₁.contains n
    have h₃ := S₂.contains n
    simp only [Gone]
    tauto

/-! ## Removing nodes -/

/-- Nodes of a valid graph can be removed one after the other. -/
theorem removeAll_spec (ns : List Int) (d : Drain σ) (H : d.graph.Valid) (hnd : ns.Nodup)
    (h : ∀ n ∈ ns, d.graph.contains n) :
    ∃ g, removeAll ns d = (none, { d with graph := g }) ∧ d.graph.Part (· ∉ ns) g := by
  induction ns generalizing d with
  | nil => exact ⟨d.graph, rfl, (Graph.Part.refl H).congr H (by simp)⟩
  | cons n ns ih =>
    obtain ⟨hn, hnd⟩ := List.nodup_cons.1 hnd
    obtain ⟨r, hr⟩ := Graph.exists_recipe (h n List.mem_cons_self)
    obtain ⟨g₁, hrun, hpart⟩ := H.removeNode_part hr
    obtain ⟨g₂, hrest, hpart'⟩ := ih { d with graph := g₁ } hpart.valid hnd fun m hm =>
      hpart.contains_iff.2 ⟨h m (List.mem_cons_of_mem _ hm), fun hmn => hn (hmn ▸ hm)⟩
    refine ⟨g₂, ?_, (hpart.trans hpart').congr H fun m _ => ?_⟩
    · rw [removeAll, hrun]
      exact hrest
    · rw [List.mem_cons, not_or]

/-! ## Dropping nodes -/

/-- What reaches the node that is dropped or the rest of the stack is, in the graph without that
node, what reaches one of its dependents or the rest of the stack. -/
theorem reaches_dependents {g g₁ : Graph} {m : Int} {stack : List Int} (H : g.Valid)
    (hpart : g.Part (· ≠ n) g₁) (hm : m ≠ n) :
    (∃ s ∈ n :: stack, ReflTransGen g.Needs m s) ↔
      ∃ s ∈ (g.dependentsOf n).toList.reverse ++ stack, ReflTransGen g₁.Needs m s := by
  simp only [List.mem_append, List.mem_reverse, List.mem_cons]
  constructor
  · rintro ⟨s, hs, hms⟩
    induction hms using ReflTransGen.head_induction_on with
    | refl => exact ⟨s, .inr (hs.resolve_left hm), .refl⟩
    | @head a b hab _ ih =>
      by_cases hb : b = n
      · exact ⟨a, .inl ((H.mirrored a n).2 (hb ▸ hab)), .refl⟩
      · obtain ⟨s', hs', hbs⟩ := ih hb
        exact ⟨s', hs', .head ((hpart.needs_iff a b).2 ⟨hab, hm, hb⟩) hbs⟩
  · rintro ⟨s, hs, hms⟩
    have hms' := hpart.reflTransGen hms
    rcases hs with hs | hs
    · exact ⟨n, .inl rfl, hms'.tail ((H.mirrored s n).1 hs)⟩
    · exact ⟨s, .inr hs, hms'⟩

theorem skips_skip {g : Graph} (hn : d.graph.contains n) (hpart : d.graph.Part (· ≠ n) g) :
    Skips label d (Drain.skip { d with graph := g } (label n)) where
  frame := rfl
  contains _ h := (hpart.contains_iff.1 h).1
  fills := (Fills.setDefault _ n).congr fun m => by
    simp only [Gone, skip, hpart.contains_iff, not_and, not_not]
    exact ⟨fun h => ⟨h ▸ hn, fun _ => h⟩, fun h => h.2 h.1⟩

/-- Dropping a stack of nodes takes away exactly the nodes that need one of them, however
indirectly, and the nodes themselves. -/
theorem dropAll_spec (label : Int → Text) (stack : List Int) (d : Drain σ) (H : d.graph.Valid) :
    ∃ d', dropAll label stack d = (none, d') ∧ Skips label d d' ∧
      d.graph.Part (fun m => ¬∃ s ∈ stack, ReflTransGen d.graph.Needs m s) d'.graph := by
  fun_induction dropAll label stack d with
  | case1 d => exact ⟨d, rfl, .refl d, (Graph.Part.refl H).congr H (by simp)⟩
  | case2 d n rest h hby => simp [H.neededBy_get? h] at hby
  | case3 d n rest h _ _ _ missing g hr =>
    obtain ⟨r, hr'⟩ := Graph.exists_recipe h
    obtain ⟨g', hrun, -⟩ := H.removeNode_part hr'
    cases hr.symm.trans hrun
  | case4 d n rest h dependents hby _ r g hr _ ih =>
    obtain ⟨r', hr'⟩ := Graph.exists_recipe h
    obtain ⟨g', hrun, hpart⟩ := H.removeNode_part hr'
    cases hr.symm.trans hrun
    cases hby.symm.trans (H.neededBy_get? h)
    obtain ⟨d', hrest, hskips, hpart'⟩ := ih hpart.valid
    refine ⟨d', hrest, (skips_skip h hpart).trans hskips, (hpart.trans hpart').congr H ?_⟩
    intro m hm
    by_cases hmn : m = n
    · subst hmn
      exact iff_of_false (fun hne => hne.1 rfl) fun hnot => hnot ⟨m, List.mem_cons_self, .refl⟩
    · rw [reaches_dependents H hpart hmn]
      exact and_iff_right hmn
  | case5 d n rest h ih =>
    obtain ⟨d', hrun, hskips, hpart⟩ := ih H
    refine ⟨d', hrun, hskips, hpart.congr H fun m hm => ?_⟩
    have hmn : ¬ReflTransGen d.graph.Needs m n := fun hmn =>
      h ((H.contains_iff_of_reflTransGen hmn).1 hm)
    simp [hmn]

/-- Failed nodes are dropped together with all that needs them. -/
theorem dropFailed_spec (label : Int → Text) (ns : List Int) (d : Drain σ) (H : d.graph.Valid) :
    ∃ d', dropFailed label ns d = (none, d') ∧ Skips label d d' ∧
      d.graph.Part (fun m => ∀ n ∈ ns, ¬ReflTransGen d.graph.Needs m n) d'.graph := by
  induction ns generalizing d with
  | nil => exact ⟨d, rfl, .refl d, (Graph.Part.refl H).congr H (by simp)⟩
  | cons n ns ih =>
    obtain ⟨d₁, hrun, hskips, hpart⟩ := dropAll_spec label [n] d H
    obtain ⟨d₂, hrest, hskips', hpart'⟩ := ih d₁ hpart.valid
    refine ⟨d₂, by rw [dropFailed, hrun]; exact hrest, hskips.trans hskips',
      (hpart.trans hpart').congr H fun m _ => ?_⟩
    have hone : (∃ s ∈ [n], ReflTransGen d.graph.Needs m s) ↔ ReflTransGen d.graph.Needs m n := by
      simp
    rw [hone, List.forall_mem_cons]
    refine and_congr_right fun hmn => forall₂_congr fun s _ => not_congr ⟨hpart.reflTransGen, ?_⟩
    refine fun h => hpart.reflTransGen_of_forall h fun b hmb _ => ?_
    simpa using fun hbn => hmn (hmb.trans hbn)

theorem foldl_skip (label : Int → Text) (ns : List Int) (d : Drain σ) :
    ∃ m, ns.foldl (fun d n => d.skip (label n)) d = { d with results := m } ∧
      Fills label (· ∈ ns) d.results m := by
  induction ns generalizing d with
  | nil => exact ⟨d.results, rfl, (Fills.refl _).congr fun _ => by simp⟩
  | cons n ns ih =>
    obtain ⟨m, hrun, hfills⟩ := ih (d.skip (label n))
    exact ⟨m, hrun, ((Fills.setDefault _ n).trans hfills).congr fun k => List.mem_cons.symm⟩

/-- Every node that is left becomes skipped, unless its label has a result. -/
theorem skipAll_spec (label : Int → Text) (d : Drain σ) :
    ∃ m, skipAll label d = { d with results := m } ∧
      Fills label (d.graph.contains ·) d.results m := by
  obtain ⟨m, hrun, hfills⟩ := foldl_skip label d.graph.nodes d
  exact ⟨m, hrun, hfills.congr fun n => Graph.mem_nodes⟩

end Haybuild.Drain
