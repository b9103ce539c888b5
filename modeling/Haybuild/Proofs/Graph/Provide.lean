import Haybuild.Proofs.Graph.Build
import Haybuild.Proofs.NameMap

/-!
# What a built graph is

Building first adds a node for each recipe and notes which nodes provide a target (`Indexed`), and
then joins each node to the providers of its prerequisites. Adding edges changes nothing but the
needs (`Joined`), and while every name is satisfied no step fails (`connect_append`,
`connectAll_append`). So a build ends at the first name that is neither a target nor a file, or with
the graph in which a recipe needs those that build one of its prerequisites: `build_exact`.
-/

namespace Haybuild.Graph

/-- Some recipe builds the name, or it is a file. -/
def Satisfied (exists_ : Text → Bool) (rs : List Recipe) (p : Text) : Prop :=
  (∃ r ∈ rs, p ∈ r.targets) ∨ exists_ p

instance (exists_ : Text → Bool) (rs : List Recipe) (p : Text) :
    Decidable (Satisfied exists_ rs p) :=
  inferInstanceAs (Decidable (_ ∨ _))

/-- The nodes that provide a target. -/
def Providers.of (m : Providers) (t : Text) : List Int := (m.get? t).getD []

variable {exists_ : Text → Bool} {rs : List Recipe} {g g₁ g₂ : Graph} {m : Providers} {n k : Int}
  {t : Text} {E F : Int → Int → Prop}

/-! ## Noting providers -/

theorem get?_provide {u : Text} :
    (provide n m u).get? t = if t = u then some (m.of u ++ [n]) else m.get? t :=
  NameMap.get?_set

theorem mem_of_provide {u : Text} :
    k ∈ (provide n m u).of t ↔ k ∈ m.of t ∨ k = n ∧ t = u := by
  rw [Providers.of, get?_provide]
  split
  · next h => simp [h]
  · next h => simp [h, Providers.of]

theorem mem_of_foldl_provide (us : List Text) :
    k ∈ (us.foldl (provide n) m).of t ↔ k ∈ m.of t ∨ k = n ∧ t ∈ us := by
  induction us generalizing m with
  | nil => simp
  | cons u us ih =>
    rw [List.foldl_cons, ih, mem_of_provide, List.mem_cons]
    tauto

theorem isSome_foldl_provide (us : List Text) :
    ((us.foldl (provide n) m).get? t).isSome ↔ (m.get? t).isSome ∨ t ∈ us := by
  induction us generalizing m with
  | nil => simp
  | cons u us ih =>
    rw [List.foldl_cons, ih, get?_provide, List.mem_cons]
    by_cases h : t = u <;> simp [h]

/-- A graph with a node for each recipe and no edges, and the providers of its targets. -/
structure Indexed (rs : List Recipe) (g : Graph) (m : Providers) : Prop where
  valid : g.Valid
  next_eq : g.next = rs.length
  recipe?_iff : ∀ n r, g.recipe? n = some r ↔ ∃ i : Nat, n = i ∧ rs[i]? = some r
  not_needs : ∀ a b, ¬g.Needs a b
  mem_of : ∀ t n, n ∈ m.of t ↔ ∃ r, g.recipe? n = some r ∧ t ∈ r.targets
  isSome : ∀ t, (m.get? t).isSome ↔ ∃ r ∈ rs, t ∈ r.targets

namespace Indexed

theorem empty : Indexed [] .empty .empty where
  valid := .empty
  next_eq := rfl
  recipe?_iff _ _ := by simp [recipe?, Graph.empty]
  not_needs _ _ := by simp [Needs, needsOf, Graph.empty]
  mem_of _ _ := by simp [Providers.of, recipe?, Graph.empty]
  isSome _ := by simp

theorem addNode (I : Indexed rs g m) (r : Recipe) :
    Indexed (rs ++ [r]) (g.addNode r).2 (r.targets.foldl (provide g.next) m) where
  valid := I.valid.addNode r
  next_eq := by
    rw [List.length_append, List.length_singleton, Int.natCast_add, ← I.next_eq]
    rfl
  recipe?_iff n r' := by
    rw [recipe?_addNode, I.next_eq]
    by_cases hn : n = rs.length
    · rw [if_pos hn]
      constructor
      · rintro ⟨⟩
        exact ⟨rs.length, hn, List.getElem?_concat_length⟩
      · rintro ⟨i, rfl, hi⟩
        obtain rfl := Int.ofNat_inj.1 hn
        rwa [List.getElem?_concat_length] at hi
    · rw [if_neg hn, I.recipe?_iff]
      refine exists_congr fun i => and_congr_right fun hi => ?_
      have hne : i ≠ rs.length := fun h => hn (by rw [hi, h])
      rw [List.getElem?_append]
      split
      · rfl
      · have : rs.length < i := by omega
        rw [List.getElem?_eq_none (by omega), List.getElem?_eq_none (by simp; omega)]
  not_needs a b h := I.not_needs a b ((I.valid.needs_addNode r).1 h)
  mem_of t n := by
    rw [mem_of_foldl_provide, I.mem_of, recipe?_addNode]
    by_cases hn : n = g.next
    · have hnone : g.recipe? n = none := by
        rw [← Option.not_isSome_iff_eq_none, hn]
        exact I.valid.not_contains_next
      simp [hn, hn ▸ hnone]
    · simp [hn]
  isSome t := by
    rw [isSome_foldl_provide, I.isSome]
    simp only [List.mem_append, List.mem_singleton, or_and_right, exists_or, exists_eq_left]

theorem addRecipes (I : Indexed rs g m) (rest : List Recipe) :
    Indexed (rs ++ rest) (Graph.addRecipes rest g m).1 (Graph.addRecipes rest g m).2 := by
  induction rest generalizing rs g m with
  | nil => rwa [List.append_nil]
  | cons r rest ih =>
    rw [List.append_cons]
    exact ih (I.addNode r)

theorem contains_iff (I : Indexed rs g m) : g.contains n ↔ ∃ i : Nat, n = i ∧ i < rs.length := by
  rw [contains, Option.isSome_iff_exists]
  simp only [I.recipe?_iff]
  constructor
  · rintro ⟨r, i, hi, hr⟩
    exact ⟨i, hi, (List.getElem?_eq_some_iff.1 hr).1⟩
  · rintro ⟨i, hi, hlt⟩
    exact ⟨rs[i], i, hi, List.getElem?_eq_getElem hlt⟩

theorem contains_of_mem_of (I : Indexed rs g m) (h : n ∈ m.of t) : g.contains n := by
  obtain ⟨r, hr, -⟩ := (I.mem_of t n).1 h
  exact contains_of_recipe? hr

end Indexed

/-! ## Adding edges -/

/-- `g₁` is `g` with the edges `E` added. -/
structure Joined (g : Graph) (E : Int → Int → Prop) (g₁ : Graph) : Prop where
  valid : g₁.Valid
  recipes_eq : g₁.recipes = g.recipes
  needs_iff : ∀ a b, g₁.Needs a b ↔ g.Needs a b ∨ E a b

namespace Joined

theorem refl (H : g.Valid) : Joined g (fun _ _ => False) g :=
  ⟨H, rfl, fun _ _ => by simp⟩

theorem trans (J : Joined g E g₁) (K : Joined g₁ F g₂) :
    Joined g (fun a b => E a b ∨ F a b) g₂ where
  valid := K.valid
  recipes_eq := K.recipes_eq.trans J.recipes_eq
  needs_iff a b := by rw [K.needs_iff, J.needs_iff, or_assoc]

theorem congr (J : Joined g E g₁) (h : ∀ a b, E a b ↔ F a b) : Joined g F g₁ where
  valid := J.valid
  recipes_eq := J.recipes_eq
  needs_iff a b := by rw [J.needs_iff, h]

theorem recipe?_eq (J : Joined g E g₁) (n : Int) : g₁.recipe? n = g.recipe? n := by
  rw [recipe?, J.recipes_eq]; rfl

theorem contains_eq (J : Joined g E g₁) (n : Int) : g₁.contains n = g.contains n := by
  rw [contains, J.recipe?_eq]; rfl

end Joined

theorem Valid.addEdge_joined {p : Int} (H : g.Valid) (hn : g.contains n) (hp : g.contains p) :
    ∃ g₁, g.addEdge n p = (.ok (), g₁) ∧ Joined g (fun a b => a = n ∧ b = p) g₁ := by
  have h := H.addEdge_eq hn hp
  exact ⟨_, h, H.addEdge h, H.recipes_addEdge h, fun a b => H.needs_addEdge h⟩

theorem Valid.addEdges_joined {ps : List Int} (H : g.Valid) (hn : g.contains n)
    (hps : ∀ p ∈ ps, g.contains p) :
    ∃ g₁, addEdges n ps g = .ok g₁ ∧ Joined g (fun a b => a = n ∧ b ∈ ps) g₁ := by
  induction ps generalizing g with
  | nil => exact ⟨g, rfl, (Joined.refl H).congr fun a b => by simp⟩
  | cons p ps ih =>
    obtain ⟨g₁, h₁, J₁⟩ := H.addEdge_joined hn (hps p List.mem_cons_self)
    obtain ⟨g₂, h₂, J₂⟩ := ih J₁.valid ((J₁.contains_eq n).trans hn) fun q hq =>
      (J₁.contains_eq q).trans (hps q (List.mem_cons_of_mem _ hq))
    refine ⟨g₂, by rw [addEdges, h₁]; exact h₂, (J₁.trans J₂).congr fun a b => ?_⟩
    rw [List.mem_cons, and_or_left]

/-! ## Connecting nodes -/

/-- Satisfied names only add edges. -/
theorem connect_append {before : List Text} (H : g.Valid) (hn : g.contains n)
    (hm : ∀ t k, k ∈ m.of t → g.contains k)
    (hbefore : ∀ p ∈ before, (m.get? p).isSome ∨ exists_ p) :
    ∃ g₁, Joined g (fun a b => a = n ∧ ∃ p ∈ before, b ∈ m.of p) g₁ ∧ ∀ name rest,
      connect exists_ m n name (before ++ rest) g = connect exists_ m n name rest g₁ := by
  induction before generalizing g with
  | nil => exact ⟨g, (Joined.refl H).congr fun a b => by simp, fun _ _ => rfl⟩
  | cons p before ih =>
    obtain ⟨g₁, J₁, h₁⟩ : ∃ g₁, Joined g (fun a b => a = n ∧ b ∈ m.of p) g₁ ∧ ∀ name rest,
        connect exists_ m n name (p :: rest) g = connect exists_ m n name rest g₁ := by
      cases hp : m.get? p with
      | some ns =>
        have hof : m.of p = ns := by rw [Providers.of, hp, Option.getD_some]
        obtain ⟨g₁, h₁, J₁⟩ := H.addEdges_joined hn fun k hk => hm p k (hof ▸ hk)
        exact ⟨g₁, hof ▸ J₁, fun name rest => by simp only [connect, hp, h₁]⟩
      | none =>
        have hof : m.of p = [] := by rw [Providers.of, hp, Option.getD_none]
        have hfile : exists_ p := by simpa [hp] using hbefore p List.mem_cons_self
        exact ⟨g, (Joined.refl H).congr fun a b => by simp [hof], fun name rest => by
          simp only [connect, hp, hfile, if_true]⟩
    obtain ⟨g₂, J₂, h₂⟩ := ih J₁.valid ((J₁.contains_eq n).trans hn)
      (fun t k hk => (J₁.contains_eq k).trans (hm t k hk))
      fun q hq => hbefore q (List.mem_cons_of_mem _ hq)
    refine ⟨g₂, (J₁.trans J₂).congr fun a b => ?_, fun name rest => ?_⟩
    · simp only [List.mem_cons, or_and_right, exists_or, exists_eq_left, and_or_left]
    · rw [List.cons_append, h₁, h₂]

theorem connect_stop {p : Text} {rest : List Text} {name : Text} (hp : m.get? p = none)
    (hfile : exists_ p = false) :
    connect exists_ m n name (p :: rest) g = .error (.error (.dependency name p)) := by
  simp only [connect, hp, hfile]
  rfl

/-- Nodes whose prerequisites are all satisfied only add edges. -/
theorem connectAll_append {before : List Int} (H : g.Valid)
    (hm : ∀ t k, k ∈ m.of t → g.contains k)
    (hbefore : ∀ k ∈ before, ∃ r, g.recipe? k = some r ∧
      ∀ p ∈ r.prerequisites, (m.get? p).isSome ∨ exists_ p) :
    ∃ g₁, Joined g (fun a b => a ∈ before ∧
        ∃ r, g.recipe? a = some r ∧ ∃ p ∈ r.prerequisites, b ∈ m.of p) g₁ ∧
      ∀ rest, connectAll exists_ m (before ++ rest) g = connectAll exists_ m rest g₁ := by
  induction before generalizing g with
  | nil => exact ⟨g, (Joined.refl H).congr fun a b => by simp, fun _ => rfl⟩
  | cons k before ih =>
    obtain ⟨r, hr, hsat⟩ := hbefore k List.mem_cons_self
    obtain ⟨g₁, J₁, h₁⟩ := connect_append H (contains_of_recipe? hr) hm hsat
    obtain ⟨g₂, J₂, h₂⟩ := ih J₁.valid (fun t k hk => (J₁.contains_eq k).trans (hm t k hk))
      fun j hj => by
        simpa only [J₁.recipe?_eq] using hbefore j (List.mem_cons_of_mem _ hj)
    refine ⟨g₂, (J₁.trans J₂).congr fun a b => ?_, fun rest => ?_⟩
    · simp only [J₁.recipe?_eq, List.mem_cons, or_and_right]
      refine or_congr_left (and_congr_right fun ha => ?_)
      rw [ha, hr]
      simp
    · have hconnect := h₁ r.name []
      rw [List.append_nil] at hconnect
      rw [List.cons_append, connectAll, hr]
      dsimp only
      rw [hconnect]
      exact h₂ rest

/-! ## Building -/

/-- The graph of recipes: its nodes are their places, and a recipe needs those that build one of its
prerequisites. -/
structure Built (rs : List Recipe) (g : Graph) : Prop where
  reachable : g.Reachable
  valid : g.Valid
  nodes_eq : g.nodes = (List.range rs.length).map (↑)
  recipe?_eq : ∀ i : Nat, g.recipe? i = rs[i]?
  needs_iff : ∀ a b : Nat, g.Needs a b ↔
    ∃ ra rb, rs[a]? = some ra ∧ rs[b]? = some rb ∧ ∃ p ∈ ra.prerequisites, p ∈ rb.targets

/-- The name is the first of the recipe, and the recipe the first of all, that is not satisfied. -/
def FirstUnsatisfied (exists_ : Text → Bool) (rs : List Recipe) (r : Recipe) (p : Text) : Prop :=
  ∃ before after ps qs, rs = before ++ r :: after ∧ r.prerequisites = ps ++ p :: qs ∧
    (∀ r' ∈ before, ∀ q ∈ r'.prerequisites, Satisfied exists_ rs q) ∧
    (∀ q ∈ ps, Satisfied exists_ rs q) ∧ ¬Satisfied exists_ rs p

theorem exists_first {α : Type} {P : α → Prop} {l : List α} (h : ¬∀ a ∈ l, P a) :
    ∃ before a after, l = before ++ a :: after ∧ (∀ b ∈ before, P b) ∧ ¬P a := by
  classical
  obtain ⟨a, ha⟩ : ∃ a, l.find? (¬P ·) = some a := by
    rw [← Option.isSome_iff_exists, List.find?_isSome]
    simpa using h
  obtain ⟨hP, before, after, hl, hbefore⟩ := List.find?_eq_some_iff_append.1 ha
  exact ⟨before, a, after, hl, by simpa using hbefore, by simpa using hP⟩

theorem exists_firstUnsatisfied
    (h : ¬∀ r ∈ rs, ∀ p ∈ r.prerequisites, Satisfied exists_ rs p) :
    ∃ r p, FirstUnsatisfied exists_ rs r p := by
  obtain ⟨before, r, after, hrs, hbefore, hr⟩ := exists_first h
  obtain ⟨ps, p, qs, hps, hsat, hp⟩ := exists_first hr
  exact ⟨r, p, before, after, ps, qs, hrs, hps, hbefore, hsat, hp⟩

namespace Indexed

theorem satisfied_iff (I : Indexed rs g m) {p : Text} :
    (m.get? p).isSome ∨ exists_ p ↔ Satisfied exists_ rs p := by
  rw [I.isSome]; rfl

theorem recipe?_eq (I : Indexed rs g m) (i : Nat) : g.recipe? i = rs[i]? := by
  ext r
  rw [I.recipe?_iff]
  constructor
  · rintro ⟨j, hij, hj⟩
    rwa [Int.ofNat_inj.1 hij]
  · exact fun h => ⟨i, rfl, h⟩

theorem nodes_eq (I : Indexed rs g m) : g.nodes = (List.range rs.length).map (↑) := by
  have hasc : ((List.range rs.length).map ((↑) : Nat → Int)).Pairwise (· < ·) :=
    List.pairwise_map.2 (List.pairwise_lt_range.imp Int.ofNat_lt.2)
  have hmem : ∀ n, n ∈ g.nodes ↔ n ∈ (List.range rs.length).map ((↑) : Nat → Int) := fun n => by
    simp only [mem_nodes, I.contains_iff, List.mem_map, List.mem_range, and_comm, eq_comm]
  exact g.nodes_ascending.eq_of_mem_iff hasc hmem

/-- The nodes of recipes that are all satisfied only add edges. -/
theorem connectAll_append {before after : List Recipe} (I : Indexed rs g m)
    (hrs : rs = before ++ after)
    (hbefore : ∀ r ∈ before, ∀ p ∈ r.prerequisites, Satisfied exists_ rs p) :
    ∃ g₁, Joined g (fun a b => a ∈ (List.range before.length).map ((↑) : Nat → Int) ∧
        ∃ r, g.recipe? a = some r ∧ ∃ p ∈ r.prerequisites, b ∈ m.of p) g₁ ∧
      ∀ rest, connectAll exists_ m ((List.range before.length).map (↑) ++ rest) g =
        connectAll exists_ m rest g₁ := by
  refine Graph.connectAll_append I.valid (fun t k => I.contains_of_mem_of) fun k hk => ?_
  obtain ⟨i, hi, rfl⟩ := List.mem_map.1 hk
  have hlt : i < before.length := List.mem_range.1 hi
  refine ⟨before[i], ?_, fun p hp => I.satisfied_iff.2 (hbefore _ (List.getElem_mem hlt) p hp)⟩
  rw [I.recipe?_eq, hrs, List.getElem?_append_left hlt, List.getElem?_eq_getElem hlt]

end Indexed

/-- Building indexes the recipes and then connects their nodes. -/
theorem build_eq (rs : List Recipe) : ∃ g m, Indexed rs g m ∧ ∀ exists_,
    build exists_ rs = connectAll exists_ m ((List.range rs.length).map (↑)) g := by
  have I := Indexed.empty.addRecipes rs
  rw [List.nil_append] at I
  exact ⟨_, _, I, fun exists_ => by rw [build, ← I.nodes_eq]⟩

theorem build_of_satisfied (h : ∀ r ∈ rs, ∀ p ∈ r.prerequisites, Satisfied exists_ rs p) :
    ∃ g, build exists_ rs = .ok g ∧ Built rs g := by
  obtain ⟨g₀, m, I, hbuild⟩ := build_eq rs
  obtain ⟨g, J, hconnect⟩ := I.connectAll_append (List.append_nil rs).symm h
  have hg : build exists_ rs = .ok g := by
    have := hconnect []
    rw [List.append_nil] at this
    rw [hbuild, this, connectAll]
  refine ⟨g, hg, build_reachable hg, J.valid, ?_, fun i => ?_, fun a b => ?_⟩
  · rw [nodes, J.recipes_eq]
    exact I.nodes_eq
  · rw [J.recipe?_eq, I.recipe?_eq]
  · simp only [J.needs_iff, I.not_needs, false_or, I.mem_of, I.recipe?_eq]
    constructor
    · rintro ⟨-, ra, ha, p, hp, rb, hb, ht⟩
      exact ⟨ra, rb, ha, hb, p, hp, ht⟩
    · rintro ⟨ra, rb, ha, hb, p, hp, ht⟩
      have hlt := (List.getElem?_eq_some_iff.1 ha).1
      exact ⟨List.mem_map.2 ⟨a, List.mem_range.2 hlt, rfl⟩, ra, ha, p, hp, rb, hb, ht⟩

theorem build_of_unsatisfied {r : Recipe} {p : Text} (h : FirstUnsatisfied exists_ rs r p) :
    build exists_ rs = .error (.error (.dependency r.name p)) := by
  obtain ⟨before, after, ps, qs, hrs, hps, hbefore, hsat, hp⟩ := h
  obtain ⟨g₀, m, I, hbuild⟩ := build_eq rs
  obtain ⟨g, J, hconnect⟩ := I.connectAll_append hrs hbefore
  have hrange : List.range rs.length = List.range before.length ++
      before.length :: List.range' (before.length + 1) after.length := by
    simp [hrs, List.range_eq_range', ← List.range'_append_1, List.range'_succ]
  have hr : g.recipe? before.length = some r := by
    rw [J.recipe?_eq, I.recipe?_eq, hrs]
    simp
  have hps' : ∀ q ∈ ps, (m.get? q).isSome ∨ exists_ q := fun q hq =>
    I.satisfied_iff.2 (hsat q hq)
  obtain ⟨g', -, hprefix⟩ := connect_append J.valid (contains_of_recipe? hr)
    (fun t k hk => (J.contains_eq k).trans (I.contains_of_mem_of hk)) hps'
  rw [← I.satisfied_iff, not_or, Option.not_isSome_iff_eq_none, Bool.not_eq_true] at hp
  -- the recipes before `r` and the names before `p` only add edges, so the build comes to `p`
  rw [hbuild, hrange, List.map_append, List.map_cons, hconnect, connectAll, hr]
  dsimp only
  rw [hps, hprefix, connect_stop hp.1 hp.2]

theorem satisfied_of_build (h : build exists_ rs = .ok g) :
    ∀ r ∈ rs, ∀ p ∈ r.prerequisites, Satisfied exists_ rs p := by
  by_contra hall
  obtain ⟨r, p, hfirst⟩ := exists_firstUnsatisfied hall
  rw [build_of_unsatisfied hfirst] at h
  cases h

/-- A graph can be built if and only if every prerequisite is a target or a file. It then is the
graph of the recipes, and otherwise the first name that is neither ends the build. -/
theorem build_exact (exists_ : Text → Bool) (rs : List Recipe) :
    ((∃ g, build exists_ rs = .ok g) ↔
      ∀ r ∈ rs, ∀ p ∈ r.prerequisites, Satisfied exists_ rs p) ∧
    (∀ g, build exists_ rs = .ok g → Built rs g) ∧
    ∀ halt, build exists_ rs = .error halt →
      ∃ r p, FirstUnsatisfied exists_ rs r p ∧ halt = .error (.dependency r.name p) := by
  refine ⟨⟨?_, fun h => ?_⟩, fun g hg => ?_, fun halt hhalt => ?_⟩
  · rintro ⟨g, hg⟩
    exact satisfied_of_build hg
  · obtain ⟨g, hg, -⟩ := build_of_satisfied h
    exact ⟨g, hg⟩
  · obtain ⟨g', hg', hbuilt⟩ := build_of_satisfied (satisfied_of_build hg)
    cases hg.symm.trans hg'
    exact hbuilt
  · have hnot : ¬∀ r ∈ rs, ∀ p ∈ r.prerequisites, Satisfied exists_ rs p := by
      intro h
      obtain ⟨g, hg, -⟩ := build_of_satisfied h
      cases hg.symm.trans hhalt
    obtain ⟨r, p, hfirst⟩ := exists_firstUnsatisfied hnot
    cases (build_of_unsatisfied hfirst).symm.trans hhalt
    exact ⟨r, p, hfirst, rfl⟩

end Haybuild.Graph
