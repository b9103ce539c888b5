import Haybuild.Proofs.Graph.Build
import Haybuild.Proofs.Graph.Label
import Haybuild.Proofs.NameMap
import Haybuild.Proofs.Text.Integer

/-!
# Clashing labels

Recipes that share a name are told apart by a number behind it. A numbered name can be the name of
yet another recipe, and then two nodes have one label. `labels_nodup_iff` says that labels clash in
no other way: two numbered names differ, because a numeral holds no `#` and says its number.
-/

namespace Haybuild

namespace Text

theorem notMem_ofNat {k : Nat} : '#' ∉ ofNat k := fun h =>
  absurd (isDigit_of_mem_ofNat h) (by decide)

/-- The last occurrence of a character cuts a text in one way. -/
theorem append_cons_inj {c : Char} {s t u v : Text} (hu : c ∉ u) (hv : c ∉ v)
    (h : s ++ c :: u = t ++ c :: v) : s = t ∧ u = v := by
  rcases List.append_eq_append_iff.1 h with ⟨w, rfl, hw⟩ | ⟨w, rfl, hw⟩
  · cases w with
    | nil => simpa using hw
    | cons d w =>
      obtain ⟨-, rfl⟩ := List.cons.inj hw
      exact absurd (List.mem_append_right w List.mem_cons_self) hu
  · cases w with
    | nil => simpa [eq_comm] using hw
    | cons d w =>
      obtain ⟨-, rfl⟩ := List.cons.inj hw
      exact absurd (List.mem_append_right w List.mem_cons_self) hv

end Text

namespace Graph

/-- The label of the `k`th recipe of a name. -/
def numbered (name : Text) (k : Nat) : Text :=
  if k = 1 then name else name ++ "#" ++ Text.ofNat k

/-- Which of the recipes of its name a node is, counted from one. -/
def rank (g : Graph) (n : Int) : Nat :=
  g.nodes.countP fun m => m ≤ n ∧ g.nameOf m = g.nameOf n

variable {g : Graph} {m n : Int} {before after : List Int}

/-! ## Numbered names -/

theorem numbered_of_ne_one {name : Text} {k : Nat} (hk : k ≠ 1) :
    numbered name k = name ++ '#' :: Text.ofNat k := by
  rw [numbered, if_neg hk]
  exact List.append_assoc ..

theorem numbered_inj_of_ne_one {name name' : Text} {j k : Nat} (hj : j ≠ 1) (hk : k ≠ 1)
    (h : numbered name j = numbered name' k) : name = name' ∧ j = k := by
  rw [numbered_of_ne_one hj, numbered_of_ne_one hk] at h
  obtain ⟨hname, hnumeral⟩ := Text.append_cons_inj Text.notMem_ofNat Text.notMem_ofNat h
  exact ⟨hname, Text.ofNat_injective hnumeral⟩

/-! ## The rank of a node -/

/-- Among the nodes in ascending order, the rank of a node counts those of its name before it. -/
theorem rank_eq (h : g.nodes = before ++ n :: after) :
    g.rank n = before.countP (fun m => g.nameOf m = g.nameOf n) + 1 := by
  have hasc := g.nodes_ascending
  rw [h, List.pairwise_append, List.pairwise_cons] at hasc
  obtain ⟨-, ⟨hafter, -⟩, hbefore⟩ := hasc
  have hle : ∀ m ∈ before, m ≤ n := fun m hm => Int.le_of_lt (hbefore m hm n List.mem_cons_self)
  have hlt : ∀ m ∈ after, ¬m ≤ n := fun m hm => Int.not_le.2 (hafter m hm)
  rw [rank, h, List.countP_append, List.countP_cons]
  have h₁ : before.countP (fun m => m ≤ n ∧ g.nameOf m = g.nameOf n) =
      before.countP fun m => g.nameOf m = g.nameOf n :=
    List.countP_congr fun m hm => by simp [hle m hm]
  have h₂ : after.countP (fun m => m ≤ n ∧ g.nameOf m = g.nameOf n) = 0 :=
    List.countP_eq_zero.2 fun m hm => by simp [hlt m hm]
  rw [h₁, h₂]
  simp

theorem exists_nodes_eq (hn : g.contains n) : ∃ before after, g.nodes = before ++ n :: after :=
  List.append_of_mem (mem_nodes.2 hn)

theorem rank_lt (hm : g.contains m) (hn : g.contains n) (hname : g.nameOf m = g.nameOf n)
    (hlt : m < n) : g.rank m < g.rank n := by
  obtain ⟨before, after, h⟩ := exists_nodes_eq hn
  have hasc := g.nodes_ascending
  rw [h, List.pairwise_append, List.pairwise_cons] at hasc
  have hmem : m ∈ before := by
    have := mem_nodes.2 hm
    rw [h, List.mem_append, List.mem_cons] at this
    rcases this with hm | rfl | hm
    · exact hm
    · exact absurd hlt (Int.lt_irrefl m)
    · exact absurd hlt (Int.lt_asymm (hasc.2.1.1 m hm))
  obtain ⟨us, vs, rfl⟩ := List.append_of_mem hmem
  have hsplit : g.nodes = us ++ m :: (vs ++ n :: after) := by simp [h]
  rw [rank_eq h, rank_eq hsplit, hname]
  simp [List.countP_append, hname]

/-- Nodes of one name differ by their rank. -/
theorem rank_injective (hm : g.contains m) (hn : g.contains n) (hname : g.nameOf m = g.nameOf n)
    (hrank : g.rank m = g.rank n) : m = n := by
  rcases Int.lt_trichotomy m n with hlt | rfl | hlt
  · exact absurd hrank (Nat.ne_of_lt (rank_lt hm hn hname hlt))
  · rfl
  · exact absurd hrank.symm (Nat.ne_of_lt (rank_lt hn hm hname.symm hlt))

/-- Each name has a first node. -/
theorem exists_rank_eq_one (hn : g.contains n) :
    ∃ m, g.contains m ∧ g.nameOf m = g.nameOf n ∧ g.rank m = 1 := by
  obtain ⟨m, hm⟩ : ∃ m, g.nodes.find? (fun m => g.nameOf m = g.nameOf n) = some m :=
    Option.isSome_iff_exists.1 (List.find?_isSome.2 ⟨n, mem_nodes.2 hn, by simp⟩)
  obtain ⟨hname, before, after, hsplit, hbefore⟩ := List.find?_eq_some_iff_append.1 hm
  simp only [decide_eq_true_eq] at hname
  refine ⟨m, mem_nodes.1 (hsplit ▸ by simp), hname, ?_⟩
  rw [rank_eq hsplit, List.countP_eq_zero.2]
  intro k hk
  simpa [hname] using hbefore k hk

/-! ## Labels -/

theorem mem_labelsFrom (seen : NameMap Nat) (before : List Int) (n : Int) (after : List Int) :
    (n, numbered (g.nameOf n) ((seen.get? (g.nameOf n)).getD 0 +
        before.countP (fun m => g.nameOf m = g.nameOf n) + 1)) ∈
      g.labelsFrom seen (before ++ n :: after) := by
  induction before generalizing seen with
  | nil =>
    rw [List.nil_append, labelsFrom]
    exact List.mem_cons_self
  | cons k before ih =>
    rw [List.cons_append, labelsFrom]
    refine List.mem_cons_of_mem _ ?_
    have := ih (seen.set (g.nameOf k) ((seen.get? (g.nameOf k)).getD 0 + 1))
    rw [NameMap.get?_set] at this
    rw [List.countP_cons]
    by_cases hk : g.nameOf n = g.nameOf k
    · simpa [hk, Nat.add_assoc, Nat.add_comm, Nat.add_left_comm] using this
    · have hk' : ¬g.nameOf k = g.nameOf n := fun h => hk h.symm
      simpa [hk, hk'] using this

/-- The label of a node is its name, numbered by its rank. -/
theorem labelOf_eq (hn : g.contains n) :
    labelOf g.labels n = numbered (g.nameOf n) (g.rank n) := by
  obtain ⟨before, after, h⟩ := exists_nodes_eq hn
  have := mem_labelsFrom (g := g) .empty before n after
  rw [← h, NameMap.get?_empty, Option.getD_none, Nat.zero_add, ← rank_eq h] at this
  exact (mem_labels.1 this).2

theorem nodup_snd_labels : (g.labels.map Prod.snd).Nodup ↔
    ∀ m n, g.contains m → g.contains n → labelOf g.labels m = labelOf g.labels n → m = n := by
  refine ⟨fun h m n hm hn => labelOf_injective h hm hn, fun h => ?_⟩
  have hnodup : g.labels.Nodup := .of_map Prod.fst (fst_labels g ▸ g.nodes_ascending.nodup)
  refine (List.nodup_map_iff_inj_on hnodup).2 ?_
  rintro ⟨m, t⟩ hm ⟨n, u⟩ hn (rfl : t = u)
  obtain ⟨hm, hmt⟩ := mem_labels.1 hm
  obtain ⟨hn, hnt⟩ := mem_labels.1 hn
  rw [h m n hm hn (hmt.trans hnt.symm)]

/-- A node whose name is numbered clashes with a recipe that bears the numbered name itself. -/
def Clash (g : Graph) (m n : Int) : Prop :=
  g.contains m ∧ g.contains n ∧ g.rank n ≠ 1 ∧
    g.nameOf m = g.nameOf n ++ "#" ++ Text.ofNat (g.rank n)

/-- Two nodes share a label only if one of them bears the other's numbered name. -/
theorem exists_clash (hm : g.contains m) (hn : g.contains n) (hne : m ≠ n)
    (h : labelOf g.labels m = labelOf g.labels n) : g.Clash m n ∨ g.Clash n m := by
  rw [labelOf_eq hm, labelOf_eq hn] at h
  by_cases hm₁ : g.rank m = 1
  · by_cases hn₁ : g.rank n = 1
    · rw [numbered, numbered, if_pos hm₁, if_pos hn₁] at h
      exact absurd (rank_injective hm hn h (hm₁.trans hn₁.symm)) hne
    · rw [numbered, numbered, if_pos hm₁, if_neg hn₁] at h
      exact .inl ⟨hm, hn, hn₁, h⟩
  · by_cases hn₁ : g.rank n = 1
    · rw [numbered, numbered, if_neg hm₁, if_pos hn₁] at h
      exact .inr ⟨hn, hm, hm₁, h.symm⟩
    · obtain ⟨hname, hrank⟩ := numbered_inj_of_ne_one hm₁ hn₁ h
      exact absurd (rank_injective hm hn hname hrank) hne

/-- The labels of a graph are distinct if and only if no recipe has the name of another one with
that one's number behind it. -/
theorem labels_nodup_iff (g : Graph) :
    (g.labels.map Prod.snd).Nodup ↔ ∀ m n, ¬g.Clash m n := by
  rw [nodup_snd_labels]
  constructor
  · rintro h m n ⟨hm, hn, hrank, hname⟩
    -- the first recipe of the clashing name has it as its label
    obtain ⟨k, hk, hkm, hk₁⟩ := exists_rank_eq_one hm
    have hlabel : labelOf g.labels k = labelOf g.labels n := by
      rw [labelOf_eq hk, labelOf_eq hn, numbered, numbered, if_pos hk₁, if_neg hrank, hkm, hname]
    obtain rfl := h k n hk hn hlabel
    exact hrank hk₁
  · intro h m n hm hn hlabel
    by_contra hne
    rcases exists_clash hm hn hne hlabel with hc | hc
    · exact h m n hc
    · exact h n m hc

/-- The second recipe `a` and the recipe `a#2` have one label. -/
theorem labels_clash : ∃ g, build (fun _ => false)
      [⟨[['a']], [], []⟩, ⟨[['a']], [], []⟩, ⟨[['a', '#', '2']], [], []⟩] = .ok g ∧
    g.Reachable ∧ g.labels = [(0, ['a']), (1, ['a', '#', '2']), (2, ['a', '#', '2'])] ∧
    ¬(g.labels.map Prod.snd).Nodup := by
  obtain ⟨g, hg, hlabels⟩ : ∃ g, build (fun _ => false)
      [⟨[['a']], [], []⟩, ⟨[['a']], [], []⟩, ⟨[['a', '#', '2']], [], []⟩] = .ok g ∧
      g.labels = [(0, ['a']), (1, ['a', '#', '2']), (2, ['a', '#', '2'])] := ⟨_, rfl, rfl⟩
  exact ⟨g, hg, build_reachable hg, hlabels, by rw [hlabels]; decide⟩

end Graph

end Haybuild
