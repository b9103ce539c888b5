import Haybuild.NameMap
import Haybuild.Proofs.NodeMap
import Mathlib.Data.List.Induction

/-!
# Laws of name maps

What is read from a map after each of its operations, and when one map holds another one.
-/

namespace Haybuild.NameMap

variable {α : Type} {m : NameMap α} {name k : Text}

@[simp] theorem get?_empty : (empty : NameMap α).get? name = none := rfl

theorem lookup_setEntry (v : α) (es : List (Text × α)) :
    (setEntry name v es).lookup k = if k = name then some v else es.lookup k := by
  induction es with
  | nil =>
    by_cases hk : k = name
    · simp [setEntry, hk]
    · rw [setEntry, List.lookup_cons, beq_eq_false_iff_ne.2 hk, if_neg hk]
  | cons e r ih =>
    simp only [setEntry]
    split
    · next he =>
      by_cases hk : k = name
      · simp [hk]
      · rw [List.lookup_cons, List.lookup_cons, beq_eq_false_iff_ne.2 hk,
          beq_eq_false_iff_ne.2 fun h => hk (h.trans he), if_neg hk]
    · next he =>
      rw [List.lookup_cons, List.lookup_cons, ih]
      by_cases hk : k = e.1
      · have hen : e.1 ≠ name := he
        simp [hk, hen]
      · rw [beq_eq_false_iff_ne.2 hk]

@[simp] theorem get?_set {v : α} : (m.set name v).get? k = if k = name then some v else m.get? k :=
  lookup_setEntry v m.entries

@[simp] theorem get?_setDefault {v : α} :
    (m.setDefault name v).get? k = (m.get? k).or (if k = name then some v else none) := by
  unfold setDefault
  cases h : m.get? name with
  | some w =>
    by_cases hk : k = name
    · simp [hk, h]
    · simp [hk]
  | none =>
    by_cases hk : k = name
    · simp [hk, h]
    · simp [hk]

theorem get?_eq_some_iff {v : α} : m.get? name = some v ↔ (name, v) ∈ m.entries :=
  lookup_eq_some_iff_mem m.nodup

theorem mem_names : name ∈ m.names ↔ (m.get? name).isSome := by
  simp only [names, get?, List.lookup_isSome_iff, List.mem_map, beq_iff_eq]
  exact ⟨fun ⟨e, he, h⟩ => ⟨e, he, h.symm⟩, fun ⟨e, he, h⟩ => ⟨e, he, h.symm⟩⟩

theorem nodup_names (m : NameMap α) : m.names.Nodup := m.nodup

theorem names_prefix_set (m : NameMap α) (name : Text) (value : α) :
    m.names <+: (m.set name value).names := by
  rw [names_set]
  split
  · exact List.prefix_rfl
  · exact List.prefix_append _ _

/-! ### Maps that hold another one -/

/-- Every name of the first map has the same value in the second one, which may have more names, in
any order. -/
def Within (m m' : NameMap α) : Prop :=
  ∀ name value, m.get? name = some value → m'.get? name = some value

theorem within_iff {m' : NameMap α} : m.Within m' ↔ ∀ e ∈ m.entries, m'.get? e.1 = some e.2 := by
  simp only [Within, get?_eq_some_iff, Prod.forall]

instance [DecidableEq α] (m m' : NameMap α) : Decidable (m.Within m') :=
  decidable_of_iff' _ within_iff

/-! ### Pairs -/

/-- Sets the pairs one after the other. -/
def setAll (m : NameMap α) (pairs : List (Text × α)) : NameMap α :=
  pairs.foldl (fun m p => m.set p.1 p.2) m

theorem setAll_append (m : NameMap α) (pairs pairs' : List (Text × α)) :
    m.setAll (pairs ++ pairs') = (m.setAll pairs).setAll pairs' :=
  List.foldl_append ..

/-- The names of the map keep their places, and behind them each other name stands where its first
pair put it. -/
theorem names_setAll (m : NameMap α) (pairs : List (Text × α)) :
    (m.setAll pairs).names =
      m.names ++ ((pairs.map Prod.fst).filter (· ∉ m.names)).eraseDups := by
  induction pairs using List.reverseRecOn with
  | nil => exact (List.append_nil m.names).symm
  | append_singleton pairs p ih =>
    have hset : m.setAll (pairs ++ [p]) = (m.setAll pairs).set p.1 p.2 := List.foldl_concat ..
    rw [hset, names_set, ih, List.map_append, List.filter_append, List.eraseDups_append]
    by_cases hm : p.1 ∈ m.names
    · simp [hm, List.removeAll]
    · by_cases hp : p.1 ∈ pairs.map Prod.fst
      · simp [hm, hp, List.removeAll]
      · simp [hm, hp, List.removeAll, List.eraseDups_cons]

/-- Each name has the value of its last pair, or its value in the map if it has no pair. -/
theorem get?_setAll (m : NameMap α) (pairs : List (Text × α)) (name : Text) :
    (m.setAll pairs).get? name = (pairs.reverse.lookup name).or (m.get? name) := by
  induction pairs using List.reverseRecOn with
  | nil => rfl
  | append_singleton pairs p ih =>
    have hset : m.setAll (pairs ++ [p]) = (m.setAll pairs).set p.1 p.2 := List.foldl_concat ..
    rw [hset, get?_set, ih, List.reverse_concat, List.lookup_cons]
    by_cases hname : name = p.1
    · rw [if_pos hname, beq_iff_eq.2 hname, Option.some_or]
    · rw [if_neg hname, beq_eq_false_iff_ne.2 hname]

theorem names_ofPairs (pairs : List (Text × α)) :
    (ofPairs pairs).names = (pairs.map Prod.fst).eraseDups := by
  have hpairs : ofPairs pairs = empty.setAll pairs := rfl
  have hempty : (empty : NameMap α).names = [] := rfl
  rw [hpairs, names_setAll, hempty]
  simp

theorem get?_ofPairs (pairs : List (Text × α)) (name : Text) :
    (ofPairs pairs).get? name = pairs.reverse.lookup name :=
  (get?_setAll empty pairs name).trans (Option.or_none)

end Haybuild.NameMap
