import Haybuild.Graph.Node
import Mathlib.Data.List.Sort

/-!
# Laws of node sets and node maps

A node set is determined by its members, and a map is read back after each of its operations
(`NodeMap.get?_set`, `NodeMap.get?_erase`).
-/

namespace Haybuild

/-- Among pairs with distinct keys, the value of a key is the one it is paired with. -/
theorem lookup_eq_some_iff_mem {α β : Type} [BEq α] [LawfulBEq α] {es : List (α × β)} {k : α}
    {v : β} (h : (es.map Prod.fst).Nodup) : es.lookup k = some v ↔ (k, v) ∈ es := by
  constructor
  · intro hv
    obtain ⟨before, after, rfl, -⟩ := List.lookup_eq_some_iff.1 hv
    exact List.mem_append_right _ List.mem_cons_self
  · intro hv
    obtain ⟨before, after, rfl⟩ := List.append_of_mem hv
    refine List.lookup_eq_some_iff.2 ⟨before, after, rfl, fun e he => bne_iff_ne.2 ?_⟩
    rw [List.map_append, List.map_cons, List.nodup_append] at h
    exact (h.2.2 e.1 (List.mem_map_of_mem he) k List.mem_cons_self).symm

namespace NodeSet

theorem ext {s t : NodeSet} (h : ∀ n, n ∈ s ↔ n ∈ t) : s = t := by
  obtain ⟨l, hl⟩ := s
  obtain ⟨m, hm⟩ := t
  congr
  exact hl.eq_of_mem_iff hm h

theorem nodup (s : NodeSet) : s.toList.Nodup := s.ascending.nodup

theorem isEmpty_iff {s : NodeSet} : s.isEmpty ↔ ∀ n, n ∉ s := by
  simp only [isEmpty, List.isEmpty_iff, List.eq_nil_iff_forall_not_mem]
  exact Iff.rfl

@[simp] theorem erase_erase (s : NodeSet) (n : Int) : (s.erase n).erase n = s.erase n :=
  ext fun _ => by simp

end NodeSet

namespace NodeMap

variable {α : Type} {m : NodeMap α} {n k : Int}

@[simp] theorem get?_empty : (empty : NodeMap α).get? n = none := rfl

theorem get?_eq_some_iff {v : α} : m.get? n = some v ↔ (n, v) ∈ m.entries :=
  lookup_eq_some_iff_mem m.ascending.nodup

theorem mem_keys : n ∈ m.keys ↔ (m.get? n).isSome := by
  simp only [keys, List.mem_map, Option.isSome_iff_exists, get?_eq_some_iff]
  exact ⟨fun ⟨e, he, hn⟩ => ⟨e.2, hn ▸ he⟩, fun ⟨v, hv⟩ => ⟨_, hv, rfl⟩⟩

theorem keys_ascending (m : NodeMap α) : m.keys.Pairwise (· < ·) := m.ascending

theorem length_keys (m : NodeMap α) : m.keys.length = m.size := List.length_map _

theorem lookup_setIn (v : α) (es : List (Int × α)) :
    (setIn n v es).lookup k = if k = n then some v else es.lookup k := by
  induction es with
  | nil =>
    by_cases hk : k = n
    · simp [setIn, hk]
    · rw [setIn, List.lookup_cons, beq_eq_false_iff_ne.2 hk, if_neg hk]
  | cons e r ih =>
    simp only [setIn]
    split
    · by_cases hk : k = n
      · simp [hk]
      · rw [List.lookup_cons, beq_eq_false_iff_ne.2 hk, if_neg hk]
    · split
      · next hn =>
        by_cases hk : k = n
        · simp [hk]
        · rw [List.lookup_cons, List.lookup_cons, beq_eq_false_iff_ne.2 hk,
            beq_eq_false_iff_ne.2 fun h => hk (h.trans hn.symm), if_neg hk]
      · next hn =>
        rw [List.lookup_cons, List.lookup_cons, ih]
        by_cases hk : k = e.1
        · have hen : e.1 ≠ n := fun h => hn h.symm
          simp [hk, hen]
        · rw [beq_eq_false_iff_ne.2 hk]

@[simp] theorem get?_set {v : α} : (m.set n v).get? k = if k = n then some v else m.get? k :=
  lookup_setIn v m.entries

theorem get?_set_self {v : α} : (m.set n v).get? n = some v := by simp

theorem get?_set_of_ne {v : α} (h : k ≠ n) : (m.set n v).get? k = m.get? k := by simp [h]

@[simp] theorem get?_erase : (m.erase n).get? k = if k = n then none else m.get? k := by
  refine Option.ext fun v => ?_
  rw [get?_eq_some_iff]
  simp only [erase, List.mem_filter, ← get?_eq_some_iff, ne_eq, decide_not, Bool.not_eq_true',
    decide_eq_false_iff_not]
  by_cases hk : k = n
  · simp [hk]
  · simp [hk]

theorem get?_erase_of_ne (h : k ≠ n) : (m.erase n).get? k = m.get? k := by simp [h]

/-- What is left after an erasure was there before. -/
theorem ne_and_get?_of_erase {v : α} (h : (m.erase n).get? k = some v) :
    k ≠ n ∧ m.get? k = some v := by
  rw [get?_erase] at h
  split at h
  · cases h
  · next hkn => exact ⟨hkn, h⟩

/-- Two maps with the same values are equal. -/
theorem ext_get? {m m' : NodeMap α} (h : ∀ n, m.get? n = m'.get? n) : m = m' := by
  obtain ⟨es, hes⟩ := m
  obtain ⟨es', hes'⟩ := m'
  congr
  have hirrefl : Std.Irrefl fun e e' : Int × α => e.1 < e'.1 := ⟨fun e => Int.lt_irrefl e.1⟩
  refine (List.pairwise_map.1 hes).eq_of_mem_iff (List.pairwise_map.1 hes') fun e => ?_
  rw [← get?_eq_some_iff (m := ⟨es, hes⟩), h, get?_eq_some_iff]

@[simp] theorem set_set {v w : α} : (m.set n v).set n w = m.set n w :=
  ext_get? fun k => by simp only [get?_set]; split <;> rfl

@[simp] theorem erase_set {v : α} : (m.set n v).erase n = m.erase n :=
  ext_get? fun k => by simp only [get?_erase, get?_set]; split <;> rfl

theorem set_eq_self {v : α} (h : m.get? n = some v) : m.set n v = m :=
  ext_get? fun k => by
    rw [get?_set]
    split
    · next hk => rw [hk, h]
    · rfl

end NodeMap

end Haybuild
