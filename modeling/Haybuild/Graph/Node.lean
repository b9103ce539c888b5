/-!
# Sets of nodes and maps from nodes

The nodes of a graph are numbers. A `NodeSet` lists its members in ascending order and a `NodeMap`
its keys, so that two sets with the same members, or two maps with the same values, are equal.
-/

namespace Haybuild

namespace NodeSet

/-- Puts a node into an ascending list. -/
def insertInto (n : Int) : List Int → List Int
  | [] => [n]
  | m :: r => if n < m then n :: m :: r else if n = m then m :: r else m :: insertInto n r

theorem mem_insertInto {n x : Int} {l : List Int} : x ∈ insertInto n l ↔ x = n ∨ x ∈ l := by
  induction l with
  | nil => simp [insertInto]
  | cons m r ih =>
    simp only [insertInto]
    split
    · simp
    · split
      · next h => simp [h]
      · simp only [List.mem_cons, ih]
        exact or_left_comm

theorem pairwise_insertInto {n : Int} {l : List Int} (h : l.Pairwise (· < ·)) :
    (insertInto n l).Pairwise (· < ·) := by
  induction l with
  | nil => simp [insertInto]
  | cons m r ih =>
    obtain ⟨hm, hr⟩ := List.pairwise_cons.1 h
    simp only [insertInto]
    split
    · next hn =>
      refine List.pairwise_cons.2 ⟨fun x hx => ?_, h⟩
      rcases List.mem_cons.1 hx with rfl | hx
      · exact hn
      · exact Int.lt_trans hn (hm x hx)
    · split
      · exact h
      · next h₁ h₂ =>
        refine List.pairwise_cons.2 ⟨fun x hx => ?_, ih hr⟩
        rcases mem_insertInto.1 hx with rfl | hx
        · omega
        · exact hm x hx

end NodeSet

/-- A finite set of nodes. -/
structure NodeSet where
  toList : List Int
  ascending : toList.Pairwise (· < ·)
  deriving DecidableEq

namespace NodeSet

/-- The set without members. -/
def empty : NodeSet := ⟨[], .nil⟩

instance : Membership Int NodeSet := ⟨fun s n => n ∈ s.toList⟩

instance (n : Int) (s : NodeSet) : Decidable (n ∈ s) :=
  inferInstanceAs (Decidable (n ∈ s.toList))

theorem mem_def {n : Int} {s : NodeSet} : n ∈ s ↔ n ∈ s.toList := Iff.rfl

/-- The set with one more member. -/
def insert (n : Int) (s : NodeSet) : NodeSet :=
  ⟨insertInto n s.toList, pairwise_insertInto s.ascending⟩

/-- The set without a member. -/
def erase (n : Int) (s : NodeSet) : NodeSet :=
  ⟨s.toList.filter (· ≠ n), s.ascending.filter _⟩

/-- The set has no members. -/
def isEmpty (s : NodeSet) : Bool :=
  s.toList.isEmpty

@[simp] theorem not_mem_empty {n : Int} : n ∉ empty := List.not_mem_nil

@[simp] theorem mem_insert {n m : Int} {s : NodeSet} : m ∈ s.insert n ↔ m = n ∨ m ∈ s :=
  mem_insertInto

@[simp] theorem mem_erase {n m : Int} {s : NodeSet} : m ∈ s.erase n ↔ m ∈ s ∧ m ≠ n := by
  simp [mem_def, erase, List.mem_filter]

end NodeSet

namespace NodeMap

variable {α : Type}

/-- Sets the value of a node in a list whose keys ascend. -/
def setIn (n : Int) (value : α) : List (Int × α) → List (Int × α)
  | [] => [(n, value)]
  | e :: r =>
    if n < e.1 then (n, value) :: e :: r
    else if n = e.1 then (n, value) :: r
    else e :: setIn n value r

theorem fst_setIn (n : Int) (value : α) (es : List (Int × α)) :
    (setIn n value es).map Prod.fst = NodeSet.insertInto n (es.map Prod.fst) := by
  induction es with
  | nil => rfl
  | cons e r ih =>
    simp only [setIn, List.map_cons, NodeSet.insertInto]
    split
    · rfl
    · split
      · next h => simp [h]
      · simp [ih]

end NodeMap

/-- Values by node, in ascending order of the nodes. -/
structure NodeMap (α : Type) where
  entries : List (Int × α)
  ascending : (entries.map Prod.fst).Pairwise (· < ·)

namespace NodeMap

variable {α : Type}

/-- The map without values. -/
def empty : NodeMap α := ⟨[], .nil⟩

/-- The nodes that have a value. -/
def keys (m : NodeMap α) : List Int :=
  m.entries.map Prod.fst

/-- The number of values. -/
def size (m : NodeMap α) : Nat :=
  m.entries.length

/-- The value of a node. -/
def get? (m : NodeMap α) (n : Int) : Option α :=
  m.entries.lookup n

/-- Sets the value of a node. -/
def set (m : NodeMap α) (n : Int) (value : α) : NodeMap α :=
  ⟨setIn n value m.entries, by rw [fst_setIn]; exact NodeSet.pairwise_insertInto m.ascending⟩

/-- Takes away the value of a node. -/
def erase (m : NodeMap α) (n : Int) : NodeMap α where
  entries := m.entries.filter fun e => e.1 ≠ n
  ascending := m.ascending.sublist (List.filter_sublist.map _)

theorem size_erase_lt {m : NodeMap α} {n : Int} {a : α} (h : m.get? n = some a) :
    (m.erase n).size < m.size := by
  obtain ⟨es, _⟩ := m
  simp only [get?, erase, size] at h ⊢
  refine Nat.lt_of_le_of_ne (List.length_filter_le _ _) fun heq => ?_
  have hall := List.length_filter_eq_length_iff.1 heq
  induction es with
  | nil => simp at h
  | cons e r ih =>
    have he : (n == e.1) = false := beq_eq_false_iff_ne.2 fun hn =>
      of_decide_eq_true (hall e List.mem_cons_self) hn.symm
    have hr : ∀ a ∈ r, decide (a.1 ≠ n) = true := fun a ha => hall a (List.mem_cons_of_mem _ ha)
    rw [List.lookup_cons, he] at h
    exact ih (List.pairwise_cons.1 (by assumption)).2 h
      (congrArg List.length (List.filter_eq_self.2 hr)) hr

end NodeMap

end Haybuild
