import Haybuild.Text.Basic

/-!
# Ordered maps from names

A `NameMap` keeps its names in the order in which they were first set. Setting a name again keeps
its place (`names_set`), so the order of variables, results and labels is the order of first use.
-/

namespace Haybuild

/-- Values by name, in the order in which the names were first set. -/
structure NameMap (α : Type) where
  entries : List (Text × α)
  nodup : (entries.map Prod.fst).Nodup

namespace NameMap

variable {α : Type}

/-- The map without names. -/
def empty : NameMap α := ⟨[], List.nodup_nil⟩

instance : Inhabited (NameMap α) := ⟨empty⟩

/-- The names in order. -/
def names (m : NameMap α) : List Text :=
  m.entries.map Prod.fst

/-- The value of a name. -/
def get? (m : NameMap α) (name : Text) : Option α :=
  m.entries.lookup name

/-- Replaces the value of a name where it stands, or puts the name last. -/
def setEntry (name : Text) (value : α) : List (Text × α) → List (Text × α)
  | [] => [(name, value)]
  | e :: r => if e.1 = name then (name, value) :: r else e :: setEntry name value r

theorem fst_setEntry (name : Text) (value : α) (es : List (Text × α)) :
    (setEntry name value es).map Prod.fst =
      if name ∈ es.map Prod.fst then es.map Prod.fst else es.map Prod.fst ++ [name] := by
  induction es with
  | nil => simp [setEntry]
  | cons e r ih =>
    by_cases h : e.1 = name
    · simp [setEntry, h]
    · have h' : ¬name = e.1 := fun h' => h h'.symm
      simp only [setEntry, h, if_false, List.map_cons, ih, List.mem_cons, h', false_or]
      split <;> simp

/-- Sets the value of a name. -/
def set (m : NameMap α) (name : Text) (value : α) : NameMap α where
  entries := setEntry name value m.entries
  nodup := by
    rw [fst_setEntry]
    split
    · exact m.nodup
    · rename_i h
      refine List.nodup_append.2 ⟨m.nodup, by simp, ?_⟩
      intro a ha b hb
      cases List.mem_singleton.1 hb
      exact fun hab => h (hab ▸ ha)

theorem names_set (m : NameMap α) (name : Text) (value : α) :
    (m.set name value).names = if name ∈ m.names then m.names else m.names ++ [name] :=
  fst_setEntry name value m.entries

/-- Sets the value of a name that has none. -/
def setDefault (m : NameMap α) (name : Text) (value : α) : NameMap α :=
  match m.get? name with
  | some _ => m
  | none => m.set name value

/-- Forgets a name. -/
def erase (m : NameMap α) (name : Text) : NameMap α where
  entries := m.entries.filter fun e => e.1 ≠ name
  nodup := m.nodup.sublist ((m.entries.filter_sublist).map Prod.fst)

/-- The map that sets the pairs one after the other. -/
def ofPairs (pairs : List (Text × α)) : NameMap α :=
  pairs.foldl (fun m p => m.set p.1 p.2) empty

end NameMap

end Haybuild
