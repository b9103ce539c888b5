import Haybuild.Graph.Drain
import Haybuild.Proofs.Stage

/-!
# Logs and journals

A run notes its executions in a log, in the order in which their results were handled, and what its
recipes had the host do in a journal. In the journal each deed finds the host as the one before it
left it (`Follows`), and the deeds of one recipe explain how its execution ended
(`LogEntry.Explained`).
-/

namespace Haybuild

variable {σ : Type} {h : Host σ} {setting : Setting} {s s₁ s' : σ}

/-! ## Logs -/

namespace LogEntry

variable {x : LogEntry}

/-- The execution went through. -/
def Completed (x : LogEntry) : Prop := x.status? = some .ok

/-- The execution ended the whole run. -/
def Aborted (x : LogEntry) : Prop := x.status? = none

theorem failed_iff : x.Failed ↔ ∃ e, x.ending = .failed e := by
  unfold Failed status?
  cases x.ending <;> simp [Ending.status?]

theorem completed_iff : x.Completed ↔ x.ending = .completed := by
  unfold Completed status?
  cases x.ending <;> simp [Ending.status?]

theorem aborted_iff : x.Aborted ↔ ∃ fault, x.ending = .aborted fault := by
  unfold Aborted status?
  cases x.ending <;> simp [Ending.status?]

theorem fault?_eq_some_iff {fault : Fault} : x.fault? = some fault ↔ x.ending = .aborted fault := by
  unfold fault?
  cases x.ending <;> simp

theorem fault?_eq_none_iff : x.fault? = none ↔ ¬x.Aborted := by
  rw [Option.eq_none_iff_forall_ne_some, aborted_iff]
  simp only [ne_eq, fault?_eq_some_iff, not_exists]

/-- All that is told about an execution: what it tells itself, and what is told when its result is
handled. -/
def told (label : Text) (x : LogEntry) : List Event :=
  x.events ++ x.report label

theorem frontier_not_mem_report {label : Text} (index : Int) (names : List Text) :
    .frontier index names ∉ x.report label := by
  unfold report
  cases x.ending with
  | failed e => cases e <;> simp [failureEvents]
  | _ => simp

end LogEntry

/-- The cancel flag after results were handled: a failure sets it in a run that fails fast. -/
def flagAfter (failFast c : Bool) (xs : List LogEntry) : Bool :=
  c || failFast && xs.any (·.Failed)

section
variable {failFast c : Bool} {xs ys : List LogEntry} {x : LogEntry}

@[simp] theorem flagAfter_nil : flagAfter failFast c [] = c := by
  simp [flagAfter]

theorem flagAfter_cons :
    flagAfter failFast c (x :: xs) = flagAfter failFast (c || failFast && x.Failed) xs := by
  simp only [flagAfter, List.any_cons, Bool.and_or_distrib_left, Bool.or_assoc]

theorem flagAfter_append :
    flagAfter failFast c (xs ++ ys) = flagAfter failFast (flagAfter failFast c xs) ys := by
  simp only [flagAfter, List.any_append, Bool.and_or_distrib_left, Bool.or_assoc]

theorem flagAfter_concat :
    flagAfter failFast c (xs ++ [x]) = (flagAfter failFast c xs || failFast && x.Failed) := by
  rw [flagAfter_append, flagAfter_cons, flagAfter_nil]

theorem flagAfter_iff :
    flagAfter failFast c xs ↔ c ∨ failFast ∧ ∃ x ∈ xs, x.Failed := by
  simp [flagAfter]

/-- The flag stays down while nothing fails, and always when the run keeps going. -/
theorem flagAfter_eq_false (h : failFast → ∀ x ∈ xs, ¬x.Failed) :
    flagAfter failFast false xs = false := by
  rw [Bool.eq_false_iff, ne_eq, flagAfter_iff]
  rintro (hflag | ⟨hff, x, hx, hfailed⟩)
  · cases hflag
  · exact h hff x hx hfailed

end

/-! ## Journals -/

/-- The deeds of a journal happen one after the other, from state `s` of the host to state `s'`. -/
inductive Follows (h : Host σ) (setting : Setting) : σ → List (Int × Deed) → σ → Prop
  | nil {s : σ} : Follows h setting s [] s
  | cons {s n deed s₁ journal s'} : deed.Holds h setting s s₁ → Follows h setting s₁ journal s' →
      Follows h setting s ((n, deed) :: journal) s'

theorem Follows.append {journal journal' : List (Int × Deed)} (F : Follows h setting s journal s₁)
    (F' : Follows h setting s₁ journal' s') : Follows h setting s (journal ++ journal') s' := by
  induction F with
  | nil => exact F'
  | cons H _ ih => exact .cons H (ih F')

/-- The deeds of one recipe in a journal. -/
def deedsOf (n : Int) (journal : List (Int × Deed)) : List Deed :=
  (journal.filter (·.1 = n)).map Prod.snd

section
variable {n k : Int} {journal journal' : List (Int × Deed)}

@[simp] theorem deedsOf_append :
    deedsOf n (journal ++ journal') = deedsOf n journal ++ deedsOf n journal' := by
  simp [deedsOf]

@[simp] theorem deedsOf_map_self {ds : List Deed} : deedsOf n (ds.map (n, ·)) = ds := by
  simp [deedsOf, List.filter_map, Function.comp_def]

theorem deedsOf_eq_nil (h : ∀ e ∈ journal, e.1 ≠ n) : deedsOf n journal = [] := by
  rw [deedsOf, List.filter_eq_nil_iff.2 fun e he => by simpa using h e he, List.map_nil]

theorem deedsOf_map_of_ne {ds : List Deed} (h : k ≠ n) : deedsOf n (ds.map (k, ·)) = [] := by
  refine deedsOf_eq_nil fun e he => ?_
  obtain ⟨deed, -, rfl⟩ := List.mem_map.1 he
  exact h

end

/-- The host does each deed of a journal in some state. -/
theorem Follows.holds_of_mem_deedsOf {journal : List (Int × Deed)}
    (F : Follows h setting s journal s') (n : Int) (deed : Deed)
    (hdeed : deed ∈ deedsOf n journal) : ∃ s₁ s₂, deed.Holds h setting s₁ s₂ := by
  induction F with
  | nil => cases hdeed
  | @cons s k first s₁ journal s' H _ ih =>
    by_cases hk : k = n
    · rw [deedsOf, List.filter_cons_of_pos (by simpa using hk)] at hdeed
      rcases List.mem_cons.1 hdeed with rfl | hdeed
      · exact ⟨s, s₁, H⟩
      · exact ih hdeed
    · rw [deedsOf, List.filter_cons_of_neg (by simpa using hk)] at hdeed
      exact ih hdeed

/-- The deeds of the recipe explain how its execution ended. -/
def LogEntry.Explained (g : Graph) (journal : List (Int × Deed)) (x : LogEntry) : Prop :=
  ∃ r, g.recipe? x.node = some r ∧
    LeadsTo r.name r.commands (deedsOf x.node journal) (.ended x.ending)

theorem LogEntry.Explained.congr {g g' : Graph} {journal journal' : List (Int × Deed)}
    {x : LogEntry} (E : x.Explained g journal)
    (hg : ∀ r, g.recipe? x.node = some r → g'.recipe? x.node = some r)
    (hdeeds : deedsOf x.node journal' = deedsOf x.node journal) : x.Explained g' journal' := by
  obtain ⟨r, hr, R⟩ := E
  exact ⟨r, hg r hr, hdeeds.symm ▸ R⟩

end Haybuild
