import Haybuild.Error
import Haybuild.Proofs.Text.Escaped

/-!
# Where a text stands in another one

`find?` gives the first place at which a text stands (`find?_eq_some_iff`), so the offset of a text
is right for one of its places if it stands at no place before that one (`offsetOf_eq_iff`).
-/

namespace Haybuild

namespace Text

variable {s t u : Text} {i n : Nat}

/-- The text `u` stands in `t` at an offset. -/
def StandsAt (u t : Text) (i : Nat) : Prop :=
  u <+: t.drop i

instance (u t : Text) : DecidablePred (StandsAt u t) := fun i =>
  inferInstanceAs (Decidable (u <+: t.drop i))

theorem standsAt_append (s u t : Text) : u.StandsAt (s ++ (u ++ t)) s.length := by
  rw [StandsAt, List.drop_left]
  exact List.prefix_append u t

theorem standsAt_of_append_prefix (H : s ++ u <+: t) : u.StandsAt t s.length := by
  obtain ⟨r, rfl⟩ := H
  rw [List.append_assoc]
  exact standsAt_append s u r

/-- What stands in a text stands where that text does, at the sum of the offsets. -/
theorem StandsAt.trans (H : u.StandsAt s i) (H' : s.StandsAt t n) : u.StandsAt t (n + i) := by
  obtain ⟨r, hr⟩ := H'
  rw [StandsAt, ← List.drop_drop, ← hr, List.drop_append]
  exact List.IsPrefix.trans H (List.prefix_append _ _)

theorem StandsAt.lt_length (H : u.StandsAt t i) (hne : u ≠ []) : i < t.length := by
  have hdrop : t.drop i ≠ [] := by
    intro h
    rw [StandsAt, h] at H
    exact hne (List.prefix_nil.1 H)
  simpa using hdrop

/-! ## The first place -/

theorem find?_eq_some_iff : find? u t = some i ↔
    u.StandsAt t i ∧ i ≤ t.length ∧ ∀ j < i, ¬u.StandsAt t j := by
  induction t generalizing i with
  | nil =>
    by_cases hu : u = []
    · simp +contextual [find?, StandsAt, hu, eq_comm]
    · simp [find?, StandsAt, hu]
  | cons c r ih =>
    rw [find?]
    split
    · next hfront =>
      have hfront : u.StandsAt (c :: r) 0 := List.isPrefixOf_iff_prefix.1 hfront
      constructor
      · rintro ⟨⟩
        exact ⟨hfront, Nat.zero_le _, nofun⟩
      · rintro ⟨-, -, hfirst⟩
        by_contra hi
        exact hfirst 0 (Nat.pos_of_ne_zero fun h => hi (h ▸ rfl)) hfront
    · next hfront =>
      have hfront : ¬u.StandsAt (c :: r) 0 := fun h => hfront (List.isPrefixOf_iff_prefix.2 h)
      cases i with
      | zero => simp [hfront]
      | succ i =>
        simp only [Option.map_eq_some_iff, Nat.add_right_cancel_iff, exists_eq_right, ih]
        refine and_congr Iff.rfl (and_congr (by simp) ⟨fun h j hj => ?_, fun h j hj => ?_⟩)
        · cases j with
          | zero => exact hfront
          | succ j => exact h j (Nat.lt_of_succ_lt_succ hj)
        · exact h (j + 1) (Nat.succ_lt_succ hj)

theorem exists_find?_eq_some (h : u.StandsAt t i) (hi : i ≤ t.length) :
    ∃ j ≤ i, find? u t = some j := by
  induction i using Nat.strong_induction_on with
  | _ i ih =>
    by_cases hfirst : ∀ j < i, ¬u.StandsAt t j
    · exact ⟨i, le_rfl, find?_eq_some_iff.2 ⟨h, hi, hfirst⟩⟩
    · obtain ⟨j, hj, hstands⟩ : ∃ j < i, u.StandsAt t j := by simpa using hfirst
      obtain ⟨k, hk, hfind⟩ := ih j hj hstands (hj.le.trans hi)
      exact ⟨k, hk.trans hj.le, hfind⟩

end Text

open Text

variable {s t u : Text} {i : Nat}

theorem offsetOf_le (hne : u ≠ []) (h : u.StandsAt t i) : offsetOf u t ≤ i := by
  obtain ⟨j, hj, hfind⟩ := exists_find?_eq_some h (h.lt_length hne).le
  rw [offsetOf, if_neg hne, hfind]
  exact hj

/-- The offset of a text is that of one of its places if it stands nowhere before it. -/
theorem offsetOf_eq_iff (hne : u ≠ []) (h : u.StandsAt t i) :
    offsetOf u t = i ↔ ∀ j < i, ¬u.StandsAt t j := by
  have hi := (h.lt_length hne).le
  obtain ⟨k, hk, hfind⟩ := exists_find?_eq_some h hi
  rw [offsetOf, if_neg hne, hfind, Option.getD_some]
  constructor
  · rintro rfl
    exact (find?_eq_some_iff.1 hfind).2.2
  · exact fun hfirst => Option.some.inj (hfind.symm.trans (find?_eq_some_iff.2 ⟨h, hi, hfirst⟩))

end Haybuild
