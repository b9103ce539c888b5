import Haybuild.Text.Order

/-!
# Laws of sorting

Sorting keeps every text, repeated ones included, and puts them in ascending order.
-/

namespace Haybuild.Text

theorem perm_insert (t : Text) (ts : List Text) : (insert t ts).Perm (t :: ts) := by
  induction ts with
  | nil => exact .refl _
  | cons u r ih =>
    rw [insert]
    split
    · exact (ih.cons u).trans (.swap t u r)
    · exact .refl _

theorem perm_sort (ts : List Text) : (sort ts).Perm ts := by
  induction ts with
  | nil => exact .refl _
  | cons t ts ih => exact (perm_insert t _).trans (ih.cons t)

theorem pairwise_insert {t : Text} {ts : List Text} (h : ts.Pairwise fun u v => ¬v < u) :
    (insert t ts).Pairwise fun u v => ¬v < u := by
  induction ts with
  | nil => exact List.pairwise_singleton _ _
  | cons u r ih =>
    obtain ⟨hu, hr⟩ := List.pairwise_cons.1 h
    rw [insert]
    split
    · next hut =>
      refine List.pairwise_cons.2 ⟨fun v hv => ?_, ih hr⟩
      rcases List.mem_cons.1 ((perm_insert t r).mem_iff.1 hv) with rfl | hv
      · exact List.lt_asymm hut
      · exact hu v hv
    · next hut =>
      refine List.pairwise_cons.2 ⟨fun v hv => ?_, h⟩
      rcases List.mem_cons.1 hv with rfl | hv
      · exact hut
      · exact List.le_trans hut (hu v hv)

theorem pairwise_sort (ts : List Text) : (sort ts).Pairwise fun u v => ¬v < u := by
  induction ts with
  | nil => exact .nil
  | cons t ts ih => exact pairwise_insert ih

end Haybuild.Text
