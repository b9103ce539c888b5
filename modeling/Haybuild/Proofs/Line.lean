import Haybuild.Line
import Haybuild.Proofs.Derivation.Doubled
import Haybuild.Proofs.Text.Comment

/-!
# Flush texts

A text that stands flush at the start of a line is all of the line's content: it starts with neither
a blank nor a marker and does not end with a blank. Doubling dollars and escaping marks keep it so,
and a comment marker that is escaped in it comes back.
-/

namespace Haybuild

/-- Neither the first nor the last character of the text is blank. -/
structure Text.Trimmed (t : Text) : Prop where
  head : t.head?.any isBlank = false
  last : t.getLast?.any isBlank = false

/-- The text has no blanks at its ends and does not start with a marker. -/
structure Flush (t : Text) : Prop extends Text.Trimmed t where
  marker : t.head?.any Line.isMarker = false

variable {t : Text}

namespace Text.Trimmed

theorem trimRight_eq (H : Trimmed t) : trimRight t = t :=
  trimRight_eq_self H.last

theorem trim_eq (H : Trimmed t) : trim t = t :=
  trim_eq_self H.head H.last

theorem blank_eq (H : Trimmed t) (hne : t ≠ []) : blank t = false := by
  obtain ⟨c, r, rfl⟩ := List.exists_cons_of_ne_nil hne
  have hc : isBlank c = false := H.head
  rw [blank, List.all_cons, hc, Bool.false_and]

end Text.Trimmed

namespace Flush

theorem head_ne (H : Flush t) {c : Char} (hc : Text.isBlank c = true ∨ Line.isMarker c = true) :
    t.head? ≠ some c := by
  intro h
  have hblank := H.head
  have hmarker := H.marker
  rw [h, Option.any_some] at hblank hmarker
  simp [hblank, hmarker] at hc

theorem of_head? {t' : Text} (H : Flush t) (hhead : t'.head? = t.head? ∨ t'.head? = some '\\')
    (hlast : t'.getLast? = t.getLast?) : Flush t' := by
  rcases hhead with hhead | hhead
  · exact ⟨⟨hhead ▸ H.head, hlast ▸ H.last⟩, hhead ▸ H.marker⟩
  · exact ⟨⟨hhead ▸ rfl, hlast ▸ H.last⟩, hhead ▸ rfl⟩

theorem doubleDollars (H : Flush t) : Flush (doubleDollars t) :=
  H.of_head? (.inl (head?_doubleDollars t)) (getLast?_doubleDollars t)

theorem escape (H : Flush t) (mark : Char) : Flush (Text.escape mark t) := by
  refine H.of_head? ?_ Text.getLast?_escape
  rw [Text.head?_escape]
  split
  · exact .inr rfl
  · exact .inl rfl

theorem ofText (H : Flush t) : Line.ofText t = ⟨false, false, false, 0, t⟩ := by
  cases t with
  | nil => rfl
  | cons c t =>
    have hmarker : Line.isMarker c = false := H.marker
    have htab : c ≠ '\t' := fun h => H.head_ne (.inl rfl) (congrArg some h)
    have hspace : c ≠ ' ' := fun h => H.head_ne (.inl rfl) (congrArg some h)
    have hindent : Line.indent (c :: t) = 0 := by simp [Line.indent, htab, hspace]
    have hmarkers : Line.markers (c :: t) = [] := by
      rw [Line.markers, hindent]
      exact List.takeWhile_cons_of_neg (by simp [hmarker])
    simp [Line.ofText, hindent, hmarkers, htab]

/-- Behind a tab, a flush text is the content of a shell line. -/
theorem ofText_tab (H : Flush t) : Line.ofText ('\t' :: t) = ⟨true, false, false, 1, t⟩ := by
  have hmarkers : Line.markers ('\t' :: t) = [] := by
    cases t with
    | nil => rfl
    | cons c t =>
      have hmarker : Line.isMarker c = false := H.marker
      exact List.takeWhile_cons_of_neg (by simp [hmarker])
  simp [Line.ofText, Line.indent, hmarkers]

/-- No comment is cut from a flush text with escaped markers. -/
theorem uncommentLine_escape (H : Flush t) :
    Text.uncommentLine ['#'] (Text.escape '#' t) = t := by
  rw [Text.uncommentLine_escape (H.head_ne (.inl rfl)), H.trimRight_eq]

/-- A space behind a flush text is cut off. -/
theorem uncommentLine_escape_space (H : Flush t) (hne : t ≠ []) :
    Text.uncommentLine ['#'] (Text.escape '#' (t ++ [' '])) = t := by
  have hhead : (t ++ [' ']).head? ≠ some '\t' := by
    rw [List.head?_append_of_ne_nil _ hne]
    exact H.head_ne (.inl rfl)
  rw [Text.uncommentLine_escape hhead, Text.trimRight_append_space H.last]

theorem uncommentLine_tab (H : Flush t) (hne : t ≠ []) :
    Text.uncommentLine ['#'] ('\t' :: t) = '\t' :: t := by
  apply Text.trimRight_eq_self
  rw [List.getLast?_cons_of_ne_nil hne]
  exact H.last

end Flush

end Haybuild
