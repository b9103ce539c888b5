import Haybuild.Proofs.Line
import Haybuild.Proofs.Text.Lines
import Haybuild.Variables

/-!
# Names of variables

The characters of a name mean nothing at the start of a line, so what starts with a name is flush
(`IsName.flush_append`), and before a space the name is the only one to be found
(`IsName.namesIn_eq`).
-/

namespace Haybuild

namespace Variables

/-- The text is a name that can be assigned. -/
structure IsName (t : Text) : Prop where
  start : t.head?.any isNameStart = true
  rest : t.all isNameChar = true

instance : DecidablePred IsName := fun t =>
  decidable_of_iff (t.head?.any isNameStart = true ∧ t.all isNameChar = true)
    ⟨fun ⟨start, rest⟩ => ⟨start, rest⟩, fun ⟨start, rest⟩ => ⟨start, rest⟩⟩

variable {c : Char} {name t : Text}

theorem toNat_of_isNameChar (hc : isNameChar c = true) : 48 ≤ c.toNat ∧ c.toNat ≤ 122 := by
  have hle : ∀ a b : Char, a ≤ b ↔ a.toNat ≤ b.toNat := fun _ _ => Iff.rfl
  simp only [isNameChar, isNameStart, Bool.or_eq_true, Bool.and_eq_true, decide_eq_true_eq,
    hle] at hc
  rcases hc with ((⟨h, h'⟩ | ⟨h, h'⟩) | rfl) | ⟨h, h'⟩
  · exact ⟨le_trans (by decide) h, le_trans h' (by decide)⟩
  · exact ⟨le_trans (by decide) h, le_trans h' (by decide)⟩
  · decide
  · exact ⟨le_trans (by decide) h, le_trans h' (by decide)⟩

/-- The characters of a name mean nothing at the start or the end of a line. -/
theorem not_isBlank_of_isNameChar (hc : isNameChar c = true) :
    Text.isBlank c = false ∧ Text.isTerminator c = false ∧ Line.isMarker c = false := by
  obtain ⟨hlow, hhigh⟩ := toNat_of_isNameChar hc
  refine ⟨?_, ?_, ?_⟩
  · simp only [Text.isBlank, Bool.or_eq_false_iff, Bool.and_eq_false_iff, decide_eq_false_iff_not,
      beq_eq_false_iff_ne]
    omega
  · simp only [Text.isTerminator, Bool.or_eq_false_iff, Bool.and_eq_false_iff,
      decide_eq_false_iff_not, beq_eq_false_iff_ne]
    omega
  · have hplus : c ≠ '+' := fun h => absurd (h ▸ hlow) (by decide)
    have hminus : c ≠ '-' := fun h => absurd (h ▸ hlow) (by decide)
    simp [Line.isMarker, hplus, hminus]

namespace IsName

theorem isNameChar (H : IsName name) (hc : c ∈ name) : isNameChar c = true :=
  List.all_eq_true.1 H.rest c hc

theorem notMem (H : IsName name) (hc : Variables.isNameChar c = false) : c ∉ name := fun h =>
  absurd ((H.isNameChar h).symm.trans hc) (by decide)

theorem oneLine (H : IsName name) : Text.OneLine name := fun _ hc =>
  (not_isBlank_of_isNameChar (H.isNameChar hc)).2.1

theorem trimmed (H : IsName name) : name.Trimmed := by
  have hblank : ∀ c ∈ name, Text.isBlank c = false := fun c hc =>
    (not_isBlank_of_isNameChar (H.isNameChar hc)).1
  constructor
  · cases hc : name.head? with
    | none => rfl
    | some c => exact hblank c (List.mem_of_head? hc)
  · cases hc : name.getLast? with
    | none => rfl
    | some c => exact hblank c (List.mem_of_getLast? hc)

/-- What starts with a name and does not end with a blank is flush. -/
theorem flush_append (H : IsName name) (hne : t ≠ [])
    (hlast : t.getLast?.any Text.isBlank = false) : Flush (name ++ t) := by
  cases name with
  | nil => exact absurd H.start (by decide)
  | cons c r =>
    obtain ⟨hblank, -, hmarker⟩ := not_isBlank_of_isNameChar (H.isNameChar List.mem_cons_self)
    refine ⟨⟨hblank, ?_⟩, hmarker⟩
    rw [List.getLast?_append_of_ne_nil _ hne]
    exact hlast

theorem namesFrom_inside {r : Text} (hr : ∀ c ∈ r, Variables.isNameChar c = true) :
    namesFrom true (r ++ [' ']) = (r, []) := by
  induction r with
  | nil => decide
  | cons c r ih =>
    obtain ⟨hc, hr⟩ := List.forall_mem_cons.1 hr
    rw [List.cons_append, namesFrom, ih hr]
    simp [hc]

theorem namesIn_eq (H : IsName name) : namesIn (name ++ [' ']) = [name] := by
  cases name with
  | nil => exact absurd H.start (by decide)
  | cons c r =>
    have hc : isNameStart c = true := H.start
    have hr : ∀ c ∈ r, Variables.isNameChar c = true := fun d hd =>
      H.isNameChar (List.mem_cons_of_mem c hd)
    rw [namesIn, List.cons_append, namesFrom, namesFrom_inside hr]
    simp [hc]

end IsName

end Variables

end Haybuild
