import Haybuild.Proofs.BuildFile.Likeness
import Mathlib.Data.List.TakeWhile

/-!
# The debug marker

A `+` before a line changes what is told about the line and nothing else: derivations end alike with
and without it, and so do lists of lines in which it is put before any of the lines
(`debug_marker_observational`).
-/

namespace Haybuild

namespace Line

variable {t : Text}

/-- The line with the debug marker in front of its markers and its content. -/
def debugged (t : Text) : Text :=
  t.take (indent t) ++ '+' :: t.drop (indent t)

theorem indent_of_head_ne (h : t.head? ≠ some '\t') :
    indent t = (t.takeWhile (· = ' ')).length := by
  rw [indent]
  intro r hr
  simp [hr] at h

theorem take_indent (h : t.head? ≠ some '\t') : t.take (indent t) = t.takeWhile (· = ' ') := by
  rw [indent_of_head_ne h]
  exact (List.prefix_iff_eq_take.1 (List.takeWhile_prefix _)).symm

theorem indent_le_length (t : Text) : indent t ≤ t.length := by
  by_cases h : t.head? = some '\t'
  · obtain ⟨r, rfl⟩ := List.head?_eq_some_iff.1 h
    exact Nat.le_add_left 1 r.length
  · rw [indent_of_head_ne h]
    exact (List.takeWhile_prefix _).length_le

theorem head_debugged (t : Text) : (debugged t).head? = some '\t' ↔ t.head? = some '\t' := by
  by_cases h : t.head? = some '\t'
  · obtain ⟨r, rfl⟩ := List.head?_eq_some_iff.1 h
    exact iff_of_true rfl rfl
  · refine iff_of_false ?_ h
    rw [debugged, take_indent h]
    cases t with
    | nil => simp
    | cons d r => by_cases hd : d = ' ' <;> simp [hd]

theorem indent_debugged (t : Text) : indent (debugged t) = indent t := by
  by_cases h : t.head? = some '\t'
  · obtain ⟨r, rfl⟩ := List.head?_eq_some_iff.1 h
    rfl
  · have hspaces : ∀ d ∈ t.takeWhile (· = ' '), decide (d = ' ') = true :=
      fun _ hd => List.mem_takeWhile_imp (p := fun d => decide (d = ' ')) hd
    rw [indent_of_head_ne (mt (head_debugged t).1 h), debugged, take_indent h,
      List.takeWhile_append_of_pos hspaces, List.takeWhile_cons_of_neg (by decide),
      List.append_nil, indent_of_head_ne h]

theorem drop_debugged (t : Text) : (debugged t).drop (indent t) = '+' :: t.drop (indent t) :=
  List.drop_left' (List.length_take_of_le (indent_le_length t))

theorem markers_debugged (t : Text) : markers (debugged t) = '+' :: markers t := by
  rw [markers, indent_debugged, drop_debugged]
  rfl

/-- The debug marker is one marker more, and changes nothing else about a line. -/
theorem ofText_debugged (t : Text) :
    ofText (debugged t) = { ofText t with debug := true, split := (ofText t).split + 1 } := by
  have hsplit : indent t + ('+' :: markers t).length = indent t + (markers t).length + 1 := rfl
  have hcontent : (debugged t).drop (indent t + (markers t).length + 1) =
      t.drop (indent t + (markers t).length) := by
    rw [Nat.add_assoc, ← List.drop_drop, drop_debugged, List.drop_succ_cons, List.drop_drop]
  have hshell : decide ((debugged t).head? = some '\t') = decide (t.head? = some '\t') :=
    decide_eq_decide.2 (head_debugged t)
  rw [ofText, indent_debugged, markers_debugged, hsplit, hcontent, hshell]
  simp [ofText]

end Line

namespace BuildFile

variable {σ : Type}

/-- What the debug marker leaves as it is: of a command its text, its place but for the column, and
its neglect marker, and of a diagnostic its kind and its place but for the column. -/
def Blur.marker : Blur where
  filename := id
  command cmd := { cmd with debug := false, source := [], column := 0 }
  diagnostic d := { d with message := [], text := [], column := 0, notes := [] }
  command_congr := by
    rintro cmd f f' rfl
    rfl
  diagnostic_congr := by
    rintro d f f' rfl
    rfl

theorem contentOf_debugged (source : Text) :
    contentOf (Line.debugged source) = contentOf source := by
  rw [contentOf, contentOf, Line.ofText_debugged]

theorem blank_debugged (source : Text) : Text.blank (Line.debugged source) = false := by
  have hplus : '+' ∈ Line.debugged source := List.mem_append_right _ List.mem_cons_self
  exact List.all_eq_false.2 ⟨'+', hplus, by decide⟩

theorem twins_debugged {source : Text} (hblank : Text.blank source = false) (number : Nat) :
    Blur.marker.Twins (Line.debugged source) number source number where
  blank := (blank_debugged source).trans hblank.symm
  tab := Line.head_debugged source
  neglect := by rw [Line.ofText_debugged]
  content := contentOf_debugged source
  command := by
    rintro f f' hf
    obtain rfl : f = f' := hf
    simp only [Blur.marker, commandOf, contentOf_debugged, Line.ofText_debugged]
  stray := by
    rintro f f' rfl
    rfl
  subcall := by
    rintro f f' e e' rfl -
    rfl
  inclusion := by
    rintro f f' derived message offset rfl
    rfl
  malformed := by
    rintro f f' derived e rfl
    rfl

/-- Lines of which some get the debug marker: those at the marked places that are not blank. -/
def debugLines (marked : Nat → Bool) (lines : List Text) : List Text :=
  lines.mapIdx fun i source =>
    if marked i && !Text.blank source then Line.debugged source else source

theorem twinLines_debugLines (marked : Nat → Bool) (number : Nat) (lines : List Text) :
    Blur.marker.TwinLines number (debugLines marked lines) number lines := by
  induction lines generalizing marked number with
  | nil => exact .nil
  | cons source lines ih =>
    rw [debugLines, List.mapIdx_cons]
    refine .cons ?_ (ih (fun i => marked (i + 1)) (number + 1))
    split
    · next hmarked =>
      have hblank : Text.blank source = false := by
        simpa using (Bool.and_eq_true_iff.1 hmarked).2
      exact twins_debugged hblank number
    · exact .refl _ source number

/-- The debug marker is there to be looked at. A text derived in debug mode asks the same questions
as without, has the same value if it has one, and fails with the same reference and trace and a
message that goes on where the other one ends. Lines with the marker put before any of them are read
to their end whenever they are without, with the same variables and, up to the marker, the same
recipes; otherwise both are stopped by the same fault, or by errors of one kind on one line. -/
theorem debug_marker_observational (h : Host σ) :
    (∀ vars t s,
      let loud := h.derive (derive vars true t) s
      let quiet := h.derive (derive vars false t) s
      loud.2 = quiet.2 ∧
        ((∃ fault, loud.1 = .error fault ∧ quiet.1 = .error fault) ∨
          (∃ value, loud.1 = .ok (.ok value) ∧ quiet.1 = .ok (.ok value)) ∨
          ∃ e e', loud.1 = .ok (.error e) ∧ quiet.1 = .ok (.error e') ∧
            e.reference = e'.reference ∧ e.trace = e'.trace ∧ e'.message <+: e.message)) ∧
    ∀ depth filename s lines marked,
      let loud := processLines h (processFile h depth) 1 (debugLines marked lines)
        (.start filename s)
      let quiet := processLines h (processFile h depth) 1 lines (.start filename s)
      loud.2.map Blur.marker.halt = quiet.2.map Blur.marker.halt ∧
        (quiet.2 = none → loud.1.context.vars = quiet.1.context.vars ∧
          loud.1.context.recipes.map Blur.marker.recipe =
            quiet.1.context.recipes.map Blur.marker.recipe) := by
  constructor
  · intro vars t s loud quiet
    rcases (agree_derive vars true false t).onHost h s with
      ⟨fault, s', hloud, hquiet⟩ | ⟨value, s', hloud, hquiet⟩ | ⟨e, e', s', he, hloud, hquiet⟩
    · simp only [loud, quiet, hloud, hquiet]
      exact ⟨trivial, .inl ⟨fault, rfl, rfl⟩⟩
    · simp only [loud, quiet, hloud, hquiet]
      exact ⟨trivial, .inr (.inl ⟨value, rfl, rfl⟩)⟩
    · simp only [loud, quiet, hloud, hquiet]
      exact ⟨trivial, .inr (.inr ⟨e, e', rfl, rfl, he.reference, he.trace, he.message_prefix⟩)⟩
  · intro depth filename s lines marked loud quiet
    have H : loud.Alike (Blur.marker.after [] []) quiet :=
      Blur.alike_processLines (twinLines_debugLines marked 1 lines) (.start _ filename s) h depth
    refine ⟨H.halt_eq, fun hread => ?_⟩
    have hst := (H.state hread).context
    exact ⟨hst.vars, hst.recipes⟩

end BuildFile

end Haybuild
