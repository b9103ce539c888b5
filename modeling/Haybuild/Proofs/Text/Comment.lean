import Haybuild.Proofs.Text.Lines

/-!
# Lines that are written with comments

An `Entry` is a line of a source as it is written: a content, whose markers are escaped, perhaps
with a comment behind it, or a command behind a tab. A source that is written entry by entry has one
line for each, and without its comment the line is the content or the command again
(`uncomment_written`).
-/

namespace Haybuild.Text

variable {c : Char} {s t : Text} {ls : List Text}

/-! ## The lines of a source -/

/-- A line feed ends the line before it, whatever comes behind. -/
theorem OneLine.lines_append (H : OneLine t) (s : Text) :
    lines (t ++ '\n' :: s) = t :: lines s := by
  induction t with
  | nil => exact lines_terminator (by decide) fun h => absurd h (by decide)
  | cons c t ih =>
    obtain ⟨hc, ht⟩ := List.forall_mem_cons.1 H
    rw [List.cons_append, lines_cons hc (by simp), ih ht]
    rfl

/-- Lines that are ended one by one are the lines of what they make, empty ones too. -/
theorem lines_flatMap (hls : ∀ l ∈ ls, OneLine l) : lines (ls.flatMap (· ++ ['\n'])) = ls := by
  induction ls with
  | nil => rfl
  | cons l ls ih =>
    obtain ⟨hl, hls⟩ := List.forall_mem_cons.1 hls
    rw [List.flatMap_cons, List.append_assoc, List.singleton_append, hl.lines_append, ih hls]

/-! ## A line without its comment -/

theorem uncommentLine_of_head?_ne (h : t.head? ≠ some '\t') :
    uncommentLine ['#'] t = trimRight (beforeComment ['#'] 0 t) := by
  rw [uncommentLine]
  exact fun r hr => h (congrArg List.head? hr)

theorem head?_escape_append_ne_tab (ht : t.head? ≠ some '\t') (hs : s.head? ≠ some '\t') :
    (escape '#' t ++ s).head? ≠ some '\t' := by
  rw [List.head?_append, head?_escape]
  split
  · exact fun h => absurd (Option.some.inj h) (by decide)
  · rw [Ne, Option.or_eq_some_iff, not_or, not_and]
    exact ⟨ht, fun _ => hs⟩

/-- A comment cannot start at an escaped marker. -/
theorem uncommentLine_escape (ht : t.head? ≠ some '\t') :
    uncommentLine ['#'] (escape '#' t) = trimRight t := by
  have hhead : (escape '#' t ++ []).head? ≠ some '\t' := head?_escape_append_ne_tab ht nofun
  have hbefore : beforeComment ['#'] 0 (escape '#' t ++ []) = t ++ [] :=
    beforeComment_escape_append (by decide) t nofun
  rw [List.append_nil] at hhead hbefore
  rw [uncommentLine_of_head?_ne hhead, hbefore, List.append_nil]

/-- A comment starts at a marker behind a space. -/
theorem uncommentLine_escape_comment (ht : t.head? ≠ some '\t') (comment : Text) :
    uncommentLine ['#'] (escape '#' t ++ ' ' :: '#' :: comment) = trimRight (t ++ [' ']) := by
  have hspace : (' ' :: '#' :: comment).head? ≠ some '#' := by
    rw [List.head?_cons]
    decide
  have hcomment : beforeComment ['#'] 0 (' ' :: '#' :: comment) = [' '] := by
    simp [beforeComment]
  rw [uncommentLine_of_head?_ne (head?_escape_append_ne_tab ht (by simp)),
    beforeComment_escape_append (by decide) t hspace, hcomment]

theorem trimRight_append_space (hlast : t.getLast?.any isBlank = false) :
    trimRight (t ++ [' ']) = t := by
  have hspace : trimRight (t ++ [' ']) = trimRight t := List.rdropWhile_concat_pos _ _ _ rfl
  rw [hspace, trimRight_eq_self hlast]

/-! ## Entries -/

/-- A line to be written: a content, perhaps with a comment, or a command. -/
inductive Entry where
  | content (text : Text) (comment : Option Text)
  | command (text : Text)

namespace Entry

/-- The line of an entry. Markers are escaped in a content, and nowhere else. -/
def written : Entry → Text
  | content t none => escape '#' t
  | content t (some comment) => escape '#' t ++ ' ' :: '#' :: comment
  | command t => '\t' :: t

/-- What is left of the line of an entry. -/
def read : Entry → Text
  | content t _ => t
  | command t => trimRight ('\t' :: t)

/-- The entry can be written on one line. A content has no blanks at its end, which would be cut
off, and no tab at its start, which would make it a command. -/
def Fits : Entry → Prop
  | content t comment =>
    OneLine t ∧ t.getLast?.any isBlank = false ∧ t.head? ≠ some '\t' ∧ ∀ c ∈ comment, OneLine c
  | command t => OneLine t

instance : DecidablePred Fits
  | content t comment => inferInstanceAs <| Decidable <|
    OneLine t ∧ t.getLast?.any isBlank = false ∧ t.head? ≠ some '\t' ∧ ∀ c ∈ comment, OneLine c
  | command t => inferInstanceAs (Decidable (OneLine t))

theorem Fits.oneLine {e : Entry} (H : e.Fits) : OneLine e.written := by
  cases e with
  | content t comment =>
    obtain ⟨ht, -, -, hcomment⟩ := H
    have hescape : OneLine (escape '#' t) := ht.replaceAll (by decide) _
    cases comment with
    | none => exact hescape
    | some comment =>
      refine hescape.append ?_
      exact OneLine.cons (by decide) (OneLine.cons (by decide) (hcomment comment rfl))
  | command t => exact OneLine.cons (by decide) H

theorem Fits.uncommentLine_written {e : Entry} (H : e.Fits) :
    uncommentLine ['#'] e.written = e.read := by
  cases e with
  | content t comment =>
    obtain ⟨-, hlast, htab, -⟩ := H
    cases comment with
    | none =>
      rw [written, uncommentLine_escape htab]
      exact trimRight_eq_self hlast
    | some comment =>
      rw [written, uncommentLine_escape_comment htab, trimRight_append_space hlast]
      rfl
  | command t => rfl

end Entry

/-- A source that is written entry by entry is read entry by entry: each content comes back without
its comment, and each command with all its characters but the blanks at its end. -/
theorem uncomment_written {es : List Entry} (H : ∀ e ∈ es, e.Fits) :
    uncomment ['#'] (es.flatMap fun e => e.written ++ ['\n']) = es.map Entry.read := by
  have hlines : lines (es.flatMap fun e => e.written ++ ['\n']) = es.map Entry.written := by
    rw [← List.flatMap_map Entry.written (· ++ ['\n']),
      lines_flatMap (List.forall_mem_map.2 fun e he => (H e he).oneLine)]
  rw [uncomment, hlines, List.map_map]
  exact List.map_congr_left fun e he => (H e he).uncommentLine_written

/-- Markers behind a backslash and at an end, a comment with an escaped marker, empty contents, and
a command with markers and blanks behind it. -/
def oddEntries : List Entry :=
  [.content "a\\#b#" (some "x \\# y"), .content "" none, .content "" (some ""),
    .command "echo '#1' \\# z  ", .content "tail\\" (some " c")]

theorem uncomment_written_oddEntries :
    (∀ e ∈ oddEntries, e.Fits) ∧
      oddEntries.flatMap (fun e => e.written ++ ['\n']) =
        "a\\\\#b\\# #x \\# y\n\n #\n\techo '#1' \\# z  \ntail\\ # c\n" ∧
      uncomment "#" "a\\\\#b\\# #x \\# y\n\n #\n\techo '#1' \\# z  \ntail\\ # c\n" =
        ["a\\#b#", "", "", "\techo '#1' \\# z", "tail\\"] := by
  have hfits : ∀ e ∈ oddEntries, e.Fits := by decide
  have hsource : oddEntries.flatMap (fun e => e.written ++ ['\n']) =
      "a\\\\#b\\# #x \\# y\n\n #\n\techo '#1' \\# z  \ntail\\ # c\n" := by decide
  have hread : oddEntries.map Entry.read =
      ["a\\#b#", "", "", "\techo '#1' \\# z", "tail\\"] := by decide
  refine ⟨hfits, hsource, ?_⟩
  rw [← hsource, ← hread]
  exact uncomment_written hfits

end Haybuild.Text
