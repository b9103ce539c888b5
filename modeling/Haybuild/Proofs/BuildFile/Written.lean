import Haybuild.Proofs.BuildFile.Section
import Haybuild.Proofs.BuildFile.Sequence
import Haybuild.Proofs.NameMap
import Haybuild.Proofs.Rule
import Haybuild.Proofs.Variables

/-!
# Lines that are written for a meaning

Every rule and every variable value can be written. The decoders of a line run one after the other:
comments, assignments, escaped equality signs, references and quotes. Each of them takes its own
escapes away and leaves those of the decoders after it, so a text that was escaped in the opposite
order comes back (`rule_writable`, `assignments_writable`).
-/

namespace Haybuild

namespace BuildFile

variable {σ : Type} {h : Host σ} {readFile : Text → Loading σ → Outcome σ} {number : Nat}
  {st : Loading σ} {filename source line t : Text} {s : σ} {targets prerequisites : List Text}

/-- A line behind a source that loads is read in the state that the source leaves. -/
theorem loadText_append (hload : loadText h filename source s = (st, none))
    (hline : Text.OneLine line) (hne : line ≠ []) :
    loadText h filename (Text.terminated source ++ line) s =
      processLine h (processFile h (includeLimit h s)) (Text.uncommentLine ['#'] line)
        (1 + (Text.lines source).length) st := by
  have hlines : Text.uncomment "#" (Text.terminated source ++ line) =
      Text.uncomment "#" source ++ [Text.uncommentLine ['#'] line] := by
    rw [Text.uncomment, Text.lines_terminated_append _ hline.head_ne, hline.lines_eq hne,
      List.map_append]
    rfl
  have hlength : (Text.uncomment "#" source).length = (Text.lines source).length :=
    List.length_map _
  rw [loadText] at hload ⊢
  rw [hlines, processLines_append, hload, Outcome.andThen_none, processLines_singleton, hlength]

/-! ## Rules -/

theorem contentOf_eq (H : Flush t) : contentOf t = t := by
  rw [contentOf, H.ofText, H.trim_eq]

/-- A flush text comes back from its derivation if its dollars are doubled and its equality signs
are escaped. -/
theorem derivationOf_escape (H : Flush t) (vars : Variables) :
    derivationOf vars (Text.escape '=' (doubleDollars t)) = .done (doubleDollars t) := by
  have hraw : Text.replaceAll "\\=" "=" (Text.escape '=' (doubleDollars t)) = doubleDollars t :=
    Text.replaceAll_escape (by decide) _
  rw [derivationOf, contentOf_eq (H.doubleDollars.escape '='), hraw, derive_doubleDollars]

/-- What is written so is neither blank nor a shell line nor an assignment. -/
theorem heading_escape (H : Flush t) (hne : t ≠ []) :
    Text.blank (Text.escape '=' (doubleDollars t)) = false ∧
      (Text.escape '=' (doubleDollars t)).head? ≠ some '\t' ∧
      Text.findUnescaped "=" (contentOf (Text.escape '=' (doubleDollars t))) = none := by
  have hflush : Flush (Text.escape '=' (doubleDollars t)) := H.doubleDollars.escape '='
  rw [contentOf_eq hflush]
  exact ⟨hflush.blank_eq (by simpa using hne), hflush.head_ne (.inl rfl),
    Text.findUnescaped_escape (by decide) _⟩

theorem kindOf_escape (H : Flush t) (hne : t ≠ []) :
    kindOf h (Text.escape '=' (doubleDollars t)) st = kindOfDerived t := by
  obtain ⟨hblank, htab, hassign⟩ := heading_escape H hne
  rw [kindOf_heading hblank htab, hassign, derivationOf_escape H, Host.derive]
  exact congrArg kindOfDerived (unescapeDollars_doubleDollars t)

theorem processLine_escape (H : Flush t) (hne : t ≠ []) :
    processLine h readFile (Text.escape '=' (doubleDollars t)) number st =
      derivedLine h readFile
        (Reading.ofSource (Text.escape '=' (doubleDollars t)) number) t (st.derived st.host) := by
  obtain ⟨hblank, htab, hassign⟩ := heading_escape H hne
  rw [processLine_heading hblank htab, hassign, Option.isSome_none, if_neg Bool.false_ne_true,
    deriveLine_eq, derivationOf_escape H, Host.derive]
  dsimp only
  rw [unescapeDollars_doubleDollars]

/-- A name as it can stand between the quotes of a rule line. -/
def encodeName (name : Text) : Text :=
  Text.escape '#' (Text.escape '=' (doubleDollars name))

/-- The line that is written for a rule. -/
def ruleLine (targets prerequisites : List Text) : Text :=
  Rule.written (targets.map encodeName) (prerequisites.map encodeName)

theorem ruleLine_eq (targets prerequisites : List Text) :
    ruleLine targets prerequisites =
      Text.escape '#' (Text.escape '=' (doubleDollars (Rule.written targets prerequisites))) := by
  rw [doubleDollars, Text.escape, Text.escape, Rule.replaceAll_written (by decide),
    Rule.replaceAll_written (by decide), Rule.replaceAll_written (by decide), List.map_map,
    List.map_map, List.map_map, List.map_map]
  rfl

theorem oneLine_ruleLine (hnames : ∀ n ∈ targets ++ prerequisites, Text.OneLine n) :
    Text.OneLine (ruleLine targets prerequisites) := by
  obtain ⟨htargets, hprerequisites⟩ := List.forall_mem_append.1 hnames
  rw [ruleLine_eq]
  exact (((Rule.oneLine_written htargets hprerequisites).replaceAll (by decide) _).replaceAll
    (by decide) _).replaceAll (by decide) _

theorem uncommentLine_ruleLine (hne : targets ≠ []) (prerequisites : List Text) :
    Text.uncommentLine ['#'] (ruleLine targets prerequisites) =
      Text.escape '=' (doubleDollars (Rule.written targets prerequisites)) := by
  have hflush := Rule.flush_written hne prerequisites
  rw [ruleLine_eq, (hflush.doubleDollars.escape '=').uncommentLine_escape]

theorem written_ne_nil (targets prerequisites : List Text) :
    Rule.written targets prerequisites ≠ [] := by
  simp [Rule.written]

theorem isInclude_written (hne : targets ≠ []) (prerequisites : List Text) :
    isInclude (Rule.written targets prerequisites) = false := by
  obtain ⟨n, ns, rfl⟩ := List.exists_cons_of_ne_nil hne
  rw [Rule.written, Rule.join_quoted]
  rfl

/-- A line that is written for a rule is a rule line. -/
theorem kindOf_ruleLine (hne : targets ≠ [])
    (hnames : ∀ n ∈ targets ++ prerequisites, '\'' ∉ n) :
    kindOf h (Text.uncommentLine ['#'] (ruleLine targets prerequisites)) st =
      .rule ⟨targets, prerequisites⟩ := by
  obtain ⟨htargets, hprerequisites⟩ := List.forall_mem_append.1 hnames
  rw [uncommentLine_ruleLine hne, kindOf_escape (Rule.flush_written hne _) (written_ne_nil _ _),
    kindOfDerived, isInclude_written hne, if_neg Bool.false_ne_true,
    Rule.parse_written hne htargets hprerequisites]

/-- Reading a line that is written for a rule opens the rule's recipe. -/
theorem processLine_ruleLine (hne : targets ≠ [])
    (hnames : ∀ n ∈ targets ++ prerequisites, '\'' ∉ n) :
    processLine h readFile (Text.uncommentLine ['#'] (ruleLine targets prerequisites)) number st =
      (st.closed.withContext (st.closed.context.addRecipe ⟨targets, prerequisites, []⟩), none) := by
  obtain ⟨htargets, hprerequisites⟩ := List.forall_mem_append.1 hnames
  rw [uncommentLine_ruleLine hne,
    processLine_escape (Rule.flush_written hne _) (written_ne_nil _ _), derivedLine,
    isInclude_written hne, if_neg Bool.false_ne_true,
    Rule.parse_written hne htargets hprerequisites]
  rfl

/-- Every rule can be written: a line with its names, put behind any source that loads, adds the
recipe of the rule and nothing else. -/
theorem rule_writable (hload : loadText h filename source s = (st, none)) (hne : targets ≠ [])
    (hnames : ∀ n ∈ targets ++ prerequisites, '\'' ∉ n ∧ Text.OneLine n) :
    ∃ st', loadText h filename (Text.terminated source ++ ruleLine targets prerequisites) s =
        (st', none) ∧
      st'.context.recipes = st.context.recipes ++ [⟨targets, prerequisites, []⟩] ∧
      st'.context.vars = st.context.vars ∧ st'.host = st.host ∧ st'.reports = st.reports := by
  have hline : Text.OneLine (ruleLine targets prerequisites) :=
    oneLine_ruleLine fun n hn => (hnames n hn).2
  rw [loadText_append hload hline (written_ne_nil _ _),
    processLine_ruleLine hne fun n hn => (hnames n hn).1]
  exact ⟨_, rfl, rfl, rfl, rfl, rfl⟩

/-- A source that loads, with a variable, a recipe and a command. -/
def oneRecipe : Text := "DIR = out\nall: pie\n\tbake"

theorem loadText_oneRecipe :
    loadText bareHost "Hayfile" oneRecipe () =
      ((loadText bareHost "Hayfile" oneRecipe ()).1, none) :=
  Prod.ext rfl (by decide +kernel)

/-- Names with blanks, marks and backslashes in them, one of them empty. -/
def oddTargets : List Text :=
  ["a b", "#=$", "\\#\\\\=", ""]

/-- A name that would be a reference outside of a rule that is written. -/
def oddPrerequisites : List Text :=
  [":$(DIR)"]

theorem rule_writable_oddTargets : ∃ st',
    loadText bareHost "Hayfile"
      "DIR = out\nall: pie\n\tbake\n'a b' '\\#\\=$$' '\\\\#\\\\\\=' '': ':$$(DIR)'" () =
        (st', none) ∧
      st'.context.recipes =
        [⟨["all"], ["pie"], [⟨"bake", false, 3, false, "Hayfile", "\tbake", 1⟩]⟩,
          ⟨oddTargets, oddPrerequisites, []⟩] := by
  have hrecipes : (loadText bareHost "Hayfile" oneRecipe ()).1.context.recipes =
      [⟨["all"], ["pie"], [⟨"bake", false, 3, false, "Hayfile", "\tbake", 1⟩]⟩] := by
    decide +kernel
  have htext : Text.terminated oneRecipe ++ ruleLine oddTargets oddPrerequisites =
      "DIR = out\nall: pie\n\tbake\n'a b' '\\#\\=$$' '\\\\#\\\\\\=' '': ':$$(DIR)'" := by
    decide +kernel
  have hnames : ∀ n ∈ oddTargets ++ oddPrerequisites, '\'' ∉ n ∧ Text.OneLine n := by decide
  obtain ⟨st', hload, hadded, -⟩ :=
    rule_writable loadText_oneRecipe (List.cons_ne_nil _ _) hnames
  refine ⟨st', htext ▸ hload, ?_⟩
  rw [hadded, hrecipes]
  rfl

/-! ## Assignments -/

open Variables (IsName)

variable {name value w : Text} {pairs : List (Text × Text)}

/-- The line that is written to give a name a value. -/
def assignmentLine (name value : Text) : Text :=
  name ++ " = " ++ Text.escape '#' (Text.escape '=' value)

theorem splitUnescaped_assignment (H : IsName name) (w : Text) :
    Text.splitUnescaped ['='] (name ++ ' ' :: '=' :: Text.escape '=' w) = [name ++ [' '], w] := by
  have hname : ∀ c, Variables.isNameChar c = false → c ≠ ' ' → c ∉ name ++ [' '] := by
    intro c hc hspace
    simpa [hspace] using H.notMem hc
  have hright : Text.splitUnescapedFrom ['='] 0 ('=' :: Text.escape '=' w) = ([], [w]) := by
    rw [Text.splitUnescapedFrom]
    simp [Text.splitUnescapedFrom_escape]
  rw [List.append_cons, Text.splitUnescaped,
    Text.splitUnescapedFrom_append (hname _ rfl (by decide)) (hname _ rfl (by decide)), hright,
    List.append_nil]

theorem assignLine_assignment (H : IsName name) (w : Text) (ctx : Context) :
    ctx.assignLine (name ++ ' ' :: '=' :: Text.escape '=' w) =
      { ctx with vars := ctx.vars.set name (Text.trim w) } := by
  have hsides : Text.splitUnescaped "=" (name ++ ' ' :: '=' :: Text.escape '=' w) =
      [name ++ [' '], w] := splitUnescaped_assignment H w
  rw [Context.assignLine, hsides]
  simp [Context.assignSides, H.namesIn_eq, Variables.assign]

/-- Behind the equality sign of an assignment line stand the value and the space before it, or
nothing, if the value is empty. -/
theorem uncommentLine_assignmentLine (H : IsName name) (hvalue : value.Trimmed) :
    ∃ w, Text.uncommentLine ['#'] (assignmentLine name value) =
        name ++ ' ' :: '=' :: Text.escape '=' w ∧
      ('=' :: Text.escape '=' w).getLast?.any Text.isBlank = false ∧
      Text.trim w = value := by
  have hline : assignmentLine name value =
      Text.escape '#' (name ++ ' ' :: '=' :: ' ' :: Text.escape '=' value) := by
    have hname := Text.escape_of_notMem (H.notMem (c := '#') rfl)
    simp [assignmentLine, Text.escape_append, hname, Text.escape_cons_of_ne]
  rw [hline]
  -- the space behind the equality sign ends the line of an empty value and is trimmed with it
  by_cases hempty : value = []
  · subst hempty
    refine ⟨[], ?_, by decide, rfl⟩
    have hflush : Flush (name ++ [' ', '=']) := H.flush_append (by decide) (by decide)
    have hsplit : name ++ ' ' :: '=' :: ' ' :: Text.escape '=' [] =
        name ++ [' ', '='] ++ [' '] := by
      simp [Text.escape_of_notMem]
    rw [hsplit, hflush.uncommentLine_escape_space (by simp)]
    rfl
  · have hspace : Text.escape '=' (' ' :: value) = ' ' :: Text.escape '=' value :=
      Text.escape_cons_of_ne (by decide) value
    have hlast : ('=' :: Text.escape '=' (' ' :: value)).getLast?.any Text.isBlank = false := by
      rw [List.getLast?_cons_of_ne_nil (by simp [hspace]), Text.getLast?_escape,
        List.getLast?_cons_of_ne_nil hempty]
      exact hvalue.last
    refine ⟨' ' :: value, ?_, hlast, hvalue.trim_eq⟩
    have hflush : Flush (name ++ ' ' :: '=' :: Text.escape '=' (' ' :: value)) :=
      H.flush_append (by simp) (by simpa using hlast)
    rw [← hspace, hflush.uncommentLine_escape]

theorem processLine_assignment (H : IsName name)
    (hlast : ('=' :: Text.escape '=' w).getLast?.any Text.isBlank = false) :
    processLine h readFile (name ++ ' ' :: '=' :: Text.escape '=' w) number st =
      (st.closed.withContext
        { st.closed.context with vars := st.context.vars.set name (Text.trim w) }, none) := by
  have hne : name ++ ' ' :: '=' :: Text.escape '=' w ≠ [] := by simp
  have hflush : Flush (name ++ ' ' :: '=' :: Text.escape '=' w) :=
    H.flush_append (by simp) (by simpa using hlast)
  have hassign : (Text.findUnescaped "=" (name ++ ' ' :: '=' :: Text.escape '=' w)).isSome :=
    Text.isSome_findUnescaped (by decide) name _
  rw [processLine_heading (hflush.blank_eq hne) (hflush.head_ne (.inl rfl)), contentOf_eq hflush,
    if_pos hassign, assignLine_assignment H]
  rfl

theorem oneLine_assignmentLine (H : IsName name) (hvalue : Text.OneLine value) :
    Text.OneLine (assignmentLine name value) :=
  (H.oneLine.append (by decide)).append ((hvalue.replaceAll (by decide) _).replaceAll (by decide) _)

/-- Lines that are written for assignments assign one after the other and do nothing else. -/
theorem processLines_assignments (h : Host σ) (readFile : Text → Loading σ → Outcome σ)
    (hpairs : ∀ p ∈ pairs, IsName p.1 ∧ p.2.Trimmed) (number : Nat) (st : Loading σ) :
    ∃ st', processLines h readFile number
        (pairs.map fun p => Text.uncommentLine ['#'] (assignmentLine p.1 p.2)) st = (st', none) ∧
      st'.context.vars = pairs.foldl (fun m p => m.set p.1 p.2) st.context.vars ∧
      st'.context.recipes = st.context.recipes ∧ st'.host = st.host ∧ st'.reports = st.reports := by
  -- over any state, since a line is read with the variables that the lines before it leave
  induction pairs generalizing number st with
  | nil => exact ⟨st, rfl, rfl, rfl, rfl, rfl⟩
  | cons p pairs ih =>
    obtain ⟨⟨hname, hvalue⟩, hpairs⟩ := List.forall_mem_cons.1 hpairs
    obtain ⟨w, hline, hlast, htrim⟩ := uncommentLine_assignmentLine hname hvalue
    rw [List.map_cons, processLines_cons, hline, processLine_assignment hname hlast,
      Outcome.andThen_none, htrim]
    exact ih hpairs (number + 1) _

/-- Every variable value can be written: lines that are written for pairs of names and values load
to the variables that have each name at the place of its first pair and with the value of its last
one. -/
theorem assignments_writable
    (hpairs : ∀ p ∈ pairs, IsName p.1 ∧ p.2.Trimmed ∧ Text.OneLine p.2) (h : Host σ)
    (filename : Text) (s : σ) :
    ∃ st, loadText h filename
        (Text.join ['\n'] (pairs.map fun p => assignmentLine p.1 p.2)) s = (st, none) ∧
      st.context.recipes = [] ∧ st.host = s ∧ st.reports = [] ∧
      st.context.vars.names = (pairs.map Prod.fst).eraseDups ∧
      ∀ name, st.context.vars.get? name = pairs.reverse.lookup name := by
  have hlines : Text.lines (Text.join ['\n'] (pairs.map fun p => assignmentLine p.1 p.2)) =
      pairs.map fun p => assignmentLine p.1 p.2 := by
    refine Text.lines_join (List.forall_mem_map.2 fun p hp => ⟨?_, by simp [assignmentLine]⟩)
    exact oneLine_assignmentLine (hpairs p hp).1 (hpairs p hp).2.2
  obtain ⟨st, hload, hvars, hrecipes, hhost, hreports⟩ :=
    processLines_assignments h (processFile h (includeLimit h s))
      (fun p hp => ⟨(hpairs p hp).1, (hpairs p hp).2.1⟩) 1 (.start filename s)
  have hmap : st.context.vars = NameMap.ofPairs pairs := hvars
  refine ⟨st, ?_, hrecipes, hhost, hreports, ?_, ?_⟩
  · rw [loadText, Text.uncomment, hlines, List.map_map]
    exact hload
  · rw [hmap, NameMap.names_ofPairs]
  · intro name
    rw [hmap, NameMap.get?_ofPairs]

/-- Two variables, one of them given a second value, with marks, quotes and backslashes. -/
def oddPairs : List (Text × Text) :=
  [("A", "$(B) = \\#'"), ("_b1", []), ("A", "\\\\= \\")]

theorem assignments_writable_oddPairs : ∃ st,
    loadText bareHost "Hayfile" "A = $(B) \\= \\\\#'\n_b1 = \nA = \\\\\\= \\" () = (st, none) ∧
      st.context.recipes = [] ∧ st.context.vars.names = ["A", "_b1"] ∧
      st.context.vars.get? "A" = some "\\\\= \\" ∧ st.context.vars.get? "_b1" = some [] := by
  have hpairs : ∀ p ∈ oddPairs, IsName p.1 ∧ p.2.Trimmed ∧ Text.OneLine p.2 := by
    simp only [oddPairs, List.forall_mem_cons]
    exact ⟨⟨⟨by decide, by decide⟩, ⟨by decide, by decide⟩, by decide⟩,
      ⟨⟨by decide, by decide⟩, ⟨by decide, by decide⟩, by decide⟩,
      ⟨⟨by decide, by decide⟩, ⟨by decide, by decide⟩, by decide⟩, nofun⟩
  have htext : Text.join ['\n'] (oddPairs.map fun p => assignmentLine p.1 p.2) =
      "A = $(B) \\= \\\\#'\n_b1 = \nA = \\\\\\= \\" := by
    decide +kernel
  obtain ⟨st, hload, hrecipes, -, -, hnames, hvalues⟩ :=
    assignments_writable hpairs bareHost "Hayfile" ()
  refine ⟨st, htext ▸ hload, hrecipes, hnames.trans ?_, (hvalues "A").trans ?_,
    (hvalues "_b1").trans ?_⟩
  · decide +kernel
  · decide +kernel
  · decide +kernel

end BuildFile

end Haybuild
