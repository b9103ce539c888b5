import Haybuild.Proofs.BuildFile.Likeness
import Haybuild.Proofs.BuildFile.Section
import Haybuild.Proofs.Derivation.Settled
import Haybuild.Proofs.Path
import Haybuild.Proofs.Text.Plain

/-!
# Including is inlining

An include line reads the file that it names as if the lines of the file stood in its place, between
lines that belong to no recipe of other lines (`include_inlines`). What the file leaves behind does
not depend on its name, on the numbers of its lines and on the file being read at the same time,
unless it is asked for again.
-/

namespace Haybuild

theorem pieces_append_of_notMem {s : Text} (hs : '$' ∉ s) (t : Text) :
    pieces (s ++ t) = s.map .literal ++ pieces t := by
  induction s with
  | nil => rfl
  | cons c s ih =>
    obtain ⟨hc, hs⟩ := List.ne_and_not_mem_of_not_mem_cons hs
    rw [List.cons_append, pieces_cons_of_ne hc.symm, ih hs]
    rfl

theorem literal_of_notMem {t : Text} (h : '$' ∉ t) : ∀ p ∈ pieces t, ∃ c, p = .literal c := by
  have hpieces := pieces_append_of_notMem h []
  rw [List.append_nil, pieces_nil, List.append_nil] at hpieces
  rw [hpieces]
  exact List.forall_mem_map.2 fun c _ => ⟨c, rfl⟩

section

variable {t : Text}

theorem settled_of_literal (h : ∀ p ∈ pieces t, ∃ c, p = .literal c) : Settled t := by
  intro p hp
  obtain ⟨c, rfl⟩ := h p hp
  exact fun _ => rfl

theorem unescapeDollars_of_literal (h : ∀ p ∈ pieces t, ∃ c, p = .literal c) :
    unescapeDollars t = t := by
  have hsaid : ∀ p ∈ pieces t, p.said = p.source := by
    intro p hp
    obtain ⟨c, rfl⟩ := h p hp
    rfl
  rw [unescapeDollars_of_settled (settled_of_literal h), List.flatMap_congr hsaid,
    flatMap_source_pieces]

end

/-- A path that an include line can name as it stands: it has no blanks, quotes and `=`, and no
dollars that mean something. -/
structure Path.Plain (p : Text) : Prop where
  ne_nil : p ≠ []
  solid : ∀ c ∈ p, Text.isBlank c = false
  unquoted : '\'' ∉ p
  unassigned : '=' ∉ p
  literal : ∀ q ∈ pieces p, ∃ c, q = .literal c

namespace BuildFile

variable {σ : Type}

/-- The line that includes a file. -/
def includeLine (path : Text) : Text :=
  includeWord ++ ' ' :: path

section

variable {path : Text} {c : Char}

theorem notMem_includeLine (hword : c ∉ includeWord ++ [' ']) (hpath : c ∉ path) :
    c ∉ includeLine path := by
  rw [includeLine, List.append_cons]
  exact fun h => (List.mem_append.1 h).elim hword hpath

theorem ofText_includeLine (path : Text) :
    Line.ofText (includeLine path) = ⟨false, false, false, 0, includeLine path⟩ := rfl

theorem contentOf_includeLine (hpath : Path.Plain path) :
    contentOf (includeLine path) = includeLine path := by
  have hlast : (includeLine path).getLast? = path.getLast? := by
    rw [includeLine, List.append_cons, List.getLast?_append_of_ne_nil _ hpath.ne_nil]
  rw [contentOf, ofText_includeLine]
  apply Text.trim_eq_self
  · rfl
  · rw [hlast, Option.any_eq_false]
    intro c hc
    exact hpath.solid c (List.mem_of_getLast? hc)

theorem literal_includeLine (hpath : Path.Plain path) :
    ∀ p ∈ pieces (includeLine path), ∃ c, p = .literal c := by
  rw [includeLine, List.append_cons, pieces_append_of_notMem (by decide)]
  exact List.forall_mem_append.2 ⟨List.forall_mem_map.2 fun c _ => ⟨c, rfl⟩, hpath.literal⟩

theorem derivationOf_includeLine (hpath : Path.Plain path) (vars : Variables) :
    derivationOf vars (includeLine path) = .done (includeLine path) := by
  have hraw : Text.replaceAll "\\=" "=" (includeLine path) = includeLine path :=
    Text.replaceAll_of_notMem _ (c := '=') (by decide)
      (notMem_includeLine (by decide) hpath.unassigned)
  rw [derivationOf, contentOf_includeLine hpath, hraw]
  exact derive_of_settled vars _ (settled_of_literal (literal_includeLine hpath))

theorem splitBalanced_includeLine (hpath : Path.Plain path) :
    (Text.splitBalanced " " "'" (includeLine path)).drop 1 = [⟨8, path⟩] := by
  have hspace : ' ' ∉ path := fun h => absurd (hpath.solid _ h) (by decide)
  have hpair : Text.splitBalanced [' '] ['\''] (includeLine path) = [⟨0, includeWord⟩, ⟨8, path⟩] :=
    Text.splitBalanced_pair (by decide) hpath.ne_nil (by decide)
      (fun h => (List.mem_append.1 h).elim (by decide) hspace)
      (fun h => (List.mem_append.1 h).elim (by decide) hpath.unquoted)
  exact congrArg (List.drop 1) hpair

theorem isInclude_includeLine (path : Text) : isInclude (includeLine path) = true := by
  have hprefix : includeWord ++ [' '] <+: includeLine path := by
    rw [includeLine, List.append_cons]
    exact List.prefix_append _ path
  rw [isInclude, Bool.or_eq_true_iff]
  exact .inr (List.isPrefixOf_iff_prefix.2 hprefix)

end

variable {h : Host σ} {readFile : Text → Loading σ → Outcome σ} {path source : Text} {number : Nat}
  {st : Loading σ}

/-- An include line reads the file that it names. -/
theorem processLine_includeLine (hpath : Path.Plain path)
    (hfile : h.hasFile st.host path = true)
    (hnew : Path.absolute h.directory path ∉ st.context.includeStack) :
    processLine h readFile (includeLine path) number st = readFile path st.closed := by
  have hassign : Text.findUnescaped "=" (includeLine path) = none :=
    Text.findUnescaped_of_notMem (notMem_includeLine (by decide) hpath.unassigned)
  have hquote : Text.unquote "'" path = path :=
    Text.replaceAll_of_notMem [] List.mem_cons_self hpath.unquoted
  have hproblem : includeProblem? h st.closed path = none :=
    includeProblem?_eq_none_iff.2 ⟨hfile, hnew⟩
  have hderive : h.derive (derivationOf st.context.vars (includeLine path)) st.host =
      (.ok (.ok (includeLine path)), st.host) := by
    rw [derivationOf_includeLine hpath]
    rfl
  have hone : includeOne h readFile (Reading.ofSource (includeLine path) number) (includeLine path)
      ⟨8, path⟩ st.closed = readFile path st.closed := by
    rw [includeOne, hquote, hproblem]
  have hdone : (readFile path st.closed).andThen (includeAll h readFile
      (Reading.ofSource (includeLine path) number) (includeLine path) []) =
      readFile path st.closed := by
    rcases readFile path st.closed with ⟨st', _ | halt⟩ <;> rfl
  rw [processLine_heading rfl (by rintro ⟨⟩), contentOf_includeLine hpath, hassign, deriveLine_eq,
    hderive]
  dsimp only
  rw [unescapeDollars_of_literal (literal_includeLine hpath), derivedLine, if_neg (by simp),
    if_pos (isInclude_includeLine path), splitBalanced_includeLine hpath, includeAll_cons]
  exact (congrArg (Outcome.andThen · _) hone).trans hdone

/-! ## The lines of the file in its place -/

/-- What does not depend on the file that a line stands in and on its number. -/
def Blur.place : Blur where
  filename _ := []
  command cmd := { cmd with filename := [], line := 0 }
  diagnostic d := { d with filename := [], line := 0 }
  command_congr _ _ _ _ := rfl
  diagnostic_congr _ _ _ _ := rfl

theorem Blur.unnumbered_place : Blur.place.Unnumbered where
  command _ _ _ := rfl
  diagnostic _ _ _ := rfl

/-- What may differ while a file is read and while its lines are read without it. -/
def Contrast.inside (p : Text) (told : List Diagnostic) : Contrast :=
  { Blur.place with hidden := (· = p), told, told' := told }

theorem alike_entered (h : Host σ) (path : Text) (st : Loading σ) :
    (st.entered h path).Alike (.inside (Path.absolute h.directory path) st.reports) st where
  context :=
    { Context.Alike.refl _ st.context with
      stack := by
        intro p hp
        have hne : p ≠ Path.absolute h.directory (Path.display path) := by
          rw [Path.absolute_display]
          exact hp
        exact ⟨fun h => (List.mem_append.1 h).resolve_right fun h => hne (List.mem_singleton.1 h),
          List.mem_append_left _⟩ }
  host := rfl
  reports := ⟨[], [], (List.append_nil _).symm, (List.append_nil _).symm, rfl⟩

/-- After a file, the files being read are those that were being read before. -/
theorem alike_left {outer : Context} {p : Text} {told : List Diagnostic} {o o' : Outcome σ}
    (H : o.Alike (.inside p told) o')
    (hleft : o.1.context.includeStack.dropLast = outer.includeStack)
    (hstack : o'.1.context.includeStack = outer.includeStack) :
    (leaveFile outer.filename o).Alike (Blur.place.after told told) o'.closed := by
  cases H with
  | stopped hst hhalt => exact .stopped ⟨hst.host, hst.reports⟩ hhalt
  | read hst =>
    exact .read ⟨⟨hst.host, hst.reports⟩, ⟨rfl, hst.context.vars, hst.context.recipes, rfl, rfl,
      fun p _ => iff_of_eq (congrArg (p ∈ ·) (hleft.trans hstack.symm))⟩⟩

/-- Reading the file that an include line names leaves what its lines leave in its place. -/
theorem alike_includeLine {depth number' : Nat} (hpath : Path.Plain path)
    (hfile : h.hasFile st.host path = true)
    (hread : h.readText st.host (Path.display path) = .ok source)
    (hnew : Path.absolute h.directory path ∉ st.context.includeStack)
    (honce : ∀ m ∈ fileMoments h (depth + 1) path st.closed,
      m.Avoids h (· = Path.absolute h.directory path))
    (houtside : StartsOutside (Text.uncomment "#" source)) :
    (processLine h (processFile h (depth + 1)) (includeLine path) number st).Alike
      (Blur.place.after st.reports st.reports)
      (processLines h (processFile h depth) number' (Text.uncomment "#" source) st).closed := by
  have hread' : h.readText st.closed.host (Path.display path) = .ok source := hread
  rw [fileMoments, hread'] at honce
  rw [processLine_includeLine hpath hfile hnew, processFile_succ, hread',
    closed_processLines houtside]
  have hlines := alike_processLines (likeFiles_processFile _ h depth)
    (Blur.unnumbered_place.twinLines 1 number' (Text.uncomment "#" source))
    (alike_entered h path st.closed) honce
  have hkeeps := keepsStack_processFile h depth
  exact alike_left hlines (hkeeps.dropLast_processLines h path 1 _ st.closed)
    (hkeeps.processLines h number' _ st.closed)

/-- Lines that start outside of a recipe are read behind the file as behind its lines. -/
theorem alike_behind {o o' : Outcome σ} {told : List Diagnostic} {lines : List Text}
    (H : o.Alike (Blur.place.after told told) o'.closed) (houtside : StartsOutside lines)
    (depth number number' : Nat) :
    (o.andThen (processLines h (processFile h depth) number lines)).closed.Alike
      (Blur.place.after told told)
      (o'.andThen (processLines h (processFile h depth) number' lines)).closed := by
  obtain ⟨st', _ | halt⟩ := o'
  · cases H with
    | read hst =>
      rw [Outcome.andThen_none, Outcome.andThen_none, closed_processLines houtside number' st']
      exact (Blur.alike_processLines (Blur.unnumbered_place.twinLines _ _ _) hst h depth).closed
  · cases H with
    | stopped hst hhalt => exact .stopped ⟨hst.host, hst.reports⟩ hhalt

/-- Lines of which none derives to an include ask for no files. -/
theorem avoids_of_no_inclusion {hidden : Text → Prop} {lines : List Text}
    (hincl : ∀ e ∈ entries h readFile number lines st, e.kind.isInclusion = false)
    (readFile' : Text → Loading σ → Outcome σ) (inside : Text → Loading σ → List (Moment σ)) :
    ∀ m ∈ linesMoments h readFile' inside number lines st, m.Avoids h hidden := by
  induction lines generalizing number st with
  | nil => exact List.forall_mem_nil _
  | cons source lines ih =>
    rw [entries] at hincl
    obtain ⟨hfirst, hincl⟩ := List.forall_mem_cons.1 hincl
    rcases processLine_cases h source number st with ⟨derived, hkind, -⟩ | ⟨hkind, out, -, hline⟩
    · rw [hkind] at hfirst
      cases hfirst
    · have hmoments : lineMoments h readFile' inside source number st =
          [.line source number st] := by
        rw [lineMoments]
        cases hkind' : kindOf h source st with
        | inclusion derived => exact absurd hkind' (hkind derived)
        | _ => rfl
      rw [hline] at hincl
      rw [linesMoments, hmoments, hline]
      refine List.forall_mem_cons.2 ⟨trivial, ?_⟩
      obtain ⟨st', _ | halt⟩ := out
      · exact ih hincl
      · exact List.forall_mem_nil _

/-- Where an include line names a file that can be read, and that is not asked for again while it is
read, the lines of the file can stand in its place. Let neither the file with the lines behind it
nor the lines behind it alone start with a shell line. The lines are read to their end with the
include line if and only if they are with the lines of the file, and both leave the same variables
and recipes, up to the files and numbers of lines. -/
theorem include_inlines (h : Host σ) (filename : Text) (s : σ) (A B : List Text)
    (path source : Text) (hpath : Path.Plain path)
    (hfile : ∀ st, Reads h filename s A st → h.hasFile st.host path = true ∧
      h.readText st.host (Path.display path) = .ok source)
    (honce : ∀ st, Reads h filename s A st → ∀ depth, ∀ m ∈ fileMoments h depth path st.closed,
      m.Avoids h (· = Path.absolute h.directory path))
    (houtside : StartsOutside (Text.uncomment "#" source ++ B)) (hB : StartsOutside B) :
    let included := A ++ [includeLine path] ++ B
    let inlined := A ++ Text.uncomment "#" source ++ B
    ((∃ st, Reads h filename s included st) ↔ ∃ st, Reads h filename s inlined st) ∧
      ∀ st st', Reads h filename s included st → Reads h filename s inlined st' →
        st.context.vars = st'.context.vars ∧
        st.context.recipes.map Blur.place.recipe = st'.context.recipes.map Blur.place.recipe := by
  intro included inlined
  -- with the include line there is one file more inside another one than without it
  have halike : ∀ stA, Reads h filename s A stA → ∀ depth number number' number₁ number₁',
      Outcome.Alike (Blur.place.after stA.reports stA.reports)
        ((processLines h (processFile h (depth + 1)) number [includeLine path] stA).andThen
          (processLines h (processFile h depth) number₁ B)).closed
        ((processLines h (processFile h depth) number' (Text.uncomment "#" source) stA).andThen
          (processLines h (processFile h depth) number₁' B)).closed := by
    intro stA hA depth number number' number₁ number₁'
    obtain ⟨hexists, hread⟩ := hfile stA hA
    rw [processLines_singleton]
    exact alike_behind (alike_includeLine hpath hexists hread
      (hA.includeStack_eq_nil ▸ List.not_mem_nil) (honce stA hA (depth + 1)) houtside.of_append)
      hB depth _ _
  have hinlined : ∀ st, Reads h filename s included st → ∃ st', Reads h filename s inlined st' ∧
      st.context.vars = st'.context.vars ∧
      st.context.recipes.map Blur.place.recipe = st'.context.recipes.map Blur.place.recipe := by
    intro st hst
    obtain ⟨stA, depth, hA, hparts⟩ := hst.parts
    have H := halike stA hA depth (1 + A.length) (1 + A.length)
      (1 + (A ++ [includeLine path]).length) (1 + (A ++ Text.uncomment "#" source).length)
    rw [hparts (depth + 1) (Nat.le_succ depth) depth le_rfl] at H
    obtain ⟨st', hst', hsame⟩ := H.read_left
    exact ⟨st', hA.of_parts hst', hsame.context.vars, hsame.context.recipes⟩
  have hincluded : (∃ st', Reads h filename s inlined st') →
      ∃ st, Reads h filename s included st := by
    rintro ⟨st', hst'⟩
    obtain ⟨stA, depth, hA, hparts⟩ := hst'.parts
    have H := halike stA hA depth (1 + A.length) (1 + A.length)
      (1 + (A ++ [includeLine path]).length) (1 + (A ++ Text.uncomment "#" source).length)
    rw [hparts depth le_rfl depth le_rfl] at H
    obtain ⟨st, hst, -⟩ := H.read_right
    exact ⟨st, hA.of_parts hst⟩
  refine ⟨⟨fun ⟨st, hst⟩ => ?_, hincluded⟩, fun st st' hst hst' => ?_⟩
  · obtain ⟨st', hst', -⟩ := hinlined st hst
    exact ⟨st', hst'⟩
  · obtain ⟨st'', hst'', hsame⟩ := hinlined st hst
    rwa [hst'.unique hst'']

/-- A file with a recipe, and no other one. -/
def pantry : Host Unit where
  directory := ['/']
  files _ := ⟨fun p => p = "pies", fun p => p = "pies", fun _ => false, fun _ => []⟩
  read _ _ := .ok (Utf8.encode "all: pie\n\tbake $(DIR)")
  fileCount _ := 1
  run _ _ _ _ := (.error .notFound, ())

theorem include_inlines_pantry : ∃ st, Reads pantry "Hayfile" ()
    ((["DIR = out"] : List Text) ++ [includeLine "pies"] ++ (["pie:"] : List Text)) st := by
  have hsolid : ∀ c ∈ ("pies" : Text), Text.isBlank c = false := by
    intro c hc
    have hall : ("pies" : Text).all (fun c => !Text.isBlank c) = true := by decide
    simpa using List.all_eq_true.1 hall c hc
  have hplain : Path.Plain "pies" :=
    ⟨by decide, hsolid, by decide, by decide, literal_of_notMem (by decide)⟩
  have hfile : pantry.hasFile () "pies" = true ∧
      pantry.readText () (Path.display "pies") = .ok "all: pie\n\tbake $(DIR)" :=
    ⟨by decide +kernel, by rfl⟩
  have honce : ∀ st, Reads pantry "Hayfile" () ["DIR = out"] st → ∀ depth,
      ∀ m ∈ fileMoments pantry depth "pies" st.closed,
        m.Avoids pantry (· = Path.absolute pantry.directory "pies") := by
    intro st hst depth
    cases depth with
    | zero => exact List.forall_mem_nil _
    | succ depth =>
      let before : Loading Unit :=
        (processLines pantry (processFile pantry 0) 1 ["DIR = out"] (.start "Hayfile" ())).1
      have hread : Reads pantry "Hayfile" () ["DIR = out"] before := ⟨0, rfl⟩
      have hincl : ∀ e ∈ entries pantry (processFile pantry 0) 1
          (Text.uncomment "#" "all: pie\n\tbake $(DIR)") (before.closed.entered pantry "pies"),
          e.kind.isInclusion = false := by decide +kernel
      rw [← hst.unique hread] at hincl
      have hsource : pantry.readText st.closed.host (Path.display "pies") =
          .ok "all: pie\n\tbake $(DIR)" := hfile.2
      rw [fileMoments, hsource]
      exact avoids_of_no_inclusion hincl _ _
  exact (include_inlines pantry "Hayfile" () ["DIR = out"] ["pie:"] "pies"
    "all: pie\n\tbake $(DIR)" hplain (fun _ _ => hfile) honce (by decide)
    (by decide)).1.2 ⟨_, 0, Prod.ext rfl (by decide +kernel)⟩

end BuildFile

end Haybuild
