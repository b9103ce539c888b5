import Haybuild.Proofs.BuildFile.Step
import Mathlib.Data.List.Forall2
import Mathlib.Data.List.TakeWhile

/-!
# Sections of a build file

The lines that are neither blank nor shell lines are the headings of a file. They cut it into
sections, each a heading and the lines up to the next one (`isCut_sections`). A file that is read to
its end without an include has a recipe for each section with a rule, in their order, with the shell
lines of the section as its commands. Shell lines stand in no other section, unless its heading is a
line that failed to derive and asks for that to be neglected (`processLines_exact`).
-/

namespace Haybuild

/-- What stands between the tab of a shell line and its content is its markers. -/
theorem Line.drop_one_take_split {t : Text} (h : (ofText t).shell) :
    (t.take (ofText t).split).drop 1 = markers t := by
  cases t with
  | nil => simp [ofText] at h
  | cons c r =>
    obtain rfl : c = '\t' := by simpa [ofText] using h
    have hmarkers : markers ('\t' :: r) = r.takeWhile isMarker := rfl
    have hsplit : (ofText ('\t' :: r)).split = (r.takeWhile isMarker).length + 1 := Nat.add_comm ..
    rw [hsplit, hmarkers, List.take_succ_cons, List.drop_one, List.tail_cons]
    exact (List.prefix_iff_eq_take.1 (List.takeWhile_prefix _)).symm

namespace BuildFile

variable {σ : Type}

/-- A line of a file, its number and what it was read as. -/
structure Entry where
  number : Nat
  source : Text
  kind : LineKind

/-- The entries of lines that are read one after the other. -/
def entries (h : Host σ) (readFile : Text → Loading σ → Outcome σ) :
    Nat → List Text → Loading σ → List Entry
  | _, [], _ => []
  | number, source :: rest, st =>
    ⟨number, source, kindOf h source st⟩ ::
      entries h readFile (number + 1) rest (processLine h readFile source number st).1

theorem map_source_entries (h : Host σ) (readFile : Text → Loading σ → Outcome σ) (number : Nat)
    (lines : List Text) (st : Loading σ) :
    (entries h readFile number lines st).map Entry.source = lines := by
  induction lines generalizing number st with
  | nil => rfl
  | cons source lines ih => exact congrArg (source :: ·) (ih _ _)

theorem map_number_entries (h : Host σ) (readFile : Text → Loading σ → Outcome σ) (number : Nat)
    (lines : List Text) (st : Loading σ) :
    (entries h readFile number lines st).map Entry.number = List.range' number lines.length := by
  induction lines generalizing number st with
  | nil => rfl
  | cons source lines ih => exact congrArg (number :: ·) (ih _ _)

namespace LineKind

/-- The line is neither blank nor a shell line. -/
def isHeading : LineKind → Bool
  | blank | shell => false
  | _ => true

/-- The line is a shell line. -/
def isShell : LineKind → Bool
  | shell => true
  | _ => false

/-- The line derives to a text that asks for files to be included. -/
def isInclusion : LineKind → Bool
  | inclusion _ => true
  | _ => false

theorem isShell_of_isHeading {kind : LineKind} (hk : kind.isHeading = true) :
    kind.isShell = false := by
  cases kind <;> simp_all [isHeading, isShell]

end LineKind

theorem isHeading_kindOfDerived (derived : Text) : (kindOfDerived derived).isHeading = true := by
  rw [kindOfDerived]
  split
  · rfl
  · split <;> rfl

theorem isHeading_kindOfOutcome (outcome : Except Fault (Except Derivation.Error Text)) :
    (kindOfOutcome outcome).isHeading = true := by
  rcases outcome with _ | _ | value
  · rfl
  · rfl
  · exact isHeading_kindOfDerived (unescapeDollars value)

/-- Of the lines that are not blank those that start with a tab are shell lines, and the others are
headings. -/
theorem kindOf_iff (h : Host σ) (source : Text) (st : Loading σ) :
    ((kindOf h source st).isShell = true ↔
      Text.blank source = false ∧ source.head? = some '\t') ∧
    ((kindOf h source st).isHeading = true ↔
      Text.blank source = false ∧ source.head? ≠ some '\t') := by
  have hshell : (Line.ofText source).shell = decide (source.head? = some '\t') := rfl
  rw [kindOf, hshell]
  by_cases hblank : Text.blank source
  · simp [hblank, LineKind.isShell, LineKind.isHeading]
  by_cases htab : source.head? = some '\t'
  · simp [hblank, htab, LineKind.isShell, LineKind.isHeading]
  have hheading : ∀ kind : LineKind, kind.isHeading = true →
      (kind.isShell = true ↔ Text.blank source = false ∧ source.head? = some '\t') ∧
      (kind.isHeading = true ↔ Text.blank source = false ∧ source.head? ≠ some '\t') := by
    intro kind hk
    simp [hk, LineKind.isShell_of_isHeading hk, hblank, htab]
  rw [if_neg hblank, if_neg (by simpa using htab)]
  split
  · exact hheading _ rfl
  · exact hheading _ (isHeading_kindOfOutcome _)

theorem kinds_entries (h : Host σ) (readFile : Text → Loading σ → Outcome σ) (number : Nat)
    (lines : List Text) (st : Loading σ) :
    ∀ e ∈ entries h readFile number lines st,
      (e.kind.isShell = true ↔ Text.blank e.source = false ∧ e.source.head? = some '\t') ∧
      (e.kind.isHeading = true ↔ Text.blank e.source = false ∧ e.source.head? ≠ some '\t') := by
  induction lines generalizing number st with
  | nil => simp [entries]
  | cons source lines ih => exact List.forall_mem_cons.2 ⟨kindOf_iff h source st, ih _ _⟩

/-- A heading and the lines up to the next one. -/
structure Section where
  heading : Entry
  body : List Entry

namespace Section

/-- The lines of a section. -/
def lines (s : Section) : List Entry :=
  s.heading :: s.body

/-- The rule of a section that starts with one, and its shell lines. -/
def rule? (s : Section) : Option (Rule × List Entry) :=
  match s.heading.kind with
  | .rule r => some (r, s.body.filter (·.kind.isShell))
  | _ => none

/-- A section without a rule has no shell lines, unless its heading failed to derive and was
neglected. -/
def Accounted (s : Section) : Prop :=
  s.rule? = none → (∃ e ∈ s.body, e.kind.isShell) →
    (∃ e, s.heading.kind = .underivable e) ∧ (Line.ofText s.heading.source).neglect = true

end Section

/-- The lines before the first heading, and the sections. -/
def sections : List Entry → List Entry × List Section
  | [] => ([], [])
  | e :: es =>
    let (lead, rest) := sections es
    if e.kind.isHeading then ([], ⟨e, lead⟩ :: rest) else (e :: lead, rest)

theorem sections_heading {e : Entry} (he : e.kind.isHeading = true) (es : List Entry) :
    sections (e :: es) = ([], ⟨e, (sections es).1⟩ :: (sections es).2) := by
  simp [sections, he]

theorem sections_body {e : Entry} (he : e.kind.isHeading = false) (es : List Entry) :
    sections (e :: es) = (e :: (sections es).1, (sections es).2) := by
  simp [sections, he]

/-- The lines are those before the first heading and those of the sections, and each section
starts with a heading and has no other. -/
structure IsCut (es lead : List Entry) (ss : List Section) : Prop where
  lines : lead ++ ss.flatMap Section.lines = es
  lead : ∀ e ∈ lead, e.kind.isHeading = false
  sections : ∀ s ∈ ss, s.heading.kind.isHeading = true ∧ ∀ e ∈ s.body, e.kind.isHeading = false

theorem isCut_sections (es : List Entry) : IsCut es (sections es).1 (sections es).2 := by
  induction es with
  | nil => exact ⟨rfl, by simp [sections], by simp [sections]⟩
  | cons e es ih =>
    cases he : e.kind.isHeading with
    | true =>
      rw [sections_heading he]
      refine ⟨?_, by simp, List.forall_mem_cons.2 ⟨⟨he, ih.lead⟩, ih.sections⟩⟩
      rw [List.nil_append, List.flatMap_cons, Section.lines, List.cons_append, ih.lines]
    | false =>
      rw [sections_body he]
      exact ⟨congrArg (e :: ·) ih.lines, List.forall_mem_cons.2 ⟨he, ih.lead⟩, ih.sections⟩

/-! ## Commands and recipes of a section -/

/-- The command is what a shell line holds. -/
structure CommandOf (filename : Text) (e : Entry) (c : Command) : Prop where
  source : c.source = e.source
  line : c.line = e.number
  filename : c.filename = filename
  column : ∃ column : Nat, c.column = column ∧ Text.trim (e.source.drop column) = c.text ∧
    (∀ m ∈ (e.source.take column).drop 1, Line.isMarker m) ∧
    (c.debug = true ↔ '+' ∈ (e.source.take column).drop 1) ∧
    (c.neglect = true ↔ '-' ∈ (e.source.take column).drop 1)

theorem commandOf_spec {e : Entry} (filename : Text) (h : (Line.ofText e.source).shell) :
    CommandOf filename e (commandOf filename e.source e.number) where
  source := rfl
  line := rfl
  filename := rfl
  column := by
    refine ⟨(Line.ofText e.source).split, rfl, rfl, ?_⟩
    rw [Line.drop_one_take_split h]
    exact ⟨fun m hm => List.mem_takeWhile_imp hm, List.contains_iff_mem, List.contains_iff_mem⟩

/-- The recipe has the names of a rule and commands for its shell lines. -/
structure RecipeOf (filename : Text) (s : Rule × List Entry) (r : Recipe) : Prop where
  targets : r.targets = s.1.targets
  prerequisites : r.prerequisites = s.1.prerequisites
  commands : List.Forall₂ (CommandOf filename) s.2 r.commands

/-- The recipe with more commands at its end. -/
def addCommands (cs : List Command) (r : Recipe) : Recipe :=
  { r with commands := r.commands ++ cs }

theorem addCommands_nil : addCommands [] = id := by
  funext r
  simp [addCommands]

theorem addCommands_comp_addCommand (c : Command) (cs : List Command) :
    addCommands cs ∘ (·.addCommand c) = addCommands (c :: cs) := by
  funext r
  simp [addCommands, Recipe.addCommand]

/-- The recipes of a context, the open one with further commands. -/
def Context.withCommands (ctx : Context) (cs : List Command) : List Recipe :=
  match ctx.openRecipe with
  | some i => ctx.recipes.modify i (addCommands cs)
  | none => ctx.recipes

theorem Context.withCommands_nil (ctx : Context) : ctx.withCommands [] = ctx.recipes := by
  rw [withCommands]
  split
  · rw [addCommands_nil, List.modify_id]
  · rfl

theorem Context.withCommands_of_none {ctx : Context} (hopen : ctx.openRecipe = none)
    (cs : List Command) : ctx.withCommands cs = ctx.recipes := by
  rw [withCommands, hopen]

theorem Context.withCommands_addCommand {ctx : Context} {i : Nat}
    (hopen : ctx.openRecipe = some i) (c : Command) (cs : List Command) :
    (ctx.addCommand i c).withCommands cs = ctx.withCommands (c :: cs) := by
  have hopen' : (ctx.addCommand i c).openRecipe = some i := hopen
  rw [withCommands, withCommands, hopen', hopen]
  exact (List.modify_modify_eq ..).trans (by rw [addCommands_comp_addCommand])

theorem Context.withCommands_addRecipe (ctx : Context) (r : Recipe) (cs : List Command) :
    (ctx.addRecipe r).withCommands cs = ctx.recipes ++ [addCommands cs r] := by
  simp [withCommands, addRecipe, List.modify_eq_take_drop]

/-- The recipes are those of a context, with what the lines read in it add: commands of the open
recipe, and recipes behind. -/
structure Attached (filename : Text) (ctx : Context) (es : List Entry) (recipes : List Recipe) :
    Prop where
  recipes : ∃ cs news, recipes = ctx.withCommands cs ++ news ∧
    (ctx.openRecipe.isSome → List.Forall₂ (CommandOf filename)
      ((sections es).1.filter (·.kind.isShell)) cs) ∧
    List.Forall₂ (RecipeOf filename) ((sections es).2.filterMap Section.rule?) news
  lead : ctx.openRecipe = none → ctx.skipping = false →
    ∀ e ∈ (sections es).1, e.kind.isShell = false
  rest : ∀ s ∈ (sections es).2, s.Accounted

namespace Attached

variable {filename : Text} {ctx ctx' : Context} {e : Entry} {es : List Entry}
  {recipes : List Recipe}

theorem nil (ctx : Context) : Attached filename ctx [] ctx.recipes where
  recipes := ⟨[], [], by rw [ctx.withCommands_nil, List.append_nil], fun _ => .nil, .nil⟩
  lead := by simp [sections]
  rest := by simp [sections]

theorem blank (H : Attached filename ctx es recipes) (he : e.kind = .blank) :
    Attached filename ctx (e :: es) recipes := by
  have hbody : e.kind.isHeading = false := by rw [he]; rfl
  have hshell : e.kind.isShell = false := by rw [he]; rfl
  refine ⟨?_, ?_, ?_⟩ <;> rw [sections_body hbody]
  · simpa [hshell] using H.recipes
  · exact fun hopen hskip => List.forall_mem_cons.2 ⟨hshell, H.lead hopen hskip⟩
  · exact H.rest

/-- A shell line that is dropped changes nothing. -/
theorem dropped (H : Attached filename ctx es recipes) (he : e.kind = .shell)
    (hopen : ctx.openRecipe = none) (hskip : ctx.skipping = true) :
    Attached filename ctx (e :: es) recipes := by
  have hbody : e.kind.isHeading = false := by rw [he]; rfl
  refine ⟨?_, ?_, ?_⟩ <;> rw [sections_body hbody]
  · obtain ⟨cs, news, hrecipes, -, hnews⟩ := H.recipes
    exact ⟨cs, news, hrecipes, fun hsome => by simp [hopen] at hsome, hnews⟩
  · exact fun _ hno => absurd (hskip.symm.trans hno) (by decide)
  · exact H.rest

/-- A shell line that is a command of the open recipe. -/
theorem command {i : Nat} {c : Command} (H : Attached filename (ctx.addCommand i c) es recipes)
    (he : e.kind = .shell) (hopen : ctx.openRecipe = some i) (hc : CommandOf filename e c) :
    Attached filename ctx (e :: es) recipes := by
  have hbody : e.kind.isHeading = false := by rw [he]; rfl
  have hshell : e.kind.isShell = true := by rw [he]; rfl
  have hopen' : (ctx.addCommand i c).openRecipe = some i := hopen
  refine ⟨?_, ?_, ?_⟩ <;> rw [sections_body hbody]
  · obtain ⟨cs, news, hrecipes, hcs, hnews⟩ := H.recipes
    rw [Context.withCommands_addCommand hopen] at hrecipes
    refine ⟨c :: cs, news, hrecipes, fun _ => ?_, hnews⟩
    have hfilter : (e :: (sections es).1).filter (·.kind.isShell) =
        e :: (sections es).1.filter (·.kind.isShell) := List.filter_cons_of_pos hshell
    exact hfilter ▸ .cons hc (hcs (by simp [hopen']))
  · exact fun hno => absurd (hopen.symm.trans hno) (by simp)
  · exact H.rest

/-- A heading without a rule ends a section and starts one that has no recipe. -/
theorem heading (H : Attached filename ctx' es recipes) (he : e.kind.isHeading = true)
    (hrule : ∀ r, e.kind ≠ .rule r) (hopen : ctx'.openRecipe = none)
    (hrecipes : ctx'.recipes = ctx.recipes)
    (hskip : ctx'.skipping = false ∨
      (∃ error, e.kind = .underivable error) ∧ (Line.ofText e.source).neglect = true) :
    Attached filename ctx (e :: es) recipes := by
  have hnone : Section.rule? ⟨e, (sections es).1⟩ = none := by
    rw [Section.rule?]
    split
    · next r hr => exact absurd hr (hrule r)
    · rfl
  refine ⟨?_, ?_, ?_⟩ <;> rw [sections_heading he]
  · obtain ⟨cs, news, hall, -, hnews⟩ := H.recipes
    refine ⟨[], news, ?_, fun _ => .nil, ?_⟩
    · rw [hall, Context.withCommands_of_none hopen, hrecipes, ctx.withCommands_nil]
    · rwa [List.filterMap_cons_none hnone]
  · simp
  · refine List.forall_mem_cons.2 ⟨fun _ hshell => hskip.resolve_left fun hno => ?_, H.rest⟩
    obtain ⟨d, hd, hdshell⟩ := hshell
    exact absurd (hdshell.symm.trans (H.lead hopen hno d hd)) (by decide)

/-- A heading with a rule starts a section whose recipe is a new one. -/
theorem rule {r : Rule} (H : Attached filename (ctx'.addRecipe (Recipe.ofRule r)) es recipes)
    (he : e.kind = .rule r) (hrecipes : ctx'.recipes = ctx.recipes) :
    Attached filename ctx (e :: es) recipes := by
  have hheading : e.kind.isHeading = true := by rw [he]; rfl
  have hsome : Section.rule? ⟨e, (sections es).1⟩ =
      some (r, (sections es).1.filter (·.kind.isShell)) := by
    rw [Section.rule?]
    simp [he]
  refine ⟨?_, ?_, ?_⟩ <;> rw [sections_heading hheading]
  · obtain ⟨cs, news, hall, hcs, hnews⟩ := H.recipes
    rw [Context.withCommands_addRecipe, hrecipes, List.append_assoc, List.singleton_append] at hall
    refine ⟨[], _, by rw [ctx.withCommands_nil, hall], fun _ => .nil, ?_⟩
    rw [List.filterMap_cons_some hsome]
    exact .cons ⟨rfl, rfl, hcs rfl⟩ hnews
  · simp
  · refine List.forall_mem_cons.2 ⟨fun hno => ?_, H.rest⟩
    rw [hsome] at hno
    cases hno

end Attached

/-! ## Files -/

/-- Lines that are read to their end without an include attach what they hold to the recipes. -/
theorem attached_processLines {h : Host σ} {readFile : Text → Loading σ → Outcome σ}
    {filename : Text} {number : Nat} {lines : List Text} {st st' : Loading σ}
    (hload : processLines h readFile number lines st = (st', none))
    (hincl : ∀ e ∈ entries h readFile number lines st, e.kind.isInclusion = false)
    (hname : st.context.filename = filename) :
    Attached filename st.context (entries h readFile number lines st) st'.context.recipes := by
  induction lines generalizing number st with
  | nil =>
    cases hload
    exact .nil _
  | cons source lines ih =>
    rw [processLines] at hload
    rw [entries] at hincl ⊢
    obtain ⟨hfirst, hincl⟩ := List.forall_mem_cons.1 hincl
    have hstep := lineStep h readFile source number st
    generalize kindOf h source st = kind at hstep hfirst ⊢
    generalize processLine h readFile source number st = out at hstep hload hincl ⊢
    cases hstep with
    | blank => exact (ih hload hincl hname).blank rfl
    | dropped _ hopen hskip => exact (ih hload hincl hname).dropped rfl hopen hskip
    | command hshell hopen =>
      subst hname
      exact (ih hload hincl rfl).command rfl hopen (commandOf_spec _ hshell)
    | stray => cases hload
    | assignment =>
      have hfilename := st.context.closeRecipe.filename_assignLine (contentOf source)
      have hopen := st.context.closeRecipe.openRecipe_assignLine (contentOf source)
      have hrecipes := st.context.closeRecipe.recipes_assignLine (contentOf source)
      have hskip := st.context.closeRecipe.skipping_assignLine (contentOf source)
      generalize st.context.closeRecipe.assignLine (contentOf source) = ctx at *
      exact (ih hload hincl (hfilename.trans hname)).heading rfl nofun hopen hrecipes (.inl hskip)
    | inclusion => cases hfirst
    | nothing => exact (ih hload hincl hname).heading rfl nofun rfl rfl (.inl rfl)
    | rule => exact (ih hload hincl hname).rule rfl rfl
    | malformed | underivable | faulted => cases hload
    | neglected hneglect =>
      exact (ih hload hincl hname).heading rfl nofun rfl rfl (.inr ⟨⟨_, rfl⟩, hneglect⟩)

/-- If lines are read to their end in an empty context and none of them is an include, the recipes
are those of the sections that start with a rule. Each shell line stands in one section, and it is
the next command of the section's recipe, unless the heading of the section failed to derive and was
neglected. -/
theorem processLines_exact {h : Host σ} {readFile : Text → Loading σ → Outcome σ} {filename : Text}
    {s : σ} {lines : List Text} {st : Loading σ}
    (hload : processLines h readFile 1 lines (.start filename s) = (st, none))
    (hincl : ∀ e ∈ entries h readFile 1 lines (.start filename s), e.kind.isInclusion = false) :
    let es := entries h readFile 1 lines (.start filename s)
    es.map Entry.source = lines ∧ es.map Entry.number = List.range' 1 lines.length ∧
      (∀ e ∈ es,
        (e.kind.isShell = true ↔ Text.blank e.source = false ∧ e.source.head? = some '\t') ∧
        (e.kind.isHeading = true ↔ Text.blank e.source = false ∧ e.source.head? ≠ some '\t')) ∧
      ∃ lead ss, IsCut es lead ss ∧ (∀ e ∈ lead, e.kind.isShell = false) ∧
        List.Forall₂ (RecipeOf filename) (ss.filterMap Section.rule?) st.context.recipes ∧
        ∀ s ∈ ss, s.rule? = none → (∃ e ∈ s.body, e.kind.isShell = true) →
          (∃ error, s.heading.kind = .underivable error) ∧
            (Line.ofText s.heading.source).neglect = true := by
  intro es
  have H := attached_processLines hload hincl rfl
  obtain ⟨cs, news, hrecipes, -, hnews⟩ := H.recipes
  refine ⟨map_source_entries .., map_number_entries .., kinds_entries h readFile 1 lines _,
    (sections es).1, (sections es).2, isCut_sections es, H.lead rfl rfl, ?_, H.rest⟩
  rw [hrecipes, Context.withCommands_of_none rfl]
  exact hnews

/-- Two recipes, and between them a rule line that fails to derive and is neglected. -/
def orchard : List Text :=
  ["DIR = out", "all: pie", "", "\t+-echo $(DIR)", "\tbake", "-$(NOPE): b", "\tlost", "pie:"]

/-- A host on which no file can be read and no command run. -/
def bareHost : Host Unit where
  directory := ['/']
  files _ := ⟨fun _ => false, fun _ => false, fun _ => false, fun _ => []⟩
  read _ _ := .error .notFound
  fileCount _ := 0
  run _ _ _ _ := (.error .notFound, ())

theorem processLines_exact_orchard : ∃ st,
    processLines bareHost (processFile bareHost 0) 1 orchard (.start "Hayfile" ()) = (st, none) ∧
      st.context.recipes =
        [⟨["all"], ["pie"], [⟨"echo $(DIR)", true, 4, true, "Hayfile", "\t+-echo $(DIR)", 3⟩,
          ⟨"bake", false, 5, false, "Hayfile", "\tbake", 1⟩]⟩, ⟨["pie"], [], []⟩] ∧
      ∃ ss : List Section,
        List.Forall₂ (RecipeOf "Hayfile") (ss.filterMap Section.rule?) st.context.recipes := by
  have hstop : (processLines bareHost (processFile bareHost 0) 1 orchard
      (.start "Hayfile" ())).2 = none := by decide +kernel
  have hrecipes : (processLines bareHost (processFile bareHost 0) 1 orchard
      (.start "Hayfile" ())).1.context.recipes =
        [⟨["all"], ["pie"], [⟨"echo $(DIR)", true, 4, true, "Hayfile", "\t+-echo $(DIR)", 3⟩,
          ⟨"bake", false, 5, false, "Hayfile", "\tbake", 1⟩]⟩, ⟨["pie"], [], []⟩] := by
    decide +kernel
  have hincl : ∀ e ∈ entries bareHost (processFile bareHost 0) 1 orchard (.start "Hayfile" ()),
      e.kind.isInclusion = false := by decide +kernel
  obtain ⟨st, hload⟩ : ∃ st, processLines bareHost (processFile bareHost 0) 1 orchard
      (.start "Hayfile" ()) = (st, none) := ⟨_, Prod.ext rfl hstop⟩
  obtain ⟨-, -, -, lead, ss, -, -, hsections, -⟩ := processLines_exact hload hincl
  rw [hload] at hrecipes
  exact ⟨st, hload, hrecipes, ss, hsections⟩

end BuildFile

end Haybuild
