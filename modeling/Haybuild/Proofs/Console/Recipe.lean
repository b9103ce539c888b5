import Haybuild.Proofs.Console.Block
import Haybuild.Proofs.Console.Screen
import Haybuild.Proofs.Text.Words

/-!
# Recipes as they are shown

A recipe is shown as it is rendered, with an empty line behind it. Its targets are meant to stand
out. What is taken for them is cut from the rendered line again, at its first colon
(`recipeLines_eq`), and a name in quotes may hold a colon: what stands out is the name of the recipe
if no target holds one, and only the front of the name otherwise (`recipe_printed`).
-/

namespace Haybuild

open Console (PlainLine recipeLines unlines)
open Style (Reads Cell cells drawn grey plain shownIn strongGreen)

variable {r : Recipe}

namespace Recipe

/-- The texts of a recipe. -/
def texts (r : Recipe) : List Text :=
  r.targets ++ r.prerequisites ++ r.commands.map Command.text

/-- The rule line of a rendered recipe. -/
def ruleLine (r : Recipe) : Text :=
  r.name ++ ':' :: Text.trimRight (' ' :: Text.join " " r.prerequisites)

/-- The command lines of a rendered recipe. -/
def commandLines (r : Recipe) : List Text :=
  r.commands.map fun c => ("    " : Text) ++ c.text

/-- What is taken for the targets of a rendered recipe. -/
def shownTargets (r : Recipe) : Text :=
  r.name.takeWhile (· ≠ ':')

theorem render_eq (r : Recipe) : r.render = Text.join ['\n'] (r.ruleLine :: r.commandLines) := by
  have hhead : Text.trimRight (r.name ++ ": " ++ Text.join " " r.prerequisites) = r.ruleLine := by
    rw [ruleLine, ← Text.trimRight_append_cons (by decide)]
    simp
  rw [render, hhead]
  rfl

theorem plainLine_name (hr : ∀ t ∈ r.texts, PlainLine t) : PlainLine r.name :=
  PlainLine.join (by decide) fun t ht => hr t (by simp [texts, ht])

theorem plainLine_ruleLine (hr : ∀ t ∈ r.texts, PlainLine t) : PlainLine r.ruleLine := by
  have hcolon : PlainLine [':'] := by decide
  have hspace : PlainLine [' '] := by decide
  have hprerequisites : PlainLine (Text.join " " r.prerequisites) :=
    PlainLine.join hspace fun t ht => hr t (by simp [texts, ht])
  have htrim : Text.trimRight (' ' :: Text.join " " r.prerequisites) ⊆
      ' ' :: Text.join " " r.prerequisites :=
    (List.rdropWhile_prefix Text.isBlank _).subset
  exact (plainLine_name hr).append (hcolon.append ((hspace.append hprerequisites).subset htrim))

theorem plainLine_of_mem_commandLines (hr : ∀ t ∈ r.texts, PlainLine t) :
    ∀ l ∈ r.commandLines, PlainLine l := by
  have hindent : PlainLine ("    " : Text) := by decide
  refine List.forall_mem_map.2 fun c hc => hindent.append (hr c.text ?_)
  exact List.mem_append_right _ (List.mem_map_of_mem hc)

theorem plainLine_of_mem_lines (hr : ∀ t ∈ r.texts, PlainLine t) :
    ∀ l ∈ r.ruleLine :: r.commandLines, PlainLine l :=
  List.forall_mem_cons.2 ⟨plainLine_ruleLine hr, plainLine_of_mem_commandLines hr⟩

theorem lines_render (hr : ∀ t ∈ r.texts, PlainLine t) :
    Text.lines r.render = r.ruleLine :: r.commandLines := by
  rw [render_eq]
  refine Text.lines_join fun l hl => ⟨(plainLine_of_mem_lines hr l hl).oneLine, ?_⟩
  rcases List.mem_cons.1 hl with rfl | hl
  · exact List.append_ne_nil_of_right_ne_nil _ (List.cons_ne_nil _ _)
  · obtain ⟨c, -, rfl⟩ := List.mem_map.1 hl
    exact List.cons_ne_nil _ _

/-- The name is taken for the targets if no target holds a colon. -/
theorem shownTargets_eq_name_iff : r.shownTargets = r.name ↔ ∀ t ∈ r.targets, ':' ∉ t := by
  have hname : ':' ∈ r.name ↔ ∃ t ∈ r.targets, ':' ∈ t := Text.mem_join_iff (by decide)
  have htake : r.shownTargets = r.name ↔ ':' ∉ r.name := by
    rw [shownTargets, List.takeWhile_eq_self_iff]
    simp only [decide_eq_true_eq]
    exact List.forall_mem_ne'
  rw [htake, hname]
  simp only [not_exists, not_and]

end Recipe

/-- The rule line is cut where the name has its first colon, or behind the name. -/
theorem recipeLines_eq (hr : ∀ t ∈ r.texts, PlainLine t) :
    ∃ v, r.ruleLine = r.shownTargets ++ ':' :: v ∧
      recipeLines r = (strongGreen.dress r.shownTargets ++ ":" ++ v) ::
        (r.commandLines.map grey.dress ++ [[]]) := by
  obtain ⟨v, hv⟩ :=
    Text.splitAt?_append_cons ':' r.name (Text.trimRight (' ' :: Text.join " " r.prerequisites))
  refine ⟨v, (Text.splitAt?_eq_some_iff.1 hv).2, ?_⟩
  have hpartition : Text.partition ':' r.ruleLine = (r.shownTargets, v) := by
    rw [Text.partition, Recipe.ruleLine, hv]
    rfl
  rw [recipeLines, Recipe.lines_render hr]
  simp only [hpartition]

/-- What is shown of the lines of a recipe. -/
theorem reads_recipeLines (hr : ∀ t ∈ r.texts, PlainLine t) :
    ∃ v, r.ruleLine = r.shownTargets ++ ':' :: v ∧
      Reads cells (unlines (recipeLines r) ++ ['\n'])
        (drawn strongGreen.attributes r.shownTargets ++ drawn [] (":" ++ v ++ ['\n']) ++
          (r.commandLines.flatMap fun l => drawn grey.attributes l ++ drawn [] ['\n']) ++
          drawn [] ['\n']) := by
  obtain ⟨v, hrule, hlines⟩ := recipeLines_eq hr
  refine ⟨v, hrule, ?_⟩
  have hplain := (Recipe.plainLine_ruleLine hr).notMem
  rw [hrule, List.mem_append, not_or] at hplain
  have hfeed : Reads cells ['\n'] (drawn [] ['\n']) := Style.reads_cells (by decide)
  have htargets : Reads cells (strongGreen.dress r.shownTargets)
      (drawn strongGreen.attributes r.shownTargets) :=
    Style.reads_cells_dress (by decide) hplain.1
  have hrest : Reads cells (":" ++ v ++ ['\n']) (drawn [] (":" ++ v ++ ['\n'])) :=
    Style.reads_cells fun h => (List.mem_append.1 h).elim hplain.2 (by decide)
  have hcommands : Reads cells (r.commandLines.flatMap fun l => grey.dress l ++ ['\n'])
      (r.commandLines.flatMap fun l => drawn grey.attributes l ++ drawn [] ['\n']) := by
    refine Style.reads_flatMap fun l hl => Reads.append ?_ hfeed
    exact Style.reads_cells_dress (by decide) (Recipe.plainLine_of_mem_commandLines hr l hl).notMem
  have hall := ((htargets.append hrest).append hcommands).append hfeed
  rw [hlines, ← List.cons_append, Console.unlines_concat_nil, List.flatMap_cons, List.flatMap_map]
  simpa only [List.append_assoc] using hall

/-- With or without colour, the recipe is shown as it is rendered. -/
theorem plain_recipe (c : Console) (hr : ∀ t ∈ r.texts, PlainLine t) :
    plain (c.write (.recipe r)).output = r.render ++ ['\n'] ++ ['\n'] := by
  obtain ⟨v, hrule, hreads⟩ := reads_recipeLines hr
  have hls := Recipe.plainLine_of_mem_lines hr
  have hrender : r.render ++ ['\n'] = (r.ruleLine :: r.commandLines).flatMap (· ++ ['\n']) := by
    rw [Recipe.render_eq, Console.flatMap_feed (List.cons_ne_nil _ _)]
  apply Console.plain_block
  · have hplain := hreads.plain
    rw [hrender, hrule]
    simpa [List.map_flatMap] using hplain
  · rw [hrender]
    exact fun h => (List.mem_append.1 h).elim (Console.escape_notMem_flatMap hls) (by decide)

/-- In green and bold stands what is taken for the targets, and nothing else. -/
theorem shownIn_recipe {c : Console} (hcolour : c.colour = true) (hr : ∀ t ∈ r.texts, PlainLine t) :
    shownIn strongGreen (c.write (.recipe r)).output = r.shownTargets := by
  obtain ⟨v, -, hreads⟩ := reads_recipeLines hr
  have houtput : (c.write (.recipe r)).output = unlines (recipeLines r) ++ ['\n'] := if_pos hcolour
  have hbare : [] ≠ strongGreen.attributes := by decide
  have hgrey : grey.attributes ≠ strongGreen.attributes := by decide
  rw [shownIn, houtput, hreads.eq rfl]
  simp [List.filter_flatMap, hbare, hgrey]

/-- The output is the rendered recipe and an empty line behind it, and nothing else is written. The
text in green and bold is the name of the recipe up to its first colon, so it is the name if and only
if no target holds a colon. The names and commands are single lines without escape characters. -/
theorem recipe_printed (c : Console) (r : Recipe) (hr : ∀ t ∈ r.texts, PlainLine t) :
    let written := c.write (.recipe r)
    written.errors = [] ∧ plain written.output = r.render ++ ['\n'] ++ ['\n'] ∧
      (c.colour = true → shownIn strongGreen written.output = r.name.takeWhile (· ≠ ':') ∧
        (shownIn strongGreen written.output = r.name ↔ ∀ t ∈ r.targets, ':' ∉ t)) := by
  refine ⟨rfl, plain_recipe c hr, fun hcolour => ?_⟩
  have hshown := shownIn_recipe hcolour hr
  rw [hshown]
  exact ⟨rfl, Recipe.shownTargets_eq_name_iff⟩

/-- Two objects with one prerequisite, whose name has a colon and a space. -/
def objects : Recipe where
  targets := ["x.o", "y.o"]
  prerequisites := ["c:x y.c"]
  commands := [{ text := "cc 'c:x y.c'" }]

/-- Colons behind the targets do not matter. -/
theorem recipe_printed_objects :
    (∀ t ∈ objects.texts, PlainLine t) ∧
      plain (Console.write ⟨false, true⟩ (.recipe objects)).output =
        "x.o y.o: c:x y.c\n    cc 'c:x y.c'\n\n".toList ∧
      shownIn strongGreen (Console.write ⟨false, true⟩ (.recipe objects)).output =
        "x.o y.o".toList := by
  have hr : ∀ t ∈ objects.texts, PlainLine t := by decide
  obtain ⟨-, hplain, hshown⟩ := recipe_printed ⟨false, true⟩ objects hr
  refine ⟨hr, hplain.trans (by decide), ((hshown rfl).2.2 (by decide)).trans (by decide)⟩

/-- Of a target in quotes only what stands before its colon is in green and bold. -/
theorem recipe_cut_at_colon :
    ∃ rule, Rule.parse "'a:b':" = .ok (some rule) ∧
      (∀ t ∈ (Recipe.ofRule rule).texts, PlainLine t) ∧ (Recipe.ofRule rule).name = "a:b".toList ∧
      shownIn strongGreen (Console.write ⟨false, true⟩ (.recipe (Recipe.ofRule rule))).output =
        "a".toList := by
  refine ⟨⟨["a:b"], []⟩, ?_, ?_, ?_, ?_⟩ <;> decide +kernel

end Haybuild
