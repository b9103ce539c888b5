import Haybuild.Proofs.BuildFile.Likeness
import Haybuild.Proofs.BuildFile.Section
import Mathlib.Data.List.TakeWhile

/-!
# Neglected failures

A line with the neglect marker that fails to derive takes the shell lines behind it along: lines are
read as if neither stood there, but for the numbers of the lines behind and one diagnostic more
(`neglected_vanishes`).
-/

namespace Haybuild

theorem Line.blank_of_neglect {t : Text} (h : (ofText t).neglect = true) :
    Text.blank t = false := by
  have hmarker : '-' ∈ markers t := List.contains_iff_mem.1 h
  have hmem : '-' ∈ t := List.mem_of_mem_drop ((List.takeWhile_sublist _).subset hmarker)
  exact List.all_eq_false.2 ⟨'-', hmem, by decide⟩

namespace BuildFile

variable {σ : Type}

/-- What does not depend on the numbers of lines. -/
def Blur.number : Blur where
  filename := id
  command cmd := { cmd with line := 0 }
  diagnostic d := { d with line := 0 }
  command_congr := by
    rintro cmd f f' rfl
    rfl
  diagnostic_congr := by
    rintro d f f' rfl
    rfl

theorem Blur.unnumbered_number : Blur.number.Unnumbered where
  command _ _ _ := rfl
  diagnostic _ _ _ := rfl

variable {h : Host σ} {readFile : Text → Loading σ → Outcome σ} {source : Text} {number : Nat}
  {st : Loading σ} {e : Derivation.Error}

/-- A line that is no include and asks for its failure to be neglected is told, and the shell lines
behind it are dropped. -/
theorem processLine_neglected (htab : source.head? ≠ some '\t')
    (hneglect : (Line.ofText source).neglect = true)
    (hassign : Text.findUnescaped "=" (contentOf source) = none)
    (hinclude : isInclude (contentOf source) = false)
    (hfails : h.derive (derivationOf st.context.vars source) st.host = (.ok (.error e), st.host)) :
    processLine h readFile source number st =
      (⟨{ st.context.closeRecipe with skipping := true }, st.host, st.reports ++
        [(Reading.ofSource source number).subcallDiagnostic st.context.filename e]⟩, none) := by
  rw [processLine_heading (Line.blank_of_neglect hneglect) htab, hassign, deriveLine_eq, hfails,
    hneglect, hinclude]
  rfl

/-- While shell lines are dropped, they change nothing. -/
theorem processLines_dropped {lines : List Text} (hopen : st.context.openRecipe = none)
    (hskip : st.context.skipping = true)
    (hlines : ∀ line ∈ lines, Text.blank line = true ∨ line.head? = some '\t') :
    processLines h readFile number lines st = (st, none) := by
  induction lines generalizing number with
  | nil => rfl
  | cons line lines ih =>
    obtain ⟨hline, hlines⟩ := List.forall_mem_cons.1 hlines
    have hdropped : processLine h readFile line number st = (st, none) := by
      cases hblank : Text.blank line with
      | true => exact processLine_blank hblank
      | false =>
        have htab := hline.resolve_left (by simp [hblank])
        rw [processLine_shell hblank htab, Context.shellLine, hopen, hskip]
        rfl
    rw [processLines_cons, hdropped, Outcome.andThen_none]
    exact ih hlines

/-- From a state in which a line is neglected, lines behind it are read as if neither it nor the
shell lines that belong to it were there. -/
theorem alike_neglected {T B : List Text} (htab : source.head? ≠ some '\t')
    (hneglect : (Line.ofText source).neglect = true)
    (hassign : Text.findUnescaped "=" (contentOf source) = none)
    (hinclude : isInclude (contentOf source) = false)
    (hfails : h.derive (derivationOf st.context.vars source) st.host = (.ok (.error e), st.host))
    (hT : ∀ line ∈ T, Text.blank line = true ∨ line.head? = some '\t') (hB : StartsOutside B)
    (depth number number' : Nat) :
    let d := (Reading.ofSource source number).subcallDiagnostic st.context.filename e
    (processLines h (processFile h depth) number (source :: (T ++ B)) st).closed.Alike
      (Blur.number.after (st.reports ++ [d]) st.reports)
      (processLines h (processFile h depth) number' B st).closed := by
  intro d
  -- shell lines are dropped from here until `B` closes the block
  let dropping : Loading σ :=
    ⟨{ st.context.closeRecipe with skipping := true }, st.host, st.reports ++ [d]⟩
  have hdropped : processLines h (processFile h depth) (number + 1) T dropping = (dropping, none) :=
    processLines_dropped rfl rfl hT
  have hline : processLine h (processFile h depth) source number st = (dropping, none) :=
    processLine_neglected htab hneglect hassign hinclude hfails
  rw [processLines_cons, hline, Outcome.andThen_none, processLines_append, hdropped,
    Outcome.andThen_none, closed_processLines hB, closed_processLines hB number' st]
  exact (Blur.alike_processLines (Blur.unnumbered_number.twinLines _ _ B)
    (.of_reports _ st.host _ _ (.refl _ st.context.closeRecipe)) h depth).closed

/-- Let a line that is neither a shell line nor an assignment nor an include ask for its failure to
be neglected, and let it fail to derive, without a change to the host, after the lines `A`. With
shell lines and blank lines behind it, it vanishes: the lines around are stopped by the same error
as without them, or are read to their end with the same variables and recipes, up to the numbers of
lines. Only one diagnostic more is reported, which tells the failure. -/
theorem neglected_vanishes (h : Host σ) (depth : Nat) (filename : Text) (s : σ) (A T B : List Text)
    (N : Text) (htab : N.head? ≠ some '\t') (hneglect : (Line.ofText N).neglect = true)
    (hassign : Text.findUnescaped "=" (contentOf N) = none)
    (hinclude : isInclude (contentOf N) = false)
    (hfails : ∀ st, processLines h (processFile h depth) 1 A (.start filename s) = (st, none) →
      ∃ e, h.derive (derivationOf st.context.vars N) st.host = (.ok (.error e), st.host))
    (hT : ∀ line ∈ T, Text.blank line = true ∨ line.head? = some '\t') (hB : StartsOutside B) :
    let kept := processLines h (processFile h depth) 1 (A ++ [N] ++ T ++ B) (.start filename s)
    let plain := processLines h (processFile h depth) 1 (A ++ B) (.start filename s)
    kept.2.map Blur.number.halt = plain.2.map Blur.number.halt ∧
      (plain.2 = none →
        kept.1.context.vars = plain.1.context.vars ∧
        kept.1.context.recipes.map Blur.number.recipe =
          plain.1.context.recipes.map Blur.number.recipe ∧
        ∃ before d news news', kept.1.reports = before ++ d :: news ∧
          plain.1.reports = before ++ news' ∧
          news.map Blur.number.diagnostic = news'.map Blur.number.diagnostic ∧
          d.kind = .subcall ∧ d.text = N ∧ d.line = A.length + 1) := by
  intro kept plain
  have hkept : kept = (processLines h (processFile h depth) 1 A (.start filename s)).andThen
      (processLines h (processFile h depth) (1 + A.length) (N :: (T ++ B))) := by
    rw [← processLines_append]
    simp only [kept, List.append_assoc, List.cons_append, List.nil_append]
  have hplain : plain = (processLines h (processFile h depth) 1 A (.start filename s)).andThen
      (processLines h (processFile h depth) (1 + A.length) B) := processLines_append 1 A B _
  rcases hA : processLines h (processFile h depth) 1 A (.start filename s) with ⟨st, _ | halt⟩
  · obtain ⟨e, he⟩ := hfails st hA
    have H := alike_neglected htab hneglect hassign hinclude he hT hB depth (1 + A.length)
      (1 + A.length)
    rw [hA, Outcome.andThen_none] at hkept hplain
    rw [← hkept, ← hplain] at H
    refine ⟨H.halt_eq, fun hread => ?_⟩
    obtain ⟨⟨-, news, news', hreports, hreports', hnews⟩, hcontext⟩ := H.state hread
    refine ⟨hcontext.vars, hcontext.recipes, st.reports,
      (Reading.ofSource N (1 + A.length)).subcallDiagnostic st.context.filename e, news, news',
      hreports.trans (List.append_assoc _ [_] _), hreports', hnews, rfl, rfl, ?_⟩
    exact (Int.natCast_add 1 A.length).trans (Int.add_comm _ _)
  · rw [hA, Outcome.andThen_some] at hkept hplain
    rw [hkept, hplain]
    exact ⟨rfl, fun hread => absurd hread (by simp)⟩

theorem neglected_vanishes_orchard :
    let plain := processLines bareHost (processFile bareHost 0) 1
      (["DIR = out", "all: pie", "\tbake $(DIR)"] ++ ["pie:"]) (.start "Hayfile" ())
    let kept := processLines bareHost (processFile bareHost 0) 1
      (["DIR = out", "all: pie", "\tbake $(DIR)"] ++ ["-$(NOPE): b"] ++ ["\tlost", ""] ++ ["pie:"])
      (.start "Hayfile" ())
    plain.2 = none ∧ kept.1.context.vars = plain.1.context.vars := by
  intro plain kept
  have hread : plain.2 = none := by decide +kernel
  have hfails : ∀ st, processLines bareHost (processFile bareHost 0) 1
      ["DIR = out", "all: pie", "\tbake $(DIR)"] (.start "Hayfile" ()) = (st, none) →
      ∃ e, bareHost.derive (derivationOf st.context.vars "-$(NOPE): b") st.host =
        (.ok (.error e), st.host) := by
    intro st hst
    have hfails : bareHost.derive (derivationOf (processLines bareHost (processFile bareHost 0) 1
        ["DIR = out", "all: pie", "\tbake $(DIR)"] (.start "Hayfile" ())).1.context.vars
        "-$(NOPE): b") () =
        (.ok (.error ⟨.unknown "$(NOPE)" "NOPE", "$(NOPE)", [], false⟩), ()) := by
      decide +kernel
    rw [hst] at hfails
    exact ⟨_, hfails⟩
  refine ⟨hread, ((neglected_vanishes bareHost 0 "Hayfile" () ["DIR = out", "all: pie",
    "\tbake $(DIR)"] ["\tlost", ""] ["pie:"] "-$(NOPE): b" (by decide) (by decide) (by decide)
    (by decide) hfails (by decide) (by decide)).2 hread).1⟩

end BuildFile

end Haybuild
