import Haybuild.Proofs.Console.Block
import Haybuild.Proofs.Derivation.Highlight

/-!
# The summary of variables

The summary derives each raw text with the spans that references filled in, and the environment of
the commands derives it without them. The values are the same (`value_rowOf`), and highlighting adds
nothing but styles. So the summary shows for each variable what the commands find in their
environment, and its raw text where they find nothing (`summary_shows_resolved`).
-/

namespace Haybuild

open Console (PlainLine)
open Style (Reads plain)

variable {vars : Variables} {answers : Derivation.Answers} {environment : Environment}

/-- A variable as the summary shows it: its value, or its raw text if it has none. -/
def rowOf (vars : Variables) (answers : Derivation.Answers) (e : Text × Text) : ShownVariable :=
  match (deriveSpans vars false e.2).eval answers with
  | .ok (v, spans) => ⟨e.1, v, spans⟩
  | .error _ => ⟨e.1, e.2, []⟩

theorem name_rowOf (vars : Variables) (answers : Derivation.Answers) (e : Text × Text) :
    (rowOf vars answers e).name = e.1 := by
  rw [rowOf]
  split <;> rfl

theorem eval_variableRows (vars : Variables) (answers : Derivation.Answers)
    (es : List (Text × Text)) :
    (Event.variableRows vars es).eval answers = .ok (es.map (rowOf vars answers)) := by
  induction es with
  | nil => rfl
  | cons e es ih =>
    simp only [Event.variableRows, Derivation.bind_eq, Derivation.eval_bind,
      Derivation.eval_attempt, ih, List.map_cons, rowOf]
    cases (deriveSpans vars false e.2).eval answers <;> rfl

theorem eval_ofVariables (vars : Variables) (answers : Derivation.Answers) :
    (Event.ofVariables vars).eval answers =
      .ok (.variableTable (vars.entries.map (rowOf vars answers))) := by
  rw [Event.ofVariables, Derivation.bind_eq, Derivation.eval_bind, eval_variableRows]
  rfl

theorem eval_derive_eq_map (vars : Variables) (debug : Bool) (t : Text)
    (answers : Derivation.Answers) :
    (derive vars debug t).eval answers =
      ((deriveSpans vars debug t).eval answers).map Prod.fst := by
  rw [eval_derive, eval_deriveSpans]
  cases (Derivation.expandSegments vars debug depthLimit [] t).eval answers <;> rfl

/-- The value that is shown is the one in the environment, if there is one. -/
theorem value_rowOf {e : Text × Text} (he : e ∈ vars.entries)
    (hlookup : ∀ name v, environment.lookup name = some v ↔
      ∃ raw, vars.get? name = some raw ∧ (derive vars false raw).eval answers = .ok v) :
    (rowOf vars answers e).value = (environment.lookup e.1).getD e.2 := by
  have hraw : vars.get? e.1 = some e.2 := NameMap.get?_eq_some_iff.2 he
  have hderive := eval_derive_eq_map vars false e.2 answers
  rw [rowOf]
  cases hspans : (deriveSpans vars false e.2).eval answers with
  | ok r =>
    rw [hspans] at hderive
    rw [(hlookup e.1 r.1).2 ⟨e.2, hraw, hderive⟩]
    rfl
  | error error =>
    have hnone : environment.lookup e.1 = none := by
      rw [Option.eq_none_iff_forall_ne_some]
      intro v hv
      obtain ⟨raw, hraw', hv⟩ := (hlookup e.1 v).1 hv
      obtain rfl : e.2 = raw := Option.some.inj (hraw.symm.trans hraw')
      rw [hspans] at hderive
      cases hderive.symm.trans hv
    rw [hnone]
    rfl

theorem plainLine_rowOf {e : Text × Text} (h : PlainLine e.1 ∧ PlainLine e.2 ∧
    ∀ v, (derive vars false e.2).eval answers = .ok v → PlainLine v) :
    PlainLine (rowOf vars answers e).name ∧ PlainLine (rowOf vars answers e).value := by
  obtain ⟨hname, hraw, hvalues⟩ := h
  rw [name_rowOf]
  refine ⟨hname, ?_⟩
  rw [rowOf]
  cases hspans : (deriveSpans vars false e.2).eval answers with
  | ok r => exact hvalues r.1 (eval_derive_of_deriveSpans hspans)
  | error error => exact hraw

/-- The line of a variable without its escape sequences. -/
def summaryLine (name value : Text) : Text :=
  name ++ " ≡ " ++ value

theorem plainLine_summaryLine {name value : Text} (hname : PlainLine name)
    (hvalue : PlainLine value) : PlainLine (summaryLine name value) :=
  (hname.append (by decide)).append hvalue

theorem reads_variableLine {v : ShownVariable} (hname : PlainLine v.name)
    (hvalue : PlainLine v.value) :
    Reads plain (v.name ++ " " ++ Style.magenta.dress "≡" ++ " " ++ highlight v.value v.spans)
      (summaryLine v.name v.value) := by
  have hspace : Reads plain " " " " := Style.reads_plain (by decide)
  have hsign : Reads plain (Style.magenta.dress "≡") "≡" := Style.reads_plain_dress _ (by decide)
  have hfront := (((Style.reads_plain hname.notMem).append hspace).append hsign).append hspace
  have hline := hfront.append (Highlight.reads_plain_dressFrom hvalue.notMem v.spans 0)
  have hsummary : v.name ++ " " ++ "≡" ++ " " ++ v.value = summaryLine v.name v.value := by
    simp [summaryLine]
  rwa [hsummary] at hline

/-- The lines of a summary without their escape sequences. -/
def summaryLines (rows : List ShownVariable) : List Text :=
  rows.map (fun v => summaryLine v.name v.value) ++ [[]]

theorem plainLine_of_mem_summaryLines {rows : List ShownVariable}
    (hrows : ∀ v ∈ rows, PlainLine v.name ∧ PlainLine v.value) :
    ∀ l ∈ summaryLines rows, PlainLine l := by
  refine List.forall_mem_append.2 ⟨List.forall_mem_map.2 fun v hv => ?_, by simp [PlainLine.nil]⟩
  exact plainLine_summaryLine (hrows v hv).1 (hrows v hv).2

theorem plain_variableTable (c : Console) {rows : List ShownVariable}
    (hrows : ∀ v ∈ rows, PlainLine v.name ∧ PlainLine v.value) :
    plain (c.write (.variableTable rows)).output = (summaryLines rows).flatMap (· ++ ['\n']) := by
  have hfeed : Reads plain ['\n'] ['\n'] := Style.reads_plain (by decide)
  apply Console.plain_block
  · rw [Console.variableLines, Console.unlines_concat_nil, summaryLines, List.flatMap_append,
      List.flatMap_map, List.flatMap_map]
    refine (Style.reads_flatMap fun v hv => ?_).append hfeed
    obtain ⟨hname, hvalue⟩ := hrows v hv
    exact (reads_variableLine hname hvalue).append hfeed
  · exact Console.escape_notMem_flatMap (plainLine_of_mem_summaryLines hrows)

/-- With shell commands and file patterns answered in one way, the summary of variables without its
escape sequences has one line for each variable, in order, and an empty line behind them. A line has
the name and the value that the variable has in the environment, or its raw text if it has none. The
names, raw texts and values are single lines without escape characters. -/
theorem summary_shows_resolved (c : Console) (vars : Variables) (answers : Derivation.Answers)
    (hplain : ∀ e ∈ vars.entries, PlainLine e.1 ∧ PlainLine e.2 ∧
      ∀ v, (derive vars false e.2).eval answers = .ok v → PlainLine v) :
    ∃ environment event, vars.resolved.eval answers = .ok environment ∧
      (Event.ofVariables vars).eval answers = .ok event ∧ (c.write event).errors = [] ∧
      let ls := vars.entries.map fun e => summaryLine e.1 ((environment.lookup e.1).getD e.2)
      plain (c.write event).output = (ls ++ [[]]).flatMap (· ++ ['\n']) ∧
        Text.lines (plain (c.write event).output) = ls ++ [[]] := by
  obtain ⟨environment, heval, hlookup⟩ := vars.eval_resolved answers
  refine ⟨environment, _, heval, eval_ofVariables vars answers, rfl, ?_⟩
  intro ls
  have hrows : ∀ v ∈ vars.entries.map (rowOf vars answers), PlainLine v.name ∧ PlainLine v.value :=
    List.forall_mem_map.2 fun e he => plainLine_rowOf (hplain e he)
  have hls : summaryLines (vars.entries.map (rowOf vars answers)) = ls ++ [[]] := by
    rw [summaryLines, List.map_map]
    refine congrArg (· ++ [[]]) (List.map_congr_left fun e he => ?_)
    rw [Function.comp_apply, name_rowOf, value_rowOf he hlookup]
  have htext := plain_variableTable c hrows
  have hlines := plainLine_of_mem_summaryLines hrows
  rw [hls] at htext hlines
  refine ⟨htext, ?_⟩
  rw [htext]
  exact Text.lines_flatMap fun l hl => (hlines l hl).oneLine

/-- Variables whose values come from the shell, hold a pair of dollars, or are missing or empty. -/
def kitchenVariables : Variables :=
  NameMap.ofPairs [("NOW", "$(shell date)"), ("PRICE", "$$5 at $(NOW)"), ("LOOP", "<$(LOOP)>"),
    ("NOTE", "")]

/-- The variable that names itself is shown as it is written. -/
theorem summary_shows_resolved_kitchen :
    (∀ e ∈ kitchenVariables.entries, PlainLine e.1 ∧ PlainLine e.2 ∧
      ∀ v, (derive kitchenVariables false e.2).eval noon = .ok v → PlainLine v) ∧
    ∃ event, (Event.ofVariables kitchenVariables).eval noon = .ok event ∧
      Text.lines (plain (Console.write ⟨false, true⟩ event).output) =
        ["NOW ≡ noon".toList, "PRICE ≡ $$5 at noon".toList, "LOOP ≡ <$(LOOP)>".toList,
          "NOTE ≡ ".toList, []] := by
  have hraw : ∀ e ∈ kitchenVariables.entries, PlainLine e.1 ∧ PlainLine e.2 := by decide +kernel
  have hvalues : ∀ e ∈ kitchenVariables.entries,
      ((derive kitchenVariables false e.2).eval noon).toOption.all (PlainLine ·) := by
    decide +kernel
  have hplain : ∀ e ∈ kitchenVariables.entries, PlainLine e.1 ∧ PlainLine e.2 ∧
      ∀ v, (derive kitchenVariables false e.2).eval noon = .ok v → PlainLine v := by
    refine fun e he => ⟨(hraw e he).1, (hraw e he).2, fun v hv => ?_⟩
    have hvalue := hvalues e he
    rw [hv] at hvalue
    exact of_decide_eq_true hvalue
  obtain ⟨environment, event, heval, hevent, -, -, hlines⟩ :=
    summary_shows_resolved ⟨false, true⟩ kitchenVariables noon hplain
  have hresolved : kitchenVariables.resolved.eval noon =
      .ok [("NOW", "noon"), ("PRICE", "$$5 at noon"), ("NOTE", "")] := by decide +kernel
  obtain rfl := Except.ok.inj (heval.symm.trans hresolved)
  refine ⟨hplain, event, hevent, hlines.trans ?_⟩
  decide +kernel

end Haybuild
