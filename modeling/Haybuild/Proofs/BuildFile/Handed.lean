import Haybuild.Proofs.BuildFile.Written
import Haybuild.Proofs.Execution
import Haybuild.Proofs.Record

/-!
# What the shell is handed

A command whose dollars are doubled is handed to the shell as the text before (`command_handed`).
Nothing else is done to it on the way: lines that start with a tab keep their comments and equality
signs, and the only escape that is undone is that of dollars. What a host's shell is handed can be
read off a record (`Host.recorded`). The exception is a shell that cannot be started: the system may
refuse to, and it is not even asked for a text with a null character (`null_not_handed`).
-/

namespace Haybuild

variable {σ : Type} {h : Host σ} {setting : Setting} {checks : Option Nat} {r : Recipe}
  {c : Command} {s s' : σ} {t : Text} {fault : Fault}

namespace Recipe

/-- The execution of a single command whose dollars are doubled leaves the host as handing the
command to the shell leaves it. -/
theorem host_execute (hr : r.commands = [c]) (hc : c.text = doubleDollars t)
    (hchecks : checks ≠ some 0) :
    (r.execute h setting checks s).host =
      (h.ask setting.shell setting.environment.unescaped t s).2 := by
  rw [execute, hr, Execution.runCommands, if_neg hchecks, hc, derive_doubleDollars, Host.derive]
  dsimp only [Executed.after]
  rw [Execution.runCommand, unescapeDollars_doubleDollars]
  rcases h.ask setting.shell setting.environment.unescaped t s with ⟨fault | answer, s'⟩
  · rfl
  · dsimp only [Executed.after]
    split <;> rfl

theorem ending_execute (hr : r.commands = [c]) (hc : c.text = doubleDollars t)
    (hchecks : checks ≠ some 0)
    (hask : h.ask setting.shell setting.environment.unescaped t s = (.error fault, s')) :
    (r.execute h setting checks s).ending = .aborted fault := by
  rw [execute, hr, Execution.runCommands, if_neg hchecks, hc, derive_doubleDollars, Host.derive]
  dsimp only [Executed.after]
  rw [Execution.runCommand, unescapeDollars_doubleDollars, hask]

/-- Executing the recipe asks the system once to start its shell, with the command `t`. If the shell
starts, it is handed the command, and nothing else is; if it does not, the execution ends with the
fault of the start. The system is not asked if it cannot be given the texts: then the execution ends
with a fault and leaves the host as it is. -/
def Hands (r : Recipe) (t : Text) : Prop :=
  ∀ {τ : Type} (h : Host τ) (setting : Setting) (checks : Option Nat) (s : τ)
    (record : List ShellCall), checks ≠ some 0 →
    let x := r.execute h.recorded setting checks (s, record)
    (setting.Admits t →
      (∀ finished s',
        h.run setting.shell setting.environment.unescaped t s = (.ok finished, s') →
        x.host = (s', record ++ [⟨setting.shell, t, true⟩])) ∧
      ∀ cause s', h.run setting.shell setting.environment.unescaped t s = (.error cause, s') →
        x.host = (s', record ++ [⟨setting.shell, t, false⟩]) ∧
          x.ending = .aborted (.path cause setting.shell)) ∧
    (¬setting.Admits t → x.host = (s, record) ∧
      ∃ fault, (fault = .embeddedNull ∨ fault = .environmentName) ∧ x.ending = .aborted fault)

theorem hands (hr : r.commands = [c]) (hc : c.text = doubleDollars t) : r.Hands t := by
  intro τ h setting checks s record hchecks
  dsimp only
  rw [host_execute hr hc hchecks]
  have hask := h.ask_recorded setting t s record
  refine ⟨fun H => ⟨fun finished s' hrun => ?_, fun cause s' hrun => ?_⟩, fun H => ?_⟩
  · rw [hask, Host.ask_of_admits H, hrun, Host.call_capture]
  · rw [Host.ask_of_admits H h s, hrun] at hask
    exact ⟨congrArg Prod.snd hask, ending_execute hr hc hchecks hask⟩
  · obtain ⟨fault, hfault, hask⟩ := Host.ask_of_not_admits H
    exact ⟨congrArg Prod.snd (hask _ _), fault, hfault, ending_execute hr hc hchecks (hask _ _)⟩

end Recipe

namespace BuildFile

variable {readFile : Text → Loading σ → Outcome σ} {number : Nat} {st : Loading σ}
  {filename source line : Text} {rule : Rule}

/-- Reading a rule line opens the recipe of the rule. -/
theorem processLine_rule (hrule : kindOf h line st = .rule rule) :
    ∃ st', processLine h readFile line number st = (st', none) ∧
      st'.context.recipes = st.context.recipes ++ [Recipe.ofRule rule] ∧
      st'.context.openRecipe = some st.context.recipes.length := by
  have hstep := lineStep h readFile line number st
  rw [hrule] at hstep
  generalize processLine h readFile line number st = out at hstep
  cases hstep with
  | rule => exact ⟨_, rfl, rfl, rfl⟩

/-- Behind a tab, a flush text is the next command of the open recipe. -/
theorem processLine_tab {i : Nat} (H : Flush t) (hne : t ≠ [])
    (hopen : st.context.openRecipe = some i) :
    ∃ c, c.text = t ∧ processLine h readFile ('\t' :: t) number st =
      (st.withContext (st.context.addCommand i c), none) := by
  have hblank : Text.blank ('\t' :: t) = false := H.blank_eq hne
  have hcontent : contentOf ('\t' :: t) = t := by
    rw [contentOf, H.ofText_tab, H.trim_eq]
  have hstep := lineStep h readFile ('\t' :: t) number st
  rw [kindOf_shell hblank rfl] at hstep
  generalize processLine h readFile ('\t' :: t) number st = out at hstep
  cases hstep with
  | command _ hopen' =>
    cases hopen.symm.trans hopen'
    exact ⟨_, hcontent, rfl⟩
  | dropped _ hclosed | stray _ hclosed => cases hopen.symm.trans hclosed

/-- A rule line and a command line, put behind a source that loads, add a recipe with the rule and
the command. -/
theorem loadText_command (hload : loadText h filename source s = (st, none))
    (hline : Text.OneLine line) (hrule : kindOf h (Text.uncommentLine ['#'] line) st = .rule rule)
    (H : Flush t) (hne : t ≠ []) (hone : Text.OneLine t) :
    ∃ st' c, loadText h filename (Text.terminated source ++ line ++ '\n' :: '\t' :: t) s =
        (st', none) ∧
      c.text = t ∧
      st'.context.recipes = st.context.recipes ++ [(Recipe.ofRule rule).addCommand c] := by
  have hnonempty : line ≠ [] := by
    rintro rfl
    cases hrule
  -- the source with the rule line loads too, and the command line stands behind it
  obtain ⟨st₁, hst₁, hrecipes, hopen⟩ := processLine_rule hrule
  have hload₁ := (loadText_append hload hline hnonempty).trans hst₁
  have htab : Text.OneLine ('\t' :: t) := .cons rfl hone
  obtain ⟨c, hc, hst'⟩ := processLine_tab H hne hopen
  have hload' := loadText_append hload₁ htab (List.cons_ne_nil _ _)
  rw [H.uncommentLine_tab hne, hst', hline.terminated_append hnonempty, ← List.append_cons]
    at hload'
  refine ⟨_, c, hload', hc, ?_⟩
  have hmodify : (st₁.context.addCommand st.context.recipes.length c).recipes =
      st₁.context.recipes.modify st.context.recipes.length (·.addCommand c) := rfl
  exact hmodify.trans (by simp [hrecipes, List.modify_eq_take_drop])

/-- Every command can be written: behind a rule line, put behind any source that loads, a tab and a
text with doubled dollars make a recipe whose execution hands the text to the shell, if the shell
can be started. -/
theorem command_handed (t : Text) :
    (∀ vars debug, ∃ v, derive vars debug (doubleDollars t) = .done v ∧ unescapeDollars v = t) ∧
      ∀ {σ : Type} (h : Host σ) (filename source line : Text) (rule : Rule) (s : σ)
        (st : Loading σ), loadText h filename source s = (st, none) → Text.OneLine line →
        kindOf h (Text.uncommentLine ['#'] line) st = .rule rule →
        Flush t → t ≠ [] → Text.OneLine t →
        ∃ st' r, loadText h filename
            (Text.terminated source ++ line ++ '\n' :: '\t' :: doubleDollars t) s = (st', none) ∧
          st'.context.recipes = st.context.recipes ++ [r] ∧
          r.targets = rule.targets ∧ r.prerequisites = rule.prerequisites ∧ r.Hands t := by
  refine ⟨fun vars debug => ⟨_, derive_doubleDollars vars debug t, unescapeDollars_doubleDollars t⟩,
    ?_⟩
  intro σ h filename source line rule s st hload hline hrule hflush hne hone
  obtain ⟨st', c, hload', hc, hrecipes⟩ := loadText_command hload hline hrule hflush.doubleDollars
    (by simpa using hne) (hone.replaceAll (by decide) _)
  exact ⟨st', _, hload', hrecipes, rfl, rfl, Recipe.hands rfl hc⟩

/-- A text with a comment, an assignment, references and brackets to the shell. -/
def oddCommand : Text := "A=$(pwd) # '$$' = [ \\"

theorem command_handed_oddCommand : ∃ st' r,
    loadText bareHost "Hayfile"
      "DIR = out\nall: pie\n\tbake\n'b': 'pie'\n\tA=$$(pwd) # '$$$$' = [ \\" () = (st', none) ∧
      r ∈ st'.context.recipes ∧ r.targets = [("b" : Text)] ∧
      (r.execute (Host.answering fun _ => 0).recorded ⟨.empty, [], standardShell⟩ none
        ((), [])).host.2 = [⟨standardShell, oddCommand, true⟩] := by
  have hflush : Flush oddCommand := ⟨⟨by decide, by decide⟩, by decide⟩
  have htext : Text.terminated oneRecipe ++ ruleLine ["b"] ["pie"] ++
      '\n' :: '\t' :: doubleDollars oddCommand =
        "DIR = out\nall: pie\n\tbake\n'b': 'pie'\n\tA=$$(pwd) # '$$$$' = [ \\" := by
    decide +kernel
  obtain ⟨st', r, hload, hrecipes, htargets, -, hhands⟩ :=
    (command_handed oddCommand).2 bareHost "Hayfile" oneRecipe (ruleLine ["b"] ["pie"]) _ () _
      loadText_oneRecipe (by decide) (kindOf_ruleLine (by decide) (by decide)) hflush (by decide)
      (by decide)
  refine ⟨st', r, htext ▸ hload, ?_, htargets, ?_⟩
  · rw [hrecipes]
    exact List.mem_append_right _ List.mem_cons_self
  · have hhanded := (hhands (.answering fun _ => 0) ⟨.empty, [], standardShell⟩ none () []
      (by decide)).1 ⟨by decide, by decide⟩
    exact congrArg Prod.snd (hhanded.1 _ () rfl)

/-- A command with a null character is handed to no shell. -/
theorem null_not_handed : ∃ st r,
    Flush ": a\x00b" ∧ Text.OneLine ": a\x00b" ∧
      loadText (.answering fun _ => 0) "Hayfile" ("all:\n\t" ++ doubleDollars ": a\x00b") () =
        (st, none) ∧
      st.context.recipes = [r] ∧
      let x := r.execute (Host.answering fun _ => 0).recorded ⟨.empty, [], standardShell⟩ none
        ((), [])
      x.ending = .aborted .embeddedNull ∧ x.host.2 = [] := by
  have hstop : (loadText (.answering fun _ => 0) "Hayfile"
      ("all:\n\t" ++ doubleDollars ": a\x00b") ()).2 = none := by
    decide +kernel
  have hrecipes : (loadText (.answering fun _ => 0) "Hayfile"
      ("all:\n\t" ++ doubleDollars ": a\x00b") ()).1.context.recipes =
        [⟨["all"], [],
          [⟨": a\x00b", false, 2, false, "Hayfile", "\t: a\x00b", 1⟩]⟩] := by
    decide +kernel
  refine ⟨_, _, ⟨⟨by decide, by decide⟩, by decide⟩, by decide, Prod.ext rfl hstop, hrecipes,
    ?_, ?_⟩
  · decide +kernel
  · decide +kernel

end BuildFile

end Haybuild
