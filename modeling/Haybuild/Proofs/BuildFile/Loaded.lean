import Haybuild.Proofs.BuildFile.Moment

/-!
# The commands of what is loaded

Whatever lines and files are read, and wherever reading stops, each command of each recipe is the
one that some shell line holds (`Loaded.shellWritten`).
-/

namespace Haybuild

namespace BuildFile

variable {σ : Type} {h : Host σ} {readFile : Text → Loading σ → Outcome σ} {ctx : Context}
  {st : Loading σ}

/-- The states that reading lines and files comes to, whether it is stopped or goes on. -/
inductive Loaded (h : Host σ) : Loading σ → Prop
  | start (filename : Text) (s : σ) : Loaded h (.start filename s)
  | line (depth : Nat) (source : Text) (number : Nat) {st : Loading σ} : Loaded h st →
      Loaded h (processLine h (processFile h depth) source number st).1
  | file (depth : Nat) (path : Text) {st : Loading σ} : Loaded h st →
      Loaded h (processFile h depth path st).1

theorem Loaded.lines (H : Loaded h st) (depth number : Nat) (lines : List Text) :
    Loaded h (processLines h (processFile h depth) number lines st).1 := by
  induction lines generalizing number st with
  | nil => exact H
  | cons source lines ih =>
    rw [processLines_cons]
    exact Outcome.andThen_keeps (H.line depth source number) fun st' H' => ih H' (number + 1)

theorem loaded_loadText (h : Host σ) (filename source : Text) (s : σ) :
    Loaded h (loadText h filename source s).1 :=
  (Loaded.start filename s).lines _ _ _

theorem loaded_loadFile (h : Host σ) (path : Text) (s : σ) : Loaded h (loadFile h path s).1 :=
  (Loaded.start path s).file _ _

/-! ## Commands of shell lines -/

/-- Each command of each recipe is that of a shell line. -/
def Context.ShellWritten (ctx : Context) : Prop :=
  ∀ r ∈ ctx.recipes, ∀ c ∈ r.commands, ∃ filename source number,
    (Line.ofText source).shell ∧ c = commandOf filename source number

namespace Context.ShellWritten

theorem addCommand {filename source : Text} (H : ctx.ShellWritten) (i : Nat)
    (hshell : (Line.ofText source).shell) (number : Nat) :
    (ctx.addCommand i (commandOf filename source number)).ShellWritten := by
  intro r hr c hc
  obtain ⟨j, hj⟩ := List.mem_iff_getElem?.1 hr
  rw [Context.addCommand, List.getElem?_modify] at hj
  obtain ⟨r', hr', rfl⟩ := Option.map_eq_some_iff.1 hj
  have hold := H r' (List.mem_of_getElem? hr')
  split at hc
  · rcases List.mem_append.1 hc with hc | hc
    · exact hold c hc
    · exact ⟨filename, source, number, hshell, List.mem_singleton.1 hc⟩
  · exact hold c hc

theorem addRecipe (H : ctx.ShellWritten) (rule : Rule) :
    (ctx.addRecipe (Recipe.ofRule rule)).ShellWritten := by
  refine List.forall_mem_append.2 ⟨H, ?_⟩
  intro r hr c hc
  obtain rfl := List.mem_singleton.1 hr
  cases hc

end Context.ShellWritten

/-- Reading a file leaves only commands of shell lines. -/
def KeepsShellWritten (readFile : Text → Loading σ → Outcome σ) : Prop :=
  ∀ path st, st.context.ShellWritten → (readFile path st).1.context.ShellWritten

namespace KeepsShellWritten

theorem includeAll (hfile : KeepsShellWritten readFile) (h : Host σ) (r : Reading) (derived : Text)
    (pieces : List Text.Slice) (H : st.context.ShellWritten) :
    (includeAll h readFile r derived pieces st).1.context.ShellWritten := by
  induction pieces generalizing st with
  | nil => exact H
  | cons piece pieces ih =>
    have hone : (includeOne h readFile r derived piece st).1.context.ShellWritten := by
      rw [includeOne]
      split
      · exact hfile _ st H
      · rw [Loading.reportOrStop]
        split <;> exact H
    rw [includeAll_cons]
    exact Outcome.andThen_keeps (p := fun st => st.context.ShellWritten) hone fun st' => ih

theorem processLine (hfile : KeepsShellWritten readFile) (h : Host σ) (source : Text)
    (number : Nat) (H : st.context.ShellWritten) :
    (processLine h readFile source number st).1.context.ShellWritten := by
  have hstep := lineStep h readFile source number st
  generalize kindOf h source st = kind at hstep
  generalize BuildFile.processLine h readFile source number st = out at hstep ⊢
  cases hstep with
  | command hshell => exact H.addCommand _ hshell number
  | rule => exact Context.ShellWritten.addRecipe H _
  | @inclusion derived s =>
    have hderived : (st.derived s).context.ShellWritten := H
    exact hfile.includeAll h _ _ _ hderived
  | _ => exact H

theorem processLines (hfile : KeepsShellWritten readFile) (h : Host σ) (number : Nat)
    (lines : List Text) (H : st.context.ShellWritten) :
    (processLines h readFile number lines st).1.context.ShellWritten := by
  induction lines generalizing number st with
  | nil => exact H
  | cons source lines ih =>
    rw [processLines_cons]
    exact Outcome.andThen_keeps (p := fun st => st.context.ShellWritten)
      (hfile.processLine h source number H) fun st' => ih (number + 1)

end KeepsShellWritten

theorem keepsShellWritten_processFile (h : Host σ) (depth : Nat) :
    KeepsShellWritten (processFile h depth) := by
  induction depth with
  | zero => exact fun path st H => H
  | succ depth ih =>
    intro path st H
    rw [processFile_succ]
    cases h.readText st.host (Path.display path) with
    | error fault => exact H
    | ok source =>
      have hentered : (st.entered h path).context.ShellWritten := H
      have hlines := ih.processLines h 1 (Text.uncomment "#" source) hentered
      dsimp only
      generalize BuildFile.processLines h (processFile h depth) 1 (Text.uncomment "#" source)
        (st.entered h path) = out at hlines ⊢
      obtain ⟨st', _ | halt⟩ := out <;> exact hlines

/-- Each command that is loaded is that of a shell line. -/
theorem Loaded.shellWritten (H : Loaded h st) : st.context.ShellWritten := by
  induction H with
  | start => exact nofun
  | line depth source number _ ih =>
    exact (keepsShellWritten_processFile h depth).processLine h source number ih
  | file depth path _ ih => exact keepsShellWritten_processFile h depth path _ ih

end BuildFile

end Haybuild
