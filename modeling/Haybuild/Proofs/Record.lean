import Haybuild.Execution

/-!
# A record of what the shell is handed

A host can keep a record of the commands that its shells are to run (`Host.recorded`): each goes on
record once the system is asked to start a shell for it, with whether the shell was started. It is
not asked at all where a text cannot be given to a process (`Setting.Admits`). The record tells
nothing to the program: it gets the same answers, and the host changes as it does without one
(`Host.ask_recorded`, `Host.derive_recorded`).
-/

namespace Haybuild

variable {σ α : Type} {h : Host σ} {setting : Setting} {s : σ} {t : Text}

/-- A command that a shell is to run. -/
structure ShellCall where
  shell : Text
  command : Text
  /-- The shell could be started, and was handed the command. -/
  started : Bool
  deriving Repr, DecidableEq

/-- The host with a record of the commands that its shells are to run. -/
def Host.recorded (h : Host σ) : Host (σ × List ShellCall) where
  directory := h.directory
  files s := h.files s.1
  read s := h.read s.1
  fileCount s := h.fileCount s.1
  run shell exports command s :=
    let (answer, s₁) := h.run shell exports command s.1
    (answer, s₁, s.2 ++ [⟨shell, command, answer.isOk⟩])
  schedule := h.schedule

/-- The texts that the start of a shell for a command needs can be given to a process: there is no
null character in them and no `=` in a name of the environment. Whether the shell then starts is up
to the system, which has to find the shell and limits the length of a command. -/
def Setting.Admits (setting : Setting) (command : Text) : Prop :=
  '\x00' ∉ setting.shell ++ command ∧
    ∀ e ∈ setting.environment.unescaped, '=' ∉ e.1 ∧ '\x00' ∉ e.1 ++ e.2

instance : Decidable (setting.Admits t) :=
  inferInstanceAs (Decidable (_ ∧ _))

/-- How the start of a shell for a command shows in the answer. -/
def Setting.call (setting : Setting) (command : Text) : Except Fault α → List ShellCall
  | .error .embeddedNull | .error .environmentName => []
  | .error (.path _ _) => [⟨setting.shell, command, false⟩]
  | _ => [⟨setting.shell, command, true⟩]

theorem Setting.call_ok (a : α) : setting.call t (.ok a) = [⟨setting.shell, t, true⟩] := rfl

theorem Setting.call_error {β : Type} (fault : Fault) :
    setting.call t (.error fault : Except Fault α) =
      setting.call t (.error fault : Except Fault β) := by
  cases fault <;> rfl

namespace Host

/-- What the system is not asked to start a shell for is a fault and leaves any host as it is. -/
theorem ask_of_not_admits (H : ¬setting.Admits t) :
    ∃ fault, (fault = .embeddedNull ∨ fault = .environmentName) ∧
      ∀ {τ : Type} (h : Host τ) (s : τ),
        h.ask setting.shell setting.environment.unescaped t s = (.error fault, s) := by
  by_cases hnames : (setting.environment.unescaped.any fun e => e.1.contains '=') = true
  · exact ⟨_, .inr rfl, fun h s => if_pos hnames⟩
  · refine ⟨_, .inl rfl, fun h s => (if_neg hnames).trans (if_pos ?_)⟩
    refine Decidable.byContradiction fun hnull => H ?_
    simp only [List.any_eq_true, List.contains_iff_mem, Bool.or_eq_true, not_exists, not_and,
      not_or] at hnames hnull
    exact ⟨hnull.1, fun e he => ⟨hnames e he, hnull.2 e he⟩⟩

/-- Otherwise the answer is that of the system, or what the shell printed. -/
theorem ask_of_admits (H : setting.Admits t) (h : Host σ) (s : σ) :
    h.ask setting.shell setting.environment.unescaped t s =
      match h.run setting.shell setting.environment.unescaped t s with
      | (.error cause, s) => (.error (.path cause setting.shell), s)
      | (.ok finished, s) => (capture finished, s) := by
  obtain ⟨hcommand, hexports⟩ := H
  have hnames : ¬(setting.environment.unescaped.any fun e => e.1.contains '=') = true := by
    simpa using fun a b he => (hexports (a, b) he).1
  have hnull : ¬((setting.shell ++ t).contains '\x00' ||
      setting.environment.unescaped.any fun e => (e.1 ++ e.2).contains '\x00') = true := by
    simp only [Bool.or_eq_true, List.any_eq_true, List.contains_iff_mem, not_or, not_exists,
      not_and]
    exact ⟨hcommand, fun e he => (hexports e he).2⟩
  exact (if_neg hnames).trans (if_neg hnull)

/-- What a shell printed shows that it was started. -/
theorem call_capture (finished : Finished) :
    setting.call t (capture finished) = [⟨setting.shell, t, true⟩] := by
  unfold capture
  cases Utf8.decode finished.output with
  | error e => rfl
  | ok output => cases Utf8.decode finished.errors <;> rfl

/-- With a record, a command gets the answer that it gets without one. -/
theorem ask_recorded (h : Host σ) (setting : Setting) (t : Text) (s : σ)
    (record : List ShellCall) :
    h.recorded.ask setting.shell setting.environment.unescaped t (s, record) =
      ((h.ask setting.shell setting.environment.unescaped t s).1,
        (h.ask setting.shell setting.environment.unescaped t s).2,
        record ++ setting.call t (h.ask setting.shell setting.environment.unescaped t s).1) := by
  by_cases H : setting.Admits t
  · have hrun : h.recorded.run setting.shell setting.environment.unescaped t (s, record) =
        let (answer, s) := h.run setting.shell setting.environment.unescaped t s
        (answer, s, record ++ [⟨setting.shell, t, answer.isOk⟩]) := rfl
    rw [ask_of_admits H, ask_of_admits H, hrun]
    rcases h.run setting.shell setting.environment.unescaped t s with ⟨cause | finished, s'⟩
    · rfl
    · simp only [call_capture]
      rfl
  · obtain ⟨fault, hfault, hask⟩ := ask_of_not_admits H
    rw [hask, hask]
    rcases hfault with rfl | rfl <;> simp [Setting.call]

end Host

/-- The setting in which derivations run commands. -/
def Setting.standard : Setting :=
  ⟨.empty, [], standardShell⟩

/-- The commands that shells are to run for a derivation. -/
def Host.calls (h : Host σ) : Derivation α → σ → List ShellCall
  | .done _, _ | .failed _, _ => []
  | .shell command next, s =>
    Setting.standard.call command (h.ask standardShell [] command s).1 ++
      match h.ask standardShell [] command s with
      | (.error _, _) => []
      | (.ok answer, s) => h.calls (next answer) s
  | .wildcard pattern next, s =>
    if FilePattern.listsNull pattern then []
    else h.calls (next (FilePattern.expand (h.files s) pattern)) s

/-- What goes on with the value of a derivation has its own commands run behind those of the
derivation. -/
theorem Host.calls_bind {β : Type} (h : Host σ) (d : Derivation α) (f : α → Derivation β) (s : σ) :
    h.calls (d.bind f) s = h.calls d s ++
      match h.derive d s with
      | (.ok (.ok a), s) => h.calls (f a) s
      | _ => [] := by
  induction d generalizing s with
  | done | failed => rfl
  | shell command next ih =>
    rw [Derivation.shell_bind, calls, calls, derive, List.append_assoc]
    rcases h.ask standardShell [] command s with ⟨fault | answer, s'⟩
    · rfl
    · exact congrArg _ (ih answer s')
  | wildcard pattern next ih =>
    rw [Derivation.wildcard_bind, calls, calls, derive]
    split
    · rfl
    · exact ih _ s

/-- With a record, a derivation has the outcome that it has without one. -/
theorem Host.derive_recorded (h : Host σ) (d : Derivation α) (s : σ)
    (record : List ShellCall) :
    h.recorded.derive d (s, record) =
      ((h.derive d s).1, (h.derive d s).2, record ++ h.calls d s) := by
  induction d generalizing s record with
  | done | failed => simp [derive, calls]
  | shell command next ih =>
    have hask : h.recorded.ask standardShell [] command (s, record) =
        ((h.ask standardShell [] command s).1, (h.ask standardShell [] command s).2,
          record ++ Setting.standard.call command (h.ask standardShell [] command s).1) :=
      h.ask_recorded .standard command s record
    rw [derive, derive, calls, hask]
    rcases h.ask standardShell [] command s with ⟨fault | answer, s'⟩
    · simp
    · simp [ih]
  | wildcard pattern next ih =>
    have hfiles : h.recorded.files (s, record) = h.files s := rfl
    rw [derive, derive, calls, hfiles]
    split
    · simp
    · exact ih _ s record

end Haybuild
