import Haybuild.Host

/-!
# What faults come from

A fault comes from outside the program. Reading a file ends with one if its name cannot be that of a
file, if it cannot be opened, or if its bytes are no text (`Host.Misread`); running a command, if no
shell can be started with it or if what it writes is no text (`Host.Misrun`). A derivation ends with
a fault if and only if it comes to such a command, or to a pattern of files in a directory that has
no possible name (`Host.faults_iff`).
-/

namespace Haybuild

namespace Fault

/-- The fault tells of a path that cannot be opened or run. -/
def IsPath (f : Fault) : Prop :=
  ∃ cause path, f = .path cause path

/-- The fault tells of a path, of a null character, or of bytes that are no text. -/
def IsOutside (f : Fault) : Prop :=
  f.IsPath ∨ f = .embeddedNull ∨ ∃ flaw, f = .decoding flaw

end Fault

namespace Host

variable {σ α : Type} {h : Host σ} {s s' : σ} {fault : Fault} {path command : Text}

/-- The text of a file cannot be had because of a fault. -/
inductive Misread (h : Host σ) (s : σ) (path : Text) : Fault → Prop
  | null : '\x00' ∈ path → Misread h s path .embeddedNull
  | unopened {cause : PathCause} : '\x00' ∉ path → h.read s path = .error cause →
      Misread h s path (.path cause path)
  | flawed {bytes : Bytes} {flaw : Utf8.Fault} : '\x00' ∉ path → h.read s path = .ok bytes →
      Utf8.decode bytes = .error flaw → Misread h s path (.decoding flaw)

theorem misread_iff : h.Misread s path fault ↔ h.readText s path = .error fault := by
  constructor
  · rintro (hnull | ⟨hnull, hread⟩ | ⟨hnull, hread, hdecode⟩)
    · rw [readText, if_pos (List.contains_iff_mem.2 hnull)]
    · rw [readText, if_neg (mt List.contains_iff_mem.1 hnull), hread]
    · rw [readText, if_neg (mt List.contains_iff_mem.1 hnull), hread]
      dsimp only
      rw [hdecode]
  · intro H
    rw [readText] at H
    split at H
    · next hnull =>
      cases H
      exact .null (List.contains_iff_mem.1 hnull)
    · next hnull =>
      have hnull := mt List.contains_iff_mem.2 hnull
      split at H
      · next hread =>
        cases H
        exact .unopened hnull hread
      · next hread =>
        split at H
        · next hdecode =>
          cases H
          exact .flawed hnull hread hdecode
        · cases H

theorem Misread.isOutside (H : h.Misread s path fault) : fault.IsOutside := by
  rcases H with _ | _ | _
  · exact .inr (.inl rfl)
  · exact .inl ⟨_, _, rfl⟩
  · exact .inr (.inr ⟨_, rfl⟩)

/-- The answer of a command cannot be had because of a fault. What it wrote as errors is read after
its output. -/
inductive Misrun (h : Host σ) (s : σ) (command : Text) : Fault → Prop
  | null : '\x00' ∈ command → Misrun h s command .embeddedNull
  | unstarted {cause : PathCause} : '\x00' ∉ command →
      (h.run standardShell [] command s).1 = .error cause →
      Misrun h s command (.path cause standardShell)
  | flawedOutput {finished : Finished} {flaw : Utf8.Fault} : '\x00' ∉ command →
      (h.run standardShell [] command s).1 = .ok finished →
      Utf8.decode finished.output = .error flaw → Misrun h s command (.decoding flaw)
  | flawedErrors {finished : Finished} {output : Text} {flaw : Utf8.Fault} : '\x00' ∉ command →
      (h.run standardShell [] command s).1 = .ok finished →
      Utf8.decode finished.output = .ok output →
      Utf8.decode finished.errors = .error flaw → Misrun h s command (.decoding flaw)

theorem Misrun.isOutside (H : h.Misrun s command fault) : fault.IsOutside := by
  rcases H with _ | _ | _ | _
  · exact .inr (.inl rfl)
  · exact .inl ⟨_, _, rfl⟩
  · exact .inr (.inr ⟨_, rfl⟩)
  · exact .inr (.inr ⟨_, rfl⟩)

theorem ask_null (hnull : '\x00' ∈ command) :
    h.ask standardShell [] command s = (.error .embeddedNull, s) := by
  rw [ask, if_neg (by simp), if_pos (by simp [hnull])]

theorem fst_ask (hnull : '\x00' ∉ command) :
    (h.ask standardShell [] command s).1 =
      match (h.run standardShell [] command s).1 with
      | .error cause => .error (.path cause standardShell)
      | .ok finished => capture finished := by
  have hshell : '\x00' ∉ standardShell := by decide
  rw [ask, if_neg (by simp), if_neg (by simp [hnull, hshell])]
  rcases h.run standardShell [] command s with ⟨_ | _, _⟩ <;> rfl

theorem misrun_iff :
    h.Misrun s command fault ↔ (h.ask standardShell [] command s).1 = .error fault := by
  constructor
  · rintro (hnull | ⟨hnull, hrun⟩ | ⟨hnull, hrun, hout⟩ | ⟨hnull, hrun, hout, herr⟩)
    · rw [ask_null hnull]
    · rw [fst_ask hnull, hrun]
    · rw [fst_ask hnull, hrun]
      dsimp only
      rw [capture, hout]
    · rw [fst_ask hnull, hrun]
      dsimp only
      rw [capture, hout]
      dsimp only
      rw [herr]
  · intro H
    by_cases hnull : '\x00' ∈ command
    · rw [ask_null hnull] at H
      cases H
      exact .null hnull
    · rw [fst_ask hnull] at H
      split at H
      · next hrun =>
        cases H
        exact .unstarted hnull hrun
      · next hrun =>
        rw [capture] at H
        split at H
        · next hout =>
          cases H
          exact .flawedOutput hnull hrun hout
        · next hout =>
          split at H
          · next herr =>
            cases H
            exact .flawedErrors hnull hrun hout herr
          · cases H

/-- A derivation goes on with a value in the state in which it was found. -/
theorem derive_bind {β : Type} (h : Host σ) (d : Derivation α) (f : α → Derivation β) (s : σ) :
    h.derive (d.bind f) s =
      match h.derive d s with
      | (.ok (.ok a), s) => h.derive (f a) s
      | (.ok (.error e), s) => (.ok (.error e), s)
      | (.error fault, s) => (.error fault, s) := by
  induction d generalizing s with
  | done | failed => rfl
  | shell command next ih =>
    rw [Derivation.shell_bind, derive, derive]
    split
    · rfl
    · exact ih _ _
  | wildcard pattern next ih =>
    rw [Derivation.wildcard_bind, derive, derive]
    split
    · rfl
    · exact ih _ _

/-- A derivation comes to a question that ends with a fault: to a command whose answer cannot be had
or to a pattern with a null character in the name of the directory to be listed. -/
inductive Faults (h : Host σ) : Derivation α → σ → Fault → Prop
  | command {command next s fault} : h.Misrun s command fault →
      Faults h (.shell command next) s fault
  | answered {command next s answer s' fault} :
      h.ask standardShell [] command s = (.ok answer, s') → Faults h (next answer) s' fault →
      Faults h (.shell command next) s fault
  | pattern {pattern next s} : FilePattern.listsNull pattern = true →
      Faults h (.wildcard pattern next) s .embeddedNull
  | expanded {pattern next s fault} : FilePattern.listsNull pattern = false →
      Faults h (next (FilePattern.expand (h.files s) pattern)) s fault →
      Faults h (.wildcard pattern next) s fault

theorem Faults.isOutside {d : Derivation α} (H : h.Faults d s fault) : fault.IsOutside := by
  induction H with
  | command H => exact H.isOutside
  | answered _ _ ih | expanded _ _ ih => exact ih
  | pattern => exact .inr (.inl rfl)

/-- A derivation ends with a fault if and only if it comes to a question that does. -/
theorem faults_iff {d : Derivation α} : h.Faults d s fault ↔ (h.derive d s).1 = .error fault := by
  induction d generalizing s with
  | done | failed =>
    rw [derive]
    exact ⟨nofun, nofun⟩
  | shell command next ih =>
    rw [derive]
    split
    · next hask =>
      constructor
      · rintro (H | ⟨hask', -⟩)
        · cases (congrArg Prod.fst hask).symm.trans (misrun_iff.1 H)
          rfl
        · cases hask.symm.trans hask'
      · rintro ⟨⟩
        exact .command (misrun_iff.2 (congrArg Prod.fst hask))
    · next hask =>
      rw [← ih]
      constructor
      · rintro (H | ⟨hask', H⟩)
        · cases (congrArg Prod.fst hask).symm.trans (misrun_iff.1 H)
        · cases hask.symm.trans hask'
          exact H
      · exact .answered hask
  | wildcard pattern next ih =>
    rw [derive]
    split
    · next hnull =>
      constructor
      · rintro (_ | _ | _ | ⟨hlist, -⟩)
        · rfl
        · cases hnull.symm.trans hlist
      · rintro ⟨⟩
        exact .pattern hnull
    · next hnull =>
      rw [← ih]
      constructor
      · rintro (_ | _ | hlist | ⟨-, H⟩)
        · exact absurd hlist hnull
        · exact H
      · exact .expanded (Bool.eq_false_iff.2 hnull)

end Host

end Haybuild
