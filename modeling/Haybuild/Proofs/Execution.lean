import Haybuild.Proofs.Derivation.Settled
import Haybuild.Proofs.Stage

/-!
# Laws of executions

The diagnostics of an execution are those of commands that fail to derive
(`Recipe.tellsOnly_execute`), and with the cancel flag set from the start no command runs and the
host stays as it is (`Recipe.execute_cancelled`).
-/

namespace Haybuild

variable {σ : Type} {r : Recipe} {h : Host σ} {setting : Setting} {s : σ}

/-- The diagnostics among the events of an execution, and the one that it ends with, satisfy `p`. -/
structure Executed.TellsOnly (x : Executed σ) (p : Diagnostic → Prop) : Prop where
  events : ∀ d, .diagnostic d ∈ x.events → p d
  ending : ∀ d, x.ending = .failed (.diagnostic d) → p d

namespace Executed.TellsOnly

variable {x : Executed σ} {p q : Diagnostic → Prop}

theorem mono (H : x.TellsOnly p) (hpq : ∀ d, p d → q d) : x.TellsOnly q :=
  ⟨fun d hd => hpq d (H.events d hd), fun d hd => hpq d (H.ending d hd)⟩

theorem after {events : List Event} (H : x.TellsOnly p)
    (hevents : ∀ d, .diagnostic d ∈ events → p d) : (x.after events).TellsOnly p where
  events d hd := (List.mem_append.1 hd).elim (hevents d) (H.events d)
  ending := H.ending

end Executed.TellsOnly

namespace Execution

theorem tellsOnly_runCommand {recipe derived : Text} {next : σ → Executed σ}
    {p : Diagnostic → Prop} (hnext : ∀ s, (next s).TellsOnly p) :
    (runCommand h setting recipe derived s next).TellsOnly p := by
  rw [runCommand]
  split
  · exact ⟨by simp, by simp⟩
  · refine Executed.TellsOnly.after ?_ (by simp)
    split
    · exact hnext _
    · exact ⟨by simp, by simp⟩

/-- The diagnostic is that of a command which fails to derive. -/
def Diagnoses (h : Host σ) (setting : Setting) (cs : List Command) (d : Diagnostic) : Prop :=
  ∃ c ∈ cs, ∃ e s s',
    h.derive (derive setting.vars c.debug c.text) s = (.ok (.error e), s') ∧ d = c.diagnose e

theorem tellsOnly_runCommands (recipe : Text) (checks : Option Nat) (cs : List Command) (s : σ) :
    (runCommands h setting recipe checks cs s).TellsOnly (Diagnoses h setting cs) := by
  induction cs generalizing checks s with
  | nil => exact ⟨by simp [runCommands], by simp [runCommands]⟩
  | cons c cs ih =>
    have hrest : ∀ checks s,
        (runCommands h setting recipe checks cs s).TellsOnly (Diagnoses h setting (c :: cs)) := by
      intro checks s
      refine (ih checks s).mono ?_
      rintro d ⟨c', hc', hd⟩
      exact ⟨c', List.mem_cons_of_mem c hc', hd⟩
    rw [runCommands]
    split
    · exact ⟨by simp, by simp⟩
    · split
      · exact ⟨by simp, by simp⟩
      · next e s₁ hderive =>
        have hown : Diagnoses h setting (c :: cs) (c.diagnose e) :=
          ⟨c, List.mem_cons_self, e, s, s₁, hderive, rfl⟩
        split
        · refine (hrest _ _).after ?_
          intro d hd
          cases List.mem_singleton.1 hd
          exact hown
        · refine ⟨by simp, ?_⟩
          intro d hd
          cases hd
          exact hown
      · refine (tellsOnly_runCommand (hrest _)).after ?_
        intro d hd
        rw [debugEvents] at hd
        split at hd <;> simp at hd

end Execution

namespace Recipe

/-- An execution tells only of commands that fail to derive. -/
theorem tellsOnly_execute (r : Recipe) (h : Host σ) (setting : Setting) (checks : Option Nat)
    (s : σ) : (r.execute h setting checks s).TellsOnly (Execution.Diagnoses h setting r.commands) :=
  Execution.tellsOnly_runCommands r.name checks r.commands s

/-- A recipe without commands goes through, whatever the cancel flag says. -/
theorem execute_of_commands_eq_nil {checks : Option Nat} (hr : r.commands = []) :
    r.execute h setting checks s = ⟨[], .completed, s⟩ := by
  rw [execute, hr, Execution.runCommands]

/-- A recipe with commands that finds the cancel flag set runs none of them. -/
theorem execute_cancelled (h : Host σ) (setting : Setting) (s : σ) (hr : r.commands ≠ []) :
    ∃ message, r.execute h setting (some 0) s = ⟨[.debug message], .cancelled, s⟩ := by
  obtain ⟨c, cs, hcs⟩ := List.exists_cons_of_ne_nil hr
  exact ⟨_, by rw [execute, hcs, Execution.runCommands, if_pos rfl]⟩

end Recipe

/-! ## A host without files -/

/-- A host without files, on which each command ends at once with a code of its own. -/
def Host.answering (code : Text → Int) : Host Unit where
  directory := ['/']
  files _ := ⟨fun _ => false, fun _ => false, fun _ => false, fun _ => []⟩
  read _ _ := .error .notFound
  fileCount _ := 0
  run _ _ command _ := (.ok ⟨code command, [], []⟩, ())

theorem Host.ask_answering {code : Text → Int} {command : Text} (hc : '\x00' ∉ command) :
    (answering code).ask standardShell [] command () = (.ok ⟨code command, [], []⟩, ()) := by
  have : '\x00' ∉ standardShell := by decide
  simp [ask, answering, hc, this, capture]
  rfl

/-- On such a host plain commands do not abort, and they fail only with a code of their own. -/
theorem LeadsTo.answering (code : Text → Int) (vars : Variables) {name : Text} {cs : List Command}
    {ds : List Deed} {e : Ending} (hcs : ∀ c ∈ cs, '$' ∉ c.text ∧ '\x00' ∉ c.text)
    (R : LeadsTo name cs ds (.ended e))
    (hds : ∀ deed ∈ ds, ∃ s s', deed.Holds (.answering code) ⟨vars, [], standardShell⟩ s s') :
    (∀ fault, e ≠ .aborted fault) ∧ ((∀ c ∈ cs, code c.text = 0) → ∀ error, e ≠ .failed error) := by
  have hderived : ∀ c ∈ cs, ∀ outcome, .derived c outcome ∈ ds → outcome = .ok (.ok c.text) := by
    intro c hc outcome hdeed
    obtain ⟨s, s', H⟩ := hds _ hdeed
    rw [Deed.Holds, derive_of_not_mem _ _ (hcs c hc).1] at H
    exact (congrArg Prod.fst H).symm
  have hran : ∀ c ∈ cs, ∀ answer, .ran (unescapeDollars c.text) answer ∈ ds →
      answer = .ok ⟨code c.text, [], []⟩ := by
    intro c hc answer hdeed
    obtain ⟨s, s', H⟩ := hds _ hdeed
    rw [Deed.Holds, unescapeDollars_of_not_mem (hcs c hc).1] at H
    exact (congrArg Prod.fst (H.symm.trans (Host.ask_answering (hcs c hc).2)))
  cases R with
  | completed | cancelled => simp
  | @underived done c rest ds e hcs' =>
    cases hderived c (by simp [hcs']) (.ok (.error e)) (by simp)
  | @unanswered done c rest ds fault hcs' =>
    cases hderived c (by simp [hcs']) (.error fault) (by simp)
  | @broke done c rest ds text answer hcs' C hcode =>
    cases hderived c (by simp [hcs']) (.ok (.ok text)) (by simp)
    cases hran c (by simp [hcs']) (.ok answer) (by simp)
    exact ⟨by simp, fun hall => absurd (hall c (by simp [hcs'])) hcode⟩
  | @unstarted done c rest ds text fault hcs' =>
    cases hderived c (by simp [hcs']) (.ok (.ok text)) (by simp)
    cases hran c (by simp [hcs']) (.error fault) (by simp)

end Haybuild
