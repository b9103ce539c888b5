import Haybuild.Proofs.Execution
import Haybuild.Proofs.Record
import Mathlib.Data.List.TakeDrop

/-!
# Transcripts of executions

Where commands leave alone what derivations see of the host (`Host.Regular`), all commands of a
recipe could as well be derived before the first of them runs (`Execution.steps`). An execution then
follows these steps. It goes past those that run a command which ends well, and those that neglect
an error, up to the first one that halts it: because the cancel flag is set by then, or because of
the step itself (`Step.Halts`). Where it halts decides which commands shells are to run, which
errors are reported and how the execution ends (`execute_transcript`).
-/

namespace Haybuild

variable {σ τ α : Type} {h : Host σ} {setting : Setting} {view : σ → τ}
  {exit : Text → Except Fault Int} {recipe : Text} {checks : Option Nat} {c : Command}
  {cs : List Command} {s s' s₀ : σ} {record : List ShellCall} {k : Nat} {ending : Ending}

/-- Commands leave alone what derivations see of the host, and `exit` says how a command ends. -/
structure Host.Regular (h : Host σ) (setting : Setting) (view : σ → τ)
    (exit : Text → Except Fault Int) : Prop where
  answer : ∀ t {s s'}, view s = view s' →
    (h.ask standardShell [] t s).1 = (h.ask standardShell [] t s').1
  view_answer : ∀ t {s s'}, view s = view s' →
    view (h.ask standardShell [] t s).2 = view (h.ask standardShell [] t s').2
  files : ∀ {s s'}, view s = view s' → h.files s = h.files s'
  view_command : ∀ t s, view (h.ask setting.shell setting.environment.unescaped t s).2 = view s
  code : ∀ t s, (h.ask setting.shell setting.environment.unescaped t s).1.map (·.code) = exit t

/-- States that derivations see alike are so after a derivation, which has the same outcome. -/
theorem Host.Regular.derive (H : h.Regular setting view exit) (d : Derivation α)
    (hs : view s = view s') :
    (h.derive d s).1 = (h.derive d s').1 ∧ view (h.derive d s).2 = view (h.derive d s').2 ∧
      h.calls d s = h.calls d s' := by
  induction d generalizing s s' with
  | done | failed => exact ⟨rfl, hs, rfl⟩
  | shell command next ih =>
    have hanswer := H.answer command hs
    have hview := H.view_answer command hs
    rw [Host.derive, Host.derive, calls, calls]
    generalize h.ask standardShell [] command s = out at hanswer hview ⊢
    generalize h.ask standardShell [] command s' = out' at hanswer hview ⊢
    obtain ⟨a, r⟩ := out
    obtain ⟨a', r'⟩ := out'
    obtain rfl : a = a' := hanswer
    cases a with
    | error fault => exact ⟨rfl, hview, rfl⟩
    | ok answer =>
      obtain ⟨houtcome, hafter, hcalls⟩ := ih answer hview
      exact ⟨houtcome, hafter, congrArg _ hcalls⟩
  | wildcard pattern next ih =>
    rw [Host.derive, Host.derive, calls, calls, H.files hs]
    split
    · exact ⟨rfl, hs, rfl⟩
    · exact ih _ hs

theorem Host.Regular.exists_answer {t : Text} {code : Int} (H : h.Regular setting view exit)
    (hcode : exit t = .ok code) (s : σ) :
    ∃ answer, (h.ask setting.shell setting.environment.unescaped t s).1 = .ok answer ∧
      answer.code = code := by
  have hexit := (H.code t s).trans hcode
  rcases hask : (h.ask setting.shell setting.environment.unescaped t s).1 with fault | answer
  · rw [hask] at hexit
    cases hexit
  · rw [hask] at hexit
    exact ⟨answer, rfl, Except.ok.inj hexit⟩

theorem Host.Regular.ask_eq_error {t : Text} {fault : Fault} (H : h.Regular setting view exit)
    (hfault : exit t = .error fault) (s : σ) :
    (h.ask setting.shell setting.environment.unescaped t s).1 = .error fault := by
  have hexit := (H.code t s).trans hfault
  rcases hask : (h.ask setting.shell setting.environment.unescaped t s).1 with fault | answer
  · rw [hask] at hexit
    exact congrArg _ (Except.error.inj hexit)
  · rw [hask] at hexit
    cases hexit

/-- The diagnostic that an event tells. -/
def Event.diagnostic? : Event → Option Diagnostic
  | .diagnostic d => some d
  | _ => none

/-- The diagnostics that an execution tells. -/
def Executed.reports (x : Executed σ) : List Diagnostic :=
  x.events.filterMap Event.diagnostic?

theorem Executed.reports_after (x : Executed σ) (events : List Event) :
    (x.after events).reports = events.filterMap Event.diagnostic? ++ x.reports :=
  List.filterMap_append

namespace Execution

/-! ## Steps -/

/-- A command with what it derives to, and the commands that shells are to run meanwhile. -/
structure Step where
  command : Command
  derived : Except Fault (Except Derivation.Error Text)
  calls : List ShellCall
  deriving Repr, DecidableEq

namespace Step

variable {st : Step}

/-- The commands that shells are to run in a step that is not cancelled: its own last, if it
derives. -/
def handed (setting : Setting) (exit : Text → Except Fault Int) (st : Step) : List ShellCall :=
  st.calls ++
    match st.derived with
    | .ok (.ok v) => setting.call (unescapeDollars v) (exit (unescapeDollars v))
    | _ => []

/-- What is reported of a step that the execution goes past. -/
def reported (st : Step) : List Diagnostic :=
  match st.derived with
  | .ok (.error e) => if st.command.neglect then [st.command.diagnose e] else []
  | _ => []

theorem handed_of_ok {v : Text} (hv : st.derived = .ok (.ok v)) :
    st.handed setting exit =
      st.calls ++ setting.call (unescapeDollars v) (exit (unescapeDollars v)) := by
  rw [handed, hv]

theorem handed_of_not_ok (hv : ∀ v, st.derived ≠ .ok (.ok v)) :
    st.handed setting exit = st.calls := by
  rw [handed]
  split
  · next v hv' => exact absurd hv' (hv v)
  · exact List.append_nil _

/-- A step whose command ends with a code has handed it to the shell. -/
theorem handed_of_code {v : Text} {code : Int} (hv : st.derived = .ok (.ok v))
    (hcode : exit (unescapeDollars v) = .ok code) :
    st.handed setting exit = st.calls ++ [⟨setting.shell, unescapeDollars v, true⟩] := by
  rw [handed_of_ok hv, hcode, Setting.call_ok]

theorem reported_of_ok {v : Text} (hv : st.derived = .ok (.ok v)) : st.reported = [] := by
  rw [reported, hv]

theorem reported_of_neglect {e : Derivation.Error} (hneglect : st.command.neglect = true)
    (he : st.derived = .ok (.error e)) : st.reported = [st.command.diagnose e] := by
  rw [reported, he]
  exact if_pos hneglect

/-- The step goes by: its command runs and ends well, or its error is neglected. -/
inductive Passes (exit : Text → Except Fault Int) (st : Step) : Prop
  | ran {v : Text} : st.derived = .ok (.ok v) → exit (unescapeDollars v) = .ok 0 → Passes exit st
  | neglected {e : Derivation.Error} : st.command.neglect = true → st.derived = .ok (.error e) →
      Passes exit st

/-- The step stops the execution of the recipe with this name. -/
inductive Stops (exit : Text → Except Fault Int) (recipe : Text) (st : Step) : Ending → Prop
  | underived {e : Derivation.Error} : st.command.neglect = false → st.derived = .ok (.error e) →
      Stops exit recipe st (.failed (.diagnostic (st.command.diagnose e)))
  | failed {v : Text} {code : Int} : st.derived = .ok (.ok v) →
      exit (unescapeDollars v) = .ok code → code ≠ 0 →
      Stops exit recipe st (.failed (.command recipe (unescapeDollars v) code))
  | faulted {fault : Fault} : st.derived = .error fault → Stops exit recipe st (.aborted fault)
  | unstarted {v : Text} {fault : Fault} : st.derived = .ok (.ok v) →
      exit (unescapeDollars v) = .error fault → Stops exit recipe st (.aborted fault)

theorem passes_iff : st.Passes exit ↔ ∀ ending, ¬st.Stops exit recipe ending := by
  constructor
  · intro hpass ending hstop
    cases hpass with
    | ran hv hcode => cases hstop <;> simp_all
    | neglected hneglect he => cases hstop <;> simp_all
  · intro H
    rcases hderived : st.derived with fault | e | v
    · exact absurd (.faulted hderived) (H _)
    · cases hneglect : st.command.neglect with
      | true => exact .neglected hneglect hderived
      | false => exact absurd (.underived hneglect hderived) (H _)
    · rcases hexit : exit (unescapeDollars v) with fault | code
      · exact absurd (.unstarted hderived hexit) (H _)
      · by_cases hcode : code = 0
        · exact .ran hderived (hcode ▸ hexit)
        · exact absurd (.failed hderived hexit hcode) (H _)

theorem Stops.ne_cancelled (H : st.Stops exit recipe ending) : ending ≠ .cancelled := by
  cases H <;> simp

/-- The execution halts at the step, of which there are `k` before it: the cancel flag is set by
then, or it is not and the step stops the execution. -/
inductive Halts (exit : Text → Except Fault Int) (recipe : Text) (checks : Option Nat) (k : Nat)
    (st : Step) : Ending → Prop
  | cancelled {n : Nat} : checks = some n → n ≤ k → Halts exit recipe checks k st .cancelled
  | stopped {ending : Ending} : (∀ n, checks = some n → k < n) → st.Stops exit recipe ending →
      Halts exit recipe checks k st ending

theorem not_halts_iff :
    (∀ ending, ¬st.Halts exit recipe checks k ending) ↔
      (∀ n, checks = some n → k < n) ∧ st.Passes exit := by
  constructor
  · intro H
    have hchecks : ∀ n, checks = some n → k < n := fun n hn =>
      Nat.lt_of_not_le fun hle => H _ (.cancelled hn hle)
    exact ⟨hchecks, passes_iff.2 fun ending hstop => H ending (.stopped hchecks hstop)⟩
  · rintro ⟨hchecks, hpass⟩ ending (⟨hn, hle⟩ | ⟨-, hstop⟩)
    · exact Nat.not_le.2 (hchecks _ hn) hle
    · exact passes_iff.1 hpass ending hstop

theorem halts_succ_iff :
    st.Halts exit recipe checks (k + 1) ending ↔
      st.Halts exit recipe (checks.map (· - 1)) k ending := by
  constructor
  · rintro (⟨rfl, hn⟩ | ⟨hchecks, hstop⟩)
    · exact .cancelled rfl (Nat.sub_le_of_le_add hn)
    · refine .stopped (fun n hn => ?_) hstop
      obtain ⟨m, hm, rfl⟩ := Option.map_eq_some_iff.1 hn
      exact Nat.lt_sub_of_add_lt (hchecks m hm)
  · rintro (⟨hn, hle⟩ | ⟨hchecks, hstop⟩)
    · obtain ⟨m, hm, rfl⟩ := Option.map_eq_some_iff.1 hn
      exact .cancelled hm (Nat.le_add_of_sub_le hle)
    · refine .stopped (fun n hn => ?_) hstop
      exact Nat.add_lt_of_lt_sub (hchecks (n - 1) (by rw [hn]; rfl))

end Step

/-- The step of a command in a state. -/
def step (h : Host σ) (setting : Setting) (c : Command) (s : σ) : Step where
  command := c
  derived := (h.derive (derive setting.vars c.debug c.text) s).1
  calls := h.calls (derive setting.vars c.debug c.text) s

/-- The state after a command is derived and before it is run. -/
def afterDeriving (h : Host σ) (setting : Setting) (c : Command) (s : σ) : σ :=
  (h.derive (derive setting.vars c.debug c.text) s).2

/-- The steps of commands that are derived one after the other, without running any. -/
def steps (h : Host σ) (setting : Setting) : List Command → σ → List Step
  | [], _ => []
  | c :: cs, s => step h setting c s :: steps h setting cs (afterDeriving h setting c s)

theorem step_congr (H : h.Regular setting view exit) (hs : view s = view s') (c : Command) :
    step h setting c s = step h setting c s' ∧
      view (afterDeriving h setting c s) = view (afterDeriving h setting c s') := by
  obtain ⟨houtcome, hview, hcalls⟩ := H.derive (derive setting.vars c.debug c.text) hs
  refine ⟨?_, hview⟩
  rw [step, step, houtcome, hcalls]

/-! ## One step of an execution -/

theorem diagnostics_debugEvents (derived : Text) :
    (debugEvents setting recipe c derived).filterMap Event.diagnostic? = [] := by
  rw [debugEvents]
  split <;> rfl

theorem runCommands_of_fault {fault : Fault} (hchecks : checks ≠ some 0)
    (hf : (step h setting c s).derived = .error fault) :
    runCommands h.recorded setting recipe checks (c :: cs) (s, record) =
      ⟨[], .aborted fault,
        (afterDeriving h setting c s, record ++ (step h setting c s).handed setting exit)⟩ := by
  have houtcome : (h.derive (derive setting.vars c.debug c.text) s).1 = .error fault := hf
  rw [runCommands, if_neg hchecks, h.derive_recorded, houtcome,
    Step.handed_of_not_ok (by simp [hf])]
  rfl

theorem runCommands_of_error {e : Derivation.Error} (hchecks : checks ≠ some 0)
    (he : (step h setting c s).derived = .ok (.error e)) :
    runCommands h.recorded setting recipe checks (c :: cs) (s, record) =
      if c.neglect then
        .after [.diagnostic (c.diagnose e)] <|
          runCommands h.recorded setting recipe (checks.map (· - 1)) cs
            (afterDeriving h setting c s, record ++ (step h setting c s).handed setting exit)
      else
        ⟨[], .failed (.diagnostic (c.diagnose e)),
          (afterDeriving h setting c s, record ++ (step h setting c s).handed setting exit)⟩ := by
  have houtcome : (h.derive (derive setting.vars c.debug c.text) s).1 = .ok (.error e) := he
  rw [runCommands, if_neg hchecks, h.derive_recorded, houtcome,
    Step.handed_of_not_ok (by simp [he])]
  rfl

theorem runCommands_of_ok {v : Text} (hchecks : checks ≠ some 0)
    (hv : (step h setting c s).derived = .ok (.ok v)) :
    runCommands h.recorded setting recipe checks (c :: cs) (s, record) =
      .after (debugEvents setting recipe c v) (runCommand h.recorded setting recipe v
        (afterDeriving h setting c s, record ++ (step h setting c s).calls)
        (runCommands h.recorded setting recipe (checks.map (· - 1)) cs)) := by
  have houtcome : (h.derive (derive setting.vars c.debug c.text) s).1 = .ok (.ok v) := hv
  rw [runCommands, if_neg hchecks, h.derive_recorded, houtcome]
  rfl

theorem runCommand_recorded {v : Text} {answer : Derivation.ShellAnswer}
    {next : σ × List ShellCall → Executed (σ × List ShellCall)}
    (hask : (h.ask setting.shell setting.environment.unescaped (unescapeDollars v) s).1 =
      .ok answer) :
    let out := ((h.ask setting.shell setting.environment.unescaped (unescapeDollars v) s).2,
      record ++ [⟨setting.shell, unescapeDollars v, true⟩])
    runCommand h.recorded setting recipe v (s, record) next =
      .after [.command recipe (unescapeDollars v), .output recipe answer.output answer.errors]
        (if answer.code = 0 then next out
        else ⟨[], .failed (.command recipe (unescapeDollars v) answer.code), out⟩) := by
  rw [runCommand, h.ask_recorded, hask, Setting.call_ok]

/-- An execution goes past a step that passes. -/
theorem runCommands_pass (H : h.Regular setting view exit) (hchecks : checks ≠ some 0)
    (hpass : (step h setting c s).Passes exit) :
    ∃ s' events, view s' = view (afterDeriving h setting c s) ∧
      events.filterMap Event.diagnostic? = (step h setting c s).reported ∧
      runCommands h.recorded setting recipe checks (c :: cs) (s, record) =
        (runCommands h.recorded setting recipe (checks.map (· - 1)) cs
          (s', record ++ (step h setting c s).handed setting exit)).after events := by
  cases hpass with
  | @ran v hv hcode =>
    obtain ⟨answer, hanswer, hzero⟩ := H.exists_answer hcode (afterDeriving h setting c s)
    refine ⟨_, debugEvents setting recipe c v ++ [.command recipe (unescapeDollars v),
      .output recipe answer.output answer.errors], H.view_command (unescapeDollars v) _, ?_, ?_⟩
    · rw [List.filterMap_append, diagnostics_debugEvents, Step.reported_of_ok hv]
      rfl
    · rw [runCommands_of_ok hchecks hv, runCommand_recorded hanswer, if_pos hzero,
        Step.handed_of_code hv hcode]
      simp only [Executed.after, List.append_assoc]
  | @neglected e hneglect he =>
    refine ⟨_, [.diagnostic (c.diagnose e)], rfl, ?_, ?_⟩
    · rw [Step.reported_of_neglect hneglect he]
      rfl
    · rw [runCommands_of_error hchecks he]
      exact if_pos hneglect

/-- An execution ends with a step that stops it. -/
theorem runCommands_stop (H : h.Regular setting view exit) (hchecks : checks ≠ some 0)
    (hstop : (step h setting c s).Stops exit recipe ending) :
    let x := runCommands h.recorded setting recipe checks (c :: cs) (s, record)
    x.ending = ending ∧ x.host.2 = record ++ (step h setting c s).handed setting exit ∧
      x.reports = [] := by
  dsimp only
  cases hstop with
  | @underived e hneglect he =>
    have hneglect : ¬c.neglect = true := Bool.eq_false_iff.1 hneglect
    rw [runCommands_of_error hchecks he, if_neg hneglect]
    exact ⟨rfl, rfl, rfl⟩
  | @failed v code hv hcode hne =>
    obtain ⟨answer, hanswer, rfl⟩ := H.exists_answer hcode (afterDeriving h setting c s)
    rw [runCommands_of_ok hchecks hv, runCommand_recorded hanswer, if_neg hne,
      Step.handed_of_code hv hcode, Executed.reports_after, diagnostics_debugEvents,
      ← List.append_assoc]
    exact ⟨rfl, rfl, rfl⟩
  | @faulted fault hf =>
    rw [runCommands_of_fault hchecks hf]
    exact ⟨rfl, rfl, rfl⟩
  | @unstarted v fault hv hf =>
    have hask := H.ask_eq_error hf (afterDeriving h setting c s)
    rw [runCommands_of_ok hchecks hv, runCommand, h.ask_recorded, hask, Setting.call_error,
      Step.handed_of_ok hv, hf, Executed.reports_after, diagnostics_debugEvents,
      ← List.append_assoc]
    exact ⟨rfl, rfl, rfl⟩

/-! ## Following the steps -/

/-- Past the steps that do not halt it, an execution goes on with the commands behind them. -/
theorem runCommands_drop (H : h.Regular setting view exit) (record : List ShellCall)
    (hs : view s = view s₀)
    (hk : ∀ i < k, ∃ st, (steps h setting cs s₀)[i]? = some st ∧
      ∀ ending, ¬st.Halts exit recipe checks i ending) :
    ∃ s' s₁ events, view s' = view s₁ ∧
      steps h setting (cs.drop k) s₁ = (steps h setting cs s₀).drop k ∧
      events.filterMap Event.diagnostic? =
        ((steps h setting cs s₀).take k).flatMap Step.reported ∧
      runCommands h.recorded setting recipe checks cs (s, record) =
        (runCommands h.recorded setting recipe (checks.map (· - k)) (cs.drop k)
          (s', record ++ ((steps h setting cs s₀).take k).flatMap (Step.handed setting exit))).after
            events := by
  -- the state of the run and that of the steps have in common what derivations see of them
  induction k generalizing cs checks s s₀ record with
  | zero => exact ⟨s, s₀, [], hs, rfl, rfl, by simp [Executed.after]⟩
  | succ k ih =>
    obtain ⟨st, hst, hnot⟩ := hk 0 (Nat.succ_pos k)
    cases cs with
    | nil => cases hst
    | cons c cs =>
      cases hst
      obtain ⟨hnumber, hpass⟩ := Step.not_halts_iff.1 hnot
      have hchecks : checks ≠ some 0 := fun hzero => absurd (hnumber 0 hzero) (Nat.lt_irrefl 0)
      obtain ⟨hstep, hview⟩ := step_congr H hs c
      rw [← hstep] at hpass
      obtain ⟨s₁, events, hs₁, hevents, hrun⟩ := runCommands_pass H hchecks hpass
      obtain ⟨s', s₂, events', hs', hsteps, hevents', hrun'⟩ :=
        ih (record ++ (step h setting c s).handed setting exit) (hs₁.trans hview) fun i hi => by
          obtain ⟨st, hst, hnot⟩ := hk (i + 1) (Nat.succ_lt_succ hi)
          exact ⟨st, hst, fun ending hhalts => hnot ending (Step.halts_succ_iff.2 hhalts)⟩
      have hmap : (checks.map (· - 1)).map (· - k) = checks.map (· - (k + 1)) := by
        rw [Option.map_map]
        congr 1
        funext n
        exact (Nat.sub_sub n 1 k).trans (congrArg (n - ·) (Nat.add_comm 1 k))
      refine ⟨s', s₂, events ++ events', hs', hsteps, ?_, ?_⟩
      · rw [List.filterMap_append, hevents, hevents', hstep]
        rfl
      · rw [hrun, hrun', hmap, hstep]
        simp [Executed.after, steps]

/-- If no step halts it, an execution goes past all of them. -/
theorem runCommands_completed (H : h.Regular setting view exit)
    (hnone : ∀ k (st : Step) ending, (steps h setting cs s)[k]? = some st →
      ¬st.Halts exit recipe checks k ending) :
    let x := runCommands h.recorded setting recipe checks cs (s, record)
    x.ending = .completed ∧
      x.host.2 = record ++ (steps h setting cs s).flatMap (Step.handed setting exit) ∧
      x.reports = (steps h setting cs s).flatMap Step.reported := by
  obtain ⟨s', s₁, events, -, hsteps, hevents, hrun⟩ :=
    runCommands_drop (k := (steps h setting cs s).length) H record (rfl : view s = view s)
      fun i hi =>
        ⟨_, List.getElem?_eq_getElem hi,
          fun ending => hnone i _ ending (List.getElem?_eq_getElem hi)⟩
  rw [List.drop_length] at hsteps
  have hdrop : cs.drop (steps h setting cs s).length = [] := by
    cases hcs : cs.drop (steps h setting cs s).length with
    | nil => rfl
    | cons c rest =>
      rw [hcs] at hsteps
      cases hsteps
  rw [List.take_length] at hevents hrun
  dsimp only
  rw [hrun, hdrop, runCommands, Executed.reports_after, hevents]
  exact ⟨rfl, rfl, List.append_nil _⟩

/-- An execution ends with the first step that halts it. -/
theorem runCommands_halted {st : Step} (H : h.Regular setting view exit)
    (hst : (steps h setting cs s)[k]? = some st) (hhalts : st.Halts exit recipe checks k ending)
    (hfirst : ∀ i < k, ∀ (st' : Step) ending', (steps h setting cs s)[i]? = some st' →
      ¬st'.Halts exit recipe checks i ending') :
    let x := runCommands h.recorded setting recipe checks cs (s, record)
    x.ending = ending ∧
      x.host.2 = record ++ ((steps h setting cs s).take k).flatMap (Step.handed setting exit) ++
        (if ending = .cancelled then [] else st.handed setting exit) ∧
      x.reports = ((steps h setting cs s).take k).flatMap Step.reported := by
  obtain ⟨hlt, hget⟩ := List.getElem?_eq_some_iff.1 hst
  obtain ⟨s', s₁, events, hs', hsteps, hevents, hrun⟩ :=
    runCommands_drop (k := k) H record (rfl : view s = view s) fun i hi =>
      have hi' := Nat.lt_trans hi hlt
      ⟨_, List.getElem?_eq_getElem hi',
        fun ending' => hfirst i hi _ ending' (List.getElem?_eq_getElem hi')⟩
  rw [List.drop_eq_getElem_cons hlt, hget] at hsteps
  -- the next command is that of the step, or there would be no step
  cases hcs : cs.drop k with
  | nil =>
    rw [hcs] at hsteps
    cases hsteps
  | cons c rest =>
    rw [hcs] at hsteps
    obtain rfl : step h setting c s₁ = st := (List.cons.inj hsteps).1
    dsimp only
    rw [hrun, hcs, Executed.reports_after, hevents]
    cases hhalts with
    | @cancelled n hn hle =>
      have hchecks : checks.map (· - k) = some 0 := by
        rw [hn, Option.map_some, Nat.sub_eq_zero_of_le hle]
      rw [runCommands, if_pos hchecks, if_pos rfl, List.append_nil]
      exact ⟨rfl, rfl, List.append_nil _⟩
    | stopped hchecks hstop =>
      have hmap : checks.map (· - k) ≠ some 0 := by
        intro hzero
        obtain ⟨n, hn, hle⟩ := Option.map_eq_some_iff.1 hzero
        exact absurd (hchecks n hn) (Nat.not_lt.2 (Nat.le_of_sub_eq_zero hle))
      obtain ⟨hstep, -⟩ := step_congr H hs' c
      rw [← hstep] at hstop ⊢
      obtain ⟨hending, hrecord, hreports⟩ := runCommands_stop H hmap hstop
      rw [if_neg hstop.ne_cancelled, hreports, List.append_nil]
      exact ⟨hending, hrecord, rfl⟩

end Execution

namespace Recipe

/-- An execution follows the steps of its recipe. It completes if none of them halts it, and
otherwise ends as the first one says that does. On record are the commands of the steps before, once
and in order, and those of the last one if that is not cancelled: a command that ends with a code is
among them, and a shell was started for it. Reported are the neglected errors of the steps
before. -/
theorem execute_transcript (H : h.Regular setting view exit) (r : Recipe) (checks : Option Nat)
    (s : σ) (record : List ShellCall) :
    let x := r.execute h.recorded setting checks (s, record)
    let steps := Execution.steps h setting r.commands s
    ((∀ k (st : Execution.Step) ending, steps[k]? = some st →
        ¬st.Halts exit r.name checks k ending) →
      x.ending = .completed ∧ x.host.2 = record ++ steps.flatMap (·.handed setting exit) ∧
        x.reports = steps.flatMap (·.reported)) ∧
    (∀ k (st : Execution.Step) ending, steps[k]? = some st →
      st.Halts exit r.name checks k ending →
      (∀ i < k, ∀ (st' : Execution.Step) ending', steps[i]? = some st' →
        ¬st'.Halts exit r.name checks i ending') →
      x.ending = ending ∧
        x.host.2 = record ++ (steps.take k).flatMap (·.handed setting exit) ++
          (if ending = .cancelled then [] else st.handed setting exit) ∧
        x.reports = (steps.take k).flatMap (·.reported)) ∧
    ∀ (st : Execution.Step) v code, st.derived = .ok (.ok v) →
      exit (unescapeDollars v) = .ok code →
      st.handed setting exit = st.calls ++ [⟨setting.shell, unescapeDollars v, true⟩] :=
  ⟨Execution.runCommands_completed H, fun _ _ _ => Execution.runCommands_halted H,
    fun _ _ _ => Execution.Step.handed_of_code⟩

end Recipe

/-- A host with a single state has nothing that commands could change. -/
theorem Host.regular_of_unit (h : Host Unit) (setting : Setting) :
    h.Regular setting id
      fun t => (h.ask setting.shell setting.environment.unescaped t ()).1.map (·.code) where
  answer _ _ _ _ := rfl
  view_answer _ _ _ _ := rfl
  files _ := rfl
  view_command _ _ := rfl
  code _ _ := rfl

/-- A recipe with a variable that is not there and neglected, and a command that fails. -/
def pie : Recipe where
  targets := ["pie"]
  commands := [⟨"mix $(DOUGH)$(shell which spoon)", false, 2, false, "Hayfile", [], 0⟩,
    ⟨"stir $(SPOON)", false, 3, true, "Hayfile", [], 0⟩,
    ⟨"bake", false, 4, false, "Hayfile", [], 0⟩, ⟨"eat", false, 5, false, "Hayfile", [], 0⟩]

/-- A host on which nothing can be baked. -/
def coldKitchen : Host Unit :=
  .answering fun t => if t = "bake" then 7 else 0

/-- A setting with a variable. -/
def withFlour : Setting :=
  ⟨NameMap.ofPairs [("DOUGH", "flour")], [], standardShell⟩

namespace Recipe

theorem execute_transcript_pie :
    let x := pie.execute coldKitchen.recorded withFlour none ((), [])
    x.ending = .failed (.command "pie" "bake" 7) ∧
      x.host.2 = [⟨standardShell, "which spoon", true⟩, ⟨standardShell, "mix flour", true⟩,
        ⟨standardShell, "bake", true⟩] ∧
      x.reports.map (·.line) = [3] := by
  have hsteps : Execution.steps coldKitchen withFlour pie.commands () =
      [⟨pie.commands[0], .ok (.ok "mix flour"), [⟨standardShell, "which spoon", true⟩]⟩,
        ⟨pie.commands[1], .ok (.error ⟨.unknown "$(SPOON)" "SPOON", "$(SPOON)", [], false⟩), []⟩,
        ⟨pie.commands[2], .ok (.ok "bake"), []⟩, ⟨pie.commands[3], .ok (.ok "eat"), []⟩] := by
    decide +kernel
  obtain ⟨-, hhalted, -⟩ :=
    execute_transcript (coldKitchen.regular_of_unit withFlour) pie none () []
  rw [hsteps] at hhalted
  have hcode :
      (coldKitchen.ask standardShell [] (unescapeDollars "bake") ()).1.map (·.code) = .ok 7 := by
    decide +kernel
  obtain ⟨hending, hrecord, hreports⟩ := hhalted 2 _ _ rfl
    (.stopped (by simp) (.failed rfl hcode (by decide))) fun i hi st ending hst => by
      rcases i with - | - | i
      · cases hst
        exact Execution.Step.not_halts_iff.2 ⟨by simp, .ran rfl (by decide +kernel)⟩ ending
      · cases hst
        exact Execution.Step.not_halts_iff.2 ⟨by simp, .neglected rfl rfl⟩ ending
      · omega
  refine ⟨hending, hrecord.trans (by decide +kernel), ?_⟩
  rw [hreports]
  decide +kernel

end Recipe

end Haybuild
