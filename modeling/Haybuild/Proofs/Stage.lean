import Haybuild.Execution

/-!
# Steps of executions

What a recipe has the host do is a list of deeds. `CarriedOut` says which deeds carry out a list of
commands, and `LeadsTo` at which stage a recipe is after its deeds, so that an ending is explained
by what was done: an execution is completed if and only if its deeds carry out all its commands
(`LeadsTo.completed_iff`). Where a recipe is not interrupted, its steps make the execution that
`Recipe.execute` makes in one go (`Stage.steps_queued`).
-/

namespace Haybuild

variable {σ : Type} {h : Host σ} {setting : Setting} {r : Recipe} {cancelled : Bool}
  {s s₁ s' : σ} {cs cs' : List Command} {ds ds' : List Deed} {stage : Stage} {x : Step σ}

/-! ## What a step does -/

/-- The host does a deed in state `s` and is then in state `s'`. -/
def Deed.Holds (h : Host σ) (setting : Setting) (s : σ) : Deed → σ → Prop
  | derived c outcome, s' => h.derive (derive setting.vars c.debug c.text) s = (outcome, s')
  | ran cmd answer, s' =>
    h.ask setting.shell setting.environment.unescaped cmd s = (answer, s')

namespace Stage

/-- The steps that a recipe can make from a stage. -/
inductive Moves (h : Host σ) (setting : Setting) (r : Recipe) (cancelled : Bool) (s : σ) :
    Stage → Step σ → Prop
  | taken : Moves h setting r cancelled s .queued ⟨.ready r.commands, [], [], s⟩
  | completed : Moves h setting r cancelled s (.ready []) ⟨.ended .completed, [], [], s⟩
  | cancelled {c rest} : cancelled = true →
      Moves h setting r cancelled s (.ready (c :: rest))
        ⟨.ended .cancelled, [.debug ("[" ++ r.name ++ "] cancelled before: " ++ c.text)], [], s⟩
  | unanswered {c rest fault s'} :
      Deed.Holds h setting s (.derived c (.error fault)) s' →
      Moves h setting r cancelled s (.ready (c :: rest))
        ⟨.ended (.aborted fault), [], [.derived c (.error fault)], s'⟩
  | neglected {c rest e s'} : Deed.Holds h setting s (.derived c (.ok (.error e))) s' →
      c.neglect = true →
      Moves h setting r cancelled s (.ready (c :: rest))
        ⟨.ready rest, [.diagnostic (c.diagnose e)], [.derived c (.ok (.error e))], s'⟩
  | underived {c rest e s'} : Deed.Holds h setting s (.derived c (.ok (.error e))) s' →
      c.neglect = false →
      Moves h setting r cancelled s (.ready (c :: rest))
        ⟨.ended (.failed (.diagnostic (c.diagnose e))), [], [.derived c (.ok (.error e))], s'⟩
  | derived {c rest text s'} : Deed.Holds h setting s (.derived c (.ok (.ok text))) s' →
      Moves h setting r cancelled s (.ready (c :: rest))
        ⟨.derived (unescapeDollars text) rest, Execution.debugEvents setting r.name c text,
          [.derived c (.ok (.ok text))], s'⟩
  | told {cmd rest} :
      Moves h setting r cancelled s (.derived cmd rest)
        ⟨.started cmd rest, [.command r.name cmd], [], s⟩
  | unstarted {cmd rest fault s'} : Deed.Holds h setting s (.ran cmd (.error fault)) s' →
      Moves h setting r cancelled s (.started cmd rest)
        ⟨.ended (.aborted fault), [], [.ran cmd (.error fault)], s'⟩
  | ran {cmd rest answer s'} : Deed.Holds h setting s (.ran cmd (.ok answer)) s' →
      answer.code = 0 →
      Moves h setting r cancelled s (.started cmd rest)
        ⟨.ready rest, [.output r.name answer.output answer.errors], [.ran cmd (.ok answer)], s'⟩
  | broke {cmd rest answer s'} : Deed.Holds h setting s (.ran cmd (.ok answer)) s' →
      answer.code ≠ 0 →
      Moves h setting r cancelled s (.started cmd rest)
        ⟨.ended (.failed (.command r.name cmd answer.code)),
          [.output r.name answer.output answer.errors], [.ran cmd (.ok answer)], s'⟩
  | idle {e} : Moves h setting r cancelled s (.ended e) ⟨.ended e, [], [], s⟩

theorem moves_derive (c : Command) (rest : List Command) :
    Moves h setting r cancelled s (.ready (c :: rest)) (derive h setting r.name c rest s) := by
  unfold derive
  rcases hderive : h.derive (Haybuild.derive setting.vars c.debug c.text) s with
    ⟨fault | e | text, s'⟩
  · exact .unanswered hderive
  · dsimp only
    split
    · next hneglect => exact .neglected hderive hneglect
    · next hneglect => exact .underived hderive (Bool.eq_false_iff.2 hneglect)
  · exact .derived hderive

theorem moves_run (cmd : Text) (rest : List Command) :
    Moves h setting r cancelled s (.started cmd rest) (run h setting r.name cmd rest s) := by
  unfold run
  rcases hask : h.ask setting.shell setting.environment.unescaped cmd s with ⟨fault | answer, s'⟩
  · exact .unstarted hask
  · dsimp only
    split
    · next hcode => exact .ran hask hcode
    · next hcode => exact .broke hask hcode

/-- A step is one of those that can be made. -/
theorem moves_step (h : Host σ) (setting : Setting) (r : Recipe) (cancelled : Bool) (s : σ)
    (stage : Stage) :
    Moves h setting r cancelled s stage (stage.step h setting r cancelled s) := by
  cases stage with
  | queued => exact .taken
  | ready rest =>
    cases rest with
    | nil => exact .completed
    | cons c rest =>
      rw [step]
      split
      · next hc => exact .cancelled hc
      · exact moves_derive c rest
  | derived cmd rest => exact .told
  | started cmd rest => exact moves_run cmd rest
  | ended e => exact .idle

namespace Moves

/-- A step does nothing with the host, or it does one deed. -/
theorem deeds_eq (M : Moves h setting r cancelled s stage x) :
    x.deeds = [] ∧ x.host = s ∨ ∃ deed, x.deeds = [deed] ∧ deed.Holds h setting s x.host := by
  cases M with
  | taken | completed | cancelled | told | idle => exact .inl ⟨rfl, rfl⟩
  | unanswered H | neglected H | underived H | derived H | unstarted H | ran H | broke H =>
    exact .inr ⟨_, rfl, H⟩

/-- A step announces no frontier. -/
theorem frontier_not_mem (M : Moves h setting r cancelled s stage x) (index : Int)
    (names : List Text) : .frontier index names ∉ x.events := by
  cases M with
  | derived =>
    simp only [Execution.debugEvents]
    split <;> simp
  | _ => simp

/-- A recipe that has not ended comes nearer to its end with each step. -/
theorem left_lt (M : Moves h setting r cancelled s stage x) (hleft : stage.left r ≠ 0) :
    x.stage.left r < stage.left r := by
  cases M with
  | idle => exact absurd rfl hleft
  | _ =>
    simp only [left, List.length_cons]
    omega

/-- A recipe is cancelled only where the cancel flag is set. -/
theorem of_cancelled (M : Moves h setting r cancelled s stage x)
    (hx : x.stage = .ended .cancelled) : stage = .ended .cancelled ∨ cancelled = true := by
  cases M with
  | idle => exact .inl hx
  | cancelled hc => exact .inr hc
  | _ => cases hx

end Moves

theorem left_eq_zero_iff : stage.left r = 0 ↔ ∃ e, stage = .ended e := by
  cases stage <;> simp [left]

end Stage

/-! ## What deeds amount to -/

/-- The deeds carry out the commands one after the other: each is derived and run and exits with
zero, or asks to be neglected and fails to derive. -/
inductive CarriedOut : List Command → List Deed → Prop
  | nil : CarriedOut [] []
  | ran {c cs ds text answer} : answer.code = 0 → CarriedOut cs ds →
      CarriedOut (c :: cs)
        (.derived c (.ok (.ok text)) :: .ran (unescapeDollars text) (.ok answer) :: ds)
  | neglected {c cs ds e} : c.neglect = true → CarriedOut cs ds →
      CarriedOut (c :: cs) (.derived c (.ok (.error e)) :: ds)

namespace CarriedOut

theorem append (C : CarriedOut cs ds) (C' : CarriedOut cs' ds') :
    CarriedOut (cs ++ cs') (ds ++ ds') := by
  induction C with
  | nil => exact C'
  | ran hcode _ ih => exact .ran hcode ih
  | neglected hneglect _ ih => exact .neglected hneglect ih

/-- Behind deeds that carry out the first commands stand those that carry out the others. -/
theorem of_append (C : CarriedOut cs ds) (C' : CarriedOut (cs ++ cs') (ds ++ ds')) :
    CarriedOut cs' ds' := by
  induction C with
  | nil => exact C'
  | ran _ _ ih =>
    cases C' with
    | ran _ C' => exact ih C'
  | neglected _ _ ih =>
    cases C' with
    | neglected _ C' => exact ih C'

end CarriedOut

/-- The deeds lead a recipe with the given name and commands to the stage. -/
inductive LeadsTo (name : Text) (cs : List Command) : List Deed → Stage → Prop
  | queued : LeadsTo name cs [] .queued
  | ready {done rest ds} : cs = done ++ rest → CarriedOut done ds →
      LeadsTo name cs ds (.ready rest)
  | derived {done c rest ds text} : cs = done ++ c :: rest → CarriedOut done ds →
      LeadsTo name cs (ds ++ [.derived c (.ok (.ok text))]) (.derived (unescapeDollars text) rest)
  | started {done c rest ds text} : cs = done ++ c :: rest → CarriedOut done ds →
      LeadsTo name cs (ds ++ [.derived c (.ok (.ok text))]) (.started (unescapeDollars text) rest)
  | completed {ds : List Deed} : CarriedOut cs ds → LeadsTo name cs ds (.ended .completed)
  | cancelled {done c rest ds} : cs = done ++ c :: rest → CarriedOut done ds →
      LeadsTo name cs ds (.ended .cancelled)
  | underived {done c rest ds e} : cs = done ++ c :: rest → CarriedOut done ds →
      c.neglect = false →
      LeadsTo name cs (ds ++ [.derived c (.ok (.error e))])
        (.ended (.failed (.diagnostic (c.diagnose e))))
  | broke {done c rest ds text answer} : cs = done ++ c :: rest → CarriedOut done ds →
      answer.code ≠ 0 →
      LeadsTo name cs
        (ds ++ [.derived c (.ok (.ok text)), .ran (unescapeDollars text) (.ok answer)])
        (.ended (.failed (.command name (unescapeDollars text) answer.code)))
  | unanswered {done c rest ds fault} : cs = done ++ c :: rest → CarriedOut done ds →
      LeadsTo name cs (ds ++ [.derived c (.error fault)]) (.ended (.aborted fault))
  | unstarted {done c rest ds text fault} : cs = done ++ c :: rest → CarriedOut done ds →
      LeadsTo name cs
        (ds ++ [.derived c (.ok (.ok text)), .ran (unescapeDollars text) (.error fault)])
        (.ended (.aborted fault))

namespace LeadsTo

/-- A step goes on from what its recipe has reached. -/
theorem step (R : LeadsTo r.name r.commands ds stage)
    (M : Stage.Moves h setting r cancelled s stage x) :
    LeadsTo r.name r.commands (ds ++ x.deeds) x.stage := by
  cases M with
  | taken =>
    cases R
    exact .ready rfl .nil
  | completed =>
    cases R with
    | ready hcs C =>
      rw [List.append_nil] at hcs
      rw [List.append_nil]
      exact .completed (hcs ▸ C)
  | cancelled =>
    cases R with
    | ready hcs C => exact (List.append_nil ds).symm ▸ .cancelled hcs C
  | unanswered =>
    cases R with
    | ready hcs C => exact .unanswered hcs C
  | neglected _ hneglect =>
    cases R with
    | ready hcs C =>
      exact .ready (hcs.trans (List.append_cons ..)) (C.append (.neglected hneglect .nil))
  | underived _ hneglect =>
    cases R with
    | ready hcs C => exact .underived hcs C hneglect
  | derived =>
    cases R with
    | ready hcs C => exact .derived hcs C
  | told =>
    cases R with
    | derived hcs C => exact (List.append_nil _).symm ▸ .started hcs C
  | unstarted =>
    cases R with
    | started hcs C => exact (List.append_assoc ..).symm ▸ .unstarted hcs C
  | ran _ hcode =>
    cases R with
    | started hcs C =>
      rw [List.append_assoc]
      exact .ready (hcs.trans (List.append_cons ..)) (C.append (.ran hcode .nil))
  | broke _ hcode =>
    cases R with
    | started hcs C => exact (List.append_assoc ..).symm ▸ .broke hcs C hcode
  | idle => exact (List.append_nil ds).symm ▸ R

/-- An execution that ended is completed if and only if its deeds carry out all its commands. -/
theorem completed_iff {name : Text} {e : Ending} (R : LeadsTo name cs ds (.ended e)) :
    e = .completed ↔ CarriedOut cs ds := by
  constructor
  · rintro rfl
    cases R with
    | completed C => exact C
  · intro C
    -- where it ended otherwise, what stands behind the carried out commands would be carried out
    cases R with
    | completed => rfl
    | cancelled hcs C' =>
      rw [hcs, ← List.append_nil ds] at C
      cases C'.of_append C
    | underived hcs C' hneglect =>
      rw [hcs] at C
      cases C'.of_append C with
      | neglected hneglect' => cases hneglect.symm.trans hneglect'
    | broke hcs C' hcode =>
      rw [hcs] at C
      cases C'.of_append C with
      | ran hcode' => exact absurd hcode' hcode
    | unanswered hcs C' | unstarted hcs C' =>
      rw [hcs] at C
      cases C'.of_append C

end LeadsTo

/-! ## Steps without interruption -/

namespace Stage

/-- So many steps of a recipe, without another one in between. -/
def steps (h : Host σ) (setting : Setting) (r : Recipe) (cancelled : Bool) :
    Nat → Stage → σ → Step σ
  | 0, stage, s => ⟨stage, [], [], s⟩
  | k + 1, stage, s =>
    let x := stage.step h setting r cancelled s
    let y := steps h setting r cancelled k x.stage x.host
    ⟨y.stage, x.events ++ y.events, x.deeds ++ y.deeds, y.host⟩

theorem steps_ended {e : Ending} (k : Nat) :
    steps h setting r cancelled k (.ended e) s = ⟨.ended e, [], [], s⟩ := by
  induction k with
  | zero => rfl
  | succ k ih => simp [steps, step, ih]

/-- Enough steps take a recipe to its end. -/
theorem exists_ended_steps (h : Host σ) (setting : Setting) (cancelled : Bool) (s : σ) {k : Nat}
    (hk : stage.left r ≤ k) :
    ∃ e, (steps h setting r cancelled k stage s).stage = .ended e := by
  induction k generalizing stage s with
  | zero => exact left_eq_zero_iff.1 (Nat.le_zero.1 hk)
  | succ k ih =>
    by_cases hleft : stage.left r = 0
    · obtain ⟨e, rfl⟩ := left_eq_zero_iff.1 hleft
      exact ⟨e, by rw [steps_ended]⟩
    · have hlt := (moves_step h setting r cancelled s stage).left_lt hleft
      exact ih _ (by omega)

/-- A recipe that is not interrupted makes the execution that is made in one go. -/
theorem steps_ready (h : Host σ) (setting : Setting) (r : Recipe) (cancelled : Bool)
    (cs : List Command) (k : Nat) (s : σ) :
    ∃ ds, steps h setting r cancelled (3 * cs.length + 1 + k) (.ready cs) s =
      let x := Execution.runCommands h setting r.name (if cancelled then some 0 else none) cs s
      ⟨.ended x.ending, x.events, ds, x.host⟩ := by
  induction cs generalizing k s with
  | nil =>
    refine ⟨[], ?_⟩
    rw [List.length_nil, Nat.mul_zero, Nat.zero_add, Nat.add_comm, steps]
    simp [step, steps_ended, Execution.runCommands]
  | cons c cs ih =>
    have hlen : 3 * (c :: cs).length + 1 + k = 3 * cs.length + 1 + (k + 2) + 1 := by
      simp only [List.length_cons]
      omega
    rw [hlen, steps, step, Execution.runCommands]
    cases cancelled with
    | true => exact ⟨[], by simp [steps_ended]⟩
    | false =>
      simp only [Bool.false_eq_true, if_false, reduceCtorEq, derive, Option.map_none]
      rcases h.derive (Haybuild.derive setting.vars c.debug c.text) s with ⟨fault | e | text, s'⟩
      · refine ⟨[.derived c (.error fault)], ?_⟩
        simp only [steps_ended, List.append_nil]
      · by_cases hneglect : c.neglect = true
        · obtain ⟨ds, hrest⟩ := ih (k + 2) s'
          refine ⟨.derived c (.ok (.error e)) :: ds, ?_⟩
          simp only [hneglect, if_true, hrest]
          rfl
        · refine ⟨[.derived c (.ok (.error e))], ?_⟩
          simp only [hneglect, Bool.false_eq_true, if_false, steps_ended, List.append_nil]
      · dsimp only
        rw [← Nat.add_assoc, steps, steps]
        simp only [step, run, Execution.runCommand]
        rcases h.ask setting.shell setting.environment.unescaped (unescapeDollars text) s' with
          ⟨fault | answer, s''⟩
        · refine ⟨[.derived c (.ok (.ok text)), .ran (unescapeDollars text) (.error fault)], ?_⟩
          simp only [steps_ended]
          rfl
        · by_cases hcode : answer.code = 0
          · obtain ⟨ds, hrest⟩ := ih k s''
            refine ⟨.derived c (.ok (.ok text)) :: .ran (unescapeDollars text) (.ok answer) :: ds,
              ?_⟩
            simp only [hcode, if_true, hrest]
            rfl
          · refine ⟨[.derived c (.ok (.ok text)), .ran (unescapeDollars text) (.ok answer)], ?_⟩
            simp only [hcode, if_false, steps_ended]
            rfl

/-- A recipe that is taken and not interrupted makes the execution that is made in one go. -/
theorem steps_queued (h : Host σ) (setting : Setting) (r : Recipe) (cancelled : Bool) (s : σ) :
    ∃ ds, steps h setting r cancelled (left r .queued) .queued s =
      let x := r.execute h setting (if cancelled then some 0 else none) s
      ⟨.ended x.ending, x.events, ds, x.host⟩ := by
  obtain ⟨ds, hrest⟩ := steps_ready h setting r cancelled r.commands 0 s
  refine ⟨ds, ?_⟩
  rw [left, steps]
  simp only [step]
  rw [Nat.add_zero] at hrest
  rw [hrest]
  rfl

end Stage

end Haybuild
