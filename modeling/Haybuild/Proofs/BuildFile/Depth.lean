import Haybuild.Proofs.BuildFile.Sequence

/-!
# The bound on files inside one another

`processFile` is given a number of files that may be read inside one another. An outcome that is not
stopped by this bound is the outcome for every greater one (`processFile_mono`), so lines that are
read to their end leave one state, whatever room they had (`Reads.unique`).
-/

namespace Haybuild

variable {σ : Type}

/-! ## No derivation meets the bound -/

namespace Host

variable {α : Type} {h : Host σ} {fault : Fault} {s s' : σ}

theorem ne_includeDepth_of_capture {f : Finished} (H : capture f = .error fault) :
    fault ≠ .includeDepth := by
  rw [capture] at H
  split at H
  · cases H
    simp
  · split at H
    · cases H
      simp
    · cases H

theorem ne_includeDepth_of_ask {shell command : Text} {exports : Environment}
    (H : h.ask shell exports command s = (.error fault, s')) : fault ≠ .includeDepth := by
  rw [ask] at H
  split at H
  · cases H
    simp
  · split at H
    · cases H
      simp
    · split at H
      · cases H
        simp
      · next finished _ _ =>
        exact ne_includeDepth_of_capture (Prod.mk.inj H).1

theorem ne_includeDepth_of_derive {d : Derivation α} (H : h.derive d s = (.error fault, s')) :
    fault ≠ .includeDepth := by
  induction d generalizing s with
  | done a => cases H
  | failed e => cases H
  | shell command next ih =>
    rw [derive] at H
    split at H
    · next hask =>
      cases H
      exact ne_includeDepth_of_ask hask
    · next answer s₁ _ => exact ih answer H
  | wildcard pattern next ih =>
    rw [derive] at H
    split at H
    · cases H
      simp
    · exact ih _ H

theorem ne_includeDepth_of_readText {path : Text} (H : h.readText s path = .error fault) :
    fault ≠ .includeDepth := by
  rw [readText] at H
  split at H
  · cases H
    simp
  · split at H
    · cases H
      simp
    · split at H
      · cases H
        simp
      · cases H

end Host

namespace BuildFile

variable {h : Host σ} {readFile readFile' : Text → Loading σ → Outcome σ} {source : Text}
  {number : Nat} {st st' : Loading σ}

/-! ## Enough room -/

/-- Reading is not stopped by the bound on files inside one another. -/
def Outcome.Roomy (o : Outcome σ) : Prop :=
  o.2 ≠ some (.fault .includeDepth)

namespace Outcome

variable {o o' : Outcome σ} {f f' : Loading σ → Outcome σ}

theorem Roomy.of_none : Roomy (st, none) := nofun

theorem Roomy.of_error {e : BuildError} : Roomy (st, some (.error e)) := by
  rw [Roomy]
  simp

theorem Roomy.of_fault {fault : Fault} (hfault : fault ≠ .includeDepth) :
    Roomy (st, some (.fault fault)) := by
  rw [Roomy]
  simpa using hfault

theorem Roomy.andThen (ho : o.Roomy) (hf : ∀ st, o = (st, none) → (f st).Roomy) :
    (o.andThen f).Roomy := by
  rcases o with ⟨st, _ | halt⟩
  · exact hf st rfl
  · exact ho

/-- Where the parts keep their outcomes, so does the whole. -/
theorem andThen_congr (ho : o.Roomy → o' = o) (hf : ∀ st, (f st).Roomy → f' st = f st)
    (H : (o.andThen f).Roomy) : o'.andThen f' = o.andThen f := by
  rcases o with ⟨st, _ | halt⟩
  · rw [ho Roomy.of_none, andThen_none, andThen_none]
    exact hf st H
  · rw [ho H, andThen_some, andThen_some]

end Outcome

theorem roomy_reportOrStop (st : Loading σ) (d : Diagnostic) (neglect : Bool) :
    (st.reportOrStop d neglect).Roomy := by
  rw [Loading.reportOrStop]
  split
  · exact .of_none
  · exact .of_error

/-- A line includes files, or what becomes of it does not depend on how files are read. -/
theorem processLine_cases (h : Host σ) (source : Text) (number : Nat) (st : Loading σ) :
    (∃ derived, kindOf h source st = .inclusion derived ∧ ∀ readFile,
      processLine h readFile source number st =
        includeAll h readFile (Reading.ofSource source number) derived
          ((Text.splitBalanced " " "'" derived).drop 1)
          (st.derived (h.derive (derivationOf st.context.vars source) st.host).2)) ∨
    (∀ derived, kindOf h source st ≠ .inclusion derived) ∧
      ∃ out : Outcome σ, out.Roomy ∧ ∀ readFile, processLine h readFile source number st = out := by
  by_cases hblank : Text.blank source = true
  · rw [kindOf_blank hblank]
    exact .inr ⟨by simp, (st, none), .of_none, fun _ => processLine_blank hblank⟩
  have hblank : Text.blank source = false := by simpa using hblank
  by_cases htab : source.head? = some '\t'
  · rw [kindOf_shell hblank htab]
    refine .inr ⟨by simp, _, ?_, fun _ => processLine_shell hblank htab⟩
    cases st.context.shellLine (Line.ofText source) source number with
    | ok ctx => exact .of_none
    | error d => exact .of_error
  simp only [processLine_heading hblank htab, deriveLine_eq, kindOf_heading hblank htab]
  by_cases hassign : (Text.findUnescaped "=" (contentOf source)).isSome = true
  · simp only [hassign, if_true]
    exact .inr ⟨by simp, _, .of_none, fun _ => rfl⟩
  simp only [hassign]
  rcases hout : h.derive (derivationOf st.context.vars source) st.host with ⟨fault | e | value, s⟩
  · have hfault := Host.ne_includeDepth_of_derive hout
    exact .inr ⟨by simp [kindOfOutcome], _, .of_fault hfault, fun _ => rfl⟩
  · refine .inr ⟨by simp [kindOfOutcome], _, ?_, fun _ => rfl⟩
    exact (roomy_reportOrStop _ _ _).andThen fun _ _ => .of_none
  · simp only [kindOfOutcome, kindOfDerived, derivedLine, Bool.false_eq_true, if_false]
    split
    · exact .inl ⟨_, rfl, fun _ => rfl⟩
    · rcases Rule.parse (unescapeDollars value) with e | _ | rule
      · exact .inr ⟨by simp, _, .of_error, fun _ => rfl⟩
      · exact .inr ⟨by simp, _, .of_none, fun _ => rfl⟩
      · exact .inr ⟨by simp, _, .of_none, fun _ => rfl⟩

/-- The second way to read files has the outcomes of the first one, apart from those that the bound
on files inside one another stops. -/
def Widens (readFile readFile' : Text → Loading σ → Outcome σ) : Prop :=
  ∀ path st, (readFile path st).Roomy → readFile' path st = readFile path st

namespace Widens

theorem includeOne (H : Widens readFile readFile') (r : Reading) (derived : Text)
    (piece : Text.Slice) (st : Loading σ)
    (hroomy : (includeOne h readFile r derived piece st).Roomy) :
    includeOne h readFile' r derived piece st = includeOne h readFile r derived piece st := by
  rw [BuildFile.includeOne] at hroomy
  rw [BuildFile.includeOne, BuildFile.includeOne]
  split
  · next hproblem =>
    rw [hproblem] at hroomy
    exact H _ st hroomy
  · rfl

theorem includeAll (H : Widens readFile readFile') (r : Reading) (derived : Text)
    (pieces : List Text.Slice) (st : Loading σ)
    (hroomy : (includeAll h readFile r derived pieces st).Roomy) :
    includeAll h readFile' r derived pieces st = includeAll h readFile r derived pieces st := by
  induction pieces generalizing st with
  | nil => rfl
  | cons piece pieces ih =>
    rw [includeAll_cons] at hroomy
    rw [includeAll_cons, includeAll_cons]
    exact Outcome.andThen_congr (H.includeOne r derived piece st) ih hroomy

theorem processLine (H : Widens readFile readFile') (source : Text) (number : Nat) (st : Loading σ)
    (hroomy : (processLine h readFile source number st).Roomy) :
    processLine h readFile' source number st = processLine h readFile source number st := by
  rcases processLine_cases h source number st with ⟨derived, -, hline⟩ | ⟨-, out, -, hline⟩
  · rw [hline] at hroomy
    rw [hline, hline]
    exact H.includeAll _ derived _ _ hroomy
  · rw [hline, hline]

theorem processLines (H : Widens readFile readFile') (number : Nat) (lines : List Text)
    (st : Loading σ) (hroomy : (processLines h readFile number lines st).Roomy) :
    processLines h readFile' number lines st = processLines h readFile number lines st := by
  induction lines generalizing number st with
  | nil => rfl
  | cons source lines ih =>
    rw [processLines_cons] at hroomy
    rw [processLines_cons, processLines_cons]
    exact Outcome.andThen_congr (H.processLine source number st) (ih (number + 1)) hroomy

end Widens

/-- With more room, what was not stopped by the bound ends as it did. -/
theorem processFile_mono (h : Host σ) {depth depth' : Nat} (hdepth : depth ≤ depth') :
    Widens (processFile h depth) (processFile h depth') := by
  induction depth generalizing depth' with
  | zero =>
    intro path st hroomy
    exact absurd rfl hroomy
  | succ depth ih =>
    obtain ⟨depth', rfl⟩ : ∃ d, depth' = d + 1 := ⟨depth' - 1, by omega⟩
    intro path st hroomy
    rw [processFile] at hroomy ⊢
    rw [processFile]
    split
    · rfl
    · next source hread =>
      rw [hread] at hroomy
      have hlines := (ih (Nat.le_of_succ_le_succ hdepth)).processLines (h := h) 1
        (Text.uncomment "#" source) _ hroomy
      dsimp only
      rw [hlines]

/-- Lines are read to their end, by themselves and not from a file, if there is room for some number
of files inside one another. -/
def Reads (h : Host σ) (filename : Text) (s : σ) (lines : List Text) (st : Loading σ) : Prop :=
  ∃ depth, processLines h (processFile h depth) 1 lines (.start filename s) = (st, none)

/-- Where lines are read to their end, more room changes nothing. -/
theorem processLines_mono {depth depth' : Nat} {number : Nat} {lines : List Text}
    (hdepth : depth ≤ depth')
    (H : processLines h (processFile h depth) number lines st = (st', none)) :
    processLines h (processFile h depth') number lines st = (st', none) := by
  rw [(processFile_mono h hdepth).processLines number lines st (H ▸ .of_none), H]

theorem Reads.unique {filename : Text} {s : σ} {lines : List Text}
    (H : Reads h filename s lines st) (H' : Reads h filename s lines st') : st = st' := by
  obtain ⟨depth, H⟩ := H
  obtain ⟨depth', H'⟩ := H'
  have hwide := processLines_mono (Nat.le_max_left depth depth') H
  have hwide' := processLines_mono (Nat.le_max_right depth depth') H'
  exact (Prod.mk.inj (hwide.symm.trans hwide')).1

/-- Lines that are read to their end can be cut in three. The parts are read one after the other,
however much more room the second and the third one have. -/
theorem Reads.parts {filename : Text} {s : σ} {A L B : List Text}
    (H : Reads h filename s (A ++ L ++ B) st) :
    ∃ stA depth, Reads h filename s A stA ∧ ∀ d ≥ depth, ∀ d' ≥ depth,
      (processLines h (processFile h d) (1 + A.length) L stA).andThen
        (processLines h (processFile h d') (1 + (A ++ L).length) B) = (st, none) := by
  obtain ⟨depth, H⟩ := H
  rw [processLines_append, Outcome.andThen_eq_none_iff] at H
  obtain ⟨stL, hAL, hB⟩ := H
  rw [processLines_append, Outcome.andThen_eq_none_iff] at hAL
  obtain ⟨stA, hA, hL⟩ := hAL
  refine ⟨stA, depth, ⟨depth, hA⟩, fun d hd d' hd' => ?_⟩
  rw [processLines_mono hd hL, Outcome.andThen_none, processLines_mono hd' hB]

theorem Reads.of_parts {filename : Text} {s : σ} {A L B : List Text} {stA : Loading σ} {d d' : Nat}
    (hA : Reads h filename s A stA)
    (H : (processLines h (processFile h d) (1 + A.length) L stA).andThen
      (processLines h (processFile h d') (1 + (A ++ L).length) B) = (st, none)) :
    Reads h filename s (A ++ L ++ B) st := by
  obtain ⟨depth, hA⟩ := hA
  obtain ⟨stL, hL, hB⟩ := Outcome.andThen_eq_none_iff.1 H
  refine ⟨max depth (max d d'), ?_⟩
  rw [processLines_append, processLines_append, processLines_mono (by omega) hA,
    Outcome.andThen_none, processLines_mono (by omega) hL, Outcome.andThen_none,
    processLines_mono (by omega) hB]

end BuildFile

end Haybuild
