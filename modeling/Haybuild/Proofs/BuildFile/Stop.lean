import Haybuild.Proofs.BuildFile.Moment
import Haybuild.Proofs.Host

/-!
# How a load ends

Reading is stopped by a diagnostic or by a fault, and by a fault exactly when one is met on the way:
when the text of a file cannot be had, or the answer to a question of a line that is derived. No
fault is caught inside of a load, however deep the file is in which it is met
(`tells_processFile`).
-/

namespace Haybuild

namespace BuildFile

variable {σ : Type} {h : Host σ} {readFile : Text → Loading σ → Outcome σ}
  {inside : Text → Loading σ → List (Moment σ)} {source : Text} {number : Nat} {st : Loading σ}
  {fault : Fault} {ms : List (Moment σ)}

/-! ## Where faults are met -/

/-- A fault is met at a moment: a line that has to be derived comes to a question that ends with it,
or the text of a file to be included cannot be had. -/
inductive Moment.Meets (h : Host σ) (fault : Fault) : Moment σ → Prop
  | line {source : Text} {number : Nat} {st : Loading σ} : Text.blank source = false →
      source.head? ≠ some '\t' → Text.findUnescaped "=" (contentOf source) = none →
      h.Faults (derivationOf st.context.vars source) st.host fault →
      Meets h fault (.line source number st)
  | request {path : Text} {st : Loading σ} :
      Path.absolute h.directory path ∉ st.context.includeStack →
      h.Misread st.host (Path.display path) fault → Meets h fault (.request path st)

/-- A fault is met at one of the moments. -/
def MetAmong (h : Host σ) (ms : List (Moment σ)) (fault : Fault) : Prop :=
  ∃ m ∈ ms, m.Meets h fault

theorem kindOfOutcome_eq_faulted_iff {outcome : Except Fault (Except Derivation.Error Text)} :
    kindOfOutcome outcome = .faulted fault ↔ outcome = .error fault := by
  rcases outcome with f | e | value
  · simp [kindOfOutcome]
  · simp [kindOfOutcome]
  · simp only [kindOfOutcome, kindOfDerived, reduceCtorEq, iff_false]
    split
    · simp
    · split <;> simp

theorem meets_line_iff :
    (Moment.line source number st).Meets h fault ↔ kindOf h source st = .faulted fault := by
  constructor
  · rintro (⟨hblank, htab, hassign, H⟩ | _)
    rw [kindOf_heading hblank htab, hassign, Host.faults_iff.1 H]
    rfl
  · intro H
    by_cases hblank : Text.blank source = true
    · rw [kindOf_blank hblank] at H
      cases H
    have hblank : Text.blank source = false := by simpa using hblank
    by_cases htab : source.head? = some '\t'
    · rw [kindOf_shell hblank htab] at H
      cases H
    rw [kindOf_heading hblank htab] at H
    split at H
    · cases H
    · next hassign =>
      have hassign := Option.not_isSome_iff_eq_none.1 hassign
      exact .line hblank htab hassign (Host.faults_iff.2 (kindOfOutcome_eq_faulted_iff.1 H))

theorem meets_request_iff {path : Text} :
    (Moment.request path st).Meets h fault ↔
      Path.absolute h.directory path ∉ st.context.includeStack ∧
        h.Misread st.host (Path.display path) fault := by
  constructor
  · rintro (_ | ⟨hnew, H⟩)
    exact ⟨hnew, H⟩
  · exact fun ⟨hnew, H⟩ => .request hnew H

@[simp] theorem not_metAmong_nil : ¬MetAmong h [] fault := by
  simp [MetAmong]

@[simp] theorem metAmong_cons {m : Moment σ} :
    MetAmong h (m :: ms) fault ↔ m.Meets h fault ∨ MetAmong h ms fault := by
  simp [MetAmong]

@[simp] theorem metAmong_append {ms' : List (Moment σ)} :
    MetAmong h (ms ++ ms') fault ↔ MetAmong h ms fault ∨ MetAmong h ms' fault := by
  simp [MetAmong, or_and_right, exists_or]

/-! ## What stops an outcome -/

/-- Reading is stopped by diagnostics and, unless by the bound on files inside one another, by
exactly the faults that are met. -/
structure Outcome.StoppedBy (o : Outcome σ) (met : Fault → Prop) : Prop where
  error : ∀ e, o.2 = some (.error e) → ∃ d, e = .diagnostic d
  fault : o.Roomy → ∀ f, o.2 = some (.fault f) ↔ met f

namespace Outcome.StoppedBy

variable {o : Outcome σ} {met met' : Fault → Prop}

theorem none (hmet : ∀ f, ¬met f) : StoppedBy (st, none) met :=
  ⟨nofun, fun _ f => iff_of_false nofun (hmet f)⟩

theorem diagnostic (d : Diagnostic) (hmet : ∀ f, ¬met f) :
    StoppedBy (st, some (.error (.diagnostic d))) met where
  error := by
    rintro _ ⟨⟩
    exact ⟨d, rfl⟩
  fault _ f := iff_of_false nofun (hmet f)

theorem of_fault (hmet : ∀ f, met f ↔ f = fault) : StoppedBy (st, some (.fault fault)) met where
  error := nofun
  fault _ f := by
    rw [hmet]
    simp [eq_comm]

theorem reportOrStop (st : Loading σ) (d : Diagnostic) (neglect : Bool) (hmet : ∀ f, ¬met f) :
    StoppedBy (st.reportOrStop d neglect) met := by
  rw [Loading.reportOrStop]
  split
  · exact none hmet
  · exact diagnostic d hmet

theorem congr (H : o.StoppedBy met) (hmet : ∀ f, met f ↔ met' f) : o.StoppedBy met' :=
  ⟨H.error, fun hroomy f => (H.fault hroomy f).trans (hmet f)⟩

/-- One step is stopped by what is met in it, and the steps after it by what is met after it. -/
theorem andThen {f : Loading σ → Outcome σ} {g : Loading σ → List (Moment σ)}
    (ho : o.StoppedBy (MetAmong h ms))
    (hf : ∀ st, o = (st, Option.none) → (f st).StoppedBy (MetAmong h (g st))) :
    (o.andThen f).StoppedBy (MetAmong h (ms ++ o.moments g)) := by
  rcases o with ⟨st, _ | halt⟩
  · have hms : ∀ f, ¬MetAmong h ms f := fun f hf =>
      absurd ((ho.fault .of_none f).2 hf) nofun
    exact (hf st rfl).congr fun f => by simp [hms f, Outcome.moments]
  · exact ho.congr fun f => by simp [Outcome.moments]

end Outcome.StoppedBy

/-! ## Every way through a load -/

/-- Reading a file is stopped by the faults that are met in it and by those with which it is
opened. -/
def Tells (h : Host σ) (readFile : Text → Loading σ → Outcome σ)
    (inside : Text → Loading σ → List (Moment σ)) : Prop :=
  ∀ path st, (readFile path st).StoppedBy fun f =>
    h.Misread st.host (Path.display path) f ∨ MetAmong h (inside path st) f

namespace Tells

theorem includeOne (H : Tells h readFile inside) (r : Reading) (derived : Text)
    (piece : Text.Slice) (st : Loading σ) :
    (includeOne h readFile r derived piece st).StoppedBy
      (MetAmong h (pathMoments h inside (Text.unquote "'" piece.text) st)) := by
  rw [BuildFile.includeOne]
  generalize Text.unquote "'" piece.text = path
  rw [pathMoments]
  cases hproblem : includeProblem? h st path with
  | none =>
    obtain ⟨hfile, hnew⟩ := includeProblem?_eq_none_iff.1 hproblem
    rw [if_pos hfile, if_neg hnew]
    exact (H _ st).congr fun f => by simp [meets_request_iff, hnew]
  | some message =>
    refine .reportOrStop _ _ _ fun f => ?_
    split
    · next hfile =>
      have hopen : Path.absolute h.directory path ∈ st.context.includeStack := by
        refine Decidable.not_not.1 fun hnew => ?_
        cases hproblem.symm.trans (includeProblem?_eq_none_iff.2 ⟨hfile, hnew⟩)
      simp [meets_request_iff, hopen]
    · exact not_metAmong_nil

theorem includeAll (H : Tells h readFile inside) (r : Reading) (derived : Text)
    (pieces : List Text.Slice) (st : Loading σ) :
    (includeAll h readFile r derived pieces st).StoppedBy
      (MetAmong h (includeMoments h readFile inside r derived pieces st)) := by
  induction pieces generalizing st with
  | nil => exact .none fun f => not_metAmong_nil
  | cons piece pieces ih =>
    rw [includeAll_cons, includeMoments]
    exact (H.includeOne r derived piece st).andThen fun st' _ => ih st'

/-- A line that includes no files is stopped by the fault that ends its derivation. -/
theorem stoppedBy_of_not_inclusion (h : Host σ) (readFile : Text → Loading σ → Outcome σ)
    (number : Nat) (hkind : ∀ derived, kindOf h source st ≠ .inclusion derived) :
    (processLine h readFile source number st).StoppedBy fun f =>
      kindOf h source st = .faulted f := by
  by_cases hblank : Text.blank source = true
  · rw [processLine_blank hblank, kindOf_blank hblank]
    exact .none (by simp)
  have hblank : Text.blank source = false := by simpa using hblank
  by_cases htab : source.head? = some '\t'
  · rw [processLine_shell hblank htab, kindOf_shell hblank htab]
    cases st.context.shellLine (Line.ofText source) source number with
    | ok ctx => exact .none (by simp)
    | error d => exact .diagnostic d (by simp)
  rw [kindOf_heading hblank htab] at hkind ⊢
  rw [processLine_heading hblank htab]
  by_cases hassign : (Text.findUnescaped "=" (contentOf source)).isSome = true
  · rw [if_pos hassign, if_pos hassign]
    exact .none (by simp)
  rw [if_neg hassign] at hkind
  rw [if_neg hassign, if_neg hassign, deriveLine_eq]
  generalize h.derive (derivationOf st.context.vars source) st.host = out at hkind ⊢
  rcases out with ⟨fault | e | value, s⟩
  · exact .of_fault fun f => by simp [kindOfOutcome, eq_comm]
  · dsimp only [Loading.reportOrStop, kindOfOutcome]
    split
    · exact .none (by simp)
    · exact .diagnostic _ (by simp)
  · dsimp only [kindOfOutcome, kindOfDerived, derivedLine] at hkind ⊢
    split at hkind
    · exact absurd rfl (hkind _)
    · next hinclude =>
      rw [if_neg hinclude, if_neg hinclude]
      rcases Rule.parse (unescapeDollars value) with e | _ | rule
      · exact .diagnostic _ (by simp)
      · exact .none (by simp)
      · exact .none (by simp)

theorem processLine (H : Tells h readFile inside) (source : Text) (number : Nat)
    (st : Loading σ) :
    (processLine h readFile source number st).StoppedBy
      (MetAmong h (lineMoments h readFile inside source number st)) := by
  rw [lineMoments]
  rcases processLine_cases h source number st with ⟨derived, hkind, hline⟩ | ⟨hkind, -⟩
  · rw [hline, hkind]
    exact (H.includeAll _ derived _ _).congr fun f => by simp [meets_line_iff, hkind]
  · -- no file is read, so the only moment of the line is the line itself
    refine (stoppedBy_of_not_inclusion h readFile number hkind).congr fun f => ?_
    split
    · next derived hinclusion => exact absurd hinclusion (hkind derived)
    · simp [meets_line_iff]

theorem processLines (H : Tells h readFile inside) (number : Nat) (lines : List Text)
    (st : Loading σ) :
    (processLines h readFile number lines st).StoppedBy
      (MetAmong h (linesMoments h readFile inside number lines st)) := by
  induction lines generalizing number st with
  | nil => exact .none fun f => not_metAmong_nil
  | cons source lines ih =>
    rw [processLines_cons, linesMoments]
    exact (H.processLine source number st).andThen fun st' _ => ih (number + 1) st'

end Tells

theorem tells_processFile (h : Host σ) (depth : Nat) :
    Tells h (processFile h depth) (fileMoments h depth) := by
  induction depth with
  | zero =>
    -- the bound stops the reading before the file is opened, so nothing is said of its faults
    exact fun path st => ⟨nofun, fun hroomy => absurd rfl hroomy⟩
  | succ depth ih =>
    intro path st
    rw [processFile_succ, fileMoments]
    simp only [Host.misread_iff]
    cases hread : h.readText st.host (Path.display path) with
    | error fault => exact .of_fault fun f => by simp [eq_comm]
    | ok source =>
      have hlines := ih.processLines 1 (Text.uncomment "#" source) (st.entered h path)
      dsimp only
      generalize BuildFile.processLines h (processFile h depth) 1 (Text.uncomment "#" source)
        (st.entered h path) = out at hlines ⊢
      obtain ⟨st', stop⟩ := out
      exact ⟨hlines.error, fun hroomy f => (hlines.fault hroomy f).trans (by simp)⟩

/-- A load meets a fault with the text of its file, or on the way through the lines. -/
def LoadMeets (h : Host σ) (path : Text) (s : σ) (fault : Fault) : Prop :=
  h.Misread s (Path.display path) fault ∨
    MetAmong h (fileMoments h (includeLimit h s) path (.start path s)) fault

theorem stoppedBy_loadFile (h : Host σ) (path : Text) (s : σ) :
    (loadFile h path s).StoppedBy (LoadMeets h path s) :=
  tells_processFile h (includeLimit h s) path (.start path s)

theorem LoadMeets.isOutside {path : Text} {s : σ} (H : LoadMeets h path s fault) :
    fault.IsOutside := by
  rcases H with H | ⟨_, -, ⟨-, -, -, H⟩ | ⟨-, H⟩⟩
  · exact H.isOutside
  · exact H.isOutside
  · exact H.isOutside

end BuildFile

end Haybuild
