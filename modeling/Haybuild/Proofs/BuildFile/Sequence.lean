import Haybuild.Proofs.BuildFile.Step

/-!
# One line after the other

Reading goes on from the outcome of one line to the next one unless it was stopped
(`Outcome.andThen`), so lists of lines are read one after the other (`processLines_append`). Of a
line that is neither blank nor a shell line it does not matter whether a recipe is open before it:
lines that start with such a line are read in a state as in the same state with no recipe open
(`closed_processLines`).
-/

namespace Haybuild

variable {σ : Type}

/-- A file, and no directory, stands at a path. -/
def Host.hasFile (h : Host σ) (s : σ) (path : Text) : Bool :=
  (h.files s).exists? path && !(h.files s).isDirectory path

namespace BuildFile

variable {h : Host σ} {readFile : Text → Loading σ → Outcome σ} {source : Text} {number : Nat}
  {st st' : Loading σ}

/-- Goes on from an outcome, unless reading was stopped. -/
def Outcome.andThen : Outcome σ → (Loading σ → Outcome σ) → Outcome σ
  | (st, none), f => f st
  | stopped, _ => stopped

namespace Outcome

variable {o : Outcome σ} {f g : Loading σ → Outcome σ}

@[simp] theorem andThen_none : andThen (st, none) f = f st := rfl

@[simp] theorem andThen_some (halt : Halt) : andThen (st, some halt) f = (st, some halt) := rfl

theorem andThen_assoc (o : Outcome σ) (f g : Loading σ → Outcome σ) :
    (o.andThen f).andThen g = o.andThen fun st => (f st).andThen g := by
  rcases o with ⟨st, _ | halt⟩ <;> rfl

theorem andThen_eq_none_iff :
    o.andThen f = (st', none) ↔ ∃ st, o = (st, none) ∧ f st = (st', none) := by
  rcases o with ⟨st, _ | halt⟩
  · simp
  · simp

/-- What holds of the state after an outcome and is kept by what goes on from it holds in the
end. -/
theorem andThen_keeps {p : Loading σ → Prop} (ho : p o.1) (hf : ∀ st, p st → p (f st).1) :
    p (o.andThen f).1 := by
  obtain ⟨st, _ | halt⟩ := o
  · exact hf st ho
  · exact ho

end Outcome

/-! ## Lists of lines and of paths -/

theorem processLines_cons (number : Nat) (source : Text) (lines : List Text) (st : Loading σ) :
    processLines h readFile number (source :: lines) st =
      (processLine h readFile source number st).andThen
        (processLines h readFile (number + 1) lines) := by
  rw [processLines]
  rcases processLine h readFile source number st with ⟨st', _ | halt⟩ <;> rfl

theorem processLines_singleton (number : Nat) (source : Text) (st : Loading σ) :
    processLines h readFile number [source] st = processLine h readFile source number st := by
  rw [processLines_cons]
  rcases processLine h readFile source number st with ⟨st', _ | halt⟩ <;> rfl

theorem processLines_append (number : Nat) (lines lines' : List Text) (st : Loading σ) :
    processLines h readFile number (lines ++ lines') st =
      (processLines h readFile number lines st).andThen
        (processLines h readFile (number + lines.length) lines') := by
  induction lines generalizing number st with
  | nil => rfl
  | cons source lines ih =>
    have hnumber : number + (source :: lines).length = number + 1 + lines.length := by
      simp only [List.length_cons]
      omega
    rw [List.cons_append, processLines_cons, processLines_cons, Outcome.andThen_assoc, hnumber]
    exact congrArg _ (funext fun st => ih (number + 1) st)

/-- Reads the file that one piece of an include line names, or tells why it cannot be read. -/
def includeOne (h : Host σ) (readFile : Text → Loading σ → Outcome σ) (r : Reading)
    (derived : Text) (piece : Text.Slice) (st : Loading σ) : Outcome σ :=
  match includeProblem? h st (Text.unquote "'" piece.text) with
  | none => readFile (Text.unquote "'" piece.text) st
  | some message =>
    st.reportOrStop (r.includeDiagnostic st.context.filename derived message piece.offset)
      r.line.neglect

theorem includeAll_cons (r : Reading) (derived : Text) (piece : Text.Slice)
    (pieces : List Text.Slice) (st : Loading σ) :
    includeAll h readFile r derived (piece :: pieces) st =
      (includeOne h readFile r derived piece st).andThen
        (includeAll h readFile r derived pieces) := by
  rw [includeAll, includeOne]
  cases includeProblem? h st (Text.unquote "'" piece.text) with
  | none =>
    dsimp only
    rcases readFile (Text.unquote "'" piece.text) st with ⟨st', _ | halt⟩ <;> rfl
  | some message =>
    dsimp only
    rcases st.reportOrStop (r.includeDiagnostic st.context.filename derived message piece.offset)
      r.line.neglect with ⟨st', _ | halt⟩ <;> rfl

/-- A path can be included if a file stands there that is not being read already. -/
theorem includeProblem?_eq_none_iff {path : Text} :
    includeProblem? h st path = none ↔ h.hasFile st.host path = true ∧
      Path.absolute h.directory path ∉ st.context.includeStack := by
  have hite : ∀ (p : Prop) [Decidable p] (message : Text) (problem : Option Text),
      (if p then some message else problem) = none ↔ ¬p ∧ problem = none := by
    intro p _ message problem
    by_cases hp : p <;> simp [hp]
  simp only [includeProblem?, hite, Host.hasFile, Bool.and_eq_true, Bool.not_eq_true',
    Bool.not_eq_true, Bool.not_eq_false, and_true, and_assoc, List.contains_iff_mem]

/-- What hinders an include depends on the files, and on the stack only where a file stands. -/
theorem includeProblem?_congr {path : Text} (hhost : st.host = st'.host)
    (hstack : h.hasFile st.host path = true →
      (Path.absolute h.directory path ∈ st.context.includeStack ↔
        Path.absolute h.directory path ∈ st'.context.includeStack)) :
    includeProblem? h st path = includeProblem? h st' path := by
  rw [includeProblem?, includeProblem?, ← hhost]
  split
  · rfl
  · next hexists =>
    split
    · rfl
    · next hdirectory =>
      have hfile : h.hasFile st.host path = true := by
        rw [Host.hasFile]
        simp_all
      refine ite_congr (propext ?_) (fun _ => rfl) fun _ => rfl
      rw [List.contains_iff_mem, List.contains_iff_mem]
      exact hstack hfile

/-! ## Leaving the block of a recipe -/

/-- The state with no recipe open. -/
def Loading.closed (st : Loading σ) : Loading σ :=
  st.withContext st.context.closeRecipe

@[simp] theorem Loading.closed_closed (st : Loading σ) : st.closed.closed = st.closed := rfl

theorem kindOf_blank (hblank : Text.blank source = true) : kindOf h source st = .blank := by
  rw [kindOf, if_pos hblank]

theorem kindOf_shell (hblank : Text.blank source = false) (htab : source.head? = some '\t') :
    kindOf h source st = .shell := by
  have hshell : (Line.ofText source).shell = true := decide_eq_true htab
  rw [kindOf, hblank, hshell]
  rfl

theorem kindOf_heading (hblank : Text.blank source = false) (htab : source.head? ≠ some '\t') :
    kindOf h source st =
      if (Text.findUnescaped "=" (contentOf source)).isSome then .assignment
      else kindOfOutcome (h.derive (derivationOf st.context.vars source) st.host).1 := by
  have hshell : (Line.ofText source).shell = false := decide_eq_false htab
  rw [kindOf, hblank, hshell]
  rfl

theorem processLine_blank (hblank : Text.blank source = true) :
    processLine h readFile source number st = (st, none) := by
  rw [processLine, if_pos hblank]

/-- The outcome of a line that is read without a question to the host. -/
def Loading.settle (st : Loading σ) : Except Diagnostic Context → Outcome σ
  | .ok ctx => (st.withContext ctx, none)
  | .error d => (st, some (.error (.diagnostic d)))

theorem processLine_shell (hblank : Text.blank source = false) (htab : source.head? = some '\t') :
    processLine h readFile source number st =
      st.settle (st.context.shellLine (Line.ofText source) source number) := by
  have hshell : (Reading.ofSource source number).line.shell = true := decide_eq_true htab
  rw [processLine, hblank]
  simp only [hshell, Bool.false_eq_true, if_false, if_true]
  have hline : (Reading.ofSource source number).line = Line.ofText source := rfl
  rw [hline]
  cases st.context.shellLine (Line.ofText source) source number <;> rfl

/-- A line that is neither blank nor a shell line is read as if no recipe were open. -/
theorem processLine_heading (hblank : Text.blank source = false)
    (htab : source.head? ≠ some '\t') :
    processLine h readFile source number st =
      if (Text.findUnescaped "=" (contentOf source)).isSome then
        (st.closed.withContext (st.closed.context.assignLine (contentOf source)), none)
      else deriveLine h readFile (Reading.ofSource source number) st.closed := by
  have hshell : (Reading.ofSource source number).line.shell = false := by
    have hline : (Reading.ofSource source number).line.shell =
        decide (source.head? = some '\t') := rfl
    rw [hline, decide_eq_false htab]
  have hcontent : (Reading.ofSource source number).content = contentOf source := rfl
  rw [processLine, hblank]
  simp only [hshell, hcontent, Bool.false_eq_true, if_false]
  cases Text.findUnescaped "=" (contentOf source) with
  | none => rfl
  | some offset => rfl

/-- Deriving a line and reading what comes of it, by the outcome of the derivation. -/
theorem deriveLine_eq (source : Text) (number : Nat) (st : Loading σ) :
    deriveLine h readFile (Reading.ofSource source number) st.closed =
      match h.derive (derivationOf st.context.vars source) st.host with
      | (.error fault, s) => (st.derived s, some (.fault fault))
      | (.ok (.ok value), s) =>
        derivedLine h readFile (Reading.ofSource source number) (unescapeDollars value)
          (st.derived s)
      | (.ok (.error e), s) =>
        ((st.derived s).reportOrStop
          ((Reading.ofSource source number).subcallDiagnostic st.context.filename e)
          (Line.ofText source).neglect).andThen fun st' =>
            (st'.withContext { st'.context with skipping := !isInclude (contentOf source) },
              none) := by
  have hderive : h.derive (derive st.closed.context.vars (Reading.ofSource source number).line.debug
      (Text.replaceAll "\\=" "=" (Reading.ofSource source number).content)) st.closed.host =
      h.derive (derivationOf st.context.vars source) st.host := rfl
  rw [deriveLine, hderive]
  rcases h.derive (derivationOf st.context.vars source) st.host with ⟨fault | e | value, s⟩
  · rfl
  · have hline : (Reading.ofSource source number).line = Line.ofText source := rfl
    simp only [hline, Loading.reportOrStop]
    cases (Line.ofText source).neglect <;> rfl
  · rfl

theorem processLine_closed (hblank : Text.blank source = false)
    (htab : source.head? ≠ some '\t') :
    processLine h readFile source number st.closed = processLine h readFile source number st := by
  rw [processLine_heading hblank htab, processLine_heading hblank htab, Loading.closed_closed]

/-- The first line that is not blank, if there is one, is no shell line. -/
def StartsOutside (lines : List Text) : Prop :=
  ∀ line, lines.find? (fun l => !Text.blank l) = some line → line.head? ≠ some '\t'

instance (lines : List Text) : Decidable (StartsOutside lines) :=
  inferInstanceAs <| Decidable <|
    ∀ line ∈ lines.find? (fun l => !Text.blank l), line.head? ≠ some '\t'

namespace StartsOutside

variable {lines lines' : List Text}

theorem of_append (H : StartsOutside (lines ++ lines')) : StartsOutside lines := by
  intro line hline
  apply H
  rw [List.find?_append, hline, Option.some_or]

theorem of_blank (hblank : Text.blank source = true) (H : StartsOutside (source :: lines)) :
    StartsOutside lines := by
  intro line hline
  apply H
  rw [List.find?_cons_of_neg (by simp [hblank]), hline]

theorem head_ne (hblank : Text.blank source = false) (H : StartsOutside (source :: lines)) :
    source.head? ≠ some '\t' :=
  H source (List.find?_cons_of_pos (by simp [hblank]))

end StartsOutside

/-- The outcome with no recipe open. -/
def Outcome.closed (o : Outcome σ) : Outcome σ :=
  (o.1.closed, o.2)

/-- Lines that start outside of a recipe leave behind what they would leave with none open before,
except that blank lines leave an open recipe open. -/
theorem closed_processLines {lines : List Text} (H : StartsOutside lines) (number : Nat)
    (st : Loading σ) :
    (processLines h readFile number lines st).closed =
      (processLines h readFile number lines st.closed).closed := by
  induction lines generalizing number with
  | nil => rfl
  | cons source lines ih =>
    rw [processLines_cons, processLines_cons]
    cases hblank : Text.blank source with
    | true =>
      rw [processLine_blank hblank, processLine_blank hblank]
      exact ih (H.of_blank hblank) (number + 1)
    | false => rw [processLine_closed hblank (H.head_ne hblank)]

end BuildFile

end Haybuild
