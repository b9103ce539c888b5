import Haybuild.BuildFile.Load

/-!
# What reading one line does

A line is of a kind, which the line, the variables and the outcome of its derivation decide
(`kindOf`). `LineStep` lists what reading a line of each kind makes of the state and whether it
stops; `lineStep` says that there is nothing else. Facts about all lines follow from it case by
case.
-/

namespace Haybuild

namespace BuildFile

variable {σ : Type}

/-- What a line is once it is read. -/
inductive LineKind where
  | blank
  | shell
  | assignment
  /-- The line derives to a text that asks for files to be included. -/
  | inclusion (derived : Text)
  /-- The line derives to spaces and tabs. -/
  | nothing
  | rule (r : Rule)
  | malformed (fault : Rule.Fault)
  | underivable (error : Derivation.Error)
  /-- A fault ends the derivation of the line. -/
  | faulted (fault : Fault)

/-- The kind of a line that was derived to a text. -/
def kindOfDerived (derived : Text) : LineKind :=
  if isInclude derived then .inclusion derived
  else
    match Rule.parse derived with
    | .error e => .malformed e
    | .ok none => .nothing
    | .ok (some r) => .rule r

/-- The kind of a line that has to be derived, by the outcome of its derivation. -/
def kindOfOutcome : Except Fault (Except Derivation.Error Text) → LineKind
  | .error fault => .faulted fault
  | .ok (.ok value) => kindOfDerived (unescapeDollars value)
  | .ok (.error e) => .underivable e

/-- The content of a line. -/
def contentOf (source : Text) : Text :=
  Text.trim (Line.ofText source).content

/-- The derivation of a line that is neither a shell line nor an assignment. -/
def derivationOf (vars : Variables) (source : Text) : Derivation Text :=
  derive vars (Line.ofText source).debug (Text.replaceAll "\\=" "=" (contentOf source))

/-- The kind of a line in a state. -/
def kindOf (h : Host σ) (source : Text) (st : Loading σ) : LineKind :=
  if Text.blank source then .blank
  else if (Line.ofText source).shell then .shell
  else if (Text.findUnescaped "=" (contentOf source)).isSome then .assignment
  else kindOfOutcome (h.derive (derivationOf st.context.vars source) st.host).1

/-- The command that a shell line holds. -/
def commandOf (filename source : Text) (number : Nat) : Command where
  text := contentOf source
  debug := (Line.ofText source).debug
  line := number
  neglect := (Line.ofText source).neglect
  filename := filename
  source := source
  column := (Line.ofText source).split

/-- The diagnostic for a shell line outside of a recipe. -/
def strayDiagnostic (filename source : Text) (number : Nat) : Diagnostic where
  kind := .structural
  message := "stray shell code outside of a recipe"
  filename := filename
  text := source
  line := number
  column := (Line.ofText source).split
  notes := []

/-- The state after a line that left the block of a recipe and was derived. -/
def Loading.derived (st : Loading σ) (s : σ) : Loading σ :=
  ⟨st.context.closeRecipe, s, st.reports⟩

/-- What reading a line of a kind makes of a state, and what stops it. -/
inductive LineStep (h : Host σ) (readFile : Text → Loading σ → Outcome σ) (source : Text)
    (number : Nat) (st : Loading σ) : LineKind → Outcome σ → Prop
  | blank : LineStep h readFile source number st .blank (st, none)
  | command {i : Nat} : (Line.ofText source).shell = true → st.context.openRecipe = some i →
      LineStep h readFile source number st .shell
        (st.withContext (st.context.addCommand i (commandOf st.context.filename source number)),
          none)
  | dropped : (Line.ofText source).shell = true → st.context.openRecipe = none →
      st.context.skipping = true →
      LineStep h readFile source number st .shell (st, none)
  | stray : (Line.ofText source).shell = true → st.context.openRecipe = none →
      st.context.skipping = false →
      LineStep h readFile source number st .shell
        (st, some (.error (.diagnostic (strayDiagnostic st.context.filename source number))))
  | assignment : LineStep h readFile source number st .assignment
      (st.withContext (st.context.closeRecipe.assignLine (contentOf source)),
        none)
  | inclusion {derived : Text} {s : σ} :
      LineStep h readFile source number st (.inclusion derived)
        (includeAll h readFile (Reading.ofSource source number) derived
          ((Text.splitBalanced " " "'" derived).drop 1) (st.derived s))
  | nothing {s : σ} : LineStep h readFile source number st .nothing (st.derived s, none)
  | rule {r : Rule} {s : σ} : LineStep h readFile source number st (.rule r)
      ((st.derived s).withContext ((st.derived s).context.addRecipe (Recipe.ofRule r)), none)
  | malformed {derived : Text} {e : Rule.Fault} {s : σ} : Rule.parse derived = .error e →
      LineStep h readFile source number st (.malformed e)
        (st.derived s, some (.error (.diagnostic
          ((Reading.ofSource source number).ruleDiagnostic st.context.filename derived e))))
  | neglected {e : Derivation.Error} {s : σ} :
      (Line.ofText source).neglect = true →
      LineStep h readFile source number st (.underivable e)
        (⟨{ st.context.closeRecipe with
            skipping := !isInclude (contentOf source) },
          s, st.reports ++
            [(Reading.ofSource source number).subcallDiagnostic st.context.filename e]⟩, none)
  | underivable {e : Derivation.Error} {s : σ} :
      (Line.ofText source).neglect = false →
      LineStep h readFile source number st (.underivable e)
        (st.derived s, some (.error (.diagnostic
          ((Reading.ofSource source number).subcallDiagnostic st.context.filename e))))
  | faulted {fault : Fault} {s : σ} :
      LineStep h readFile source number st (.faulted fault) (st.derived s, some (.fault fault))

/-! ## What an assignment leaves as it is -/

namespace Context

@[simp] theorem filename_assignLine (ctx : Context) (content : Text) :
    (ctx.assignLine content).filename = ctx.filename := by
  simp only [assignLine]

@[simp] theorem recipes_assignLine (ctx : Context) (content : Text) :
    (ctx.assignLine content).recipes = ctx.recipes := by
  simp only [assignLine]

@[simp] theorem openRecipe_assignLine (ctx : Context) (content : Text) :
    (ctx.assignLine content).openRecipe = ctx.openRecipe := by
  simp only [assignLine]

@[simp] theorem skipping_assignLine (ctx : Context) (content : Text) :
    (ctx.assignLine content).skipping = ctx.skipping := by
  simp only [assignLine]

end Context

/-! ## Every line is read by its kind -/

variable {h : Host σ} {readFile : Text → Loading σ → Outcome σ} {source : Text} {number : Nat}
  {st : Loading σ}

theorem lineStep_shell (hblank : Text.blank source = false) (hshell : (Line.ofText source).shell) :
    LineStep h readFile source number st .shell (processLine h readFile source number st) := by
  have hline : (Reading.ofSource source number).line = Line.ofText source := rfl
  simp only [processLine, hblank, hline, hshell, if_true, Context.shellLine]
  cases hopen : st.context.openRecipe with
  | some i => exact .command hshell hopen
  | none =>
    cases hskip : st.context.skipping with
    | true => exact .dropped hshell hopen hskip
    | false => exact .stray hshell hopen hskip

theorem lineStep_derived (derived : Text) (s : σ) :
    LineStep h readFile source number st (kindOfDerived derived)
      (derivedLine h readFile (Reading.ofSource source number) derived (st.derived s)) := by
  rw [kindOfDerived, derivedLine]
  split
  · exact .inclusion
  · rcases hparse : Rule.parse derived with e | _ | r
    · exact .malformed hparse
    · exact .nothing
    · exact .rule

theorem lineStep_deriveLine (h : Host σ) (readFile : Text → Loading σ → Outcome σ) (source : Text)
    (number : Nat) (st : Loading σ) :
    LineStep h readFile source number st
      (kindOfOutcome (h.derive (derivationOf st.context.vars source) st.host).1)
      (deriveLine h readFile (Reading.ofSource source number)
        (st.withContext st.context.closeRecipe)) := by
  have hderive : h.derive (derive (st.withContext st.context.closeRecipe).context.vars
        (Reading.ofSource source number).line.debug
        (Text.replaceAll "\\=" "=" (Reading.ofSource source number).content))
        (st.withContext st.context.closeRecipe).host =
      h.derive (derivationOf st.context.vars source) st.host := rfl
  rw [deriveLine, hderive]
  rcases h.derive (derivationOf st.context.vars source) st.host with ⟨fault | e | value, s⟩
  · exact .faulted
  · simp only [kindOfOutcome, Loading.reportOrStop]
    have hline : (Reading.ofSource source number).line = Line.ofText source := rfl
    rw [hline]
    cases hneglect : (Line.ofText source).neglect with
    | true => exact .neglected hneglect
    | false => exact .underivable hneglect
  · exact lineStep_derived (unescapeDollars value) s

/-- Reading a line does what lines of its kind do. -/
theorem lineStep (h : Host σ) (readFile : Text → Loading σ → Outcome σ) (source : Text)
    (number : Nat) (st : Loading σ) :
    LineStep h readFile source number st (kindOf h source st)
      (processLine h readFile source number st) := by
  rw [kindOf]
  split
  · next hblank =>
    simp only [processLine, hblank, if_true]
    exact .blank
  · next hblank =>
    split
    · next hshell => exact lineStep_shell (by simpa using hblank) hshell
    · next hshell =>
      have hline : (Reading.ofSource source number).line = Line.ofText source := rfl
      have hcontent : (Reading.ofSource source number).content = contentOf source := rfl
      rw [processLine, if_neg hblank]
      simp only [hline, if_neg hshell, hcontent]
      split
      · next hassign =>
        obtain ⟨offset, hoffset⟩ := Option.isSome_iff_exists.1 hassign
        rw [hoffset]
        exact .assignment
      · next hassign =>
        rw [Option.not_isSome_iff_eq_none.1 hassign]
        exact lineStep_deriveLine h readFile source number st

end BuildFile

end Haybuild
