import Haybuild.Proofs.BuildFile.Depth

/-!
# What happens while files are read

The moments of a load are the lines that are read, each with the state before it, and the files that
include lines ask for, whether they are read or are being read already. `linesMoments` and
`fileMoments` list them, those inside of included files among the others. Whatever happens, the
files being read are again what they were before (`KeepsStack.processLines`).
-/

namespace Haybuild

namespace BuildFile

variable {σ : Type}

/-- What happens during a load, and in which state. -/
inductive Moment (σ : Type) where
  /-- A line is read. -/
  | line (source : Text) (number : Nat) (st : Loading σ)
  /-- An include line asks for a file that is there. -/
  | request (path : Text) (st : Loading σ)

namespace Moment

/-- The state in which something happens. -/
def state : Moment σ → Loading σ
  | line _ _ st => st
  | request _ st => st

/-- The files being read when something happens. -/
def stack (m : Moment σ) : List Text :=
  m.state.context.includeStack

end Moment

/-- What happens after an outcome, unless reading was stopped. -/
def Outcome.moments : Outcome σ → (Loading σ → List (Moment σ)) → List (Moment σ)
  | (st, none), f => f st
  | _, _ => []

/-- What happens at one piece of an include line, by what happens inside of a file. -/
def pathMoments (h : Host σ) (inside : Text → Loading σ → List (Moment σ)) (path : Text)
    (st : Loading σ) : List (Moment σ) :=
  if h.hasFile st.host path then
    .request path st ::
      if Path.absolute h.directory path ∈ st.context.includeStack then [] else inside path st
  else []

/-- What happens at the pieces of an include line. -/
def includeMoments (h : Host σ) (readFile : Text → Loading σ → Outcome σ)
    (inside : Text → Loading σ → List (Moment σ)) (r : Reading) (derived : Text) :
    List Text.Slice → Loading σ → List (Moment σ)
  | [], _ => []
  | piece :: rest, st =>
    pathMoments h inside (Text.unquote "'" piece.text) st ++
      (includeOne h readFile r derived piece st).moments
        (includeMoments h readFile inside r derived rest)

/-- What happens at a line. -/
def lineMoments (h : Host σ) (readFile : Text → Loading σ → Outcome σ)
    (inside : Text → Loading σ → List (Moment σ)) (source : Text) (number : Nat)
    (st : Loading σ) : List (Moment σ) :=
  .line source number st ::
    match kindOf h source st with
    | .inclusion derived =>
      includeMoments h readFile inside (Reading.ofSource source number) derived
        ((Text.splitBalanced " " "'" derived).drop 1)
        (st.derived (h.derive (derivationOf st.context.vars source) st.host).2)
    | _ => []

/-- What happens at lines that are read one after the other. -/
def linesMoments (h : Host σ) (readFile : Text → Loading σ → Outcome σ)
    (inside : Text → Loading σ → List (Moment σ)) :
    Nat → List Text → Loading σ → List (Moment σ)
  | _, [], _ => []
  | number, source :: rest, st =>
    lineMoments h readFile inside source number st ++
      (processLine h readFile source number st).moments
        (linesMoments h readFile inside (number + 1) rest)

/-- The state in which the lines of a file are read. -/
def Loading.entered (h : Host σ) (path : Text) (st : Loading σ) : Loading σ :=
  st.withContext { st.context with
    filename := Path.display path
    includeStack := st.context.includeStack ++ [Path.absolute h.directory (Path.display path)] }

/-- What happens inside of a file, with so many files inside one another. -/
def fileMoments (h : Host σ) : Nat → Text → Loading σ → List (Moment σ)
  | 0, _, _ => []
  | depth + 1, path, st =>
    match h.readText st.host (Path.display path) with
    | .error _ => []
    | .ok source =>
      linesMoments h (processFile h depth) (fileMoments h depth) 1 (Text.uncomment "#" source)
        (st.entered h path)

theorem processFile_succ (h : Host σ) (depth : Nat) (path : Text) (st : Loading σ) :
    processFile h (depth + 1) path st =
      match h.readText st.host (Path.display path) with
      | .error fault => (st, some (.fault fault))
      | .ok source =>
        leaveFile st.context.filename
          (processLines h (processFile h depth) 1 (Text.uncomment "#" source)
            (st.entered h path)) := rfl

/-! ## The files being read -/

variable {h : Host σ} {readFile : Text → Loading σ → Outcome σ}
  {st : Loading σ}

theorem includeStack_leaveFile (outer : Text) (out : Outcome σ) :
    (leaveFile outer out).1.context.includeStack = out.1.context.includeStack.dropLast := by
  obtain ⟨st, _ | halt⟩ := out <;> rfl

/-- Reading a file leaves the files that were being read. -/
def KeepsStack (readFile : Text → Loading σ → Outcome σ) : Prop :=
  ∀ path st, (readFile path st).1.context.includeStack = st.context.includeStack

namespace KeepsStack

theorem includeOne (H : KeepsStack readFile) (h : Host σ) (r : Reading) (derived : Text)
    (piece : Text.Slice) (st : Loading σ) :
    (includeOne h readFile r derived piece st).1.context.includeStack =
      st.context.includeStack := by
  rw [BuildFile.includeOne]
  split
  · exact H _ st
  · rw [Loading.reportOrStop]
    split <;> rfl

theorem includeAll (H : KeepsStack readFile) (h : Host σ) (r : Reading) (derived : Text)
    (pieces : List Text.Slice) (st : Loading σ) :
    (includeAll h readFile r derived pieces st).1.context.includeStack =
      st.context.includeStack := by
  induction pieces generalizing st with
  | nil => rfl
  | cons piece pieces ih =>
    rw [includeAll_cons]
    exact Outcome.andThen_keeps (H.includeOne h r derived piece st) fun st' =>
      (ih st').trans

theorem processLine (H : KeepsStack readFile) (h : Host σ) (source : Text) (number : Nat)
    (st : Loading σ) :
    (processLine h readFile source number st).1.context.includeStack =
      st.context.includeStack := by
  have hstep := lineStep h readFile source number st
  generalize kindOf h source st = kind at hstep
  generalize BuildFile.processLine h readFile source number st = out at hstep ⊢
  cases hstep with
  | inclusion => exact H.includeAll h _ _ _ _
  | _ => rfl

theorem processLines (H : KeepsStack readFile) (h : Host σ) (number : Nat) (lines : List Text)
    (st : Loading σ) :
    (processLines h readFile number lines st).1.context.includeStack =
      st.context.includeStack := by
  induction lines generalizing number st with
  | nil => rfl
  | cons source lines ih =>
    rw [processLines_cons]
    exact Outcome.andThen_keeps (H.processLine h source number st) fun st' =>
      (ih (number + 1) st').trans

/-- After the lines of a file, what is taken off the files being read is the file itself. -/
theorem dropLast_processLines (H : KeepsStack readFile) (h : Host σ) (path : Text) (number : Nat)
    (lines : List Text) (st : Loading σ) :
    (BuildFile.processLines h readFile number lines
      (st.entered h path)).1.context.includeStack.dropLast = st.context.includeStack :=
  (congrArg List.dropLast (H.processLines h number lines (st.entered h path))).trans
    List.dropLast_concat

end KeepsStack

/-- A file takes off what it put on the files being read. -/
theorem keepsStack_processFile (h : Host σ) (depth : Nat) : KeepsStack (processFile h depth) := by
  induction depth with
  | zero => exact fun _ _ => rfl
  | succ depth ih =>
    intro path st
    rw [processFile_succ]
    cases h.readText st.host (Path.display path) with
    | error fault => rfl
    | ok source =>
      exact (includeStack_leaveFile _ _).trans (ih.dropLast_processLines h path 1 _ st)

theorem Reads.includeStack_eq_nil {filename : Text} {s : σ} {lines : List Text}
    (H : Reads h filename s lines st) : st.context.includeStack = [] := by
  obtain ⟨depth, H⟩ := H
  have hkeeps := (keepsStack_processFile h depth).processLines h 1 lines (.start filename s)
  rwa [H] at hkeeps

end BuildFile

end Haybuild
