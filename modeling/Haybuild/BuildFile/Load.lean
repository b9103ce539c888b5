import Haybuild.BuildFile.Context
import Haybuild.Halt
import Haybuild.Host
import Haybuild.Text.Comment
import Haybuild.Text.Quoting

/-!
# Loading build files

A build file is read line by line. `processLine` tells shell lines, assignments, includes and rules
apart and changes the context; what a line changed before it failed stays changed. An error on a
line with the neglect marker is reported and reading goes on. Files included inside one another are
bounded in number, since no file is read again while it is being read.

Main definitions: `processLine`, `loadText` and `loadFile`.
-/

namespace Haybuild

namespace BuildFile

/-- The state of loading: the context, the host, and the neglected errors reported so far. -/
structure Loading (σ : Type) where
  context : Context
  host : σ
  reports : List Diagnostic

/-- The state that a step of loading leaves, and what stopped it, if anything did. -/
abbrev Outcome (σ : Type) := Loading σ × Option Halt

variable {σ : Type}

namespace Loading

/-- Replaces the context. -/
def withContext (st : Loading σ) (ctx : Context) : Loading σ :=
  { st with context := ctx }

/-- Reports a diagnostic and goes on if the line asks to neglect it; stops otherwise. -/
def reportOrStop (st : Loading σ) (d : Diagnostic) (neglect : Bool) : Outcome σ :=
  if neglect then ({ st with reports := st.reports ++ [d] }, none)
  else (st, some (.error (.diagnostic d)))

end Loading

/-- The word that starts an include line. -/
def includeWord : Text := "include"

/-- A line that includes files. -/
def isInclude (content : Text) : Bool :=
  content = includeWord || (includeWord ++ [' ']).isPrefixOf content

/-- A line while it is being read: as it stands in the file, its number, what its start says, and
its content without blanks around it. -/
structure Reading where
  source : Text
  number : Nat
  line : Line
  content : Text

/-- Takes a line apart for reading. -/
def Reading.ofSource (source : Text) (number : Nat) : Reading where
  source
  number
  line := Line.ofText source
  content := Text.trim (Line.ofText source).content

namespace Reading

/-- The diagnostic for a line that fails to derive. -/
def subcallDiagnostic (r : Reading) (filename : Text) (e : Derivation.Error) : Diagnostic where
  kind := .subcall
  message := e.message
  filename := filename
  text := r.source
  line := r.number
  column := r.line.split + offsetOf e.reference r.content
  notes := originNotes r.content r.line.debug

/-- The diagnostic for a path that cannot be included. It points into the line as it stands, or
into the derived line where that is another one. -/
def includeDiagnostic (r : Reading) (filename derived message : Text) (offset : Nat) :
    Diagnostic where
  kind := .inclusion
  message := message
  filename := filename
  text := if derived = r.content then r.source else derived
  line := r.number
  column := if derived = r.content then r.line.split + offset else offset
  notes := if derived = r.content then [] else originNotes r.content r.line.debug

/-- The diagnostic for a line that is no rule. -/
def ruleDiagnostic (r : Reading) (filename derived : Text) (e : Rule.Fault) : Diagnostic where
  kind := .malformed
  message := e.message
  filename := filename
  text := if derived = r.content then r.source else derived
  line := r.number
  column :=
    if derived = r.content then r.line.split + (e.place.column - 1) else e.place.column - 1
  notes := if derived = r.content then [] else ["note: this was " ++ r.content]

end Reading

/-- Why a path cannot be included now. -/
def includeProblem? (h : Host σ) (st : Loading σ) (path : Text) : Option Text :=
  let files := h.files st.host
  if !files.exists? path then some ("file " ++ path ++ " does not exist")
  else if files.isDirectory path then some (path ++ " is a directory")
  else if st.context.includeStack.contains (Path.absolute h.directory path) then
    some ("file " ++ path ++ " is already being included")
  else none

/-- Reads the files that an include line names, one after the other, with `readFile`. -/
def includeAll (h : Host σ) (readFile : Text → Loading σ → Outcome σ) (r : Reading)
    (derived : Text) : List Text.Slice → Loading σ → Outcome σ
  | [], st => (st, none)
  | piece :: rest, st =>
    let path := Text.unquote "'" piece.text
    let outcome :=
      match includeProblem? h st path with
      | none => readFile path st
      | some message =>
        st.reportOrStop (r.includeDiagnostic st.context.filename derived message piece.offset)
          r.line.neglect
    match outcome with
    | (st, none) => includeAll h readFile r derived rest st
    | stopped => stopped

/-- Reads a line that is neither a shell line nor an assignment, after it was derived. -/
def derivedLine (h : Host σ) (readFile : Text → Loading σ → Outcome σ) (r : Reading)
    (derived : Text) (st : Loading σ) : Outcome σ :=
  if isInclude derived then
    includeAll h readFile r derived ((Text.splitBalanced " " "'" derived).drop 1) st
  else
    match Rule.parse derived with
    | .error e => (st, some (.error (.diagnostic (r.ruleDiagnostic st.context.filename derived e))))
    | .ok none => (st, none)
    | .ok (some rule) => (st.withContext (st.context.addRecipe (Recipe.ofRule rule)), none)

/-- Derives a line and reads what comes of it. After a neglected failure the shell lines that follow
are dropped, unless the line could not have opened a recipe. -/
def deriveLine (h : Host σ) (readFile : Text → Loading σ → Outcome σ) (r : Reading)
    (st : Loading σ) : Outcome σ :=
  let raw := Text.replaceAll "\\=" "=" r.content
  match h.derive (derive st.context.vars r.line.debug raw) st.host with
  | (.error fault, s) => ({ st with host := s }, some (.fault fault))
  | (.ok (.ok value), s) =>
    derivedLine h readFile r (unescapeDollars value) { st with host := s }
  | (.ok (.error e), s) =>
    match ({ st with host := s } : Loading σ).reportOrStop
        (r.subcallDiagnostic st.context.filename e) r.line.neglect with
    | (st, none) => (st.withContext { st.context with skipping := !isInclude r.content }, none)
    | stopped => stopped

/-- Reads one line without its comment. -/
def processLine (h : Host σ) (readFile : Text → Loading σ → Outcome σ) (source : Text)
    (number : Nat) (st : Loading σ) : Outcome σ :=
  if Text.blank source then (st, none)
  else
    let r := Reading.ofSource source number
    if r.line.shell then
      match st.context.shellLine r.line source number with
      | .ok ctx => (st.withContext ctx, none)
      | .error d => (st, some (.error (.diagnostic d)))
    else
      let st := st.withContext st.context.closeRecipe
      match Text.findUnescaped "=" r.content with
      | some _ => (st.withContext (st.context.assignLine r.content), none)
      | none => deriveLine h readFile r st

/-- Reads lines, the first of which has the given number. -/
def processLines (h : Host σ) (readFile : Text → Loading σ → Outcome σ) :
    Nat → List Text → Loading σ → Outcome σ
  | _, [], st => (st, none)
  | number, source :: rest, st =>
    match processLine h readFile source number st with
    | (st, none) => processLines h readFile (number + 1) rest st
    | stopped => stopped

/-- The state after a file: the last of the files being read is taken off, `outer` is the name that
lines are told under again, and a file that was read to its end leaves no recipe open. -/
def leaveFile (outer : Text) : Outcome σ → Outcome σ
  | (st, stop) =>
    let ctx := { st.context with
      filename := outer
      includeStack := st.context.includeStack.dropLast }
    (st.withContext (if stop.isNone then ctx.closeRecipe else ctx), stop)

/-- Reads a file; at most so many files may be read inside one another. -/
def processFile (h : Host σ) : Nat → Text → Loading σ → Outcome σ
  | 0, _, st => (st, some (.fault .includeDepth))
  | depth + 1, path, st =>
    let shown := Path.display path
    match h.readText st.host shown with
    | .error fault => (st, some (.fault fault))
    | .ok source =>
      let inner := { st.context with
        filename := shown
        includeStack := st.context.includeStack ++ [Path.absolute h.directory shown] }
      leaveFile st.context.filename <|
        processLines h (processFile h depth) 1 (Text.uncomment "#" source) (st.withContext inner)

/-- The number of files that may be read inside one another: as many as there are, and those that
commands may make while they are read. -/
def includeLimit (h : Host σ) (s : σ) : Nat :=
  h.fileCount s + 1000

/-- The state before the first line. -/
def Loading.start (filename : Text) (s : σ) : Loading σ :=
  ⟨{ filename }, s, []⟩

/-- Loads a build file from its text. -/
def loadText (h : Host σ) (filename source : Text) (s : σ) : Outcome σ :=
  processLines h (processFile h (includeLimit h s)) 1 (Text.uncomment "#" source)
    (.start filename s)

/-- Loads a build file from a path. -/
def loadFile (h : Host σ) (path : Text) (s : σ) : Outcome σ :=
  processFile h (includeLimit h s) path (.start path s)

end BuildFile

end Haybuild
