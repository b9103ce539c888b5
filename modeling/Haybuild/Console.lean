import Haybuild.Console.Event
import Haybuild.Text.Lines

/-!
# The console

`Console.write` gives an event its words. An event is written as one block of lines, to the output
or to the errors; without colour the escape sequences are removed from each block as it is written.
-/

namespace Haybuild

/-- What was written to the output and to the errors. -/
structure Written where
  output : Text
  errors : Text
  deriving Repr, DecidableEq

namespace Written

/-- Nothing. -/
def nothing : Written := ⟨[], []⟩

/-- First one, then the other. -/
def append (a b : Written) : Written :=
  ⟨a.output ++ b.output, a.errors ++ b.errors⟩

instance : Append Written := ⟨append⟩

end Written

/-- How a console writes. -/
structure Console where
  debug : Bool := false
  colour : Bool := false
  deriving Repr, DecidableEq

namespace Console

open Style

/-- A block of text as it is written. -/
def block (c : Console) (t : Text) : Text :=
  if c.colour then t ++ ['\n'] else plain (t ++ ['\n'])

/-- Writes a block to the output. -/
def out (c : Console) (t : Text) : Written :=
  ⟨c.block t, []⟩

/-- Writes a block to the errors. -/
def err (c : Console) (t : Text) : Written :=
  ⟨[], c.block t⟩

/-- Lines as one text. -/
def unlines (ls : List Text) : Text :=
  Text.join "\n" ls

/-- The lines that show variables. -/
def variableLines (rows : List ShownVariable) : List Text :=
  (rows.map fun v =>
    v.name ++ " " ++ magenta.dress "≡" ++ " " ++ highlight v.value v.spans) ++ [[]]

/-- The lines that show a recipe. What stands before the first colon is taken for the targets. -/
def recipeLines (r : Recipe) : List Text :=
  match Text.lines r.render with
  | [] => [[]]
  | head :: body =>
    let (targets, prerequisites) := Text.partition ':' head
    (strongGreen.dress targets ++ ":" ++ prerequisites) :: (body.map grey.dress ++ [[]])

/-- The lines that show a diagnostic: what is wrong, where, the line itself with a mark under the
column, and the notes. -/
def diagnosticLines (d : Diagnostic) : List Text :=
  let number := Text.ofInt d.line
  let gutter := Text.fill ' ' number.length
  let bar := blue.dress "|"
  let shown := d.text.map fun c => if c = '\t' then ' ' else c
  [strongRed.dress ("error[" ++ d.kind.name ++ "]") ++ ": " ++ d.message,
    gutter ++ blue.dress "-->" ++ " " ++ d.filename ++ ":" ++ number ++ ":" ++
      Text.ofInt (d.column + 1),
    gutter ++ " " ++ bar,
    blue.dress number ++ " " ++ bar ++ " " ++ shown,
    gutter ++ " " ++ bar ++ " " ++ Text.fill ' ' d.column ++ strongRed.dress "^"] ++
  d.notes.map fun note =>
    let (label, rest) := Text.partitionAt ": " note
    gutter ++ " " ++ blue.dress "=" ++ " " ++ strong.dress label ++ ": " ++ rest

/-- The lines of a text that a recipe's command wrote. -/
def outputLines (recipe t : Text) : List Text :=
  (Text.lines t).map fun line => "[" ++ recipe ++ "] " ++ line

/-- The word for a result; a good one is told as a success. -/
def resultWord (status : Text) : Text :=
  if status = "ok" then "SUCCESS" else Text.upper status

/-- The lines that show the results. -/
def resultLines (rows : List (Text × Text)) : List Text :=
  let rule := Text.fill '=' 40
  [[], rule, "RESULTS", rule] ++ rows.map fun r => ("  " : Text) ++ r.1 ++ ": " ++ resultWord r.2

/-- The lines that show an error of the whole run. -/
def errorLines (title message : Text) (details : List Text) (suggestion : Text) : List Text :=
  [("\n" : Text) ++ strongRed.dress "ERROR" ++ ": " ++ title, message] ++
    (details.map fun d => ("  " : Text) ++ d) ++
    if suggestion = [] then [] else [("\n" : Text) ++ suggestion]

/-- Writes an event. -/
def write (c : Console) : Event → Written
  | .variableTable rows => c.out (unlines (variableLines rows))
  | .recipe r => c.out (unlines (recipeLines r))
  | .frontier index names =>
    c.out (strong.dress
      ("=== Frontier " ++ Text.ofInt index ++ ": " ++ Text.join ", " names ++ " ==="))
  | .command recipe cmd => c.out ("[" ++ recipe ++ "] ▶ " ++ cmd)
  | .commandDebug recipe line cmd environment =>
    c.err <| unlines <|
      [yellow.dress ("[" ++ recipe ++ "] debug: line " ++ Text.ofInt line), "  command: " ++ cmd] ++
        environment.map fun v => ("  " : Text) ++ v.1 ++ "=" ++ v.2
  | .output recipe output errors =>
    (match outputLines recipe output with
      | [] => .nothing
      | ls => c.out (unlines ls)) ++
    match outputLines recipe errors with
      | [] => .nothing
      | ls => c.err (unlines ls)
  | .success name => c.out (green.dress "✓" ++ " " ++ name)
  | .failure name reason => c.err (red.dress "✗" ++ " " ++ name ++ ": " ++ reason)
  | .results rows => c.out (unlines (resultLines rows))
  | .diagnostic d => c.err (unlines (diagnosticLines d))
  | .error title message details suggestion =>
    c.err (unlines (errorLines title message details suggestion))
  | .exception message => c.err ("Error: " ++ message)
  | .info message => c.out message
  | .debug message => if c.debug then c.err ("[DEBUG] " ++ message) else .nothing

/-- Writes events one after the other. -/
def writeAll (c : Console) (events : List Event) : Written :=
  events.foldl (fun w e => w ++ c.write e) .nothing

end Console

end Haybuild
