import Haybuild.Shell.Script

/-!
# Sources of scripts

A `Source` is what is left of a text that is being read as a script, and `Read` is the act of
reading: it goes on with the rest, or it refuses the text with a reason and a line.
-/

namespace Haybuild

namespace Shell

/-- A language of scripts. -/
inductive Dialect where
  /-- The language of the standard. -/
  | standard
  /-- The larger language, with arrays, ranges and conditions. -/
  | extended
  deriving Repr, DecidableEq

/-- What is left of a text that is being read. -/
structure Source where
  rest : Raw
  line : Nat
  dialect : Dialect
  /-- Texts that stand for the first word of a command. -/
  aliases : List (Raw × Raw)

/-- Why and where a text is refused. -/
structure Refusal where
  line : Nat
  message : Raw
  deriving Repr, DecidableEq

/-- Reading from a source. -/
abbrev Read := StateT Source (Except Refusal)

namespace Read

/-- More steps than the reading of any text takes. -/
def bound : Nat := 1000000000

/-- Refuses the text. -/
def refuse {α : Type} (message : Raw) : Read α := do
  let s ← get
  throw ⟨s.line, message⟩

/-- The character at the front. -/
def peek : Read (Option Char) := do
  return (← get).rest.head?

/-- Goes on after characters that were read. -/
def advance (taken rest : Raw) : Read Unit :=
  modify fun s => { s with rest, line := s.line + taken.count '\n' }

/-- Passes over the character at the front. -/
def skip : Read Unit := do
  match (← get).rest with
  | c :: r => advance [c] r
  | [] => pure ()

/-- Reads as long as the characters are of a kind. -/
def takeWhile (p : Char → Bool) : Read Raw := do
  let t := (← get).rest
  let taken := t.takeWhile p
  advance taken (t.drop taken.length)
  return taken

/-- The rest starts with a text. -/
def ahead (t : Raw) : Read Bool := do
  return t.isPrefixOf (← get).rest

/-- Passes over a text if the rest starts with it. -/
def accept (t : Raw) : Read Bool := do
  match Text.stripPrefix? t (← get).rest with
  | some r =>
    advance t r
    return true
  | none => return false

/-- Passes over a text if that is wanted and the rest starts with it. -/
def acceptIf (wanted : Bool) (t : Raw) : Read Bool :=
  if wanted then accept t else return false

/-- The text is read in the extended dialect. -/
def extended : Read Bool := do
  return (← get).dialect = .extended

/-- Reads another text to its end, and then goes on where it was. -/
def within {α : Type} (t : Raw) (act : Read α) : Read α := do
  let s ← get
  set { s with rest := t }
  let value ← act
  let left := (← get).rest
  unless left = [] do
    refuse ("Syntax error: \"" ++ left.take 1 ++ "\" unexpected")
  set s
  return value

end Read

end Shell

end Haybuild
