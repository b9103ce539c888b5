import Haybuild.Shell.Pattern

/-!
# Fields

Expanding a word gives a row of atoms: characters that know whether they were quoted and whether
they may be split, and marks for what quotes leave behind. `Fields.split` cuts a row into fields at
the separators, and `Fields.paths` puts the paths that a field names in its place.
-/

namespace Haybuild

namespace Shell

/-- What the expansion of a word consists of. -/
inductive Atom where
  /-- A character. `splits` tells that it came from an unquoted expansion. -/
  | char (c : Char) (quoted splits : Bool)
  /-- Quotes stood here, so that there is a field even if nothing else is in it. -/
  | mark
  /-- A field ends here. -/
  | cut
  deriving Repr, DecidableEq

namespace Fields

/-- The separators that are in force when no variable sets others. -/
def standardSeparators : Raw := [' ', '\t', '\n']

/-- The separators of a session. -/
def separators (s : Session) : Raw :=
  (s.get? "IFS").getD standardSeparators

/-- The separator is a blank, of which several in a row separate as one. -/
def isSoft (c : Char) : Bool :=
  c = ' ' || c = '\t' || c = '\n'

/-- Where the splitting of a row is. -/
structure Cutter where
  /-- The characters of the field that is being read, last first. -/
  field : Option Marked
  /-- The fields before it, last first. -/
  done : List Marked
  /-- The last field was ended by blanks, which a separator after them joins. -/
  soft : Bool

namespace Cutter

/-- Ends the field that is being read, if there is one. -/
def close (k : Cutter) : Cutter :=
  match k.field with
  | some f => ⟨none, f.reverse :: k.done, k.soft⟩
  | none => k

/-- Takes the next atom. -/
def step (separators : Raw) (k : Cutter) : Atom → Cutter
  | .mark => ⟨some (k.field.getD []), k.done, false⟩
  | .cut => { k.close with soft := false }
  | .char c quoted splits =>
    if splits && separators.contains c then
      if isSoft c then { k.close with soft := k.soft || k.field.isSome }
      else if k.field.isNone && k.soft then { k with soft := false }
      else { ({ k with field := some (k.field.getD []) } : Cutter).close with soft := false }
    else ⟨some ((c, quoted) :: k.field.getD []), k.done, false⟩

end Cutter

/-- Cuts a row of atoms into fields. -/
def split (separators : Raw) (atoms : List Atom) : List Marked :=
  (atoms.foldl (Cutter.step separators) ⟨none, [], false⟩).close.done.reverse

/-- What stands between values that are joined. -/
def separator (s : Session) : Raw :=
  (separators s).take 1

/-- The characters of a row that makes one field. -/
def joined (s : Session) (atoms : List Atom) : Marked :=
  let between : Marked := (separator s).map (·, true)
  atoms.flatMap fun
    | .char c quoted _ => [(c, quoted)]
    | .mark => []
    | .cut => between

/-- The text of a row that makes one field. -/
def text (s : Session) (atoms : List Atom) : Raw :=
  (joined s atoms).map Prod.fst

/-- The texts that a field stands for: the paths its pattern names, or itself. -/
def paths (s : Session) (field : Marked) : List Raw :=
  let plain := field.map Prod.fst
  if Pattern.isPattern field && !s.has 'f' then
    match Pattern.paths s field with
    | [] => if s.has '0' then [] else [plain]
    | found => found
  else [plain]

/-- The atoms of a value that stands quoted or not. -/
def ofValue (quoted : Bool) (t : Raw) : List Atom :=
  let atoms := t.map fun c => Atom.char c quoted !quoted
  if quoted then .mark :: atoms else atoms

/-- The atoms of values of which each ends a field. -/
def ofValues (quoted : Bool) : List Raw → List Atom
  | [] => []
  | [t] => ofValue quoted t
  | t :: rest => ofValue quoted t ++ .cut :: ofValues quoted rest

/-- The atoms with their unquoted characters open to splitting. -/
def splitting (atoms : List Atom) : List Atom :=
  atoms.map fun
    | .char c false _ => .char c false true
    | a => a

end Fields

end Shell

end Haybuild
