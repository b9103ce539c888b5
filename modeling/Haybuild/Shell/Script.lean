import Haybuild.Shell.Raw

/-!
# Shell scripts

The commands of recipes are written in the language of the POSIX shell, or in that of its larger
relative with arrays, ranges and conditions. This module holds the abstract form of both: words made
of quoted and unquoted parts, redirections, and scripts.
-/

namespace Haybuild

namespace Shell

/-- What is done with the value of a parameter. `orEmpty` lets an empty value count as missing. -/
inductive Use where
  | value
  | length
  /-- Another word stands for a missing value. -/
  | otherwise (orEmpty : Bool)
  /-- A missing value is set to another word. -/
  | assign (orEmpty : Bool)
  /-- A missing value is an error. -/
  | demand (orEmpty : Bool)
  /-- Another word stands for a value that is there. -/
  | instead (orEmpty : Bool)
  /-- The part at the front or end that matches a pattern is taken away. -/
  | trim (atEnd longest : Bool)
  /-- So many characters from an offset on. -/
  | slice
  /-- Matches of a pattern are replaced: the first, every one, or one at the front or end. -/
  | replace (all atFront atEnd : Bool)
  /-- Letters that match a pattern are made large or small: the first, or every one. -/
  | recase (upper all : Bool)
  /-- The value is the name of another parameter. -/
  | indirect
  /-- The subscripts of the elements that are set. -/
  | keys
  /-- The value as a word of a script. -/
  | quote
  /-- What is written has no meaning. -/
  | nonsense
  deriving Repr, DecidableEq

/-- Where a redirection leads a descriptor. -/
inductive Direction where
  | input
  | output
  /-- As `output`, but a file may be there whatever the options say. -/
  | overwrite
  | append
  /-- Reading and writing of the same file. -/
  | update
  /-- The descriptor becomes a copy of another one, or is closed. -/
  | duplicate
  /-- The target itself is what is read. -/
  | document
  /-- As `document`, with a line feed after the target. -/
  | line
  /-- Output and errors together. -/
  | both (append : Bool)
  deriving Repr, DecidableEq

/-- What follows on a case that was carried out. -/
inductive Sequel where
  | done
  /-- The body of the next case. -/
  | body
  /-- The next cases with patterns that match. -/
  | search
  deriving Repr, DecidableEq

mutual

/-- A part of a word. A part that is not quoted is open to splitting and to file patterns. -/
inductive Part where
  | text (quoted : Bool) (t : Raw)
  /-- The value of a parameter, or of an element of an array, and what is done with it. -/
  | parameter (quoted : Bool) (name : Raw) (subscript : Option (List Part)) (use : Use)
      (words : List (List Part))
  /-- The output of a script. -/
  | output (quoted : Bool) (body : Script)
  /-- The value of an arithmetic term. -/
  | arithmetic (quoted : Bool) (term : List Part)
  /-- A path from which the output of a script can be read. -/
  | stream (body : Script)

/-- A redirection of a descriptor. -/
inductive Redirection where
  | mk (descriptor : Nat) (direction : Direction) (target : List Part)

/-- An assignment to a variable; with `adds` the value is put behind the one that is there. -/
inductive Assignment where
  | scalar (name : Raw) (subscript : Option (List Part)) (adds : Bool) (value : List Part)
  | array (name : Raw) (adds : Bool) (elements : List (List Part))

/-- A condition between double square brackets. -/
inductive Condition where
  | present (word : List Part)
  | unary (operator : Raw) (word : List Part)
  | binary (operator : Raw) (left right : List Part)
  | negation (c : Condition)
  | both (a b : Condition)
  | either (a b : Condition)

/-- A script. -/
inductive Script where
  | simple (line : Nat) (assignments : List Assignment) (words : List (List Part))
      (redirections : List Redirection)
  | list (items : List Script)
  /-- Goes on without waiting for the end of the body. -/
  | background (body : Script)
  | both (first second : Script)
  | either (first second : Script)
  | negation (body : Script)
  | pipeline (stages : List Script)
  /-- Runs apart, so that only files and output remain. -/
  | subshell (body : Script)
  | redirected (line : Nat) (body : Script) (redirections : List Redirection)
  | choice (condition yes no : Script)
  /-- Repeats the body while the condition ends well, or with `negated` while it does not. -/
  | loop (negated : Bool) (condition body : Script)
  /-- Repeats the body for each of some words, or for each positional parameter. -/
  | each (name : Raw) (words : Option (List (List Part))) (body : Script)
  /-- Repeats the body as an arithmetic condition says. -/
  | count (start condition step : List Part) (body : Script)
  /-- Carries out the first case with a pattern that matches, and goes on as the case says. -/
  | select (word : List Part) (cases : List (List (List Part) × Script × Sequel))
  | define (name : Raw) (body : Script)
  | condition (c : Condition)
  /-- Computes an arithmetic term and ends well unless its value is zero. -/
  | compute (term : List Part)

end

/-- A word, from left to right. -/
abbrev Word := List Part

instance : Inhabited Script := ⟨.list []⟩

namespace Part

/-- The part is written between quotes. -/
def isQuoted : Part → Bool
  | text quoted _ | parameter quoted .. | output quoted _ | arithmetic quoted _ => quoted
  | stream _ => false

end Part

namespace Word

/-- The word that an unquoted text makes. -/
def plain (t : Raw) : Word :=
  [.text false t]

/-- The characters of a word of which nothing is quoted or put in. -/
def plain? (w : Word) : Option Raw :=
  w.foldr (fun part rest => match part, rest with
    | .text false t, some r => some (t ++ r)
    | _, _ => none) (some [])

/-- The characters of a word without what is put in. -/
def characters (w : Word) : Raw :=
  w.flatMap fun
    | .text _ t => t
    | _ => []

end Word

end Shell

end Haybuild
