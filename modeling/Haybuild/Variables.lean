import Haybuild.NameMap

/-!
# Variables

Variables hold raw text: references in it are derived only when the variable is used. A name is a
letter or underscore and then letters, digits and underscores, all of them ASCII.
-/

namespace Haybuild

/-- The raw text of each variable, in order of first assignment. -/
abbrev Variables := NameMap Text

namespace Variables

/-- The character can start the name of an assigned variable. -/
def isNameStart (c : Char) : Bool :=
  ('A' ≤ c && c ≤ 'Z') || ('a' ≤ c && c ≤ 'z') || c = '_'

/-- The character can go on the name of an assigned variable. -/
def isNameChar (c : Char) : Bool :=
  isNameStart c || ('0' ≤ c && c ≤ '9')

/-- The rest of the name that is being read, empty between names, and the names after it. -/
def namesFrom : Bool → Text → Text × List Text
  | _, [] => ([], [])
  | inside, c :: r =>
    if isNameStart c || (inside && isNameChar c) then
      let (name, rest) := namesFrom true r
      if inside then (c :: name, rest) else ([], (c :: name) :: rest)
    else ([], (namesFrom false r).2)

/-- The names found in a text, from left to right, each as long as it can be. -/
def namesIn (t : Text) : List Text :=
  (namesFrom false t).2

/-- Gives every name the same raw text. -/
def assign (v : Variables) (names : List Text) (value : Text) : Variables :=
  names.foldl (fun v name => v.set name value) v

end Variables

end Haybuild
