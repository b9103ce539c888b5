import Haybuild.Text.Basic

/-!
# What the start of a line says

A line that starts with a tab is a shell line. After the tab, or after the spaces of any other line,
markers may stand: `+` asks for verbose diagnostics and `-` for errors to be reported and passed
over. The content is what follows the markers.
-/

namespace Haybuild

/-- A line taken apart: its kind, its markers, the column where its content starts, and the
content. -/
structure Line where
  shell : Bool
  debug : Bool
  neglect : Bool
  split : Nat
  content : Text
  deriving Repr, DecidableEq

namespace Line

/-- The characters that mark a line. -/
def isMarker (c : Char) : Bool :=
  c = '+' || c = '-'

/-- The number of characters before the markers: the tab, or the plain spaces. -/
def indent : Text → Nat
  | '\t' :: _ => 1
  | t => (t.takeWhile (· = ' ')).length

/-- The markers of a line. -/
def markers (t : Text) : Text :=
  (t.drop (indent t)).takeWhile isMarker

/-- Takes a line apart. -/
def ofText (t : Text) : Line where
  shell := t.head? = some '\t'
  debug := (markers t).contains '+'
  neglect := (markers t).contains '-'
  split := indent t + (markers t).length
  content := t.drop (indent t + (markers t).length)

theorem content_ofText (t : Text) : (ofText t).content = t.drop (ofText t).split := rfl

end Line

end Haybuild
