import Haybuild.Text.Blank
import Haybuild.Text.Lines

/-!
# Comments

A comment runs from an unescaped marker to the end of its line; a backslash before the marker keeps
it as a character. Lines that start with a tab hold commands, whose comments belong to the shell.
`uncomment` gives one line for each line of the source, so a line's place in the list is its number.
-/

namespace Haybuild

namespace Text

/-- The characters of a line before its comment, after passing over `skip` characters, which belong
to an escaped marker already written. -/
def beforeComment (marker : Text) : Nat → Text → Text
  | _, [] => []
  | skip + 1, _ :: r => beforeComment marker skip r
  | 0, c :: r =>
    if c = '\\' && marker.isPrefixOf r then marker ++ beforeComment marker marker.length r
    else if marker.isPrefixOf (c :: r) then []
    else c :: beforeComment marker 0 r

/-- A line without its comment and without blanks at its end. -/
def uncommentLine (marker line : Text) : Text :=
  match line with
  | '\t' :: _ => trimRight line
  | _ => trimRight (beforeComment marker 0 line)

/-- The lines of a source without their comments. -/
def uncomment (marker source : Text) : List Text :=
  (lines source).map (uncommentLine marker)

end Text

end Haybuild
