import Haybuild.Text.Basic

/-!
# The order of texts

Texts are ordered character by character, by code point, and a text comes before its extensions.
`sort` keeps repeated texts and `sortDistinct` does not.
-/

namespace Haybuild

namespace Text

/-- Puts a text into an ascending list. -/
def insert (t : Text) : List Text → List Text
  | [] => [t]
  | u :: r => if u < t then u :: insert t r else t :: u :: r

/-- The texts in ascending order. -/
def sort (ts : List Text) : List Text :=
  ts.foldr insert []

/-- Puts a text into a strictly ascending list, unless it is there. -/
def insertDistinct (t : Text) : List Text → List Text
  | [] => [t]
  | u :: r => if t = u then u :: r else if t < u then t :: u :: r else u :: insertDistinct t r

/-- The different texts of a list in strictly ascending order. -/
def sortDistinct (ts : List Text) : List Text :=
  ts.foldr insertDistinct []

end Text

end Haybuild
