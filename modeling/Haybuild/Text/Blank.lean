import Haybuild.Text.Basic

/-!
# Blank characters and words

`isBlank` is the class of characters that separate words and are trimmed from the ends of a text.
Main definitions: `trim` and `words`.
-/

namespace Haybuild

namespace Text

/-- White space as the Unicode bidirectional classes WS, B and S and the category Zs give it. -/
def isBlank (c : Char) : Bool :=
  let n := c.toNat
  (0x09 ≤ n && n ≤ 0x0D) || (0x1C ≤ n && n ≤ 0x20) || n == 0x85 || n == 0xA0 || n == 0x1680 ||
    (0x2000 ≤ n && n ≤ 0x200A) || n == 0x2028 || n == 0x2029 || n == 0x202F || n == 0x205F ||
    n == 0x3000

/-- The text holds nothing but blanks. -/
def blank (t : Text) : Bool :=
  t.all isBlank

/-- The text without the blanks at its start. -/
def trimLeft (t : Text) : Text :=
  t.dropWhile isBlank

/-- The text without the blanks at its end. -/
def trimRight (t : Text) : Text :=
  (t.reverse.dropWhile isBlank).reverse

/-- The text without the blanks at its ends. -/
def trim (t : Text) : Text :=
  trimRight (trimLeft t)

/-- The word a text starts with, possibly empty, and the words after it. -/
def wordsFrom : Text → Text × List Text
  | [] => ([], [])
  | c :: r =>
    let (word, rest) := wordsFrom r
    if isBlank c then ([], if word = [] then rest else word :: rest) else (c :: word, rest)

/-- The maximal runs of characters that are not blank. -/
def words (t : Text) : List Text :=
  let (word, rest) := wordsFrom t
  if word = [] then rest else word :: rest

/-- The words of a text with a single space between neighbours. -/
def squeeze (t : Text) : Text :=
  join " " (words t)

end Text

end Haybuild
