import Haybuild.Text.Blank
import Haybuild.Text.Replace

/-!
# Functions on lists of words

The calls of a derivation work on texts as lists of words. This module holds the functions behind
them: patterns with a `%` that stands for any stem, choice and numbering of words, and the parts of
a path.
-/

namespace Haybuild

namespace Words

open Text

/-- The part of a word that the first `%` of a pattern stands for; the empty text for a pattern
without `%` that is the word itself. -/
def stem? (pattern word : Text) : Option Text :=
  match splitAt? '%' pattern with
  | none => if pattern = word then some [] else none
  | some (front, back) => (stripPrefix? front word).bind (stripSuffix? back)

/-- The replacement with its first `%` standing for a stem. -/
def fillStem (replacement stem : Text) : Text :=
  match splitAt? '%' replacement with
  | none => replacement
  | some (front, back) => front ++ stem ++ back

/-- Each word that matches the pattern becomes the replacement for its stem. -/
def substitutePattern (pattern replacement t : Text) : Text :=
  join " " <| (words t).map fun w =>
    match stem? (trim pattern) w with
    | none => w
    | some stem => fillStem (trim replacement) stem

/-- The word matches one of the patterns. -/
def matchesSome (patterns : List Text) (word : Text) : Bool :=
  patterns.any fun p => (stem? p word).isSome

/-- The words that match one of the patterns, or with `keep` false the others. -/
def filter (patterns t : Text) (keep : Bool) : Text :=
  join " " <| (words t).filter fun w => matchesSome (words patterns) w == keep

/-- The word with the given number, counted from one, or the empty text. -/
def nth (i : Int) (t : Text) : Text :=
  if 0 < i then (words t).getD (i - 1).toNat [] else []

/-- The path up to its last slash. -/
def upToSlash (w : Text) : Text :=
  (w.reverse.dropWhile (· ≠ '/')).reverse

/-- The path after its last slash. -/
def afterSlash (w : Text) : Text :=
  (w.reverse.takeWhile (· ≠ '/')).reverse

/-- The directory of a path, with one slash at its end; `./` for a path without directory. -/
def directory (w : Text) : Text :=
  let head := upToSlash w
  let name := if head.all (· = '/') then head else (head.reverse.dropWhile (· = '/')).reverse
  (if name = [] then ['.'] else name) ++ ['/']

/-- A path cut before its suffix: the last dot of the file name and what follows it, unless only
dots stand before that dot. -/
def splitSuffix (w : Text) : Text × Text :=
  let name := afterSlash w
  let rest := name.dropWhile (· = '.')
  if rest.contains '.' then
    let suffix := '.' :: (rest.reverse.takeWhile (· ≠ '.')).reverse
    (w.take (w.length - suffix.length), suffix)
  else (w, [])

/-- The directories of the words. -/
def directories (t : Text) : Text :=
  join " " <| (words t).map directory

/-- The file names of the words. -/
def fileNames (t : Text) : Text :=
  join " " <| (words t).map afterSlash

/-- The suffixes of the words that have one. -/
def suffixes (t : Text) : Text :=
  join " " <| ((words t).map fun w => (splitSuffix w).2).filter (· ≠ [])

/-- The words without their suffixes. -/
def withoutSuffixes (t : Text) : Text :=
  join " " <| (words t).map fun w => (splitSuffix w).1

/-- The words with a text before each. -/
def addFront (front t : Text) : Text :=
  join " " <| (words t).map fun w => trim front ++ w

/-- The words with a text after each. -/
def addBack (back t : Text) : Text :=
  join " " <| (words t).map fun w => w ++ trim back

/-- The members of two lists put together pairwise; the longer list goes on alone. -/
def pairUp : List Text → List Text → List Text
  | [], bs => bs
  | a :: as, [] => a :: as
  | a :: as, b :: bs => (a ++ b) :: pairUp as bs

/-- The words of two texts put together pairwise. -/
def pairWords (a b : Text) : Text :=
  join " " (pairUp (words a) (words b))

end Words

end Haybuild
