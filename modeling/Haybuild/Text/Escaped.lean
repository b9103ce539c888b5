import Haybuild.Text.Basic

/-!
# Marks and escaped marks

A mark, such as the `=` of an assignment, counts only where no backslash stands right before it.
`findUnescaped` gives the first place where a mark counts; `splitUnescaped` cuts a text at the marks
that count and takes the backslash from those that do not.
-/

namespace Haybuild

namespace Text

/-- The offset of the first `mark` that counts; `escaped` tells that a backslash stands right before
the text. -/
def findUnescapedFrom (mark : Text) : Bool → Text → Option Nat
  | escaped, [] => if mark = [] && !escaped then some 0 else none
  | escaped, c :: r =>
    if !escaped && mark.isPrefixOf (c :: r) then some 0
    else (findUnescapedFrom mark (c == '\\') r).map (· + 1)

/-- The offset of the first `mark` that no backslash precedes. -/
def findUnescaped (mark t : Text) : Option Nat :=
  findUnescapedFrom mark false t

/-- The part up to the first `mark` that counts and the parts after it, after passing over `skip`
characters, which belong to a mark already read. -/
def splitUnescapedFrom (mark : Text) : Nat → Text → Text × List Text
  | _, [] => ([], [])
  | skip + 1, _ :: r => splitUnescapedFrom mark skip r
  | 0, c :: r =>
    if c = '\\' && mark.isPrefixOf r then
      let (part, rest) := splitUnescapedFrom mark mark.length r
      (mark ++ part, rest)
    else if mark.isPrefixOf (c :: r) then
      let (part, rest) := splitUnescapedFrom mark (mark.length - 1) r
      ([], part :: rest)
    else
      let (part, rest) := splitUnescapedFrom mark 0 r
      (c :: part, rest)

/-- The parts of a text between the marks that count, with the other marks unescaped. -/
def splitUnescaped (mark t : Text) : List Text :=
  let (part, rest) := splitUnescapedFrom mark 0 t
  part :: rest

end Text

end Haybuild
