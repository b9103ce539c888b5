import Haybuild.Text.Replace

/-!
# Separated pieces with quotes

`splitBalanced` cuts a text at the separators that stand outside quotes, and keeps for each piece
the offset at which it starts. The quotes stay in the pieces; `unquote` removes them.
-/

namespace Haybuild

namespace Text

/-- A part of a text and the offset at which it starts. -/
structure Slice where
  offset : Nat
  text : Text
  deriving Repr, DecidableEq

/-- The slice at an offset, unless it is empty. -/
def Slice.unlessEmpty (offset : Nat) (text : Text) : List Slice :=
  if text = [] then [] else [⟨offset, text⟩]

/-- The piece that starts here, at `offset`, and the nonempty pieces after it; `inside` tells that a
quote is open. -/
def splitBalancedFrom (sep quote : Text) : Bool → Nat → Text → Text × List Slice
  | _, _, [] => ([], [])
  | inside, offset, c :: r =>
    if [c] = quote then
      let (piece, rest) := splitBalancedFrom sep quote (!inside) (offset + 1) r
      (c :: piece, rest)
    else if [c] = sep && !inside then
      let (piece, rest) := splitBalancedFrom sep quote inside (offset + 1) r
      ([], Slice.unlessEmpty (offset + 1) piece ++ rest)
    else
      let (piece, rest) := splitBalancedFrom sep quote inside (offset + 1) r
      (c :: piece, rest)

/-- The nonempty pieces between the separators outside quotes. A separator or quote that is not a
single character never occurs. -/
def splitBalanced (sep quote t : Text) : List Slice :=
  let (piece, rest) := splitBalancedFrom sep quote false 0 t
  Slice.unlessEmpty 0 piece ++ rest

/-- The text without its quotes. -/
def unquote (quote t : Text) : Text :=
  replaceAll quote [] t

end Text

end Haybuild
