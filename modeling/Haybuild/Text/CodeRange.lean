import Haybuild.Text.Basic

/-!
# Ranges of code points

The character classes of the Unicode standard are given as lists of ranges; `inRanges` decides
membership, and `Shift` is a range of characters whose case partners lie at a fixed distance.
-/

namespace Haybuild

namespace Text

/-- The character lies in one of the ranges, ends included. -/
def inRanges (ranges : List (Nat × Nat)) (c : Char) : Bool :=
  ranges.any fun r => r.1 ≤ c.toNat && c.toNat ≤ r.2

/-- Every `step`-th code point from `first` to `last`, each mapped to the one `offset` further. -/
structure Shift where
  first : Nat
  last : Nat
  step : Nat
  offset : Int

/-- The partner of a character that the shift covers. -/
def Shift.apply? (s : Shift) (c : Char) : Option Char :=
  let n := c.toNat
  if s.first ≤ n && n ≤ s.last && (n - s.first) % s.step == 0 then
    some (Char.ofNat (Int.toNat (n + s.offset)))
  else none

end Text

end Haybuild
