import Haybuild.Text.Blank
import Haybuild.Text.Digit

/-!
# Reading integers

An integer is an optional sign and decimal digits of any script, with single underscores allowed
between digits and blanks around the whole. Numerals of more than `digitLimit` digits are refused.
-/

namespace Haybuild

namespace Text

/-- The greatest number of digits a numeral may have. -/
def digitLimit : Nat := 4300

/-- A character that may surround a numeral. The information separators are blank but may not. -/
def isNumeralSpace (c : Char) : Bool :=
  isBlank c && !(0x1C ≤ c.toNat && c.toNat ≤ 0x1F)

/-- The value and the number of digits of a numeral whose first `count` digits make `value`. -/
def readDigits (value count : Nat) : Text → Option (Nat × Nat)
  | [] => some (value, count)
  | '_' :: c :: r =>
    match digit? c with
    | some d => readDigits (10 * value + d) (count + 1) r
    | none => none
  | c :: r =>
    match digit? c with
    | some d => readDigits (10 * value + d) (count + 1) r
    | none => none

/-- The value of an unsigned numeral. -/
def readNat? : Text → Option Nat
  | [] => none
  | c :: r => do
    let d ← digit? c
    let (value, count) ← readDigits d 1 r
    if count ≤ digitLimit then some value else none

/-- The value of a numeral with or without a sign. -/
def readSigned? : Text → Option Int
  | '-' :: r => (readNat? r).map fun n => -(n : Int)
  | '+' :: r => (readNat? r).map fun n => (n : Int)
  | t => (readNat? t).map fun n => (n : Int)

/-- The integer a text stands for. -/
def readInt? (t : Text) : Option Int :=
  readSigned? ((t.dropWhile isNumeralSpace).reverse.dropWhile isNumeralSpace).reverse

end Text

end Haybuild
