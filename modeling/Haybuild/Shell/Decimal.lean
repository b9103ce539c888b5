import Haybuild.Shell.Raw

/-!
# Decimal numerals with a point

A numeral is read as an exact fraction, rounded to the nearest number of some binary precision, and
written with so many places. All of it is arithmetic on natural numbers, so that a tie is a tie.
-/

namespace Haybuild

namespace Shell

/-- A number that is not negative, as a fraction of natural numbers. -/
structure Ratio where
  num : Nat
  den : Nat
  deriving Repr, DecidableEq

namespace Ratio

/-- The integer nearest to a quotient; of two, the even one. -/
def roundDiv (num den : Nat) : Nat :=
  let q := num / den
  let twice := 2 * (num % den)
  if den < twice || twice = den && q % 2 = 1 then q + 1 else q

/-- The number of digits of a natural number in base two. -/
def bits (n : Nat) : Nat :=
  if n = 0 then 0 else n.log2 + 1

/-- The nearest number with so many binary digits. -/
def toPrecision (precision : Nat) (r : Ratio) : Ratio :=
  if r.num = 0 || r.den = 0 then ⟨0, 1⟩
  else
    let up := precision + bits r.den - bits r.num
    let down := bits r.num - (precision + bits r.den)
    let scaled : Ratio := ⟨r.num * Nat.pow 2 (up + 1), r.den * Nat.pow 2 down⟩
    let size := bits (scaled.num / scaled.den)
    let extra := size - precision
    let m := roundDiv scaled.num (scaled.den * Nat.pow 2 extra)
    ⟨m * Nat.pow 2 (extra + down), Nat.pow 2 (up + 1)⟩

/-- The numeral at the front, digits with a point and an exponent, and the text after it. -/
def read? (t : Raw) : Option (Ratio × Raw) :=
  let whole := t.takeWhile Char.isDigit
  let after := t.drop whole.length
  let (part, rest) := match after with
    | '.' :: r => (r.takeWhile Char.isDigit, r.dropWhile Char.isDigit)
    | r => ([], r)
  if whole = [] && part = [] then none
  else
    let n := Raw.digits (whole ++ part)
    let (negative, digits, end_) := match rest with
      | e :: r =>
        if e = 'e' || e = 'E' then
          let (negative, r) := match r with
            | '-' :: r => (true, r)
            | '+' :: r => (false, r)
            | r => (false, r)
          let digits := r.takeWhile Char.isDigit
          (negative, digits, r.drop digits.length)
        else (false, [], rest)
      | [] => (false, [], rest)
    let rest := if digits = [] then rest else end_
    let e := min (Raw.digits digits) 400
    let den := Nat.pow 10 part.length
    some (if negative then ⟨n, den * Nat.pow 10 e⟩ else ⟨n * Nat.pow 10 e, den⟩, rest)

/-- The numeral with so many places behind the point. -/
def fixed (places : Nat) (r : Ratio) : Raw :=
  let digits := Raw.padLeft '0' (places + 1)
    (Text.ofNat (roundDiv (r.num * Nat.pow 10 places) r.den))
  let size := digits.length - places
  digits.take size ++ if places = 0 then [] else '.' :: digits.drop size

/-- The exponent of the power of ten that a number is not less than, starting from one that is too
great; the number bounds the steps. -/
def exponentFrom (r : Ratio) : Nat → Int → Int
  | 0, e => e
  | n + 1, e =>
    let fits := if e < 0 then r.den ≤ r.num * Nat.pow 10 (-e).toNat
      else r.den * Nat.pow 10 e.toNat ≤ r.num
    if fits then e else exponentFrom r n (e - 1)

/-- The digits with so many places behind the first, and the exponent. -/
def scientificDigits (places : Nat) (r : Ratio) : Nat × Int :=
  if r.num = 0 then (0, 0)
  else
    let high : Int := (Text.ofNat r.num).length
    let low : Int := (Text.ofNat r.den).length
    let e := exponentFrom r 4 (high - low + 1)
    let shift : Int := places - e
    let q := if shift < 0 then roundDiv r.num (r.den * Nat.pow 10 (-shift).toNat)
      else roundDiv (r.num * Nat.pow 10 shift.toNat) r.den
    if q < Nat.pow 10 (places + 1) then (q, e) else (q / 10, e + 1)

/-- An exponent with its sign and at least two digits. -/
def exponentText (e : Int) : Raw :=
  (if e < 0 then ['-'] else ['+']) ++ Raw.padLeft '0' 2 (Text.ofNat e.natAbs)

/-- The numeral with an exponent and so many places behind the point. -/
def scientific (places : Nat) (r : Ratio) : Raw :=
  let (q, e) := scientificDigits places r
  let digits := Raw.padLeft '0' (places + 1) (Text.ofNat q)
  digits.take 1 ++ (if places = 0 then [] else '.' :: digits.drop 1) ++ 'e' :: exponentText e

/-- A numeral without the zeros at the end of its places, and without a bare point. -/
def dropZeros (t : Raw) : Raw :=
  if t.contains '.' then
    let r := t.reverse.dropWhile (· = '0')
    (if r.head? = some '.' then r.drop 1 else r).reverse
  else t

/-- The shorter of both numerals for so many digits. -/
def general (digits : Nat) (r : Ratio) : Raw :=
  let p := max digits 1
  let e := (scientificDigits (p - 1) r).2
  if -4 ≤ e && e < p then dropZeros (fixed (p - 1 - e).toNat r)
  else
    let t := scientific (p - 1) r
    dropZeros (t.takeWhile (· ≠ 'e')) ++ t.dropWhile (· ≠ 'e')

end Ratio

end Shell

end Haybuild
