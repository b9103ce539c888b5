import Haybuild.Shell.Arithmetic
import Haybuild.Shell.Decimal

/-!
# Writing with escapes and formats

`Printf.echo` writes arguments with a space between them. `Printf.print` writes a format: text with
escapes such as `\n`, and conversions such as `%5d` that take an argument each; the format is used
again as long as arguments are left. A `Style` tells in what the commands of the shells and the
program of the system differ.
-/

namespace Haybuild

namespace Shell

namespace Printf

/-- How escapes, numbers and complaints are written. -/
structure Style where
  /-- Escapes with hexadecimal digits have a meaning. -/
  hex : Bool
  /-- The escape `\c` ends the output of a format too. -/
  stops : Bool
  /-- The binary digits of numbers with a point. -/
  precision : Nat
  /-- The words for an argument that is no number, one that goes on after its number, and one that
  is too great. -/
  noNumber : Raw
  leftOver : Raw
  tooGreat : Raw
  /-- The status after an argument that is too great. -/
  tooGreatStatus : Nat
  /-- The status after a conversion that does not exist. -/
  unknownStatus : Nat

/-- The style of the standard shell. -/
def standard : Style :=
  ⟨false, false, 53, "expected numeric value", "not completely converted",
    "Numerical result out of range", 1, 2⟩

/-- The style of the extended shell. -/
def extended : Style :=
  ⟨true, false, 64, "invalid number", "invalid number", "Numerical result out of range", 0, 1⟩

/-- The style of the program of the system. -/
def system : Style :=
  ⟨true, true, 64, "expected a numeric value", "value not completely converted",
    "Numerical result out of range", 1, 1⟩

/-- The text that an escape at the front stands for, after its backslash, and the text after it.
Nothing is given where no escape is. With `argument`, an octal escape may have a zero more in
front. -/
def escape? (style : Style) (argument : Bool) (t : Raw) : Option (Raw × Raw) :=
  match t with
  | [] => none
  | c :: r =>
    if isOctal c then
      let digits := if argument && c = '0' then r.take 3 else (c :: r).take 3
      let digits := digits.takeWhile isOctal
      let rest := (if argument && c = '0' then r else c :: r).drop digits.length
      some ([Char.ofNat (numberOf 8 digits % 256)], rest)
    else if c = 'e' then some (['\x1b'], r)
    else if style.hex && c = 'E' then some (['\x1b'], r)
    else if !argument && c = '"' then some ([c], r)
    else if style.hex && (c = 'x' || c = 'u' || c = 'U') then
      let digits := (r.take (if c = 'x' then 2 else if c = 'u' then 4 else 8)).takeWhile fun d =>
        (hexDigit? d).isSome
      if digits = [] then none
      else
        let code := numberOf 16 digits
        some (if c = 'x' then [Char.ofNat code] else Raw.ofText [Char.ofNat code],
          r.drop digits.length)
    else (controlCharacter? c).map fun d => ([d], r)

/-- Writes the escapes of a text, and tells whether `\c` ends all output. The characters written are
put, last first, before `done`. -/
def unescapeFrom (style : Style) (argument : Bool) : Nat → Raw → Raw → Raw × Bool
  | 0, done, _ => (done, false)
  | _ + 1, done, [] => (done, false)
  | n + 1, done, '\\' :: r =>
    if r.head? = some 'c' && (argument || style.stops) then (done, true)
    else
      match escape? style argument r with
      | some (t, rest) => unescapeFrom style argument n (t.reverse ++ done) rest
      | none => unescapeFrom style argument n (r.take 1 ++ '\\' :: done) (r.drop 1)
  | n + 1, done, c :: r => unescapeFrom style argument n (c :: done) r

/-- The text with its escapes written, and whether `\c` ends all output. -/
def unescape (style : Style) (t : Raw) : Raw × Bool :=
  let (done, stopped) := unescapeFrom style true (t.length + 1) [] t
  (done.reverse, stopped)

/-- What `echo` of the standard shell writes: its arguments with a space between them and a line
feed at the end, which `-n` takes away. -/
def echo (arguments : List Raw) : Raw :=
  let (quiet, rest) := match arguments with
    | ['-', 'n'] :: r => (true, r)
    | as => (false, as)
  let (t, stopped) := unescape standard (Text.join " " rest)
  if quiet || stopped then t else t ++ ['\n']

/-- The letters of options at the front of the arguments of the extended `echo`. -/
def echoOptions : List Raw → Raw × List Raw
  | ('-' :: c :: letters) :: r =>
    if (c :: letters).all fun l => l = 'n' || l = 'e' || l = 'E' then
      let (more, rest) := echoOptions r
      (c :: letters ++ more, rest)
    else ([], ('-' :: c :: letters) :: r)
  | as => ([], as)

/-- What the extended `echo` writes: escapes only with `-e`. -/
def extendedEcho (arguments : List Raw) : Raw :=
  let (letters, rest) := echoOptions arguments
  let t := Text.join " " rest
  let escapes := (letters.reverse.find? (· ≠ 'n')) = some 'e'
  let (t, stopped) := if escapes then unescape extended t else (t, false)
  if letters.contains 'n' || stopped then t else t ++ ['\n']

/-- A conversion. -/
structure Conversion where
  flags : Raw
  width : Nat
  precision : Option Nat

namespace Conversion

/-- Pads a text to the width. -/
def pad (v : Conversion) (t : Raw) : Raw :=
  if v.flags.contains '-' then Raw.padRight v.width t else Raw.padLeft ' ' v.width t

/-- Pads a number, with zeros behind its sign if these are asked for. -/
def padNumber (v : Conversion) (zeros : Bool) (sign digits : Raw) : Raw :=
  if zeros && v.flags.contains '0' && !v.flags.contains '-' then
    sign ++ Raw.padLeft '0' (v.width - sign.length) digits
  else v.pad (sign ++ digits)

/-- The sign of a number. -/
def sign (v : Conversion) (negative : Bool) : Raw :=
  if negative then ['-']
  else if v.flags.contains '+' then ['+']
  else if v.flags.contains ' ' then [' ']
  else []

/-- A text cut to the precision. -/
def cut (v : Conversion) (t : Raw) : Raw :=
  match v.precision with
  | some p => t.take p
  | none => t

end Conversion

/-- What is being printed. -/
structure Printing where
  /-- The characters written, last first. -/
  written : Raw := []
  complaints : List Raw := []
  status : Nat := 0
  arguments : List Raw
  stopped : Bool := false

namespace Printing

/-- Writes a text. -/
def write (p : Printing) (t : Raw) : Printing :=
  { p with written := t.reverse ++ p.written }

/-- Complains. -/
def complain (p : Printing) (message : Raw) (status : Nat) : Printing :=
  { p with complaints := p.complaints ++ [message], status := max status p.status }

/-- The next argument. -/
def next (p : Printing) : Option Raw × Printing :=
  (p.arguments.head?, { p with arguments := p.arguments.drop 1 })

end Printing

/-- The number an argument stands for, with the complaints it gives rise to. -/
def integer (style : Style) (signed : Bool) (p : Printing) : Int × Printing :=
  match p.next with
  | (none, p) => (0, p)
  | (some [], p) => (0, p)
  | (some ('\'' :: r), p) | (some ('"' :: r), p) => ((r.headD '\x00').toNat, p)
  | (some t, p) =>
    let body := t.dropWhile Raw.isSpace
    let (negative, digits) := match body with
      | '-' :: r => (true, r)
      | '+' :: r => (false, r)
      | r => (false, r)
    if !digits.head?.any Char.isDigit then (0, p.complain (t ++ ": " ++ style.noNumber) 1)
    else
      let (value, rest) := Term.numeral digits
      let p := if rest = [] then p else p.complain (t ++ ": " ++ style.leftOver) 1
      let bound : Nat := if signed then if negative then Term.greatest + 1 else Term.greatest
        else 18446744073709551615
      let p := if value ≤ bound then p
        else p.complain (t ++ ": " ++ style.tooGreat) style.tooGreatStatus
      let value := min value bound
      (if negative then -(value : Int) else value, p)

/-- The fraction an argument stands for and its sign, with the complaints it gives rise to. -/
def fraction (style : Style) (p : Printing) : Bool × Ratio × Printing :=
  match p.next with
  | (none, p) => (false, ⟨0, 1⟩, p)
  | (some [], p) => (false, ⟨0, 1⟩, p)
  | (some ('\'' :: r), p) | (some ('"' :: r), p) => (false, ⟨(r.headD '\x00').toNat, 1⟩, p)
  | (some t, p) =>
    let body := t.dropWhile Raw.isSpace
    let (negative, digits) := match body with
      | '-' :: r => (true, r)
      | '+' :: r => (false, r)
      | r => (false, r)
    match Ratio.read? digits with
    | none => (false, ⟨0, 1⟩, p.complain (t ++ ": " ++ style.noNumber) 1)
    | some (r, rest) =>
      (negative, r.toPrecision style.precision,
        if rest = [] then p else p.complain (t ++ ": " ++ style.leftOver) 1)

/-- Digits in a base, with the sign or mark and the zeros a conversion asks for. -/
def digitsFor (v : Conversion) (kind : Char) (n : Int) : Raw :=
  let signed := kind = 'd' || kind = 'i'
  let magnitude := if signed then n.natAbs else (n % 18446744073709551616).toNat
  let digits :=
    if kind = 'x' then Nat.toDigits 16 magnitude
    else if kind = 'X' then (Nat.toDigits 16 magnitude).map Char.toUpper
    else if kind = 'o' then Nat.toDigits 8 magnitude
    else Text.ofNat magnitude
  let digits := match v.precision with
    | some 0 => if magnitude = 0 then [] else digits
    | some p => Raw.padLeft '0' p digits
    | none => digits
  let mark := v.flags.contains '#'
  let digits := if mark && kind = 'o' && digits.head? ≠ some '0' then '0' :: digits else digits
  let front := if signed then v.sign (n < 0)
    else if mark && magnitude ≠ 0 && (kind = 'x' || kind = 'X') then ['0', kind]
    else []
  v.padNumber v.precision.isNone front digits

/-- A word of the extended shell that stands for a text. -/
def shellWord (t : Raw) : Raw :=
  if t = [] then "''"
  else if t.any fun c => c.toNat < 32 || c.toNat = 127 then
    "$'" ++ (t.flatMap fun c =>
      if c = '\n' then "\\n" else if c = '\t' then "\\t" else if c = '\x1b' then "\\E"
      else if c = '\'' || c = '\\' then ['\\', c]
      else if c.toNat < 32 || c.toNat = 127 then
        '\\' :: Raw.padLeft '0' 3 (Nat.toDigits 8 c.toNat)
      else [c]) ++ "'"
  else t.flatMap fun c =>
    if c.isAlphanum || ("_-./:=@%+,^" : Raw).contains c && c ≠ '^' && c ≠ ',' || 128 ≤ c.toNat then [c]
    else ['\\', c]

/-- Writes a conversion of the next argument, if there is one of this kind. -/
def convert (style : Style) (v : Conversion) (kind : Char) (p : Printing) : Option Printing :=
  if kind = 's' then
    let (t, p) := p.next
    some (p.write (v.pad (v.cut (t.getD []))))
  else if kind = 'b' then
    let (t, p) := p.next
    let (t, stopped) := unescape style (t.getD [])
    some { p.write (v.pad (v.cut t)) with stopped }
  else if kind = 'c' then
    let (t, p) := p.next
    some (p.write (v.pad ([(t.getD []).headD '\x00'])))
  else if kind = 'q' && style.hex then
    let (t, p) := p.next
    some (p.write (v.pad (shellWord (t.getD []))))
  else if ("diouxX" : Raw).contains kind then
    let (n, p) := integer style (kind = 'd' || kind = 'i') p
    some (p.write (digitsFor v kind n))
  else if ("eEfFgG" : Raw).contains kind then
    let (negative, r, p) := fraction style p
    let places := v.precision.getD 6
    let t := if kind = 'f' || kind = 'F' then Ratio.fixed places r
      else if kind = 'e' || kind = 'E' then Ratio.scientific places r
      else Ratio.general places r
    let t := if kind.isUpper then t.map Char.toUpper else t
    some (p.write (v.padNumber true (v.sign negative) t))
  else none

/-- The number at the front of a conversion, which may be an argument, and the text after it. -/
def readSize (style : Style) (t : Raw) (p : Printing) : Option Int × Raw × Printing :=
  match t with
  | '*' :: r =>
    let (n, p) := integer style true p
    (some n, r, p)
  | _ =>
    let digits := t.takeWhile Char.isDigit
    (if digits = [] then none else some (Raw.digits digits), t.drop digits.length, p)

/-- Writes a conversion after its percent sign, and gives the text after it. -/
def printConversion (style : Style) (t : Raw) (p : Printing) : Raw × Printing :=
  let isFlag (c : Char) : Bool := c = '-' || c = '+' || c = ' ' || c = '0' || c = '#'
  let flags := t.takeWhile isFlag
  let (width, r, p) := readSize style (t.drop flags.length) p
  let (precision, r, p) := match r with
    | '.' :: r =>
      let (n, r, p) := readSize style r p
      (if n.any (· < 0) then none else some (n.getD 0).toNat, r, p)
    | r => (none, r, p)
  let r := if style.hex then r.dropWhile fun c => c = 'l' || c = 'h' || c = 'j' || c = 'z' else r
  let width := width.getD 0
  let flags := if width < 0 then '-' :: flags else flags
  match r with
  | [] => ([], { p.complain "missing format character" style.unknownStatus with stopped := true })
  | kind :: rest =>
    match convert style ⟨flags, width.natAbs, precision⟩ kind p with
    | some p => (rest, p)
    | none =>
      let shown := t.take (t.length - rest.length)
      let message : Raw := "%" ++ shown ++ ": invalid directive"
      ([], { p.complain message style.unknownStatus with stopped := true })

/-- Uses a format once. The number bounds its characters. -/
def printOnce (style : Style) : Nat → Raw → Printing → Printing
  | 0, _, p => p
  | _ + 1, [], p => p
  | n + 1, c :: r, p =>
    if p.stopped then p
    else if c = '%' then
      if r.head? = some '%' then printOnce style n (r.drop 1) (p.write ['%'])
      else
        let (rest, p) := printConversion style r p
        printOnce style n rest p
    else
      let run := c :: r.takeWhile (· ≠ '%')
      let (done, stopped) := unescapeFrom style false (run.length + 1) [] run
      let p := { p with written := done ++ p.written, stopped }
      printOnce style n (r.dropWhile (· ≠ '%')) p

/-- Uses a format as long as it takes arguments and some are left. -/
def printAll (style : Style) (format : Raw) : Nat → Printing → Printing
  | 0, p => p
  | n + 1, p =>
    let q := printOnce style (format.length + 1) format p
    if q.stopped || q.arguments = [] || q.arguments.length = p.arguments.length then q
    else printAll style format n q

/-- Prints a format with arguments. -/
def print (style : Style) (format : Raw) (arguments : List Raw) : Printing :=
  printAll style format (arguments.length + 1) { arguments }

end Printf

end Shell

end Haybuild
