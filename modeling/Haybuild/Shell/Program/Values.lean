import Haybuild.Shell.Printf
import Haybuild.Shell.Program.Files
import Haybuild.Shell.Regex

/-!
# Programs on values

These programs compute with the values they are given as arguments, or tell something about the
system. They read no files.
-/

namespace Haybuild

namespace Shell

namespace Program

open Shell.Task

/-! ## Parts of paths -/

/-- Writes the last components of paths, without a suffix. -/
def basename : Program := fun arguments => do
  let a ← Arguments.read
    { flags := "az", valued := "s", firstOnly := true
      names := [("multiple", 'a'), ("suffix", 's'), ("zero", 'z')] } arguments
  let ending : Raw := if a.has 'z' then ['\x00'] else ['\n']
  let bare (suffix path : Raw) : Raw :=
    let name := lastComponent path
    if name = suffix then name else (Text.stripSuffix? suffix name).getD name
  match a.operands with
  | [] => misuse "missing operand" 1
  | path :: rest =>
    if a.has 'a' || a.has 's' then
      say (a.operands.flatMap fun p => bare ((a.value? 's').getD []) p ++ ending)
    else
      match rest with
      | _ :: extra :: _ => misuse ("extra operand " ++ quote extra) 1
      | _ => say (bare (rest.headD []) path ++ ending)

/-- A path without its last component. -/
def parentOf (path : Raw) : Raw :=
  let t := trimSlashes path
  let head := t.take (t.length - (lastComponent t).length)
  if t = "/" then t
  else if head = [] then ['.']
  else trimSlashes head

/-- Writes paths without their last components. -/
def dirname : Program := fun arguments => do
  let a ← Arguments.read { flags := "z" } arguments
  let ending : Raw := if a.has 'z' then ['\x00'] else ['\n']
  forOperands a.operands fun path => say (parentOf path ++ ending)

/-! ## Sequences -/

/-- A numeral as an integer of units of ten to the power of minus its places. -/
def readDecimal (t : Raw) : Option (Int × Nat) :=
  let (negative, body) := match t with
    | '-' :: r => (true, r)
    | '+' :: r => (false, r)
    | r => (false, r)
  let (whole, part) := Text.partition '.' body
  if (whole ++ part).isEmpty || !(whole ++ part).all Char.isDigit then none
  else
    let n : Int := Raw.digits (whole ++ part)
    some (if negative then -n else n, part.length)

/-- An integer of such units as a numeral. -/
def writeDecimal (places width : Nat) (n : Int) : Raw :=
  let digits := Raw.padLeft '0' (places + 1) (Text.ofNat n.natAbs)
  let whole := digits.take (digits.length - places)
  let body := if places = 0 then whole else whole ++ '.' :: digits.drop (digits.length - places)
  if n < 0 then '-' :: Raw.padLeft '0' (width - 1) body else Raw.padLeft '0' width body

/-- The integers from one to another by steps. -/
def progression (start step last : Int) : List Int :=
  if step = 0 then []
  else
    let count := (last - start).fdiv step + 1
    (List.range count.toNat).map fun (i : Nat) => start + step * (i : Int)

/-- Writes the numbers from one to another. -/
def seq : Program := fun arguments => do
  let escape (t : Raw) : Raw := match t with
    | '-' :: c :: _ => if c.isDigit || c = '.' then 'n' :: t else t
    | _ => t
  let a ← Arguments.read
    { flags := "w", valued := "sf", firstOnly := true
      names := [("separator", 's'), ("equal-width", 'w'), ("format", 'f')] }
    (arguments.map escape)
  let operands := a.operands.map fun t => (Text.stripPrefix? "n-" t).elim t ('-' :: ·)
  match operands.find? fun t => (readDecimal t).isNone with
  | some bad => misuse ("invalid floating point argument: " ++ quote bad) 1
  | none =>
    let (first, step, last) ← match operands.filterMap readDecimal with
      | [last] => pure ((1, 0), (1, 0), last)
      | [first, last] => pure (first, (1, 0), last)
      | [first, step, last] => pure (first, step, last)
      | [] => misuse "missing operand" 1
      | _ => misuse ("extra operand " ++ quote (operands.getD 3 [])) 1
    if step.1 = 0 then misuse ("invalid Zero increment value: " ++ quote (operands.getD 1 [])) 1
    let scale := max (max first.2 step.2) last.2
    let scaled (v : Int × Nat) : Int := v.1 * Nat.pow 10 (scale - v.2)
    let places := max first.2 step.2
    let values := (progression (scaled first) (scaled step) (scaled last)).map fun v =>
      v.tdiv (Nat.pow 10 (scale - places) : Nat)
    let width := if a.has 'w' then
        max (writeDecimal places 0 (values.headD 0)).length
          (writeDecimal places 0 (values.getLastD 0)).length
      else 0
    let shown := values.map fun v =>
      match a.value? 'f' with
      | some format => (Printf.print Printf.system format [writeDecimal places 0 v]).written.reverse
      | none => writeDecimal places width v
    unless shown.isEmpty do
      say (Text.join ((a.value? 's').getD ['\n']) shown ++ ['\n'])

/-! ## Terms -/

/-- What is wrong with a term. -/
inductive TermError where
  | malformed
  | notInteger
  | zeroDivision

/-- The integer that a text is. -/
def integer? (t : Raw) : Option Int :=
  match t with
  | '-' :: r => (Raw.nat? r).map fun n => -(n : Int)
  | r => (Raw.nat? r).map fun n => (n : Int)

/-- A value is neither empty nor zero. -/
def isTrue (t : Raw) : Bool :=
  t ≠ [] && integer? t ≠ some 0

/-- What an operator of two integers gives. -/
def calculate (operator : Raw) (a b : Raw) : Except TermError Raw :=
  match integer? a, integer? b with
  | some x, some y =>
    if (operator = "/" || operator = "%") && y = 0 then .error .zeroDivision
    else .ok <| Text.ofInt <|
      if operator = "+" then x + y
      else if operator = "-" then x - y
      else if operator = "*" then x * y
      else if operator = "/" then x.tdiv y
      else x.tmod y
  | _, _ => .error .notInteger

/-- What a comparison gives: integers by value, and other texts by their characters. -/
def compareValues (operator : Raw) (a b : Raw) : Raw :=
  let (less, equal) : Bool × Bool := match integer? a, integer? b with
    | some x, some y => (x < y, x = y)
    | _, _ => (a < b, a = b)
  let holds := if operator = "<" then less
    else if operator = "<=" then less || equal
    else if operator = "=" || operator = "==" then equal
    else if operator = "!=" then !equal
    else if operator = ">=" then !less
    else !less && !equal
  if holds then "1" else "0"

/-- What a regular expression matches at the front of a text: its first group, or the number of
characters. -/
def matchFront (t pattern : Raw) : Except TermError Raw :=
  match Regex.parse? false pattern with
  | none => .error .malformed
  | some r =>
    let found := r.matchAt? false t ⟨0, none, t, []⟩
    let grouped := (List.range pattern.length).any fun i =>
      (Text.stripPrefix? "\\(" (pattern.drop i)).isSome
    .ok <| match found with
      | some m => if grouped then (m.text? t 1).getD [] else Text.ofNat (m.stop - m.start)
      | none => if grouped then [] else "0"

/-- The operators of two values, from those that bind least. -/
def termLevels : List (List Raw) :=
  [["|"], ["&"], ["<", "<=", "=", "==", "!=", ">=", ">"], ["+", "-"], ["*", "/", "%"], [":"]]

/-- What an operator of two values gives. -/
def combine (operator a b : Raw) : Except TermError Raw :=
  if operator = "|" then
    .ok (if isTrue a then a else if isTrue b then b else "0")
  else if operator = "&" then .ok (if isTrue a && isTrue b then a else "0")
  else if operator = ":" then matchFront a b
  else if ["+", "-", "*", "/", "%"].contains (String.ofList operator) then calculate operator a b
  else .ok (compareValues operator a b)

mutual

/-- The value of a term of the operators of some levels, and the words after it. -/
def readTerm : Nat → List (List Raw) → List Raw → Except TermError (Raw × List Raw)
  | 0, _, _ => .error .malformed
  | n + 1, [], words => readOperand n words
  | n + 1, level :: inner, words => do
    let (a, rest) ← readTerm n inner words
    readRest n level inner a rest

/-- Goes on after a value on the left of an operator. -/
def readRest : Nat → List Raw → List (List Raw) → Raw → List Raw →
    Except TermError (Raw × List Raw)
  | 0, _, _, _, _ => .error .malformed
  | n + 1, level, inner, a, words =>
    match words with
    | o :: rest =>
      if level.contains o then do
        let (b, rest) ← readTerm n inner rest
        readRest n level inner (← combine o a b) rest
      else .ok (a, words)
    | [] => .ok (a, [])

/-- The value of an operand, and the words after it. -/
def readOperand : Nat → List Raw → Except TermError (Raw × List Raw)
  | 0, _ => .error .malformed
  | n + 1, words =>
    let one (rest : List Raw) : Except TermError (Raw × List Raw) := readOperand n rest
    match words with
    | [] => .error .malformed
    | w :: rest =>
      if w = "(" then do
        let (v, after) ← readTerm n termLevels rest
        match after with
        | [')'] :: after => .ok (v, after)
        | _ => .error .malformed
      else if w = "+" && !rest.isEmpty then .ok (rest.headD [], rest.drop 1)
      else if w = "length" && !rest.isEmpty then do
        let (v, after) ← one rest
        .ok (Text.ofNat v.length, after)
      else if w = "match" && !rest.isEmpty then do
        let (t, after) ← one rest
        let (p, after) ← one after
        .ok (← matchFront t p, after)
      else if w = "index" && !rest.isEmpty then do
        let (t, after) ← one rest
        let (cs, after) ← one after
        let i := (t.findIdx? fun c => cs.contains c).elim 0 (· + 1)
        .ok (Text.ofNat i, after)
      else if w = "substr" && !rest.isEmpty then do
        let (t, after) ← one rest
        let (start, after) ← one after
        let (size, after) ← one after
        match integer? start, integer? size with
        | some i, some k =>
          .ok (if i ≤ 0 || k ≤ 0 then [] else (t.drop (i.toNat - 1)).take k.toNat, after)
        | _, _ => .ok ([], after)
      else if w = ")" then .error .malformed
      else .ok (w, rest)

end

/-- Writes the value of a term. -/
def expr : Program := fun arguments => do
  let words := if arguments.head? = some "--" then arguments.drop 1 else arguments
  if words.isEmpty then misuse "missing operand" 2
  match readTerm (20 * words.length + 20) termLevels words with
  | .ok (v, []) =>
    say (v ++ "\n")
    fault (if isTrue v then 0 else 1)
  | .ok (_, extra :: _) => fail ("syntax error: unexpected argument " ++ quote extra) 2
  | .error .malformed => fail "syntax error" 2
  | .error .notInteger => fail "non-integer argument" 2
  | .error .zeroDivision => fail "division by zero" 2

/-! ## The system -/

/-- Writes a text and ends well. -/
def tells (t : Raw) : Program := fun _ => say (t ++ "\n")

/-- Ends with a status. -/
def ends_ (status : Nat) : Program := fun _ => fault status

/-- The time that a text stands for, in microseconds. -/
def duration? (t : Raw) : Option Nat :=
  let factor := match t.getLast? with
    | some 'm' => 60
    | some 'h' => 3600
    | some 'd' => 86400
    | _ => 1
  let hasUnit := t.getLast?.any fun c => c = 's' || c = 'm' || c = 'h' || c = 'd'
  if t = "infinity" then some 1000000000000
  else
    match readDecimal (if hasUnit then t.dropLast else t) with
    | some (n, places) =>
      if n < 0 then none else some (n.toNat * 1000000 * factor / Nat.pow 10 places)
    | none => none

/-- Writes the working directory. -/
def pwd : Program := fun _ => do
  say (Raw.ofText ('/' :: Text.join "/" (← get).directory) ++ "\n")

/-- Writes values of the environment. -/
def printenv : Program := fun arguments => do
  let environment := (← get).environment
  if arguments.isEmpty then
    say (environment.flatMap fun e => e.1 ++ "=" ++ e.2 ++ "\n")
  else
    for name in arguments do
      match environment.lookup name with
      | some value => say (value ++ "\n")
      | none => fault 1

/-- Writes the same line without end. -/
def yes : Program := fun arguments => do
  let line := Text.join " " (if arguments.isEmpty then [['y']] else arguments) ++ ['\n']
  match (← get).target with
  | some (.sink _ (some room) _) =>
    say ((List.replicate (room / line.length + 1) line).flatten)
  | _ => fault 1

/-- Writes what is known of the system. -/
def uname : Program := fun arguments => do
  let a ← Arguments.read { flags := "snrvmpioa" } arguments
  let parts : List (Char × Raw) :=
    [('s', "Linux"), ('n', "localhost"), ('m', "x86_64"), ('o', "GNU/Linux")]
  let chosen := parts.filter fun p => a.has p.1 || a.has 'a' || a.options.isEmpty && p.1 = 's'
  say (Text.join " " (chosen.map Prod.snd) ++ "\n")

/-- Writes who runs the program. -/
def id_ : Program := fun arguments => do
  let a ← Arguments.read { flags := "ugnGr" } arguments
  if a.options.isEmpty then say "uid=0(root) gid=0(root) groups=0(root)\n"
  else say (if a.has 'n' then "root\n" else "0\n")

/-- Writes a date. The clock stands still. -/
def date : Program := fun arguments => do
  let a ← Arguments.read
    { flags := "uRI", valued := "dr", names := [("date", 'd'), ("utc", 'u')] } arguments
  let parts : List (Char × Raw) :=
    [('Y', "1970"), ('m', "01"), ('d', "01"), ('H', "00"), ('M', "00"), ('S', "00"), ('s', "0"),
      ('y', "70"), ('j', "001"), ('F', "1970-01-01"), ('T', "00:00:00"), ('N', "000000000"),
      ('n', "\n"), ('t', "\t"), ('%', "%"), ('Z', "UTC"), ('z', "+0000"), ('a', "Thu"), ('b', "Jan")]
  let rec fill : Raw → Raw
    | '%' :: c :: r => ((parts.lookup c).getD ['%', c]) ++ fill r
    | c :: r => c :: fill r
    | [] => []
  match a.operands.head? with
  | some ('+' :: format) => say (fill format ++ "\n")
  | _ => say "Thu Jan  1 00:00:00 UTC 1970\n"

end Program

end Shell

end Haybuild
