import Haybuild.Shell.Program.Lines

/-!
# Bytes in other forms

These programs write the bytes of files as numbers or as letters that can be sent everywhere, or
compare two files line by line.
-/

namespace Haybuild

namespace Shell

namespace Program

open Shell.Task

/-! ## Dumps -/

/-- How bytes are shown: by so many together, in columns of a width. -/
structure DumpForm where
  size : Nat
  width : Nat
  show_ : Nat → Raw

/-- A byte as a character or an escape. -/
def byteText (n : Nat) : Raw :=
  let named : List (Nat × Raw) :=
    [(0, "\\0"), (7, "\\a"), (8, "\\b"), (9, "\\t"), (10, "\\n"), (11, "\\v"), (12, "\\f"),
      (13, "\\r")]
  match named.lookup n with
  | some t => t
  | none => if 32 ≤ n && n < 127 then [Char.ofNat n] else Raw.padLeft '0' 3 (Nat.toDigits 8 n)

/-- The form for numbers of so many bytes in a base. -/
def numberForm (base size : Nat) : DumpForm :=
  let digits := (Nat.toDigits base (Nat.pow 256 size - 1)).length
  ⟨size, digits + 1, fun n => Raw.padLeft '0' digits (Nat.toDigits base n)⟩

/-- The form for decimal numbers of so many bytes. -/
def decimalForm (signed : Bool) (size : Nat) : DumpForm :=
  let digits := (Nat.toDigits 10 (Nat.pow 256 size - 1)).length + if signed then 1 else 0
  let digits := if signed && size = 2 then 6 else digits
  let value (n : Nat) : Int :=
    if signed && Nat.pow 256 size / 2 ≤ n then n - (Nat.pow 256 size : Nat) else n
  ⟨size, digits + 1, fun n => Text.ofInt (value n)⟩

/-- The form that a type such as `x1` names. -/
def dumpForm? (t : Raw) : Option DumpForm :=
  match t with
  | 'c' :: _ => some ⟨1, 4, byteText⟩
  | k :: r =>
    let size := if r = [] then (if k = 'x' || k = 'o' || k = 'd' || k = 'u' then 4 else 1)
      else (Raw.nat? (r.takeWhile Char.isDigit)).getD 1
    if k = 'x' then some (numberForm 16 size)
    else if k = 'o' then some (numberForm 8 size)
    else if k = 'd' then some (decimalForm true size)
    else if k = 'u' then some (decimalForm false size)
    else none
  | [] => none

/-- Rows of sixteen bytes with the offsets before them. -/
def dumpRows (form : DumpForm) (address : Nat → Raw) : Nat → Nat → Raw → List Raw
  | 0, _, _ => []
  | _ + 1, offset, [] => [address offset]
  | n + 1, offset, t =>
    let row := t.take 16
    let cells := pieces form.size row.length row
    let number (cell : Raw) : Nat := cell.foldr (fun c v => 256 * v + c.toNat) 0
    let shown := cells.flatMap fun cell =>
      if cell.isEmpty then [] else Raw.padLeft ' ' form.width (form.show_ (number cell))
    (address offset ++ shown) :: dumpRows form address n (offset + row.length) (t.drop 16)

/-- Writes the bytes of files as numbers. -/
def od : Program := fun arguments => do
  let a ← Arguments.read
    { flags := "cbxdov", valued := "AtNjw"
      names := [("address-radix", 'A'), ("format", 't'), ("read-bytes", 'N'),
        ("skip-bytes", 'j')] } arguments
  let number (c : Char) : Option Nat := (a.value? c).bind Raw.nat?
  let t ← readAll a.operands
  let start := (number 'j').getD 0
  let t := t.drop start
  let t := match number 'N' with
    | some n => t.take n
    | none => t
  let form := match a.value? 't' with
    | some kind => (dumpForm? kind).getD (numberForm 8 2)
    | none =>
      if a.has 'c' then ⟨1, 4, byteText⟩
      else if a.has 'b' then numberForm 8 1
      else if a.has 'x' then numberForm 16 2
      else if a.has 'd' then decimalForm false 2
      else numberForm 8 2
  let address (n : Nat) : Raw := match (a.value? 'A').getD "o" with
    | ['n'] => []
    | ['d'] => Raw.padLeft '0' 7 (Text.ofNat n)
    | ['x'] => Raw.padLeft '0' 6 (Nat.toDigits 16 n)
    | _ => Raw.padLeft '0' 7 (Nat.toDigits 8 n)
  let rows := dumpRows form address (t.length + 2) start t
  say (Raw.unlines (if a.value? 'A' = some ['n'] then rows.filter (· ≠ []) else rows))

/-! ## Letters for bytes -/

/-- The letters that stand for numbers of six bits. -/
def sixBitLetters : Raw :=
  "ABCDEFGHIJKLMNOPQRSTUVWXYZabcdefghijklmnopqrstuvwxyz0123456789+/"

/-- The letters for bytes, four for three. -/
def toLetters : Raw → Raw
  | a :: b :: c :: r =>
    let n := 65536 * a.toNat + 256 * b.toNat + c.toNat
    letter (n / 262144) :: letter (n / 4096 % 64) :: letter (n / 64 % 64) :: letter (n % 64) ::
      toLetters r
  | [a, b] =>
    let n := 1024 * a.toNat + 4 * b.toNat
    [letter (n / 4096), letter (n / 64 % 64), letter (n % 64), '=']
  | [a] =>
    let n := 16 * a.toNat
    [letter (n / 64), letter (n % 64), '=', '=']
  | [] => []
where
  /-- The letter of a number. -/
  letter (n : Nat) : Char := sixBitLetters.getD n 'A'

/-- The bytes for letters, unless some other character is among them. -/
def ofLetters : Raw → Option Raw
  | a :: b :: c :: d :: r =>
    match value a, value b with
    | some x, some y =>
      let first := Char.ofNat (4 * x + y / 16)
      if c = '=' then if d = '=' then some [first] else none
      else
        match value c with
        | none => none
        | some z =>
          let second := Char.ofNat (y % 16 * 16 + z / 4)
          if d = '=' then some [first, second]
          else
            match value d with
            | none => none
            | some w =>
              (ofLetters r).map fun rest => first :: second :: Char.ofNat (z % 4 * 64 + w) :: rest
    | _, _ => none
  | [] => some []
  | _ => none
where
  /-- The number of a letter. -/
  value (c : Char) : Option Nat := sixBitLetters.idxOf? c

/-- Writes bytes as letters, or back. -/
def base64 : Program := fun arguments => do
  let a ← Arguments.read
    { flags := "di", valued := "w", names := [("decode", 'd'), ("wrap", 'w')] } arguments
  let t ← readAll a.operands
  if a.has 'd' then
    match ofLetters (t.filter fun c => !Raw.isSpace c) with
    | some bytes => say bytes
    | none => fail "invalid input" 1
  else
    let letters := toLetters t
    let width := ((a.value? 'w').bind Raw.nat?).getD 76
    if width = 0 then say letters
    else unless letters.isEmpty do
      say (Raw.unlines (pieces width letters.length letters))

/-! ## Differences -/

/-- The lengths of the longest rows of lines that two files have in common, from each place in the
second on. -/
def commonRow (line : Raw) : List Raw → List Nat → List Nat
  | b :: bs, below :: rest =>
    let row := commonRow line bs rest
    let value := if line = b then rest.headD 0 + 1 else max below (row.headD 0)
    value :: row
  | _, _ => [0]

/-- For each place in the first file the row of such lengths. -/
def commonTable (bs : List Raw) : List Raw → List (List Nat)
  | [] => [List.replicate (bs.length + 1) 0]
  | a :: as =>
    let table := commonTable bs as
    commonRow a bs (table.headD []) :: table

/-- The changes that lead from one file to another: the lines taken away and put in, with the number
of lines of both files before them. -/
def changes : Nat → Nat → Nat → List (List Nat) → List Raw → List Raw →
    List (Nat × Nat × List Raw × List Raw)
  | 0, _, _, _, _, _ => []
  | _ + 1, _, _, _, [], [] => []
  | n + 1, i, j, table, as, bs =>
    let skip (out : List Raw × List Raw) (i' j' : Nat) (table : List (List Nat))
        (as bs : List Raw) : List (Nat × Nat × List Raw × List Raw) :=
      match changes n i' j' table as bs with
      | (x, y, gone, new) :: rest =>
        if x = i' && y = j' then (i, j, out.1 ++ gone, out.2 ++ new) :: rest
        else (i, j, out.1, out.2) :: (x, y, gone, new) :: rest
      | [] => [(i, j, out.1, out.2)]
    match as, bs with
    | a :: as', b :: bs' =>
      if a = b then
        changes n (i + 1) (j + 1) ((table.drop 1).map (List.drop 1)) as' bs'
      else
        let down := ((table.drop 1).headD []).headD 0
        let right := (table.headD []).getD 1 0
        if right ≤ down then skip ([a], []) (i + 1) j (table.drop 1) as' bs
        else skip ([], [b]) i (j + 1) (table.map (List.drop 1)) as bs'
    | a :: as', [] => skip ([a], []) (i + 1) j (table.drop 1) as' []
    | [], b :: bs' => skip ([], [b]) i (j + 1) (table.map (List.drop 1)) [] bs'
    | [], [] => []

/-- A range of lines after so many others. -/
def lineRange (before count : Nat) : Raw :=
  if count = 0 then Text.ofNat before
  else if count = 1 then Text.ofNat (before + 1)
  else Text.ofNat (before + 1) ++ "," ++ Text.ofNat (before + count)

/-- A change as it is shown. -/
def showChange (c : Nat × Nat × List Raw × List Raw) : Raw :=
  let (i, j, gone, new) := c
  let kind := if gone.isEmpty then 'a' else if new.isEmpty then 'd' else 'c'
  lineRange i gone.length ++ [kind] ++ lineRange j new.length ++ ['\n'] ++
    Raw.unlines (gone.map ("< ".toList ++ ·)) ++
    (if kind = 'c' then "---\n".toList else []) ++
    Raw.unlines (new.map ("> ".toList ++ ·))

/-- Compares two files line by line. -/
def diff : Program := fun arguments => do
  let a ← Arguments.read
    { flags := "qsiwbBruNac", valued := "U", status := 2
      names := [("brief", 'q'), ("report-identical-files", 's'), ("ignore-case", 'i'),
        ("unified", 'u')] } arguments
  match a.operands with
  | [left, right] =>
    let inside (path other : Raw) : Task Raw := do
      if (← isDirectory path) && !(← isDirectory other) then
        let name := (other.reverse.takeWhile (· ≠ '/')).reverse
        return path ++ '/' :: name
      else return path
    let left' ← inside left right
    let right' ← inside right left
    match ← readPath left', ← readPath right' with
    | .ok x, .ok y =>
      let fold (t : Raw) : Raw :=
        let t := if a.has 'i' then t.map Char.toLower else t
        if a.has 'w' then t.filter fun c => c = '\n' || !Raw.isSpace c else t
      if fold x = fold y then
        if a.has 's' then
          say ("Files " ++ left' ++ " and " ++ right' ++ " are identical\n")
      else
        fault 1
        if a.has 'q' then say ("Files " ++ left' ++ " and " ++ right' ++ " differ\n")
        else
          let as := Raw.lines x
          let bs := Raw.lines y
          let table := commonTable bs as
          say ((changes (as.length + bs.length + 1) 0 0 table as bs).flatMap showChange)
    | .error cause, _ => complain (left' ++ ": " ++ cause.words) 2
    | _, .error cause => complain (right' ++ ": " ++ cause.words) 2
  | [] => misuse "missing operand after 'diff'" 2
  | [one] => misuse ("missing operand after " ++ quote one) 2
  | _ => misuse ("extra operand " ++ quote (a.operands.getD 2 [])) 2

end Program

end Shell

end Haybuild
