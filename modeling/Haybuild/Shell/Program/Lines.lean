import Haybuild.Shell.Program.Basic

/-!
# Programs on lines

These programs read files or the input line by line: they write some of the lines, count them, put
them in order, cut columns out of them or replace characters.
-/

namespace Haybuild

namespace Shell

namespace Program

open Shell.Task

/-- The lines of a text, each with its line feed if it has one. -/
def wholeLines (t : Raw) : List Raw :=
  let parts := Text.cut '\n' t
  let full := parts.dropLast.map (· ++ ['\n'])
  match parts.getLast? with
  | some [] | none => full
  | some last => full ++ [last]

/-- A line without its line feed. -/
def chomp (line : Raw) : Raw :=
  if line.getLast? = some '\n' then line.dropLast else line

/-! ## Concatenation -/

/-- A character as `cat -v` shows it. -/
def visible (c : Char) : Raw :=
  let n := c.toNat
  let low (n : Nat) : Raw :=
    if n < 32 then ['^', Char.ofNat (n + 64)] else if n = 127 then "^?" else [Char.ofNat n]
  if c = '\n' || c = '\t' then [c]
  else if n < 128 then low n
  else 'M' :: '-' :: low (n - 128)

/-- How `cat` shows lines. -/
structure Shown where
  numbered : Bool
  fullOnly : Bool
  squeezed : Bool
  ends : Bool
  tabs : Bool
  controls : Bool

/-- The lines as `cat` shows them, from a number on. `empty` tells that the line before had nothing
in it, and `open_` that it has no line feed yet. -/
def showLines (k : Shown) : Nat → Bool → List Raw → List Raw
  | _, _, [] => []
  | n, empty, line :: rest =>
    let body := chomp line
    if k.squeezed && empty && line = ['\n'] then showLines k n true rest
    else
      let counted := k.numbered || k.fullOnly && line ≠ ['\n']
      let body := if k.controls then body.flatMap visible else body
      let body := if k.tabs then body.flatMap fun c => if c = '\t' then "^I" else [c] else body
      let number := if counted then Raw.padLeft ' ' 6 (Text.ofNat n) ++ ['\t'] else []
      let end_ : Raw :=
        if line.getLast? = some '\n' then if k.ends then "$\n" else ['\n'] else []
      (number ++ body ++ end_) :: showLines k (if counted then n + 1 else n) (line = ['\n']) rest

/-- Writes files one after the other. -/
def cat : Program := fun arguments => do
  let a ← Arguments.read
    { flags := "AbeEnstTuv"
      names := [("show-all", 'A'), ("number-nonblank", 'b'), ("show-ends", 'E'), ("number", 'n'),
        ("squeeze-blank", 's'), ("show-tabs", 'T'), ("show-nonprinting", 'v')] } arguments
  let k : Shown :=
    { numbered := a.has 'n' && !a.has 'b', fullOnly := a.has 'b', squeezed := a.has 's'
      ends := a.has 'e' || a.has 'E' || a.has 'A', tabs := a.has 't' || a.has 'T' || a.has 'A'
      controls := a.has 'v' || a.has 'e' || a.has 't' || a.has 'A' }
  if k.numbered || k.fullOnly || k.squeezed || k.ends || k.tabs || k.controls then
    let t ← readAll a.operands
    say (showLines k 1 false (wholeLines t)).flatten
  else
    for path in if a.operands.isEmpty then ["-".toList] else a.operands do
      let place := (← locate path).toOption
      let onto := match (← get).target with
        | some (.file file offset _ _) => some file = place && path ≠ "-" && 0 < offset
        | _ => false
      if onto then complain (path ++ ": input file is output file") 1
      else
        match ← readPath path with
        | .ok t => say t
        | .error cause => complain (path ++ ": " ++ cause.words) 1

/-- Writes the lines of files from the last to the first. -/
def tac : Program := fun arguments => do
  let a ← Arguments.read { flags := "" } arguments
  forEachContent a.operands fun _ t => say (wholeLines t).reverse.flatten

/-- Writes the characters of each line from the last to the first. -/
def rev : Program := fun arguments => do
  let a ← Arguments.read { flags := "" } arguments
  forEachContent a.operands fun _ t => say <|
    (wholeLines t).flatMap fun line =>
      Raw.ofText (Raw.toText (chomp line)).reverse ++ line.drop (chomp line).length

/-- Writes the input to the output and to files. -/
def tee : Program := fun arguments => do
  let a ← Arguments.read { flags := "ai", names := [("append", 'a')] } arguments
  let t := (← readInput).toOption.getD []
  say t
  for path in a.operands do
    match ← writePath path t (a.has 'a') with
    | .ok _ => pure ()
    | .error cause => complain (path ++ ": " ++ cause.words) 1

/-! ## Ends of files -/

/-- How much of a file is asked for. -/
structure Extent where
  count : Nat
  /-- Bytes and not lines are counted. -/
  bytes : Bool
  /-- A sign before the number: `-` leaves out the other end, and `+` starts at that place. -/
  sign : Option Char

/-- The number of an extent, with a sign and perhaps a letter for a multiple. -/
def readExtent (what : Raw) (bytes : Bool) (t : Raw) : Task Extent := do
  let (sign, digits) := match t with
    | '-' :: r => (some '-', r)
    | '+' :: r => (some '+', r)
    | r => (none, r)
  let number := digits.takeWhile Char.isDigit
  let factor : Option Nat := match digits.drop number.length with
    | [] => some 1
    | ['b'] => some 512
    | ['k'] | ['K'] => some 1024
    | ['k', 'B'] => some 1000
    | ['M'] => some 1048576
    | _ => none
  match number, factor with
  | _ :: _, some f => return ⟨Raw.digits number * f, bytes, sign⟩
  | _, _ => fail ("invalid number of " ++ what ++ ": " ++ quote t) 1

/-- The old form of a count, `-5`, as an option. -/
def modernCount (arguments : List Raw) : List Raw :=
  match arguments with
  | ('-' :: c :: cs) :: rest =>
    if c.isDigit then
      let digits := (c :: cs).takeWhile Char.isDigit
      let letters := (c :: cs).drop digits.length
      let unit : Raw := if letters.contains 'c' then "-c" else "-n"
      unit :: digits :: ((letters.filter fun l => l = 'q' || l = 'v').map fun l => ['-', l]) ++ rest
    else arguments
  | _ => arguments

/-- The number of bytes that are read from a pipe at once. -/
def blockSize : Nat := 8192

/-- Writes an end of each file. A name stands before each of several. -/
def ends (pick : Extent → Raw → Raw) (leaves : Extent → Raw → Option Raw) : Program :=
  fun arguments => do
  let a ← Arguments.read
    { flags := "qvfzF", valued := "nc"
      names := [("lines", 'n'), ("bytes", 'c'), ("quiet", 'q'), ("silent", 'q'), ("verbose", 'v')] }
    (modernCount arguments)
  let extent ← match a.options.reverse.find? fun o => o.1 = 'n' || o.1 = 'c' with
    | some (c, t) => readExtent (if c = 'c' then "bytes" else "lines") (c = 'c') t
    | none => pure ⟨10, false, none⟩
  let titled := (1 < a.operands.length || a.has 'v') && !a.has 'q'
  let mut first := true
  for path in if a.operands.isEmpty then ["-".toList] else a.operands do
    let content ← if path = "-" then peekInput else readPath path
    match content with
    | .error .isDirectory => complain ("error reading " ++ quote path ++ ": Is a directory") 1
    | .error cause =>
      complain ("cannot open " ++ quote path ++ " for reading: " ++ cause.words) 1
    | .ok t =>
      if titled then
        let shown : Raw := if path = "-" then "standard input" else path
        say ((if first then [] else ['\n']) ++ "==> " ++ shown ++ " <==\n")
        first := false
      say (pick extent t)
      if path = "-" then
        let seekable := match (← get).channel with
          | some (.file ..) => true
          | _ => false
        let rest := (leaves extent t).getD []
        let taken := t.length - rest.length
        let rest := if seekable || extent.bytes then rest
          else t.drop ((taken + blockSize - 1) / blockSize * blockSize)
        modify fun p => { p with unread := some rest }

/-- Writes the front of each file. -/
def head : Program :=
  let pick (e : Extent) (t : Raw) : Raw :=
    let cut {α : Type} (xs : List α) : List α :=
      if e.sign = some '-' then xs.take (xs.length - e.count) else xs.take e.count
    if e.bytes then cut t else (cut (wholeLines t)).flatten
  ends pick fun e t => some (t.drop (pick e t).length)

/-- Writes the end of each file. -/
def tail : Program :=
  let pick (e : Extent) (t : Raw) : Raw :=
    let cut {α : Type} (xs : List α) : List α :=
      if e.sign = some '+' then xs.drop (e.count - 1) else xs.drop (xs.length - e.count)
    if e.bytes then cut t else (cut (wholeLines t)).flatten
  ends pick fun _ _ => none

/-! ## Counting -/

/-- The counts of a text: lines, words, characters, bytes and the longest line. -/
def countsOf (t : Raw) : List (Char × Nat) :=
  [('l', t.count '\n'), ('w', (Raw.words t).length), ('m', (Raw.toText t).length),
    ('c', t.length), ('L', ((Raw.lines t).map fun l => (Raw.toText l).length).foldl max 0)]

/-- Counts lines, words and bytes. -/
def wc : Program := fun arguments => do
  let a ← Arguments.read
    { flags := "lwcmL", names := [("lines", 'l'), ("words", 'w'), ("bytes", 'c'), ("chars", 'm'),
        ("max-line-length", 'L')] } arguments
  let chosen := (["l", "w", "m", "c", "L"].map fun s => s.toList.headD ' ').filter fun c =>
    if a.options.isEmpty then c = 'l' || c = 'w' || c = 'c' else a.has c
  let mut rows : List (Option Raw × List Nat) := []
  let mut least := 1
  let mut size := 0
  for path in if a.operands.isEmpty then ["-".toList] else a.operands do
    let regular ← if path = "-" then do
        match (← get).channel with
        | some (.file ..) => pure true
        | _ => pure false
      else do
        match ← find? path with
        | .ok (.file ..) | .error _ => pure true
        | .ok _ => pure false
    unless regular do
      least := 7
    match ← readPath path with
    | .error cause =>
      complain (path ++ ": " ++ cause.words) 1
      if cause = .isDirectory then
        rows := (some path, chosen.map fun _ => 0) :: rows
    | .ok t =>
      size := size + if regular then t.length else 0
      let counts := countsOf t
      let name := if a.operands.isEmpty then none else some path
      rows := (name, chosen.map fun c => (counts.lookup c).getD 0) :: rows
  let single := a.operands.length ≤ 1 && chosen.length = 1
  let width := if single then 1 else max least (Text.ofNat size).length
  let row (r : Option Raw × List Nat) : Raw :=
    Text.join " " (r.2.map fun n => Raw.padLeft ' ' width (Text.ofNat n)) ++
      (match r.1 with | some name => ' ' :: name | none => []) ++ ['\n']
  say (rows.reverse.flatMap row)
  if 1 < a.operands.length then
    let total := chosen.mapIdx fun i c =>
      let column := rows.map fun r => r.2.getD i 0
      if c = 'L' then column.foldl max 0 else column.foldl (· + ·) 0
    say (row (some "total", total))

/-! ## Columns and repeats -/

/-- The lines of a text, compared by `key`, in groups of neighbours that are the same. -/
def groups (key : Raw → Raw) (ls : List Raw) : List (List Raw) :=
  ls.splitBy fun a b => key a = key b

/-- Writes one line of each group of neighbours that are the same. -/
def uniq : Program := fun arguments => do
  let a ← Arguments.read
    { flags := "cdui", valued := "fsw", names := [("count", 'c'), ("repeated", 'd'),
        ("unique", 'u'), ("ignore-case", 'i'), ("skip-fields", 'f'), ("skip-chars", 's'),
        ("check-chars", 'w')] } arguments
  let number (c : Char) : Option Nat := (a.value? c).bind Raw.nat?
  let skipField (t : Raw) : Raw := (t.dropWhile Raw.isSpace).dropWhile fun c => !Raw.isSpace c
  let key (line : Raw) : Raw :=
    let t := (List.range ((number 'f').getD 0)).foldl (fun t _ => skipField t) line
    let t := t.drop ((number 's').getD 0)
    let t := match number 'w' with
      | some n => t.take n
      | none => t
    if a.has 'i' then t.map Char.toLower else t
  let t ← readAll (a.operands.take 1)
  let kept := (groups key (Raw.lines t)).filter fun g =>
    (!a.has 'd' || 1 < g.length) && (!a.has 'u' || g.length = 1)
  let out := kept.flatMap fun g =>
    (if a.has 'c' then Raw.padLeft ' ' 7 (Text.ofNat g.length) ++ [' '] else []) ++
      g.headD [] ++ ['\n']
  match a.operands[1]? with
  | some path => discard <| writePath path out false
  | none => say out

/-- The ranges of a list such as `1,3-5,7-`. -/
def readRanges (t : Raw) : Option (List (Nat × Option Nat)) :=
  (Text.cut ',' t).mapM fun part =>
    match Text.splitAt? '-' part with
    | none => (Raw.nat? part).map fun n => (n, some n)
    | some (a, b) =>
      let low := if a = [] then some 1 else Raw.nat? a
      if b = [] then
        if a = [] then none else low.map fun n => (n, none)
      else low.bind fun n => (Raw.nat? b).map fun high => (n, some high)

/-- A place lies in one of some ranges. -/
def inRanges (ranges : List (Nat × Option Nat)) (i : Nat) : Bool :=
  ranges.any fun r => r.1 ≤ i && r.2.all fun high => i ≤ high

/-- Writes some of the characters or columns of each line. -/
def cut : Program := fun arguments => do
  let a ← Arguments.read
    { flags := "sn", valued := "bcfdo"
      names := [("bytes", 'b'), ("characters", 'c'), ("fields", 'f'), ("delimiter", 'd'),
        ("only-delimited", 's'), ("complement", 'C'), ("output-delimiter", 'o')] } arguments
  let chosen := (a.value? 'f').or ((a.value? 'c').or (a.value? 'b'))
  match chosen with
  | none => misuse "you must specify a list of bytes, characters, or fields" 1
  | some list =>
    match readRanges list with
    | none => misuse ("invalid field value " ++ quote list) 1
    | some ranges =>
      let keep (i : Nat) : Bool := inRanges ranges (i + 1) != a.has 'C'
      let pick {α : Type} (xs : List α) : List α :=
        (xs.mapIdx fun i x => (i, x)).filterMap fun p => if keep p.1 then some p.2 else none
      let t ← readAll a.operands
      let delimiter := ((a.value? 'd').getD ['\t']).headD '\t'
      let between := (a.value? 'o').getD [delimiter]
      let out := (Raw.lines t).filterMap fun line =>
        if (a.value? 'f').isSome then
          if line.contains delimiter then some (Text.join between (pick (Text.cut delimiter line)))
          else if a.has 's' then none else some line
        else some (pick line)
      say (Raw.unlines out)

/-- Writes the lines of files side by side. -/
def paste : Program := fun arguments => do
  let a ← Arguments.read
    { flags := "s", valued := "d", names := [("serial", 's'), ("delimiters", 'd')] } arguments
  let delimiters := (a.value? 'd').getD ['\t']
  let delimiters : List Raw := if delimiters = [] || delimiters = "\\0" then [[]]
    else if delimiters = "\\n" then [['\n']] else delimiters.map fun c => [c]
  let between (i : Nat) : Raw := delimiters.getD (i % delimiters.length) []
  let joinAll (ts : List Raw) : Raw :=
    (ts.mapIdx fun i t => if i = 0 then t else between (i - 1) ++ t).flatten
  let mut columns : List (List Raw) := []
  let mut stdin : Option (List Raw) := none
  let count := a.operands.count "-".toList
  let mut turn := 0
  for path in if a.operands.isEmpty then ["-".toList] else a.operands do
    if path = "-" && 1 < count then
      let ls ← match stdin with
        | some ls => pure ls
        | none => do pure (Raw.lines ((← readInput).toOption.getD []))
      stdin := some ls
      let here := turn
      columns := (ls.mapIdx (fun i l => (i, l))).filterMap (fun p =>
        if p.1 % count = here then some p.2 else none) :: columns
      turn := turn + 1
    else
      match ← readPath path with
      | .ok t => columns := Raw.lines t :: columns
      | .error cause => complain (path ++ ": " ++ cause.words) 1
  let table := columns.reverse
  if a.has 's' then say (Raw.unlines (table.map joinAll))
  else
    let height := (table.map List.length).foldl max 0
    say <| Raw.unlines <| (List.range height).map fun i => joinAll (table.map fun c => c.getD i [])

/-- Numbers the lines of files. -/
def nl : Program := fun arguments => do
  let a ← Arguments.read { flags := "p", valued := "bwsnvi" } arguments
  let style := (a.value? 'b').getD "t"
  let width := ((a.value? 'w').bind Raw.nat?).getD 6
  let between := (a.value? 's').getD ['\t']
  let start := ((a.value? 'v').bind Raw.nat?).getD 1
  let step := ((a.value? 'i').bind Raw.nat?).getD 1
  let format := (a.value? 'n').getD "rn"
  let t ← readAll a.operands
  let mut n := start
  let mut out : List Raw := []
  for line in Raw.lines t do
    if style = "a" || style = "t" && line ≠ [] then
      let digits := Text.ofNat n
      let shown := if format = "ln" then Raw.padRight width digits
        else if format = "rz" then Raw.padLeft '0' width digits else Raw.padLeft ' ' width digits
      out := (shown ++ between ++ line) :: out
      n := n + step
    else out := (List.replicate (width + between.length) ' ' ++ line) :: out
  say (Raw.unlines out.reverse)

/-- A line cut into pieces of a width. -/
def pieces (width : Nat) : Nat → Raw → List Raw
  | 0, t => [t]
  | n + 1, t => if t.length ≤ width then [t] else t.take width :: pieces width n (t.drop width)

/-- A line cut into pieces of a width, after a blank if there is one. -/
def wordPieces (width : Nat) : Nat → Raw → List Raw
  | 0, t => [t]
  | n + 1, t =>
    if t.length ≤ width then [t]
    else
      let front := t.take width
      let kept := (front.reverse.dropWhile (· ≠ ' ')).reverse
      let piece := if kept.isEmpty then front else kept
      piece :: wordPieces width n (t.drop piece.length)

/-- Cuts long lines. -/
def fold : Program := fun arguments => do
  let a ← Arguments.read
    { flags := "bs", valued := "w", names := [("width", 'w'), ("spaces", 's')] } arguments
  let width := max 1 (((a.value? 'w').bind Raw.nat?).getD 80)
  let t ← readAll a.operands
  say <| (wholeLines t).flatMap fun line =>
    let cut := if a.has 's' then wordPieces else pieces
    Text.join "\n" (cut width line.length (chomp line)) ++ line.drop (chomp line).length

/-- A line with spaces in the place of its tabs, from a column on. -/
def expandTabs (width : Nat) : Nat → Raw → Raw
  | _, [] => []
  | column, c :: r =>
    if c = '\t' then
      let gap := width - column % width
      List.replicate gap ' ' ++ expandTabs width (column + gap) r
    else c :: expandTabs width (if c = '\n' then 0 else column + 1) r

/-- Puts spaces in the place of tabs. -/
def expand : Program := fun arguments => do
  let a ← Arguments.read { flags := "i", valued := "t", names := [("tabs", 't')] } arguments
  let width := max 1 (((a.value? 't').bind Raw.nat?).getD 8)
  say (expandTabs width 0 (← readAll a.operands))

/-- The lines of two sorted lists, each with the column in which it is shown. -/
def mergeColumns : Nat → List Raw → List Raw → List (Nat × Raw)
  | 0, _, _ => []
  | _ + 1, [], [] => []
  | n + 1, a :: as, [] => (1, a) :: mergeColumns n as []
  | n + 1, [], b :: bs => (2, b) :: mergeColumns n [] bs
  | n + 1, a :: as, b :: bs =>
    if a = b then (3, a) :: mergeColumns n as bs
    else if a < b then (1, a) :: mergeColumns n as (b :: bs)
    else (2, b) :: mergeColumns n (a :: as) bs

/-- Compares two sorted files line by line. -/
def comm : Program := fun arguments => do
  let a ← Arguments.read { flags := "123" } arguments
  match a.operands with
  | [left, right] =>
    let x ← readAll [left]
    let y ← readAll [right]
    if 0 < (← get).status then throw ()
    let shows (n : Nat) : Bool := !a.has (Char.ofNat (48 + n))
    let rows := mergeColumns (x.length + y.length + 1) (Raw.lines x) (Raw.lines y)
    say <| (rows.filter fun r => shows r.1).flatMap fun r =>
      ((if 1 < r.1 && shows 1 then ['\t'] else []) ++ (if 2 < r.1 && shows 2 then ['\t'] else [])) ++
        r.2 ++ ['\n']
    let disordered (t : Raw) : Bool :=
      let ls := Raw.lines t
      (ls.zip (ls.drop 1)).any fun p => p.2 < p.1
    if (rows.any fun r => r.1 < 3) && (disordered x || disordered y) then
      complain "input is not in sorted order" 1
  | _ => misuse "missing operand" 1

/-! ## Characters -/

/-- The characters that a set names: ranges, classes and escapes. -/
def readSet : Nat → Raw → Raw
  | 0, t => t
  | _ + 1, [] => []
  | n + 1, t =>
    let range (low high : Char) : Raw :=
      (List.range (high.toNat + 1 - low.toNat)).map fun i => Char.ofNat (low.toNat + i)
    let one? : Raw → Option (Char × Raw)
      | '\\' :: c :: r =>
        if '0' ≤ c && c ≤ '7' then
          let digits := ((c :: r).take 3).takeWhile fun d => '0' ≤ d && d ≤ '7'
          some (Char.ofNat (digits.foldl (fun v d => 8 * v + (d.toNat - 48)) 0 % 256),
            (c :: r).drop digits.length)
        else
          let made := if c = 'n' then '\n' else if c = 't' then '\t' else if c = 'r' then '\r'
            else if c = 'a' then '\x07' else if c = 'b' then '\x08' else if c = 'f' then '\x0c'
            else if c = 'v' then '\x0b' else c
          some (made, r)
      | c :: r => some (c, r)
      | [] => none
    let named : Option (Raw × Raw) :=
      match t with
      | '[' :: ':' :: r =>
        let name := r.takeWhile Char.isAlpha
        match r.drop name.length with
        | ':' :: ']' :: rest =>
          let all := List.range 256 |>.map Char.ofNat
          let p? : Option (Char → Bool) :=
            if name = "upper" then some Char.isUpper
            else if name = "lower" then some Char.isLower
            else if name = "digit" then some Char.isDigit
            else if name = "alpha" then some Char.isAlpha
            else if name = "alnum" then some Char.isAlphanum
            else if name = "space" then some Raw.isSpace
            else if name = "blank" then some fun c => c = ' ' || c = '\t'
            else if name = "punct" then some fun c =>
              32 < c.toNat && c.toNat < 127 && !c.isAlphanum
            else if name = "cntrl" then some fun c => c.toNat < 32 || c.toNat = 127
            else if name = "print" then some fun c => 32 ≤ c.toNat && c.toNat < 127
            else if name = "graph" then some fun c => 32 < c.toNat && c.toNat < 127
            else if name = "xdigit" then some fun c =>
              c.isDigit || 'a' ≤ c && c ≤ 'f' || 'A' ≤ c && c ≤ 'F'
            else none
          p?.map fun p => (all.filter p, rest)
        | _ => none
      | _ => none
    let repeated : Option (Raw × Raw) :=
      match t with
      | '[' :: c :: '*' :: r =>
        let digits := r.takeWhile Char.isDigit
        match r.drop digits.length with
        | ']' :: rest =>
          let count := if digits.head? = some '0' then
              digits.foldl (fun v d => 8 * v + (d.toNat - 48)) 0
            else Raw.digits digits
          some (List.replicate (if count = 0 then 256 else count) c, rest)
        | _ => none
      | _ => none
    match named.or repeated with
    | some (cs, rest) => cs ++ readSet n rest
    | none =>
      match one? t with
      | none => []
      | some (low, '-' :: r) =>
        match one? r with
        | some (high, rest) => range low high ++ readSet n rest
        | none => [low, '-']
      | some (c, rest) => c :: readSet n rest

/-- A range in a set whose ends are the wrong way round. -/
def reversedRange? : Raw → Option Raw
  | a :: '-' :: b :: r =>
    if b < a && a ≠ '\\' && b ≠ '\\' then some [a, '-', b] else reversedRange? ('-' :: b :: r)
  | _ :: r => reversedRange? r
  | [] => none

/-- A text in which repeats of some characters are written once. -/
def squeeze (p : Char → Bool) : Raw → Raw
  | a :: b :: r => if a = b && p a then squeeze p (b :: r) else a :: squeeze p (b :: r)
  | t => t

/-- Replaces, drops or squeezes characters. -/
def tr : Program := fun arguments => do
  let a ← Arguments.read
    { flags := "cCdst", names := [("complement", 'c'), ("delete", 'd'), ("squeeze-repeats", 's'),
        ("truncate-set1", 't')], firstOnly := true } arguments
  match a.operands with
  | [] => misuse "missing operand" 1
  | first :: others =>
    match a.operands.findSome? reversedRange? with
    | some r => fail ("range-endpoints of " ++ quote r ++
        " are in reverse collating sequence order") 1
    | none => pure ()
    let complement := a.has 'c' || a.has 'C'
    let set1 := readSet (first.length + 1) first
    let set1 := if complement then ((List.range 256).map Char.ofNat).filter fun c =>
        !set1.contains c else set1
    let set2 := others.head?.map fun t => readSet (t.length + 1) t
    let t := (← readInput).toOption.getD []
    let ends := set2.getD set1
    if a.has 'd' then
      let kept := t.filter fun c => !set1.contains c
      say (if a.has 's' then squeeze ends.contains kept else kept)
    else
      match set2 with
      | none =>
        if a.has 's' then say (squeeze set1.contains t)
        else misuse ("missing operand after " ++ quote first) 1
      | some images =>
        let last := images.getLastD ' '
        let set1 := if a.has 't' then set1.take images.length else set1
        let images := images ++ List.replicate (set1.length - images.length) last
        let pairs := set1.zip images
        let changed := t.map fun c => ((pairs.reverse.lookup c)).getD c
        say (if a.has 's' then squeeze images.contains changed else changed)

end Program

end Shell

end Haybuild
