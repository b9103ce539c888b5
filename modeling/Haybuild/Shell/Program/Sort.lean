import Haybuild.Shell.Program.Basic

/-!
# Sorting lines

Lines are compared by keys: parts of them that are ordered by their characters or as numbers. Lines
that no key tells apart are ordered by all their characters, unless that is not wanted.
-/

namespace Haybuild

namespace Shell

namespace Program

open Shell.Task

/-- How keys are compared. -/
structure Ordered where
  numeric : Bool := false
  human : Bool := false
  version : Bool := false
  month : Bool := false
  folds : Bool := false
  dictionary : Bool := false
  skipsBlanks : Bool := false
  reversed : Bool := false
  deriving DecidableEq

/-- A part of a line: fields and characters, counted from one. -/
structure SortKey where
  startField : Nat
  startChar : Nat
  stopField : Option Nat
  stopChar : Nat
  order : Ordered

namespace Ordered

/-- Takes a letter for a way to compare. -/
def add? (o : Ordered) (c : Char) : Option Ordered :=
  if c = 'n' || c = 'g' then some { o with numeric := true }
  else if c = 'h' then some { o with human := true }
  else if c = 'V' then some { o with version := true }
  else if c = 'M' then some { o with month := true }
  else if c = 'f' then some { o with folds := true }
  else if c = 'd' || c = 'i' then some { o with dictionary := true }
  else if c = 'b' then some { o with skipsBlanks := true }
  else if c = 'r' then some { o with reversed := true }
  else none

/-- The letters taken together. -/
def ofLetters? (t : Raw) : Option Ordered :=
  t.foldlM add? {}

/-- The number at the front of a text, in units of ten to the power of minus its places, and the text
after it. -/
def numberAt (t : Raw) : Int × Nat × Raw :=
  let t := t.dropWhile Raw.isSpace
  let (negative, t) := match t with
    | '-' :: r => (true, r)
    | r => (false, r)
  let whole := t.takeWhile Char.isDigit
  let rest := t.drop whole.length
  let (part, rest) := match rest with
    | '.' :: r => (r.takeWhile Char.isDigit, r.dropWhile Char.isDigit)
    | r => ([], r)
  let n : Int := Raw.digits (whole ++ part)
  (if negative then -n else n, part.length, rest)

/-- Compares the numbers at the front of two texts. -/
def compareNumbers (a b : Raw) : Ordering :=
  let (x, p, _) := numberAt a
  let (y, q, _) := numberAt b
  compare (x * Nat.pow 10 q) (y * Nat.pow 10 p)

/-- The rank of a letter for a multiple. -/
def multiple (t : Raw) : Nat :=
  match t with
  | c :: _ => (("KMGTPEZY".toList).findIdx? fun m => m = c || m = 'K' && c = 'k').elim 0 (· + 1)
  | [] => 0

/-- The number of a month by the first letters of its name. -/
def monthNumber (t : Raw) : Nat :=
  let name := ((t.dropWhile Raw.isSpace).take 3).map Char.toUpper
  let months : List Raw :=
    ["JAN", "FEB", "MAR", "APR", "MAY", "JUN", "JUL", "AUG", "SEP", "OCT", "NOV", "DEC"]
  (months.findIdx? (· = name)).elim 0 (· + 1)

/-- Compares versions: rows of digits as numbers, and other characters by themselves; the number
bounds the characters. -/
def compareVersions : Nat → Raw → Raw → Ordering
  | 0, _, _ => .eq
  | n + 1, a, b =>
    match a, b with
    | [], [] => .eq
    | [], _ => .lt
    | _, [] => .gt
    | x :: xs, y :: ys =>
      if x.isDigit && y.isDigit then
        let p := a.takeWhile Char.isDigit
        let q := b.takeWhile Char.isDigit
        (compare (Raw.digits p) (Raw.digits q)).then
          (compareVersions n (a.drop p.length) (b.drop q.length))
      else (compare x.toNat y.toNat).then (compareVersions n xs ys)

/-- Compares two texts. -/
def compareTexts (a b : Raw) : Ordering :=
  if a < b then .lt else if b < a then .gt else .eq

/-- Compares two keys. -/
def compareKeys (o : Ordered) (a b : Raw) : Ordering :=
  let outcome :=
    if o.numeric then compareNumbers a b
    else if o.human then
      let (x, _, r) := numberAt a
      let (y, _, s) := numberAt b
      let rank (v : Int) (m : Nat) : Int := if v < 0 then -(m : Int) else if v = 0 then 0 else m
      (compare (rank x (multiple r)) (rank y (multiple s))).then (compareNumbers a b)
    else if o.version then compareVersions (a.length + b.length + 1) a b
    else if o.month then compare (monthNumber a) (monthNumber b)
    else
      let shown (t : Raw) : Raw :=
        let t := if o.dictionary then t.filter fun c => c.isAlphanum || Raw.isSpace c else t
        if o.folds then t.map Char.toUpper else t
      compareTexts (shown a) (shown b)
  if o.reversed then outcome.swap else outcome

end Ordered

/-- Reads a key such as `2.3n,4`. -/
def readKey (t : Raw) : Option SortKey :=
  let place (t : Raw) : Option (Nat × Option Nat × Raw) :=
    let field := t.takeWhile Char.isDigit
    let rest := t.drop field.length
    match Raw.nat? field, rest with
    | some f, '.' :: r =>
      let char := r.takeWhile Char.isDigit
      (Raw.nat? char).map fun c => (f, some c, r.drop char.length)
    | some f, r => some (f, none, r)
    | none, _ => none
  let (first, second) := match Text.splitAt? ',' t with
    | some (a, b) => (a, some b)
    | none => (t, none)
  match place first, second.map place with
  | some (f, c, letters), none =>
    if f = 0 || c = some 0 then none
    else (Ordered.ofLetters? letters).map fun o => ⟨f, c.getD 1, none, 0, o⟩
  | some (f, c, letters), some (some (g, d, more)) =>
    if f = 0 || c = some 0 || g = 0 then none
    else (Ordered.ofLetters? (letters ++ more)).map fun o => ⟨f, c.getD 1, some g, d.getD 0, o⟩
  | _, _ => none

/-- The fields of a line. Without a separator each takes the blanks before it. -/
def sortFields (separator : Option Char) (line : Raw) : List Raw :=
  match separator with
  | some c => Text.cut c line
  | none =>
    let runs := line.splitBy fun a b => Raw.isSpace a = Raw.isSpace b
    let (blanks, fields) := runs.foldl (fun (blanks, done) r =>
      if r.all Raw.isSpace then (r, done) else (([] : Raw), (blanks ++ r) :: done))
      (([] : Raw), ([] : List Raw))
    (if blanks.isEmpty then fields else blanks :: fields).reverse

/-- The part of a line that a key names. -/
def keyOf (separator : Option Char) (k : SortKey) (line : Raw) : Raw :=
  let fields := sortFields separator line
  let between : Raw := separator.toList
  let trim (t : Raw) : Raw := if k.order.skipsBlanks then t.dropWhile Raw.isSpace else t
  let first := k.startField - 1
  match k.stopField with
  | none => ((trim (Text.join between (fields.drop first))).drop (k.startChar - 1))
  | some g =>
    let chosen := (fields.take g).drop first
    let last := chosen.getLastD []
    let chosen := if k.stopChar = 0 || chosen.isEmpty then chosen
      else chosen.dropLast ++ [last.take k.stopChar]
    (trim (Text.join between chosen)).drop (k.startChar - 1)

/-- Sorts lines. -/
def sort : Program := fun arguments => do
  let a ← Arguments.read
    { flags := "nrufbdghiMVscCmzR", valued := "ktoST", status := 2
      names := [("numeric-sort", 'n'), ("reverse", 'r'), ("unique", 'u'), ("ignore-case", 'f'),
        ("ignore-leading-blanks", 'b'), ("key", 'k'), ("field-separator", 't'), ("output", 'o'),
        ("stable", 's'), ("check", 'c'), ("human-numeric-sort", 'h'), ("version-sort", 'V'),
        ("general-numeric-sort", 'g'), ("month-sort", 'M'), ("merge", 'm'),
        ("zero-terminated", 'z')] } arguments
  let letters := a.options.filterMap fun o =>
    if ("nfbdghiMVr" : Raw).contains o.1 then some o.1 else none
  let usual := (Ordered.ofLetters? letters).getD {}
  let keys ← (a.values 'k').mapM fun t =>
    match readKey t with
    | some k => pure k
    | none => fail ("invalid number at field start: invalid count at start of " ++ quote t) 2
  let keys := keys.map fun k => if k.order = {} then { k with order := usual } else k
  let separator := (a.value? 't').bind fun t => if t = "\\0" then some '\x00' else t.head?
  let ending := if a.has 'z' then '\x00' else '\n'
  let mut content : List Raw := []
  for path in if a.operands.isEmpty then ["-".toList] else a.operands do
    match ← readPath path with
    | .ok t => content := t :: content
    | .error cause =>
      let what : Raw := if cause = .isDirectory then "read failed: " else "cannot read: "
      fail (what ++ path ++ ": " ++ cause.words) 2
  let lines := content.reverse.flatMap fun t =>
    let parts := Text.cut ending t
    if parts.getLast? = some [] then parts.dropLast else parts
  let keyed := lines.map fun line =>
    let whole := if usual.skipsBlanks then line.dropWhile Raw.isSpace else line
    (if keys.isEmpty then [whole] else keys.map fun k => keyOf separator k line, line)
  let orders := if keys.isEmpty then [usual] else keys.map SortKey.order
  let byKeys (x y : List Raw × Raw) : Ordering :=
    ((orders.zip x.1).zip y.1).foldl (fun o p => o.then (Ordered.compareKeys p.1.1 p.1.2 p.2)) .eq
  let full (x y : List Raw × Raw) : Ordering :=
    if a.has 's' || a.has 'u' then byKeys x y
    else
      let whole := Ordered.compareTexts x.2 y.2
      (byKeys x y).then (if usual.reversed then whole.swap else whole)
  if a.has 'c' || a.has 'C' then
    let wrong := ((keyed.zip (keyed.drop 1)).mapIdx fun i p => (i, p)).find? fun p =>
      let o := full p.2.1 p.2.2
      o = .gt || a.has 'u' && o = .eq
    match wrong with
    | none => pure ()
    | some (i, _, y) =>
      fault 1
      unless a.has 'C' do
        note (a.operands.headD "-" ++ ":" ++ Text.ofNat (i + 2) ++ ": disorder: " ++ y.2)
  else
    let sorted := keyed.mergeSort fun x y => full x y ≠ .gt
    let kept := if a.has 'u' then
        (sorted.splitBy fun x y => byKeys x y = .eq).filterMap List.head?
      else sorted
    let out := kept.flatMap fun x => x.2 ++ [ending]
    match a.value? 'o' with
    | some path =>
      match ← writePath path out false with
      | .ok _ => pure ()
      | .error cause => fail ("open failed: " ++ path ++ ": " ++ cause.words) 2
    | none => say out

end Program

end Shell

end Haybuild
