import Haybuild.Shell.Session

/-!
# Tests

`Test.evaluate` carries out the command `test`: conditions on paths, texts and numbers, joined with
`!`, `-a`, `-o` and brackets. Whether a word is an operator or an operand depends on the words after
it, so the words are read from left to right, each with a look at the next two.
-/

namespace Haybuild

namespace Shell

namespace Test

/-- What a word of a test can be. -/
inductive Token where
  | unary (operator : Raw)
  | binary (operator : Raw)
  | negation
  | both
  | either
  | openBracket
  | closeBracket
  | operand
  | nothing
  deriving Repr, DecidableEq

/-- The operators of one word. -/
def unaryOperators : List Raw :=
  ["-r", "-w", "-x", "-e", "-f", "-d", "-c", "-b", "-p", "-u", "-g", "-k", "-s", "-t", "-z", "-n",
    "-h", "-O", "-G", "-L", "-S"]

/-- The operators of two words. -/
def binaryOperators : List Raw :=
  ["=", "!=", "<", ">", "-eq", "-ne", "-gt", "-ge", "-lt", "-le", "-nt", "-ot", "-ef"]

/-- What a word is by itself. -/
def tokenOf (ext : Bool) (w : Raw) : Token :=
  if w = "!" then .negation
  else if w = "-a" then .both
  else if w = "-o" then .either
  else if w = "(" then .openBracket
  else if w = ")" then .closeBracket
  else if unaryOperators.contains w || ext && w = "-v" then .unary w
  else if binaryOperators.contains w || ext && w = "==" then .binary w
  else .operand

/-- The word after an operator shows that the operator is an operand itself. -/
def isOperand (ext : Bool) : List Raw → Bool
  | [] => true
  | [_] => false
  | s :: t :: _ =>
    match tokenOf ext s with
    | .binary _ => t ≠ ")"
    | _ => false

/-- What the word at the front is. -/
def lex (ext : Bool) : List Raw → Token
  | [] => .nothing
  | w :: r =>
    match tokenOf ext w with
    | .unary o => if isOperand ext r then .operand else .unary o
    | .openBracket => if r = [] then .operand else .openBracket
    | t => t

/-- Something holds of what stands at a path. -/
def onEntry (operator : Raw) (e : FileTree.Entry) : Bool :=
  if operator = "-f" then match e with | .file .. | .program _ => true | _ => false
  else if operator = "-d" then e = .directory
  else if operator = "-c" then match e with | .device _ => true | _ => false
  else if operator = "-s" then
    match e with | .file content _ => content ≠ [] | .device _ => false | _ => true
  else if operator = "-x" then
    match e with | .directory | .program _ | .file _ true => true | _ => false
  else List.elem operator (["-e", "-r", "-w", "-O", "-G"] : List Raw)

/-- Something that a path names holds. -/
def onPath (s : Session) (operator path : Raw) : Bool :=
  if operator = "-h" || operator = "-L" then
    match s.tree.locateFrom false s.directory (Raw.toText path) with
    | .ok place => match s.tree.entry? place with | some (.link _) => true | _ => false
    | .error _ => false
  else
    match s.find? path with
    | .error _ => false
    | .ok (.device (.standard n)) =>
      match s.channel? n with
      | none => false
      | some (.source _) | some (.sink ..) => operator = "-p" || onEntry operator (.device .full)
      | some (.file place ..) => (s.tree.entry? place).any (onEntry operator)
      | some .directory => onEntry operator .directory
      | some _ => onEntry operator (.device .null)
    | .ok e => onEntry operator e

/-- The value of a test of one word. -/
def unary (s : Session) (operator w : Raw) : Bool :=
  if operator = "-z" then w = []
  else if operator = "-n" then w ≠ []
  else if operator = "-v" then (s.get? w).isSome
  else if operator = "-t" then false
  else onPath s operator w

/-- The number that a word of a test stands for. -/
def integer (ext : Bool) (w : Raw) : Except Raw Int :=
  let body := w.dropWhile Raw.isSpace
  let (negative, r) := match body with
    | '-' :: r => (true, r)
    | '+' :: r => (false, r)
    | r => (false, r)
  let digits := r.takeWhile Char.isDigit
  let n := Raw.digits digits
  if digits = [] || !(r.drop digits.length).all Raw.isSpace || 9223372036854775807 < n then
    .error (if ext then w ++ ": integer expression expected" else "Illegal number: " ++ w)
  else .ok (if negative then -(n : Int) else n)

/-- The value of a test of two words. -/
def binary (s : Session) (ext : Bool) (operator a b : Raw) : Except Raw Bool :=
  if operator = "=" || operator = "==" then .ok (a = b)
  else if operator = "!=" then .ok (a ≠ b)
  else if operator = "<" then .ok (a < b)
  else if operator = ">" then .ok (b < a)
  else if operator = "-nt" then .ok (ext && (s.find? a).toBool && !(s.find? b).toBool)
  else if operator = "-ot" then .ok (ext && (s.find? b).toBool && !(s.find? a).toBool)
  else if operator = "-ef" then
    match s.locate a, s.locate b with
    | .ok x, .ok y => .ok (x = y && (s.tree.entry? x).isSome)
    | _, _ => .ok false
  else do
    let x ← integer ext a
    let y ← integer ext b
    .ok <| if operator = "-eq" then x = y
      else if operator = "-ne" then x ≠ y
      else if operator = "-lt" then x < y
      else if operator = "-le" then x ≤ y
      else if operator = "-gt" then y < x
      else y ≤ x

mutual

/-- Reads tests joined by `-o`. The words left start with the last one that was read. -/
def readEither (s : Session) (ext : Bool) : Nat → List Raw → Except Raw (Bool × List Raw)
  | 0, ws => .ok (false, ws)
  | n + 1, ws => do
    let (a, left) ← readBoth s ext n ws
    if lex ext (left.drop 1) = .either then
      let (b, left) ← readEither s ext n (left.drop 2)
      .ok (a || b, left)
    else .ok (a, left)

/-- Reads tests joined by `-a`. -/
def readBoth (s : Session) (ext : Bool) : Nat → List Raw → Except Raw (Bool × List Raw)
  | 0, ws => .ok (false, ws)
  | n + 1, ws => do
    let (a, left) ← readNegation s ext n ws
    if lex ext (left.drop 1) = .both then
      let (b, left) ← readBoth s ext n (left.drop 2)
      .ok (a && b, left)
    else .ok (a, left)

/-- Reads a test that may be negated. -/
def readNegation (s : Session) (ext : Bool) : Nat → List Raw → Except Raw (Bool × List Raw)
  | 0, ws => .ok (false, ws)
  | n + 1, ws =>
    if lex ext ws = .negation then do
      let (a, left) ← readNegation s ext n (if ws.length = 1 then [] else ws.drop 1)
      .ok (!a, left)
    else readPrimary s ext n ws

/-- Reads one test. -/
def readPrimary (s : Session) (ext : Bool) : Nat → List Raw → Except Raw (Bool × List Raw)
  | 0, ws => .ok (false, ws)
  | n + 1, ws =>
    match lex ext ws with
    | .nothing => .ok (false, ws)
    | .openBracket =>
      let inside := ws.drop 1
      if lex ext inside = .closeBracket then .ok (false, inside)
      else do
        let (a, left) ← readEither s ext n inside
        let left := left.drop 1
        if lex ext left = .closeBracket then .ok (a, left) else .error "closing paren expected"
    | .unary o =>
      match ws.drop 1 with
      | [] => .error (o ++ ": argument expected")
      | w :: r => .ok (unary s o w, w :: r)
    | _ =>
      match ws, lex ext (ws.drop 1) with
      | a :: o :: rest, .binary _ =>
        match rest with
        | [] => .error (o ++ ": argument expected")
        | b :: r => do
          let v ← binary s ext o a b
          .ok (v, b :: r)
      | a :: r, _ => .ok (a ≠ [], a :: r)
      | [], _ => .ok (false, [])

end

/-- The value of a test, or what is wrong with it. -/
def evaluate (s : Session) : List Raw → Except Raw Bool
  | [] => .ok false
  | ws =>
    let ext := s.dialect = Dialect.extended
    let whole (ws : List Raw) : Except Raw Bool := do
      let (v, left) ← readEither s ext (4 * ws.length + 8) ws
      match left with
      | w :: _ :: _ => .error (w ++ ": unexpected operator")
      | _ => .ok v
    let stripped (ws : List Raw) : Option (List Raw) :=
      if ws.head? = some "(" && ws.getLast? = some ")" then some (ws.drop 1).dropLast else none
    let rec go : Nat → List Raw → Except Raw Bool
      | 0, ws => whole ws
      | n + 1, ws =>
        let between : Option (Raw × Raw × Raw) := match ws with
          | [a, o, b] => match tokenOf ext o with | .binary _ => some (a, o, b) | _ => none
          | _ => none
        match between with
        | some (a, o, b) => binary s ext o a b
        | none =>
          if ws = [] then .ok false
          else if ws.length = 3 || ws.length = 4 then
            match stripped ws with
            | some inside => whole inside
            | none => if ws.head? = some "!" then (go n (ws.drop 1)).map (!·) else whole ws
          else whole ws
    go 3 ws

end Test

end Shell

end Haybuild
