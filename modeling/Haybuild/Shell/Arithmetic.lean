import Haybuild.Shell.Reader.Word
import Haybuild.Shell.Session

/-!
# Shell arithmetic

An arithmetic term is cut into tokens, read as a `Term` and evaluated in a session: operators bind as
in the language C, values are integers of 64 bits that wrap around, and a term may assign variables.
What an operator does not need (the branch not taken, the right side of `&&` after zero) is not
evaluated.
-/

namespace Haybuild

namespace Shell

/-- An arithmetic term. -/
inductive Term where
  | number (n : Int)
  | named (name : Raw)
  | element (name : Raw) (subscript : Term)
  | unary (operator : Raw) (t : Term)
  | binary (operator : Raw) (a b : Term)
  | both (a b : Term)
  | either (a b : Term)
  | choice (c yes no : Term)
  /-- An assignment, of the value itself or of what an operator makes of it and the old one. -/
  | assign (operator : Option Raw) (name : Raw) (t : Term)
  /-- Adds to a variable; the value is the old one or the new one. -/
  | step (name : Raw) (by_ : Int) (old : Bool)
  | sequence (a b : Term)
  deriving Repr, DecidableEq

namespace Term

/-- A token of a term. -/
inductive Token where
  | number (n : Int)
  | name (t : Raw)
  | operator (t : Raw)
  deriving Repr, DecidableEq

/-- The operators that both dialects have, longest first. -/
def operators : List Raw :=
  List.map String.toList
    ["<<=", ">>=", "||", "&&", "==", "!=", "<=", ">=", "<<", ">>", "+=", "-=", "*=", "/=", "%=",
      "&=", "^=", "|=", "+", "-", "*", "/", "%", "&", "|", "^", "~", "!", "<", ">", "=", "?", ":",
      "(", ")"]

/-- The operators that only the extended dialect has. -/
def extendedOperators : List Raw :=
  ["**", "++", "--", ",", "[", "]"]

/-- The greatest value. -/
def greatest : Nat := 9223372036854775807

/-- The integer that wraps around to this one in 64 bits. -/
def wrap (n : Int) : Int :=
  Int.bmod n 18446744073709551616

/-- The number at the front: hexadecimal after `0x`, octal after `0`, else decimal. -/
def numeral (t : Raw) : Nat × Raw :=
  let run (base : Nat) (p : Char → Bool) (t : Raw) : Nat × Raw :=
    let digits := t.takeWhile p
    (numberOf base digits, t.drop digits.length)
  let isHex (c : Char) : Bool := (hexDigit? c).isSome
  match t with
  | '0' :: x :: c :: r =>
    if (x = 'x' || x = 'X') && isHex c then run 16 isHex (c :: r) else run 8 isOctal t
  | '0' :: _ => run 8 isOctal t
  | _ => run 10 Char.isDigit t

/-- Cuts a term into tokens. A character that starts no token is one of its own. -/
def tokens (ext : Bool) : Nat → Raw → List Token
  | 0, _ => []
  | _ + 1, [] => []
  | n + 1, c :: r =>
    if Raw.isSpace c then tokens ext n r
    else if c.isDigit then
      let (value, rest) := numeral (c :: r)
      if ext && rest.head? = some '#' then
        let digits := (rest.drop 1).takeWhile Char.isAlphanum
        .number (numberOf value digits) :: tokens ext n (rest.drop (digits.length + 1))
      else .number (min value greatest) :: tokens ext n rest
    else if Raw.isNameStart c then
      let name := c :: r.takeWhile Raw.isNameChar
      .name name :: tokens ext n (r.dropWhile Raw.isNameChar)
    else
      match (if ext then extendedOperators ++ operators else operators).find? fun o =>
          o.isPrefixOf (c :: r) with
      | some o => .operator o :: tokens ext n ((c :: r).drop o.length)
      | none => .operator [c] :: tokens ext n r

/-- The operators of two terms, from those that bind least. -/
def levels : List (List Raw) :=
  [["||"], ["&&"], ["|"], ["^"], ["&"], ["==", "!="], ["<=", ">=", "<", ">"], ["<<", ">>"],
    ["+", "-"], ["*", "/", "%"]]

/-- The operators that assign. -/
def assignments : List Raw :=
  ["=", "<<=", ">>=", "+=", "-=", "*=", "/=", "%=", "&=", "^=", "|="]

/-- Joins two terms. -/
def join (o : Raw) (a b : Term) : Term :=
  if o = "||" then .either a b else if o = "&&" then .both a b else .binary o a b

mutual

/-- Reads a term up to something that cannot go on with it. -/
def read : Nat → List Token → Except Raw (Term × List Token)
  | 0, _ => .error "expecting primary"
  | n + 1, ts =>
    match ts with
    | .name x :: .operator o :: r =>
      if assignments.contains o then do
        let (value, rest) ← read n r
        .ok (.assign (if o = "=" then none else some o.dropLast) x value, rest)
      else readChoice n ts
    | _ => readChoice n ts

/-- Reads a term that may be a choice. -/
def readChoice : Nat → List Token → Except Raw (Term × List Token)
  | 0, _ => .error "expecting primary"
  | n + 1, ts => do
    let (c, rest) ← readLevel n levels ts
    match rest with
    | .operator o :: r =>
      if o = "?" then do
        let (yes, rest) ← read n r
        match rest with
        | .operator [':'] :: r => do
          let (no, rest) ← read n r
          .ok (.choice c yes no, rest)
        | _ => .error "expecting ':'"
      else .ok (c, rest)
    | _ => .ok (c, rest)

/-- Reads a term made with the operators of some levels. -/
def readLevel : Nat → List (List Raw) → List Token → Except Raw (Term × List Token)
  | 0, _, _ => .error "expecting primary"
  | n + 1, [], ts => readUnary n ts
  | n + 1, level :: tighter, ts => do
    let (a, rest) ← readLevel n tighter ts
    readMore n level tighter a rest

/-- Reads what follows a term on a level. -/
def readMore : Nat → List Raw → List (List Raw) → Term → List Token →
    Except Raw (Term × List Token)
  | 0, _, _, _, _ => .error "expecting primary"
  | n + 1, level, tighter, a, ts =>
    match ts with
    | .operator o :: r =>
      if level.contains o then do
        let (b, rest) ← readLevel n tighter r
        readMore n level tighter (join o a b) rest
      else .ok (a, ts)
    | _ => .ok (a, ts)

/-- Reads a term without an operator of two terms. -/
def readUnary : Nat → List Token → Except Raw (Term × List Token)
  | 0, _ => .error "expecting primary"
  | n + 1, ts =>
    match ts with
    | .number v :: r => .ok (.number v, r)
    | .name x :: r =>
      match r with
      | .operator o :: rest =>
        if o = "++" then .ok (.step x 1 true, rest)
        else if o = "--" then .ok (.step x (-1) true, rest)
        else if o = "[" then do
          let (i, rest) ← read n rest
          match rest with
          | .operator [']'] :: rest => .ok (.element x i, rest)
          | _ => .error "expecting ']'"
        else .ok (.named x, r)
      | _ => .ok (.named x, r)
    | .operator o :: r =>
      if o = "(" then do
        let (t, rest) ← readSequence n r
        match rest with
        | .operator [')'] :: rest => .ok (t, rest)
        | _ => .error "expecting ')'"
      else if o = "++" || o = "--" then
        match r with
        | .name x :: rest => .ok (.step x (if o = "++" then 1 else -1) false, rest)
        | _ => .error "expecting primary"
      else if o = "+" || o = "-" || o = "!" || o = "~" then do
        let (t, rest) ← readUnary n r
        match rest with
        | .operator p :: more =>
          if p = "**" then do
            let (e, rest) ← readUnary n more
            .ok (.binary "**" (.unary o t) e, rest)
          else .ok (.unary o t, rest)
        | _ => .ok (.unary o t, rest)
      else .error "expecting primary"
    | [] => .error "expecting primary"

/-- Reads terms with commas between them. -/
def readSequence : Nat → List Token → Except Raw (Term × List Token)
  | 0, _ => .error "expecting primary"
  | n + 1, ts => do
    let (a, rest) ← read n ts
    match rest with
    | .operator [','] :: r => do
      let (b, rest) ← readSequence n r
      .ok (.sequence a b, rest)
    | _ => .ok (a, rest)

end

/-- Puts powers, which bind most, in the place of the operands they are made of. -/
def withPowers : Nat → List Token → List Token
  | 0, ts => ts
  | _ + 1, [] => []
  | n + 1, .number a :: .operator ['*', '*'] :: .number b :: r =>
    withPowers n (.number (wrap (a.pow b.toNat)) :: r)
  | n + 1, t :: r => t :: withPowers n r

/-- The term that a text stands for. -/
def ofText (ext : Bool) (t : Raw) : Except Raw Term := do
  let ts := tokens ext (t.length + 1) t
  let ts := if ext then withPowers (ts.length + 1) ts else ts
  if !ext && ts.contains (.operator [',']) then .error "expecting EOF"
  let (term, rest) ← readSequence (16 * ts.length + 64) ts
  if rest = [] then .ok term else .error "expecting EOF"

/-- The value of an operation on bits. -/
def onBits (f : BitVec 64 → BitVec 64 → BitVec 64) (a b : Int) : Int :=
  (f (BitVec.ofInt 64 a) (BitVec.ofInt 64 b)).toInt

/-- One for true and zero for false. -/
def ofBool (b : Bool) : Int :=
  if b then 1 else 0

/-- The value of an operation. Nothing is divided by zero. -/
def outcome? (o : Raw) (a b : Int) : Option Int :=
  if o = "+" then some (wrap (a + b))
  else if o = "-" then some (wrap (a - b))
  else if o = "*" then some (wrap (a * b))
  else if o = "/" then if b = 0 then none else some (wrap (a.tdiv b))
  else if o = "%" then if b = 0 then none else some (a.tmod b)
  else if o = "**" then some (wrap (a.pow b.toNat))
  else if o = "<<" then some (onBits (fun x y => x <<< (y.toNat % 64)) a b)
  else if o = ">>" then some (onBits (fun x y => x.sshiftRight (y.toNat % 64)) a b)
  else if o = "&" then some (onBits (· &&& ·) a b)
  else if o = "|" then some (onBits (· ||| ·) a b)
  else if o = "^" then some (onBits (· ^^^ ·) a b)
  else if o = "==" then some (ofBool (a = b))
  else if o = "!=" then some (ofBool (a ≠ b))
  else if o = "<" then some (ofBool (a < b))
  else if o = "<=" then some (ofBool (a ≤ b))
  else if o = ">" then some (ofBool (b < a))
  else some (ofBool (b ≤ a))

/-- The value of a sign before a value. -/
def sign (o : Raw) (a : Int) : Int :=
  if o = "-" then wrap (-a)
  else if o = "!" then ofBool (a = 0)
  else if o = "~" then -a - 1
  else a

/-- Complains about a term and leaves the shell. -/
def failTerm {α : Type} (why whole : Raw) : Act α := do
  let message := "arithmetic expression: " ++ why ++ ": \"" ++ whole ++ "\""
  Act.fatal message (if (← get).dialect = .standard then 2 else 1)

/-- The value of a term. Names and elements get theirs from `lookup` and `element`. -/
def evaluate (whole : Raw) (lookup : Raw → Act Int) (element : Raw → Int → Act Int) :
    Term → Act Int
  | number n => return n
  | named name => lookup name
  | .element name i => do
    element name (← evaluate whole lookup element i)
  | unary o t => do
    return sign o (← evaluate whole lookup element t)
  | binary o a b => do
    let a ← evaluate whole lookup element a
    let b ← evaluate whole lookup element b
    match outcome? o a b with
    | some v => return v
    | none => failTerm "division by zero" whole
  | both a b => do
    if (← evaluate whole lookup element a) = 0 then return 0
    else return ofBool ((← evaluate whole lookup element b) ≠ 0)
  | either a b => do
    if (← evaluate whole lookup element a) ≠ 0 then return 1
    else return ofBool ((← evaluate whole lookup element b) ≠ 0)
  | choice c yes no => do
    if (← evaluate whole lookup element c) ≠ 0 then evaluate whole lookup element yes
    else evaluate whole lookup element no
  | assign o name t => do
    let new ← evaluate whole lookup element t
    let value ← match o with
      | none => pure new
      | some o => do
        match outcome? o (← lookup name) new with
        | some v => pure v
        | none => failTerm "division by zero" whole
    Act.assign name (Text.ofInt value)
    return value
  | step name by_ old => do
    let before ← lookup name
    let after := wrap (before + by_)
    Act.assign name (Text.ofInt after)
    return if old then before else after
  | sequence a b => do
    discard <| evaluate whole lookup element a
    evaluate whole lookup element b

end Term

namespace Arithmetic

/-- The integer that the text of a variable stands for: blanks, a sign and a number. -/
def integer? (t : Raw) : Option Int :=
  let t := t.dropWhile Raw.isSpace
  let (negative, digits) := match t with
    | '-' :: r => (true, r)
    | '+' :: r => (false, r)
    | r => (false, r)
  if digits.head?.any Char.isDigit then
    let (value, rest) := Term.numeral digits
    if rest.all Raw.isSpace then
      some (if negative then -(min value (Term.greatest + 1) : Nat) else (min value Term.greatest : Nat))
    else none
  else none

/-- The value of the text of a term. In the extended dialect a variable may hold a term itself, and
the number bounds how deep. -/
def evaluate : Nat → Raw → Act Int
  | 0, whole => Act.fatal (whole ++ ": expression recursion level exceeded") 1
  | n + 1, whole => do
    let ext := (← get).dialect = .extended
    let valueOf (t : Option Raw) : Act Int :=
      match t with
      | none => return 0
      | some t =>
        if t.all Raw.isSpace then return 0
        else
          match integer? t with
          | some v => return v
          | none => if ext then evaluate n t else Act.fatal ("Illegal number: " ++ t) 2
    let lookup (name : Raw) : Act Int := do
      valueOf ((← get).get? name)
    let element (name : Raw) (i : Int) : Act Int := do
      match ((← get).vars.get? name).bind Variable.value with
      | some (.array elements) => valueOf (elements.lookup i.toNat)
      | some (.text t) => valueOf (if i = 0 then some t else none)
      | some (.table entries) => valueOf (entries.lookup (Text.ofInt i))
      | none => return 0
    if ext && whole.all Raw.isSpace then return 0
    else
      match Term.ofText ext whole with
      | .ok term => term.evaluate whole lookup element
      | .error why => Term.failTerm why whole

/-- The greatest number of variables that hold terms in one another. -/
def depth : Nat := 1000

end Arithmetic

end Shell

end Haybuild
