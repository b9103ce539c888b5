import Haybuild.Shell.Reader.Source

/-!
# Reading words

`Word.read` reads the parts of a word up to what ends it in its place: a word of a command ends at a
blank or an operator, the text between double quotes at the quote, the word in `${…}` at the brace.
The scripts in `$(…)` and in backquotes are read by the reader that is given. The number that the
functions take first bounds how many parts they read; the length of the text is enough.
-/

namespace Haybuild

namespace Shell

/-- The character ends a word outside quotes. -/
def endsWord (c : Char) : Bool :=
  c = ' ' || c = '\t' || c = '\n' || c = ';' || c = '&' || c = '|' || c = '<' || c = '>' ||
    c = '(' || c = ')'

/-- Where a word is read. -/
inductive Place where
  | bare
  | quotes
  | document
  /-- Inside `${…}`, up to one of some characters. -/
  | braces (quoted : Bool) (stops : List Char)
  /-- Inside `$((…))`. -/
  | term
  deriving Repr, DecidableEq

namespace Place

/-- What is read here is quoted. -/
def isQuoted : Place → Bool
  | bare => false
  | quotes | document | term => true
  | braces quoted _ => quoted

/-- Single quotes have a meaning here. -/
def hasSingleQuotes : Place → Bool
  | bare | braces false _ => true
  | _ => false

/-- The character ends a word here, so many brackets deep. -/
def ends (place : Place) (depth : Nat) (c : Char) : Bool :=
  match place with
  | bare => endsWord c
  | quotes => c = '"'
  | document => false
  | braces _ stops => stops.contains c
  | term => c = ')' && depth = 0

/-- The character stands for itself here. -/
def isPlain (place : Place) (c : Char) : Bool :=
  c ≠ '\\' && c ≠ '$' && c ≠ '\x60' &&
    match place with
    | bare => c ≠ '\'' && c ≠ '"' && !endsWord c
    | quotes => c ≠ '"'
    | document => true
    | braces quoted stops => c ≠ '"' && !stops.contains c && (quoted || c ≠ '\'')
    | term => c ≠ '(' && c ≠ ')' && c ≠ '"'

/-- The text may end here. -/
def mayEnd : Place → Bool
  | bare | document => true
  | _ => false

/-- A backslash before the character takes its meaning away here, and is dropped. -/
def escapes (place : Place) (c : Char) : Bool :=
  match place with
  | bare | braces false _ => true
  | quotes => c = '$' || c = '\x60' || c = '"' || c = '\\'
  | braces true _ => c = '$' || c = '\x60' || c = '"' || c = '\\' || c = '\x7d'
  | document | term => c = '$' || c = '\x60' || c = '\\'

end Place

/-- Reads up to a backquote without a backslash. The backslashes are taken away that protect a
dollar, a backquote or a backslash, and between quotes those that protect a quote. -/
def splitBackquote? (quoted : Bool) : Raw → Raw → Option (Raw × Raw)
  | _, [] => none
  | done, '\x60' :: r => some (done.reverse, r)
  | done, '\\' :: c :: r =>
    if c = '$' || c = '\x60' || c = '\\' || quoted && c = '"' then splitBackquote? quoted (c :: done) r
    else splitBackquote? quoted (c :: '\\' :: done) r
  | done, c :: r => splitBackquote? quoted (c :: done) r

/-- The value of a hexadecimal digit. -/
def hexDigit? (c : Char) : Option Nat :=
  if c.isDigit then some (c.toNat - 48)
  else if 'a' ≤ c && c ≤ 'f' then some (c.toNat - 87)
  else if 'A' ≤ c && c ≤ 'F' then some (c.toNat - 55)
  else none

/-- The number that digits of a base make. -/
def numberOf (base : Nat) (t : Raw) : Nat :=
  t.foldl (fun v c => base * v + (hexDigit? c).getD 0) 0

/-- The character is an octal digit. -/
def isOctal (c : Char) : Bool :=
  '0' ≤ c && c ≤ '7'

/-- The character that a letter after a backslash stands for. -/
def controlCharacter? (c : Char) : Option Char :=
  if c = 'a' then some '\x07' else if c = 'b' then some '\x08' else if c = 't' then some '\t'
  else if c = 'n' then some '\n' else if c = 'v' then some '\x0b' else if c = 'f' then some '\x0c'
  else if c = 'r' then some '\r' else if c = '\\' then some '\\'
  else none

/-- Reads up to a single quote, with escapes as in the language C. -/
def splitEscaped? : Nat → Raw → Raw → Option (Raw × Raw)
  | 0, _, _ => none
  | _ + 1, _, [] => none
  | _ + 1, done, '\'' :: r => some (done.reverse, r)
  | n + 1, done, '\\' :: c :: r =>
    if c = 'x' || c = 'u' || c = 'U' then
      let most := if c = 'x' then 2 else if c = 'u' then 4 else 8
      let digits := (r.take most).takeWhile fun d => (hexDigit? d).isSome
      let code := numberOf 16 digits
      let made : Raw := if c = 'x' then [Char.ofNat (code % 256)] else Raw.ofText [Char.ofNat code]
      if digits = [] then splitEscaped? n (c :: '\\' :: done) r
      else splitEscaped? n (made.reverse ++ done) (r.drop digits.length)
    else if isOctal c then
      let digits := ((c :: r).take 3).takeWhile isOctal
      splitEscaped? n (Char.ofNat (numberOf 8 digits % 256) :: done) ((c :: r).drop digits.length)
    else if c = 'e' || c = 'E' then splitEscaped? n ('\x1b' :: done) r
    else if c = '\'' || c = '"' || c = '?' then splitEscaped? n (c :: done) r
    else
      match controlCharacter? c with
      | some d => splitEscaped? n (d :: done) r
      | none => splitEscaped? n (c :: '\\' :: done) r
  | n + 1, done, c :: r => splitEscaped? n (c :: done) r

/-- The character names a parameter of the shell itself. -/
def isSpecialParameter (c : Char) : Bool :=
  c = '@' || c = '*' || c = '#' || c = '?' || c = '-' || c = '$' || c = '!'

namespace Word

open Read

/-- The word is nothing but all positional parameters, of which there may be none. -/
def standsAlone (w : Word) : Bool :=
  match w with
  | [.parameter _ ['@'] none .value _] => true
  | [.parameter _ _ (some [.text _ ['@']]) .value _] => true
  | _ => false

/-- Passes over what must come next. -/
def expect (t message : Raw) : Read Unit := do
  unless ← accept t do
    refuse message

/-- The name of a parameter at the front, between braces. -/
def readName : Read Raw := do
  match ← peek with
  | some c =>
    if Raw.isNameStart c then takeWhile Raw.isNameChar
    else if c.isDigit then takeWhile Char.isDigit
    else if isSpecialParameter c then
      skip
      return [c]
    else return []
  | none => return []

/-- The rest, after a `#` that opens `${#…}`, asks for the length of a parameter. -/
def asksLength (rest : Raw) : Bool :=
  match rest with
  | c :: d :: _ => Raw.isNameChar c || isSpecialParameter c && (d = '\x7d' || d = '[')
  | _ => false

/-- The use that an operator asks for, and the characters that end its first word. -/
def readUse (ext : Bool) : Read Use := do
  let colon ← accept ":"
  match ← peek with
  | some '-' => skip; return .otherwise colon
  | some '=' => skip; return .assign colon
  | some '?' => skip; return .demand colon
  | some '+' => skip; return .instead colon
  | some c =>
    if colon then return if ext then .slice else .nonsense
    else if c = '%' || c = '#' then
      skip
      return .trim (c = '%') (← accept [c])
    else if c = '\x7d' then return .value
    else if !ext then return .nonsense
    else if c = '^' || c = ',' then
      skip
      return .recase (c = '^') (← accept [c])
    else if c = '/' then
      skip
      if ← accept "/" then return .replace true false false
      else if ← accept "#" then return .replace false true false
      else if ← accept "%" then return .replace false false true
      else return .replace false false false
    else if ← accept "@Q" then return .quote
    else if ← accept "@U" then return .recase true true
    else if ← accept "@u" then return .recase true false
    else if ← accept "@L" then return .recase false true
    else return .nonsense
  | none => return .nonsense

mutual

/-- Reads parts up to the end of the word; `done` holds those already read, last first. -/
def readParts (inner : Read Script) (place : Place) : Nat → Nat → List Part → Read Word
  | 0, _, _ => refuse "Syntax error: word too long"
  | n + 1, depth, done => do
    match ← peek with
    | none =>
      if place.mayEnd then return done.reverse
      else if place = .term then refuse "Syntax error: Missing '))'"
      else if place = .quotes then refuse "Syntax error: Unterminated quoted string"
      else refuse "Syntax error: Missing '\x7d'"
    | some c =>
      if ← acceptIf (place = .bare && (← extended)) "<(" then
        let body ← inner
        expect ")" "Syntax error: end of file unexpected (expecting \")\")"
        readParts inner place n depth (.stream body :: done)
      else if place.ends depth c then return done.reverse
      else if place.isPlain c then
        let t ← takeWhile place.isPlain
        readParts inner place n depth (.text place.isQuoted t :: done)
      else if place = .term && (c = '(' || c = ')') then
        skip
        readParts inner place n (if c = '(' then depth + 1 else depth - 1) (.text true [c] :: done)
      else
        let more ← readSpecial inner place c n
        readParts inner place n depth (more.reverse ++ done)

/-- Reads the parts that a character with a meaning starts. -/
def readSpecial (inner : Read Script) (place : Place) (c : Char) : Nat → Read Word
  | 0 => refuse "Syntax error: word too long"
  | n + 1 => do
    skip
    if c = '\\' then
      match ← peek with
      | none => return [.text true ['\\']]
      | some d =>
        skip
        if d = '\n' then return []
        else if place.escapes d then return [.text true [d]]
        else return [.text true ['\\', d]]
    else if c = '\'' then
      let t ← takeWhile (· ≠ '\'')
      expect "'" "Syntax error: Unterminated quoted string"
      return [.text true t]
    else if c = '"' then
      if place = .term then return if ← extended then [] else [.text true [c]]
      else
        let w ← readParts inner .quotes n 0 []
        skip
        return if place.isQuoted || standsAlone w then w else .text true [] :: w
    else if c = '\x60' then
      match splitBackquote? place.isQuoted [] (← get).rest with
      | none => refuse "Syntax error: EOF in backquote substitution"
      | some (script, rest) =>
        let body ← within script inner
        modify fun s => { s with rest }
        return [.output place.isQuoted body]
    else readDollar inner place n

/-- Reads what a dollar starts. -/
def readDollar (inner : Read Script) (place : Place) : Nat → Read Word
  | 0 => refuse "Syntax error: word too long"
  | n + 1 => do
    let quoted := place.isQuoted
    let ext ← extended
    if ← accept "((" then
      let term ← readParts inner .term n 0 []
      expect "))" "Syntax error: Missing '))'"
      return [.arithmetic quoted term]
    else if ← accept "(" then
      let body ← inner
      expect ")" "Syntax error: end of file unexpected (expecting \")\")"
      return [.output quoted body]
    else if ← accept "\x7b" then return [← readBraces inner quoted n]
    else
      match ← peek with
      | some c =>
        if Raw.isNameStart c then
          let name ← takeWhile Raw.isNameChar
          return [.parameter quoted name none .value []]
        else if c.isDigit || isSpecialParameter c then
          skip
          return [.parameter quoted [c] none .value []]
        else if ext && c = '\'' && place.hasSingleQuotes then
          skip
          let s ← get
          match splitEscaped? (s.rest.length + 1) [] s.rest with
          | some (t, rest) =>
            set { s with rest }
            return [.text true t]
          | none => refuse "Syntax error: Unterminated quoted string"
        else if ext && c = '"' && !quoted then return []
        else return [.text quoted ['$']]
      | none => return [.text quoted ['$']]

/-- Reads the inside of `${…}` and its closing brace. -/
def readBraces (inner : Read Script) (quoted : Bool) : Nat → Read Part
  | 0 => refuse "Syntax error: word too long"
  | n + 1 => do
    let ext ← extended
    let rest := (← get).rest
    let first : Use ←
      if rest.head? = some '#' && asksLength (rest.drop 1) then do
        skip
        pure Use.length
      else if ext && rest.head? = some '!' &&
          (rest.drop 1).head?.any (fun c => Raw.isNameStart c || c.isDigit || c = '#') then do
        skip
        pure Use.indirect
      else pure Use.value
    let name ← readName
    let subscript : Option Word ←
      if ← acceptIf (ext && Raw.isName name) "[" then do
        let w ← readParts inner (.braces false [']']) n 0 []
        expect "]" "bad substitution"
        pure (some w)
      else pure none
    if name = [] then
      let w ← readParts inner (.braces quoted ['\x7d']) n 0 []
      skip
      return .parameter quoted name none .nonsense [w]
    else if first ≠ .value then
      let use := if first = .indirect && subscript.isSome then Use.keys else first
      let w ← readParts inner (.braces quoted ['\x7d']) n 0 []
      skip
      return .parameter quoted name subscript (if w = [] then use else .nonsense) []
    else
      let use ← readUse ext
      let inside (stops : List Char) : Read Word :=
        let quotedWord := quoted && match use with
          | .trim .. | .replace .. => false
          | _ => true
        readParts inner (.braces quotedWord stops) n 0 []
      let words ← match use with
        | .slice => do
          let w ← inside [':', '\x7d']
          if ← accept ":" then pure [w, ← inside ['\x7d']] else pure [w]
        | .replace .. => do
          let w ← inside ['/', '\x7d']
          if ← accept "/" then pure [w, ← inside ['\x7d']] else pure [w]
        | _ => do pure [← inside ['\x7d']]
      skip
      return .parameter quoted name subscript use words

end

/-- Reads a word in a place. -/
def read (inner : Read Script) (place : Place) : Read Word :=
  readParts inner place bound 0 []

end Word

end Shell

end Haybuild
