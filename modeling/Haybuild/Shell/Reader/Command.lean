import Haybuild.Shell.Reader.Braces
import Haybuild.Shell.Reader.Word

/-!
# Reading commands

`Script.readLine` reads the commands of a text up to the end of a line on which they may end, so
that a shell can carry them out before it looks at the next line. The number that the functions take
first bounds how deep and how far they read.
-/

namespace Haybuild

namespace Shell

/-- Passes over blanks, continued lines and a comment, and with `lines` over line feeds too. The
number is that of the line feeds passed over. -/
def dropBlanks (lines : Bool) : Bool → Nat → Raw → Nat × Raw
  | true, n, c :: r =>
    if c ≠ '\n' then dropBlanks lines true n r
    else if lines then dropBlanks lines false (n + 1) r
    else (n, c :: r)
  | false, n, '\\' :: '\n' :: r => dropBlanks lines false (n + 1) r
  | false, n, c :: r =>
    if c = ' ' || c = '\t' then dropBlanks lines false n r
    else if c = '#' then dropBlanks lines true n r
    else if c = '\n' && lines then dropBlanks lines false (n + 1) r
    else (n, c :: r)
  | _, n, [] => (n, [])

/-- The word of plain characters at the front, if nothing else belongs to it. -/
def wordAhead (rest : Raw) : Raw :=
  let w := rest.takeWhile Place.bare.isPlain
  match (rest.drop w.length).head? with
  | some c => if endsWord c then w else []
  | none => w

/-- The words that end a list of commands when they stand where a command may start. -/
def closers : List Raw :=
  ["then", "else", "elif", "fi", "do", "done", "esac", "\x7d"]

/-- The words with a meaning of their own where a command may start. -/
def reservedWords : List Raw :=
  closers ++ (["!", "case", "for", "if", "in", "until", "while", "\x7b"] : List Raw)

/-- The text up to the end of a line outside quotes, and the text after it if there is such an
end. -/
def splitLine : Option Char → Raw → Raw → Raw × Option Raw
  | _, done, [] => (done.reverse, none)
  | none, done, '\\' :: c :: r => splitLine none (c :: '\\' :: done) r
  | none, done, c :: r =>
    if c = '\n' then (done.reverse, some r)
    else splitLine (if c = '\'' || c = '"' then some c else none) (c :: done) r
  | some '"', done, '\\' :: c :: r => splitLine (some '"') (c :: '\\' :: done) r
  | some q, done, c :: r => splitLine (if c = q then none else some q) (c :: done) r

/-- The lines up to one that is the delimiter, and the text after that. With `tabs` the tabs at the
front of lines are taken away. -/
def splitDocument (delimiter : Raw) (tabs : Bool) : Nat → List Raw → Raw → List Raw × Raw
  | 0, done, t => (done.reverse, t)
  | _ + 1, done, [] => (done.reverse, [])
  | n + 1, done, t =>
    let line := t.takeWhile (· ≠ '\n')
    let rest := t.drop (line.length + 1)
    let line := if tabs then line.dropWhile (· = '\t') else line
    if line = delimiter then (done.reverse, rest) else splitDocument delimiter tabs n (line :: done) rest

/-- The operators of redirections, with their direction and the descriptor they are meant for. -/
def redirectionOperators : List (Raw × Direction × Nat) :=
  [("<&", .duplicate, 0), ("<>", .update, 0), ("<", .input, 0), (">>", .append, 1),
    (">&", .duplicate, 1), (">|", .overwrite, 1), (">", .output, 1)]

/-- The name, with or without a subscript, that a word assigns, and whether the value is added to the
one that is there; then the word for the value. -/
def splitAssignment? (ext : Bool) (w : Word) : Option (Raw × Option Word × Bool × Word) :=
  match w with
  | .text false t :: more =>
    let name := t.takeWhile Raw.isNameChar
    let after := t.drop name.length
    let value (subscript : Option Word) (after : Raw) (more : Word) :
        Option (Raw × Option Word × Bool × Word) :=
      let word (r : Raw) : Word := if r = [] then more else .text false r :: more
      match after with
      | '=' :: r => some (name, subscript, false, word r)
      | '+' :: '=' :: r => if ext then some (name, subscript, true, word r) else none
      | _ => none
    if !Raw.isName name then none
    else if ext && after.head? = some '[' then
      let cells := Word.cells (.text false (after.drop 1) :: more)
      let close := cells.takeWhile fun
        | .char c => c ≠ ']'
        | .part _ => true
      match Word.ofCells (cells.drop (close.length + 1)) with
      | .text false r :: more =>
        let word (r : Raw) : Word := if r = [] then more else .text false r :: more
        match r with
        | '=' :: r => some (name, some (Word.ofCells close), false, word r)
        | '+' :: '=' :: r => some (name, some (Word.ofCells close), true, word r)
        | _ => none
      | _ => none
    else value none after more
  | _ => none

namespace Script

open Read

/-- Passes over blanks and a comment. -/
def blanks : Read Unit :=
  modify fun s =>
    let (n, rest) := dropBlanks false false 0 s.rest
    { s with rest, line := s.line + n }

/-- Passes over blanks, comments and line feeds. -/
def newlines : Read Unit :=
  modify fun s =>
    let (n, rest) := dropBlanks true false 0 s.rest
    { s with rest, line := s.line + n }

/-- Refuses what stands at the front. -/
def unexpected {α : Type} (expecting : Raw) : Read α := do
  let rest := (← get).rest
  let operator := (([";;", "&&", "||", ";", "&", "|", "(", ")"] : List Raw)).find? fun o =>
    o.isPrefixOf rest
  let shown : Raw := match rest, operator with
    | [], _ => "end of file"
    | '\n' :: _, _ => "newline"
    | _, some o => "\"" ++ o ++ "\""
    | c :: _, none =>
      let w := wordAhead rest
      if c = '<' || c = '>' then "redirection"
      else if reservedWords.contains w then "\"" ++ w ++ "\""
      else "word"
  let wanted : Raw := if expecting = [] then [] else " (expecting \"" ++ expecting ++ "\")"
  refuse ("Syntax error: " ++ shown ++ " unexpected" ++ wanted)

/-- The front is a word with a meaning of its own. -/
def aheadWord (t : Raw) : Read Bool := do
  return wordAhead (← get).rest = t

/-- Passes over a word with a meaning of its own if it is at the front. -/
def acceptWord (t : Raw) : Read Bool := do
  if ← aheadWord t then accept t else return false

/-- Passes over a word with a meaning of its own that must come next. -/
def expectWord (t : Raw) : Read Unit := do
  newlines
  unless ← acceptWord t do
    unexpected t

/-- The front ends a list of commands. -/
def closing : Read Bool := do
  let rest := (← get).rest
  match rest with
  | [] => return true
  | c :: _ =>
    return c = ')' || ";;".toList.isPrefixOf rest || ";&".toList.isPrefixOf rest ||
      closers.contains (wordAhead rest)

/-- No word starts at the front. -/
def aheadNoWord : Read Bool := do
  match ← peek with
  | some c =>
    if (← extended) && (← ahead "<(") then return false else return endsWord c
  | none => return true

/-- Reads the word at the front, which must be one. -/
def readWord (inner : Read Script) : Read Word := do
  blanks
  if ← aheadNoWord then unexpected []
  else
    let w ← Word.read inner .bare
    return if w = [] then Word.plain [] else w

/-- Reads the document that a redirection announces: the lines after this one up to a delimiter. -/
def readDocument (inner : Read Script) (tabs : Bool) : Read Word := do
  let w ← readWord inner
  let delimiter := w.characters
  let s ← get
  let (here, after) := splitLine none [] s.rest
  let t := after.getD []
  let (ls, rest) := splitDocument delimiter tabs (t.length + 1) [] t
  set { s with rest := if after.isSome then here ++ '\n' :: rest else here }
  let body := Raw.unlines ls
  if w.any Part.isQuoted then return [.text true body]
  else within body (Word.read inner .document)

/-- Reads the redirection at the front, if there is one. -/
def readRedirection? (inner : Read Script) : Read (Option Redirection) := do
  let ext ← extended
  let rest := (← get).rest
  let digits := rest.takeWhile Char.isDigit
  let after := (rest.drop digits.length).head?
  let numbered := digits ≠ [] && (ext || digits.length = 1) && (after = some '<' || after = some '>')
  if digits ≠ [] && !numbered then return none
  else
    if numbered then
      advance digits (rest.drop digits.length)
    let target (usual : Nat) : Nat := if numbered then Raw.digits digits else usual
    if ← acceptIf ext "<<<" then
      return some (.mk (target 0) .line (← readWord inner))
    else if ← accept "<<-" then
      return some (.mk (target 0) .document (← readDocument inner true))
    else if ← accept "<<" then
      return some (.mk (target 0) .document (← readDocument inner false))
    else if ← acceptIf ext "&>>" then
      return some (.mk 1 (.both true) (← readWord inner))
    else if ← acceptIf ext "&>" then
      return some (.mk 1 (.both false) (← readWord inner))
    else
      let rest := (← get).rest
      let isStream := ext && !numbered && "<(".toList.isPrefixOf rest
      match redirectionOperators.find? fun o => !isStream && o.1.isPrefixOf rest with
      | none => return none
      | some (o, direction, usual) =>
        advance o (rest.drop o.length)
        let w ← readWord inner
        let named := match w.plain? with
          | some t => t ≠ ['-'] && !t.all Char.isDigit
          | none => false
        if ext && o = ">&" && !numbered && named then return some (.mk 1 (.both false) w)
        else return some (.mk (target usual) direction w)

/-- Reads the redirections at the front. -/
def readRedirections (inner : Read Script) : Nat → List Redirection → Read (List Redirection)
  | 0, done => return done.reverse
  | n + 1, done => do
    blanks
    match ← readRedirection? inner with
    | some r => readRedirections inner n (r :: done)
    | none => return done.reverse

/-- Reads words up to something that is none. -/
def readWords (inner : Read Script) : Nat → List Word → Read (List Word)
  | 0, done => return done.reverse
  | n + 1, done => do
    blanks
    if ← aheadNoWord then return done.reverse
    else
      let w ← readWord inner
      let more := if ← extended then w.alternatives else [w]
      readWords inner n (more.reverse ++ done)

/-- Reads the elements of an array up to the closing bracket. -/
def readElements (inner : Read Script) : Nat → List Word → Read (List Word)
  | 0, done => return done.reverse
  | n + 1, done => do
    newlines
    if ← accept ")" then return done.reverse
    else
      let w ← readWord inner
      readElements inner n (w.alternatives.reverse ++ done)

/-- What was read of a simple command, each list last first. -/
structure SimpleParts where
  assignments : List Assignment := []
  words : List Word := []
  redirections : List Redirection := []
  /-- The arrays among the arguments of a command that declares variables. -/
  declared : List Assignment := []

/-- The commands that declare variables, in the extended dialect arrays too. -/
def declaring : List Raw :=
  ["declare", "export", "local", "readonly", "typeset"]

/-- The simple command of some parts. Arrays that a command declares are assigned after it, or before
it if it fixes them. -/
def SimpleParts.script (p : SimpleParts) (line : Nat) : Script :=
  let command :=
    Script.simple line p.assignments.reverse p.words.reverse p.redirections.reverse
  if p.declared.isEmpty then command
  else
    let arrays := Script.simple line p.declared.reverse [] []
    let fixes := p.words.getLast?.bind Word.plain? = some "readonly"
    .list (if fixes then [arrays, command] else [command, arrays])

/-- Reads the words, assignments and redirections of a simple command. -/
def readSimple (inner : Read Script) (line : Nat) : Nat → SimpleParts → Read Script
  | 0, _ => refuse "Syntax error: command too long"
  | n + 1, p => do
    blanks
    match ← readRedirection? inner with
    | some r => readSimple inner line n { p with redirections := r :: p.redirections }
    | none =>
      if ← aheadNoWord then
        let isOpen := (← peek) = some '('
        if isOpen || p.assignments.isEmpty && p.words.isEmpty && p.redirections.isEmpty then
          unexpected []
        else return p.script line
      else
        let w ← readWord inner
        let ext ← extended
        let declares := ext && match p.words.getLast?.bind Word.plain? with
          | some command => declaring.contains command
          | none => false
        match if p.words.isEmpty || declares then splitAssignment? ext w else none with
        | some (name, none, adds, []) =>
          if ← acceptIf ext "(" then
            let a := Assignment.array name adds (← readElements inner bound [])
            readSimple inner line n <|
              if declares then { p with words := .plain name :: p.words, declared := a :: p.declared }
              else { p with assignments := a :: p.assignments }
          else if declares then readSimple inner line n { p with words := w :: p.words }
          else
            let a := Assignment.scalar name none adds []
            readSimple inner line n { p with assignments := a :: p.assignments }
        | some (name, subscript, adds, value) =>
          if declares then readSimple inner line n { p with words := w :: p.words }
          else
            let a := Assignment.scalar name subscript adds value
            readSimple inner line n { p with assignments := a :: p.assignments }
        | none =>
          let more := if ext then w.alternatives else [w]
          readSimple inner line n { p with words := more.reverse ++ p.words }

/-- The operators of two words in a condition. -/
def comparisons : List Raw :=
  ["==", "!=", "=~", "=", "<", ">", "-eq", "-ne", "-lt", "-le", "-gt", "-ge", "-nt", "-ot", "-ef"]

/-- Reads the test at the front of a condition: one word, an operator and a word, or two words with
an operator between them. -/
def readTest (inner : Read Script) : Read Condition := do
  let w ← readWord inner
  newlines
  match w.plain? with
  | some ['-', o] =>
    if o.isAlpha && !(← ahead "&&") && !(← ahead "||") && !(← ahead ")") && !(← aheadWord "]]") then
      return .unary ['-', o] (← readWord inner)
    else return .present w
  | _ =>
    let rest := (← get).rest
    match comparisons.find? fun o => o.isPrefixOf rest with
    | some o =>
      advance o (rest.drop o.length)
      blanks
      if o = "=~" then
        return .binary o w (← Word.read inner (.braces false [' ', '\t', '\n']))
      else return .binary o w (← readWord inner)
    | none => return .present w

mutual

/-- Reads a condition up to something that cannot be joined to it. -/
def readCondition (inner : Read Script) : Nat → Read Condition
  | 0 => refuse "Syntax error: condition too long"
  | n + 1 => do
    let a ← readConjunction inner n
    newlines
    if ← accept "||" then return .either a (← readCondition inner n)
    else return a

/-- Reads conditions joined by `&&`. -/
def readConjunction (inner : Read Script) : Nat → Read Condition
  | 0 => refuse "Syntax error: condition too long"
  | n + 1 => do
    newlines
    let a ←
      if ← acceptWord "!" then do pure (Condition.negation (← readConjunction inner n))
      else if ← accept "(" then do
        let c ← readCondition inner n
        unless ← accept ")" do
          unexpected ")"
        pure c
      else readTest inner
    newlines
    if ← accept "&&" then return .both a (← readConjunction inner n)
    else return a

end

/-- Reads the separator after a command, which may send it to the background, and tells whether
there was one. -/
def readSeparator (item : Script) (lines : Bool) : Read (Script × Bool) := do
  if (← ahead ";;") || (← ahead ";&") then return (item, false)
  else if ← accept ";" then return (item, true)
  else if ← accept "&" then return (.background item, true)
  else if lines && (← ahead "\n") then return (item, true)
  else return (item, false)

mutual

/-- Reads commands up to something that closes them. With `empty` there may be none. -/
def readList (empty : Bool) : Nat → Read Script
  | 0 => refuse "Syntax error: script too long"
  | n + 1 => do
    newlines
    if empty && (← closing) then return .list []
    else readItems n []

/-- Reads commands and the separators after them; `done` holds those already read. -/
def readItems : Nat → List Script → Read Script
  | 0, _ => refuse "Syntax error: script too long"
  | n + 1, done => do
    let item ← readAndOr n
    blanks
    let (item, more) ← readSeparator item true
    newlines
    if !more || (← closing) then return .list (item :: done).reverse
    else readItems n (item :: done)

/-- Reads pipelines joined by `&&` and `||`. -/
def readAndOr : Nat → Read Script
  | 0 => refuse "Syntax error: script too long"
  | n + 1 => do
    let first ← readPipeline n
    readMore n first

/-- Reads what is joined to a pipeline. -/
def readMore : Nat → Script → Read Script
  | 0, _ => refuse "Syntax error: script too long"
  | n + 1, first => do
    blanks
    if ← accept "&&" then
      newlines
      readMore n (.both first (← readPipeline n))
    else if ← accept "||" then
      newlines
      readMore n (.either first (← readPipeline n))
    else return first

/-- Reads commands joined by bars, perhaps negated. -/
def readPipeline : Nat → Read Script
  | 0 => refuse "Syntax error: script too long"
  | n + 1 => do
    blanks
    let negated ← acceptWord "!"
    let stages ← readStages n []
    let body := match stages with
      | [one] => one
      | _ => .pipeline stages
    return if negated then .negation body else body

/-- Reads commands joined by bars; `done` holds those already read. -/
def readStages : Nat → List Script → Read (List Script)
  | 0, _ => refuse "Syntax error: script too long"
  | n + 1, done => do
    let stage ← readCommand n
    blanks
    if (← ahead "||") then return (stage :: done).reverse
    else if ← acceptIf (← extended) "|&" then
      newlines
      readStages n (.redirected 0 stage [.mk 2 .duplicate (Word.plain "1")] :: done)
    else if ← accept "|" then
      newlines
      readStages n (stage :: done)
    else return (stage :: done).reverse

/-- Reads one command. -/
def readCommand : Nat → Read Script
  | 0 => refuse "Syntax error: script too long"
  | n + 1 => do
    blanks
    let s ← get
    match s.aliases.find? fun a => a.1 = wordAhead s.rest with
    | some (name, value) =>
      set { s with rest := value ++ s.rest.drop name.length,
                   aliases := s.aliases.filter fun a => a.1 ≠ name }
    | none => pure ()
    let s ← get
    let ext ← extended
    let w := wordAhead s.rest
    let inner := readList true n
    let named := Raw.isName w && !reservedWords.contains w &&
      (dropBlanks false false 0 (s.rest.drop w.length)).2.head? = some '('
    if named then
      discard <| accept w
      readFunction w n
    else if w = "\x7b" then
      discard <| accept w
      let body ← readList false n
      expectWord "\x7d"
      readRedirected s.line body n
    else if w = "if" then
      discard <| accept w
      readRedirected s.line (← readChoice n) n
    else if w = "while" || w = "until" then
      discard <| accept w
      let condition ← readList false n
      expectWord "do"
      let body ← readList false n
      expectWord "done"
      readRedirected s.line (.loop (w = "until") condition body) n
    else if w = "for" then
      discard <| accept w
      blanks
      readRedirected s.line (← readFor n) n
    else if w = "case" then
      discard <| accept w
      let subject ← readWord inner
      expectWord "in"
      readRedirected s.line (.select subject (← readCases n [])) n
    else if ext && w = "[[" then
      discard <| accept w
      newlines
      let c ← readCondition inner n
      expectWord "]]"
      readRedirected s.line (.condition c) n
    else if ext && w = "function" then
      discard <| accept w
      blanks
      let name ← takeWhile Place.bare.isPlain
      readFunction name n
    else if reservedWords.contains w then unexpected []
    else if ← acceptIf ext "((" then
      let term ← Word.read inner .term
      Word.expect "))" "Syntax error: Missing '))'"
      readRedirected s.line (.compute term) n
    else if ← accept "(" then
      let body ← readList false n
      blanks
      unless ← accept ")" do
        unexpected ")"
      readRedirected s.line (.subshell body) n
    else readSimple inner s.line bound {}

/-- Reads the redirections of a compound command. -/
def readRedirected (line : Nat) (body : Script) : Nat → Read Script
  | 0 => return body
  | n + 1 => do
    match ← readRedirections (readList true n) bound [] with
    | [] => return body
    | redirections => return .redirected line body redirections

/-- Reads the definition of a function after its name. -/
def readFunction (name : Raw) : Nat → Read Script
  | 0 => refuse "Syntax error: script too long"
  | n + 1 => do
    blanks
    if ← accept "(" then
      blanks
      unless ← accept ")" do
        unexpected ")"
    newlines
    return .define name (← readCommand n)

/-- Reads a choice after the word that opens it. -/
def readChoice : Nat → Read Script
  | 0 => refuse "Syntax error: script too long"
  | n + 1 => do
    let condition ← readList false n
    expectWord "then"
    let yes ← readList false n
    newlines
    if ← acceptWord "elif" then return .choice condition yes (← readChoice n)
    else if ← acceptWord "else" then
      let no ← readList false n
      expectWord "fi"
      return .choice condition yes no
    else
      expectWord "fi"
      return .choice condition yes (.list [])

/-- Reads a loop over words, or one with an arithmetic condition, after the word that opens it. -/
def readFor : Nat → Read Script
  | 0 => refuse "Syntax error: script too long"
  | n + 1 => do
    let inner := readList true n
    let ext ← extended
    if ← acceptIf ext "((" then
      let start ← Word.read inner (.braces true [';'])
      skip
      let condition ← Word.read inner (.braces true [';'])
      skip
      let step ← Word.read inner .term
      Word.expect "))" "Syntax error: Missing '))'"
      blanks
      discard <| accept ";"
      let body ← readBody n
      return .count start condition step body
    else
      let name := wordAhead (← get).rest
      unless Raw.isName name do
        refuse "Syntax error: Bad for loop variable"
      discard <| accept name
      newlines
      if ← acceptWord "in" then
        let words ← readWords inner bound []
        unless (← ahead "\n") || (← acceptIf (!(← ahead ";;")) ";") do
          unexpected []
        return .each name (some words) (← readBody n)
      else
        unless ← ahead ";;" do
          discard <| accept ";"
        return .each name none (← readBody n)

/-- Reads the body of a loop, between the words around it. -/
def readBody : Nat → Read Script
  | 0 => refuse "Syntax error: script too long"
  | n + 1 => do
    newlines
    if ← acceptIf ((← extended) && (← aheadWord "\x7b")) "\x7b" then
      let body ← readList false n
      expectWord "\x7d"
      return body
    else
      expectWord "do"
      let body ← readList false n
      expectWord "done"
      return body

/-- Reads the cases of a selection up to the word that closes it. -/
def readCases : Nat → List (List Word × Script × Sequel) → Read (List (List Word × Script × Sequel))
  | 0, _ => refuse "Syntax error: script too long"
  | n + 1, done => do
    newlines
    if ← acceptWord "esac" then return done.reverse
    else
      discard <| accept "("
      let patterns ← readPatterns n []
      let body ← readList true n
      newlines
      let ext ← extended
      if ← acceptIf ext ";;&" then readCases n ((patterns, body, .search) :: done)
      else if ← accept ";;" then readCases n ((patterns, body, .done) :: done)
      else if ← acceptIf ext ";&" then readCases n ((patterns, body, .body) :: done)
      else
        expectWord "esac"
        return ((patterns, body, .done) :: done).reverse

/-- Reads the patterns of a case and the bracket after them. -/
def readPatterns : Nat → List Word → Read (List Word)
  | 0, _ => refuse "Syntax error: script too long"
  | n + 1, done => do
    let w ← readWord (readList true n)
    blanks
    if ← accept "|" then readPatterns n (w :: done)
    else if ← accept ")" then return (w :: done).reverse
    else unexpected ")"

end

/-- Reads commands up to the end of a line; `done` holds those already read. -/
def readLineItems : Nat → Nat → List Script → Read Script
  | _, 0, _ => refuse "Syntax error: script too long"
  | depth, n + 1, done => do
    let item ← readAndOr depth
    blanks
    let (item, more) ← readSeparator item false
    blanks
    let atEnd := (← get).rest.isEmpty || (← accept "\n")
    if atEnd then return .list (item :: done).reverse
    else if more then readLineItems depth n (item :: done)
    else unexpected []

/-- Reads the commands up to the end of a line on which they may end. There is nothing at the end of
the text. -/
def readLine : Read (Option Script) := do
  newlines
  if (← get).rest.isEmpty then return none
  else return some (← readLineItems bound bound [])

end Script

end Shell

end Haybuild
