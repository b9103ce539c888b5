import Haybuild.Shell.Program.Lines
import Haybuild.Shell.Regex

/-!
# Editing streams

`sed` carries out an editing script on each line of its input. The script is a row of steps, each
with an address that tells for which lines it is meant; blocks and labels become jumps to other
steps. `Editor.advance` carries out one step, so the course of an edit is a row of editors.
-/

namespace Haybuild

namespace Shell

namespace Program

open Shell.Task

/-- A place in the input. -/
inductive Spot where
  | line (n : Nat)
  | last
  /-- Every so many lines from one on. -/
  | every (first step : Nat)
  /-- The lines that match; without an expression the last one that was used counts. -/
  | found (r : Option Regex) (folds : Bool)

/-- Where a range of lines ends. -/
inductive RangeEnd where
  | spot (s : Spot)
  /-- So many lines after its start. -/
  | after (n : Nat)
  /-- At the next line whose number is a multiple. -/
  | multiple (n : Nat)

/-- The lines for which a step is meant. -/
structure Address where
  first : Option Spot := none
  second : Option RangeEnd := none
  negated : Bool := false

/-- A part of what is put in the place of a match. -/
inductive Substitute where
  | text (t : Raw)
  | group (n : Nat)
  /-- From here on letters are made large or small: all of them, or the next one. -/
  | casing (upper : Option Bool) (once : Bool)

/-- What a step does. -/
inductive Edit where
  | substitute (r : Option Regex) (folds : Bool) (new : List Substitute) (all : Bool) (nth : Nat)
      (prints : Bool) (file : Option Raw)
  | transliterate (pairs : List (Char × Char))
  | delete
  | deleteFirst
  | print
  | printFirst
  | number
  | next
  | join
  | hold (adds : Bool)
  | recall (adds : Bool)
  | exchange
  | append (t : Raw)
  | insert (t : Raw)
  | change (t : Raw)
  | quit (prints : Bool) (status : Nat)
  | readFile (path : Raw)
  | writeFile (path : Raw)
  | label (name : Raw)
  | branch (name : Raw)
  | branchIf (changed : Bool) (name : Raw)
  | reveal
  | open_
  | close
  | nothing

/-- A step of a script. -/
structure Step where
  address : Address
  edit : Edit

/-! ## Reading scripts -/

/-- Reading a script: what is left of it, or why it is refused. -/
abbrev ReadScript := StateT Raw (Except Raw)

namespace ReadScript

/-- Refuses the script. -/
def refuse {α : Type} (message : Raw) : ReadScript α :=
  throw message

/-- Passes over characters of a kind, and gives them. -/
def span (p : Char → Bool) : ReadScript Raw := do
  let t ← get
  let taken := t.takeWhile p
  set (t.drop taken.length)
  return taken

/-- Passes over a character if it is at the front. -/
def accept (c : Char) : ReadScript Bool := do
  match ← get with
  | d :: r =>
    if d = c then
      set r
      return true
    else return false
  | [] => return false

/-- The text up to a delimiter that has no backslash before it, and the text after that. With
`keeps`, backslashes before other characters stay. -/
def upTo (delimiter : Char) : Nat → Bool → Raw → Raw → Option (Raw × Raw)
  | 0, _, _, _ => none
  | _ + 1, _, _, [] => none
  | n + 1, set_, done, c :: r =>
    if c = '\\' then
      match r with
      | d :: rest =>
        if d = delimiter && !(("*.[]^$+?(){}|".toList).contains d && d ≠ '|') then
          upTo delimiter n set_ (d :: done) rest
        else upTo delimiter n set_ (d :: '\\' :: done) rest
      | [] => none
    else if c = '[' && !set_ then
      let caret : Raw := if r.head? = some '^' then ['^'] else []
      let r := r.drop caret.length
      let bracket : Raw := if r.head? = some ']' then [']'] else []
      upTo delimiter n true (bracket ++ caret ++ c :: done) (r.drop bracket.length)
    else if c = ']' && set_ then upTo delimiter n false (c :: done) r
    else if c = delimiter && !set_ then some (done.reverse, r)
    else upTo delimiter n set_ (c :: done) r

/-- Reads an expression up to a delimiter. -/
def expression (extended : Bool) (delimiter : Char) : ReadScript (Option Regex) := do
  let t ← get
  match upTo delimiter (t.length + 1) false [] t with
  | none => refuse "unterminated address regex"
  | some (pattern, rest) =>
    set rest
    if pattern.isEmpty then return none
    else
      match Regex.parse? extended pattern with
      | some r => return some r
      | none => refuse "Invalid regular expression"

/-- Reads a number. -/
def number? : ReadScript (Option Nat) := do
  return Raw.nat? (← span Char.isDigit)

/-- Reads a place in the input. -/
def spot? (extended : Bool) : ReadScript (Option Spot) := do
  match ← get with
  | '$' :: r =>
    set r
    return some .last
  | '/' :: r =>
    set r
    let r ← expression extended '/'
    return some (.found r (← accept 'I'))
  | '\\' :: d :: r =>
    set r
    let r ← expression extended d
    return some (.found r (← accept 'I'))
  | _ =>
    match ← number? with
    | none => return none
    | some n =>
      if ← accept '~' then return some (.every n ((← number?).getD 0))
      else return some (.line n)

/-- Reads an address. -/
def address (extended : Bool) : ReadScript Address := do
  let first ← spot? extended
  discard <| span fun c => c = ' '
  let second ← if first.isSome && (← accept ',') then do
      discard <| span fun c => c = ' '
      if ← accept '+' then do pure (some (RangeEnd.after ((← number?).getD 0)))
      else if ← accept '~' then do pure (some (RangeEnd.multiple ((← number?).getD 0)))
      else
        match ← spot? extended with
        | some s => pure (some (RangeEnd.spot s))
        | none => refuse "unexpected `,'"
    else pure none
  let bangs ← span fun c => c = ' ' || c = '!'
  return ⟨first, second, bangs.contains '!'⟩

/-- The parts of a replacement text; the number bounds its characters. -/
def substitutes : Nat → Raw → List Substitute
  | 0, _ => []
  | _ + 1, [] => []
  | n + 1, '&' :: r => .group 0 :: substitutes n r
  | n + 1, '\\' :: c :: r =>
    let part : Substitute :=
      if c.isDigit then .group (c.toNat - 48)
      else if c = 'n' then .text ['\n']
      else if c = 't' then .text ['\t']
      else if c = 'U' then .casing (some true) false
      else if c = 'L' then .casing (some false) false
      else if c = 'u' then .casing (some true) true
      else if c = 'l' then .casing (some false) true
      else if c = 'E' then .casing none false
      else .text [c]
    part :: substitutes n r
  | n + 1, c :: r => .text [c] :: substitutes n r

/-- A text with its escaped newlines and backslashes taken for what they mean. -/
def plainText : Nat → Raw → Raw
  | 0, t => t
  | n + 1, '\\' :: c :: r => (if c = 'n' then '\n' else c) :: plainText n r
  | n + 1, c :: r => c :: plainText n r
  | _ + 1, [] => []

/-- The replacement text up to a delimiter, and the text after it. -/
def replacement (delimiter : Char) : Nat → Raw → Raw → Option (Raw × Raw)
  | 0, _, _ => none
  | _ + 1, _, [] => none
  | n + 1, done, '\\' :: d :: r =>
    if d = delimiter && d ≠ '&' && !d.isDigit then replacement delimiter n (d :: done) r
    else replacement delimiter n (d :: '\\' :: done) r
  | n + 1, done, c :: r =>
    if c = delimiter then some (done.reverse, r) else replacement delimiter n (c :: done) r

/-- Reads a replacement after its name. -/
def substitute (extended : Bool) : ReadScript Edit := do
  match ← get with
  | [] => refuse "unterminated `s' command"
  | d :: r =>
    set r
    let expression ← expression extended d
    let t ← get
    match replacement d (t.length + 1) [] t with
    | none => refuse "unterminated `s' command"
    | some (new, rest) =>
      set rest
      let flags ← span fun c => c.isDigit || ("gpiIeMm" : Raw).contains c
      let file ← if ← accept 'w' then do
          discard <| span fun c => c = ' '
          some <$> span fun c => c ≠ '\n'
        else pure none
      let digits := flags.filter Char.isDigit
      return .substitute expression (flags.contains 'i' || flags.contains 'I')
        (substitutes (new.length + 1) new) (flags.contains 'g') ((Raw.nat? digits).getD 1)
        (flags.contains 'p') file

/-- Reads a table of characters after its name. -/
def transliterate : ReadScript Edit := do
  match ← get with
  | [] => refuse "unterminated `y' command"
  | d :: r =>
    match replacement d (r.length + 1) [] r with
    | none => refuse "unterminated `y' command"
    | some (old, r) =>
      match replacement d (r.length + 1) [] r with
      | none => refuse "unterminated `y' command"
      | some (new, rest) =>
        set rest
        let old := plainText (old.length + 1) old
        let new := plainText (new.length + 1) new
        if old.length ≠ new.length then refuse "strings for `y' command are different lengths"
        else return .transliterate (old.zip new)

/-- Takes the lines of a text: one that ends with a backslash goes on in the next. -/
def textLines : Nat → Raw → Raw → Raw × Raw
  | 0, done, r => (done.reverse, r)
  | n + 1, done, '\\' :: c :: r => textLines n (c :: done) r
  | _ + 1, done, '\n' :: r => (done.reverse, r)
  | n + 1, done, c :: r => textLines n (c :: done) r
  | _ + 1, done, [] => (done.reverse, [])

/-- Reads the text that a step writes. -/
def text : ReadScript Raw := do
  discard <| span fun c => c = ' ' || c = '\t'
  let t ← get
  let t := match t with
    | '\\' :: r =>
      let after := r.dropWhile fun c => c = ' ' || c = '\t'
      match after with
      | '\n' :: rest => rest
      | _ => r
    | r => r
  if t.isEmpty then refuse "expected \\ after `a', `c' or `i'"
  let (taken, rest) := textLines (t.length + 1) [] t
  set rest
  return taken ++ ['\n']

/-- Reads a name up to the end of a step. -/
def name (ends : Char → Bool) : ReadScript Raw := do
  discard <| span fun c => c = ' ' || c = '\t'
  let t ← span fun c => !ends c
  return (t.reverse.dropWhile Raw.isSpace).reverse

/-- Reads a step after its address. -/
def edit (extended : Bool) : ReadScript Edit := do
  let isEnd (c : Char) : Bool := c = '\n' || c = ';' || c = '\x7d'
  match ← get with
  | [] => refuse "missing command"
  | c :: r =>
    set r
    if c = 's' then substitute extended
    else if c = 'y' then transliterate
    else if c = 'd' then return .delete
    else if c = 'D' then return .deleteFirst
    else if c = 'p' then return .print
    else if c = 'P' then return .printFirst
    else if c = '=' then return .number
    else if c = 'n' then return .next
    else if c = 'N' then return .join
    else if c = 'h' then return .hold false
    else if c = 'H' then return .hold true
    else if c = 'g' then return .recall false
    else if c = 'G' then return .recall true
    else if c = 'x' then return .exchange
    else if c = 'l' then return .reveal
    else if c = 'a' then return .append (← text)
    else if c = 'i' then return .insert (← text)
    else if c = 'c' then return .change (← text)
    else if c = 'q' || c = 'Q' then
      discard <| span fun c => c = ' '
      return .quit (c = 'q') ((← number?).getD 0)
    else if c = 'r' then return .readFile (← name (· = '\n'))
    else if c = 'w' then return .writeFile (← name (· = '\n'))
    else if c = ':' then return .label (← name fun c => c = '\n' || c = ';')
    else if c = 'b' then return .branch (← name isEnd)
    else if c = 't' then return .branchIf true (← name isEnd)
    else if c = 'T' then return .branchIf false (← name isEnd)
    else if c = '\x7b' then return .open_
    else if c = '\x7d' then return .close
    else if c = '#' then
      discard <| span fun c => c ≠ '\n'
      return .nothing
    else refuse ("unknown command: `" ++ [c] ++ "'")

/-- Reads the steps of a script; the number bounds its characters. -/
def steps (extended : Bool) : Nat → List Step → ReadScript (List Step)
  | 0, done => return done.reverse
  | n + 1, done => do
    discard <| span fun c => c = ' ' || c = '\t' || c = '\n' || c = ';'
    if (← get).isEmpty then return done.reverse
    else
      let address ← address extended
      let edit ← edit extended
      let simple := match edit with
        | .open_ | .close | .append _ | .insert _ | .change _ | .nothing => false
        | _ => true
      if simple then
        discard <| span fun c => c = ' ' || c = '\t'
        match (← get).head? with
        | some c =>
          unless c = ';' || c = '\n' || c = '\x7d' || c = '#' do
            refuse "extra characters after command"
        | none => pure ()
      steps extended n (⟨address, edit⟩ :: done)

end ReadScript

/-! ## Carrying out scripts -/

/-- The course of an edit. -/
structure Editor where
  /-- The number of the next step. -/
  next : Nat := 0
  space : Raw := []
  held : Raw := []
  /-- The lines that were not read yet. -/
  rest : List Raw
  /-- The number of the line that was read last. -/
  line : Nat := 0
  /-- The steps whose range was begun, with the number of the line where it ends, if that is known. -/
  ranges : List (Nat × Option Nat) := []
  /-- The expression that was used last. -/
  used : Option Regex := none
  changed : Bool := false
  /-- What is written after the line. -/
  queue : List Raw := []
  /-- What was written, last first, and whether it lacks the end of its line. -/
  out : List Raw := []
  lacksEnd : Bool := false
  files : List (Raw × Raw) := []
  status : Nat := 0
  finished : Bool := false

/-- What an edit works with. -/
structure EditSetting where
  steps : Array Step
  quiet : Bool
  /-- The last line of the input has no line feed. -/
  bare : Bool
  /-- The contents of the files that the script reads. -/
  texts : List (Raw × Raw)

namespace Editor

/-- Writes a text. -/
def write (e : Editor) (t : Raw) (ended : Bool) : Editor :=
  let gap : List Raw := if e.lacksEnd then [['\n']] else []
  { e with out := (if ended then t ++ ['\n'] else t) :: (gap ++ e.out), lacksEnd := !ended }

/-- Writes the line. -/
def print (k : EditSetting) (e : Editor) : Editor :=
  e.write e.space !(k.bare && e.rest.isEmpty)

/-- Writes what is to be written after the line. -/
def flush (e : Editor) : Editor :=
  let e := e.queue.reverse.foldl (fun e t =>
    if t.getLast? = some '\n' then e.write t.dropLast true else e.write t false) e
  { e with queue := [] }

/-- Ends the work on a line. -/
def endLine (k : EditSetting) (prints : Bool) (e : Editor) : Editor :=
  let e := if prints && !k.quiet then print k e else e
  e.flush

/-- Reads the next line and starts with the first step. -/
def begin_ (e : Editor) : Editor :=
  match e.rest with
  | [] => { e with finished := true }
  | l :: r => { e with space := l, rest := r, line := e.line + 1, next := 0, changed := false }

/-- The line is at a place. The expression that was used is noted. -/
def isAt (e : Editor) (s : Spot) : Bool × Editor :=
  match s with
  | .line n => (e.line = n, e)
  | .last => (e.rest.isEmpty, e)
  | .every first step =>
    (if step = 0 then e.line = first else first ≤ e.line && (e.line - first) % step = 0, e)
  | .found r folds =>
    match r.or e.used with
    | some r => ((r.find? folds e.space 0).isSome, { e with used := some r })
    | none => (false, e)

/-- The step is meant for the line. -/
def isMeant (e : Editor) (a : Address) : Bool × Editor :=
  let (meant, e) : Bool × Editor :=
    match a.first, a.second with
    | none, _ => (true, e)
    | some s, none => e.isAt s
    | some s, some last =>
      let others := e.ranges.filter fun r => r.1 ≠ e.next
      let close : Editor := { e with ranges := others }
      let stay (until_ : Option Nat) : Editor := { e with ranges := (e.next, until_) :: others }
      match e.ranges.lookup e.next with
      | some (some n) => if e.line < n then (true, e) else (e.line = n, close)
      | some none =>
        match last with
        | .spot s =>
          let (ends, f) := e.isAt s
          (true, if ends then { f with ranges := others } else f)
        | _ => (true, close)
      | none =>
        let zero : Bool := match s with
          | .line 0 => e.line = 1
          | _ => false
        let (starts, f) : Bool × Editor := if zero then (true, e) else e.isAt s
        if !starts then (false, f)
        else
          match last with
          | .after n => (true, if n = 0 then f else stay (some (f.line + n)))
          | .multiple n =>
            let goal := if n = 0 then f.line else (f.line + n - 1) / n * n
            (true, if goal ≤ f.line then f else stay (some goal))
          | .spot (.line n) => (true, if n ≤ f.line then f else stay (some n))
          | .spot s =>
            let (ends, f) : Bool × Editor := if zero then f.isAt s else (false, f)
            (true, if ends then f else { f with ranges := (e.next, none) :: others })
  (meant != a.negated, e)

/-- The text that is put in the place of a match. -/
def expand (m : Regex.Match) (whole : Raw) (parts : List Substitute) : Raw :=
  let apply (upper : Option Bool) (t : Raw) : Raw :=
    match upper with
    | some true => t.map Char.toUpper
    | some false => t.map Char.toLower
    | none => t
  let put (state : Option Bool × Option Bool × List Raw) (t : Raw) :
      Option Bool × Option Bool × List Raw :=
    let (all, once, done) := state
    match t with
    | [] => state
    | c :: r =>
      if once.isSome then (all, none, (apply once [c] ++ apply all r) :: done)
      else (all, none, apply all t :: done)
  let (_, _, done) := parts.foldl (fun state part =>
    match part with
    | .text t => put state t
    | .group n => put state ((m.text? whole n).getD [])
    | .casing upper true => (state.1, upper, state.2.2)
    | .casing upper false => (upper, none, state.2.2)) (none, none, [])
  done.reverse.flatten

/-- A text with matches replaced from an offset on: the one of a number, and with `all` those after
it. The number that bounds the matches comes first. -/
def replaceFrom (r : Regex) (folds : Bool) (parts : List Substitute) (whole : Raw) (all : Bool) :
    Nat → Nat → Nat → Option Nat → List Raw × Bool
  | 0, _, offset, _ => ([whole.drop offset], false)
  | n + 1, nth, offset, last =>
    match r.find? folds whole offset with
    | none => ([whole.drop offset], false)
    | some m =>
      let before := (whole.take m.start).drop offset
      let here := (whole.take m.stop).drop m.start
      let empty := m.start = m.stop
      if empty && last = some m.start then
        match whole[m.start]? with
        | none => ([before], false)
        | some c =>
          let (rest, changed) := replaceFrom r folds parts whole all n nth (m.start + 1) none
          (before :: [c] :: rest, changed)
      else
        let chosen := nth ≤ 1
        let new := if chosen then expand m whole parts else here
        if chosen && !all then ([before, new, whole.drop m.stop], true)
        else if empty then
          match whole[m.start]? with
          | none => ([before, new], chosen)
          | some c =>
            let (rest, changed) := replaceFrom r folds parts whole all n (nth - 1) (m.start + 1) none
            (before :: new :: [c] :: rest, changed || chosen)
        else
          let (rest, changed) := replaceFrom r folds parts whole all n (nth - 1) m.stop (some m.stop)
          (before :: new :: rest, changed || chosen)

/-- Adds a line to what is written to a file. -/
def writeTo (e : Editor) (path t : Raw) : Editor :=
  if path = "/dev/stdout" then e.write t true
  else
    let old := (e.files.lookup path).getD []
    let others := e.files.filter fun f => f.1 ≠ path
    { e with files := (path, old ++ t ++ ['\n']) :: others }

/-- The number of the step behind the one that closes a block. -/
def afterBlock (steps : Array Step) : Nat → Nat → Nat → Nat
  | 0, _, i => i
  | n + 1, depth, i =>
    match steps[i]? with
    | none => i
    | some ⟨_, .open_⟩ => afterBlock steps n (depth + 1) (i + 1)
    | some ⟨_, .close⟩ => if depth ≤ 1 then i + 1 else afterBlock steps n (depth - 1) (i + 1)
    | some _ => afterBlock steps n depth (i + 1)

/-- Goes to a label, or to the end of the script. -/
def jump (k : EditSetting) (e : Editor) (name : Raw) : Editor :=
  let found := k.steps.findIdx? fun s =>
    match s.edit with
    | .label l => l = name
    | _ => false
  { e with next := if name.isEmpty then k.steps.size else found.getD k.steps.size }

/-- A text as `l` shows it. -/
def visible_ (t : Raw) : Raw :=
  t.flatMap fun c =>
    if c = '\\' then ['\\', '\\']
    else if c = '\n' then ['\\', 'n']
    else if c = '\t' then ['\\', 't']
    else if 32 ≤ c.toNat && c.toNat < 127 then [c]
    else '\\' :: Raw.padLeft '0' 3 (Nat.toDigits 8 c.toNat)

/-- Carries out what a step does. -/
def carryOut (k : EditSetting) (e : Editor) (edit : Edit) : Editor :=
  let go : Editor := { e with next := e.next + 1 }
  match edit with
  | .nothing | .open_ | .close | .label _ => go
  | .delete => (endLine k false e).begin_
  | .deleteFirst =>
    if e.space.contains '\n' then
      let e := endLine k false e
      { e with space := (e.space.dropWhile (· ≠ '\n')).drop 1, next := 0 }
    else (endLine k false e).begin_
  | .print => print k go
  | .printFirst => go.write (e.space.takeWhile (· ≠ '\n')) true
  | .number => go.write (Text.ofNat e.line) true
  | .reveal => go.write (visible_ e.space ++ ['$']) true
  | .next =>
    match e.rest with
    | [] => { endLine k true e with finished := true }
    | l :: r => { endLine k true go with space := l, rest := r, line := e.line + 1 }
  | .join =>
    match e.rest with
    | [] => { endLine k true e with finished := true }
    | l :: r => { go.flush with space := e.space ++ '\n' :: l, rest := r, line := e.line + 1 }
  | .hold adds => { go with held := if adds then e.held ++ '\n' :: e.space else e.space }
  | .recall adds => { go with space := if adds then e.space ++ '\n' :: e.held else e.held }
  | .exchange => { go with space := e.held, held := e.space }
  | .append t => { go with queue := t :: e.queue }
  | .insert t => go.write t.dropLast true
  | .change t =>
    let inside := (e.ranges.lookup e.next).isSome
    (endLine k false (if inside then e else e.write t.dropLast true)).begin_
  | .quit prints status => { endLine k prints e with finished := true, status }
  | .readFile path =>
    match k.texts.lookup path with
    | some t => if t.isEmpty then go else { go with queue := t :: e.queue }
    | none => go
  | .writeFile path => go.writeTo path e.space
  | .branch name => e.jump k name
  | .branchIf changed name =>
    if e.changed = changed then { e with changed := false }.jump k name
    else { go with changed := if changed then e.changed else false }
  | .transliterate pairs =>
    { go with space := e.space.map fun c => (pairs.lookup c).getD c }
  | .substitute r folds parts all nth prints file =>
    match r.or e.used with
    | none => go
    | some r =>
      let (pieces, changed) :=
        replaceFrom r folds parts e.space all (e.space.length + 2) nth 0 none
      let e := { go with used := some r }
      if !changed then e
      else
        let e := { e with space := pieces.flatten, changed := true }
        let e := if prints then print k e else e
        match file with
        | some path => e.writeTo path e.space
        | none => e

/-- Carries out the next step. -/
def advance (k : EditSetting) (e : Editor) : Editor :=
  match k.steps[e.next]? with
  | none => (endLine k true e).begin_
  | some step =>
    let (meant, e) := e.isMeant step.address
    if meant then e.carryOut k step.edit
    else
      match step.edit with
      | .open_ => { e with next := afterBlock k.steps k.steps.size 1 (e.next + 1) }
      | _ => { e with next := e.next + 1 }

/-- Carries out steps up to the end of the input; the number bounds them. -/
def runTo (k : EditSetting) : Nat → Editor → Editor
  | 0, e => e
  | n + 1, e => if e.finished then e else runTo k n (e.advance k)

/-- The greatest number of steps. -/
def stepBound : Nat := 1000000000000

end Editor

/-- Edits a text. -/
def editText (steps : Array Step) (quiet : Bool) (texts : List (Raw × Raw)) (t : Raw) : Editor :=
  let k : EditSetting := ⟨steps, quiet, t.getLast?.any (· ≠ '\n'), texts⟩
  Editor.runTo k Editor.stepBound (({ rest := Raw.lines t } : Editor).begin_)

/-- Edits files or the input. -/
def sed : Program := fun arguments => do
  let inPlace := fun (t : Raw) => "-i".toList.isPrefixOf t || t = "--in-place"
  let place := arguments.find? inPlace
  let a ← Arguments.read
    { flags := "nErsuz", valued := "ef"
      names := [("quiet", 'n'), ("silent", 'n'), ("expression", 'e'), ("file", 'f'),
        ("regexp-extended", 'E'), ("separate", 's'), ("null-data", 'z')] }
    (arguments.filter fun t => !inPlace t)
  let mut fragments : List Raw := []
  for o in a.options do
    if o.1 = 'e' then fragments := o.2 :: fragments
    if o.1 = 'f' then
      match ← readPath o.2 with
      | .ok t => fragments := t :: fragments
      | .error cause => fail ("couldn't open file " ++ o.2 ++ ": " ++ cause.words) 1
  let named := a.has 'e' || a.has 'f'
  if !named && a.operands.isEmpty then
    write 2 "Usage: sed [OPTION]... {script-only-if-no-other-script} [input-file]...\n"
    fault 1
    throw ()
  let script := if named then Text.join "\n" fragments.reverse else a.operands.headD []
  let paths := if named then a.operands else a.operands.drop 1
  let quiet := a.has 'n' || "#n\n".toList.isPrefixOf script
  match (ReadScript.steps (a.has 'E' || a.has 'r') (script.length + 1) []).run script with
  | .error why => fail ("-e expression #1, char " ++ Text.ofNat script.length ++ ": " ++ why) 1
  | .ok (steps, _) =>
    let mut texts : List (Raw × Raw) := []
    for s in steps do
      match s.edit with
      | .readFile path =>
        match ← readPath path with
        | .ok t => texts := (path, t) :: texts
        | .error _ => pure ()
      | .writeFile path =>
        unless path = "/dev/stdout" do
          discard <| writePath path [] false
      | _ => pure ()
    let finishWith (e : Editor) : Task Unit := do
      for f in e.files do
        discard <| writePath f.1 f.2 false
      fault e.status
    if place.isSome || a.has 's' then
      for path in paths do
        match ← readPath path with
        | .ok t =>
          let e := editText steps.toArray quiet texts t
          let out := e.out.reverse.flatten
          match place with
          | some option =>
            let suffix := option.drop 2
            if suffix ≠ [] && option.head? ≠ option[1]? then
              discard <| writePath (path ++ suffix) t false
            discard <| writePath path out false
          | none => say out
          finishWith e
        | .error cause => complain ("can't read " ++ path ++ ": " ++ cause.words) 2
    else
      let mut whole : List Raw := []
      for path in if paths.isEmpty then ["-".toList] else paths do
        match ← readPath path with
        | .ok t =>
          let joined := if t.getLast?.any (· ≠ '\n') then t ++ ['\n'] else t
          whole := (if path = paths.getLastD path then t else joined) :: whole
        | .error .isDirectory => complain ("couldn't edit " ++ path ++ ": not a regular file") 2
        | .error cause => complain ("can't read " ++ path ++ ": " ++ cause.words) 2
      let e := editText steps.toArray quiet texts whole.reverse.flatten
      say e.out.reverse.flatten
      finishWith e

end Program

end Shell

end Haybuild
