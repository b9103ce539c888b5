import Haybuild.Shell.Expand
import Haybuild.Shell.Printf
import Haybuild.Shell.Test

/-!
# Commands of the shell itself

These commands read and change the session: its directory, variables, parameters, options, aliases
and traps. Each takes its arguments and sets the status. Those that carry out other commands are
with the scripts.
-/

namespace Haybuild

namespace Shell

/-- A command of the shell. -/
abbrev Builtin := List Raw → Act Unit

namespace Builtin

open Act

/-- The dialect is the extended one. -/
def isExtended : Act Bool := do
  return (← get).dialect = .extended

/-- Writes to the output, and complains if it cannot. -/
def say (command t : Raw) : Act Unit := do
  if ← emit 1 t then finish 0
  else
    match (← get).dialect with
    | .standard => fail (command ++ ": " ++ command ++ ": I/O error") 1
    | .extended => fail (command ++ ": write error: Bad file descriptor") 1

/-- The number of an argument; other texts end the shell. -/
def number (command t : Raw) : Act Nat := do
  match Raw.nat? t with
  | some n => return n
  | none =>
    match (← get).dialect with
    | .standard => fatal (command ++ ": Illegal number: " ++ t) 2
    | .extended => fatal (command ++ ": " ++ t ++ ": numeric argument required") 2

/-- The options at the front, those among `valued` with the values they take, and the operands. -/
def valuedOptions (valued : Raw) : Nat → List Raw → List (Char × Raw) × List Raw
  | 0, as => ([], as)
  | _ + 1, [] => ([], [])
  | n + 1, a :: r =>
    match a with
    | ['-', '-'] => ([], r)
    | '-' :: c :: cs =>
      if !valued.contains c then
        let (more, rest) := valuedOptions valued n (if cs = [] then r else ('-' :: cs) :: r)
        ((c, []) :: more, rest)
      else if cs = [] then
        let (more, rest) := valuedOptions valued n (r.drop 1)
        ((c, r.headD []) :: more, rest)
      else
        let (more, rest) := valuedOptions valued n r
        ((c, cs) :: more, rest)
    | _ => ([], a :: r)

/-- The letters of options at the front, and the operands. -/
def letters : List Raw → Raw × List Raw
  | ['-', '-'] :: r => ([], r)
  | ('-' :: c :: cs) :: r =>
    let (more, rest) := letters r
    (c :: cs ++ more, rest)
  | as => ([], as)

/-- Refuses an option that is not among some. -/
def demandOptions (command : Raw) (known given : Raw) : Act Unit := do
  match List.find? (fun c => !known.contains c) given with
  | none => pure ()
  | some c =>
    match (← get).dialect with
    | .standard => fatal (command ++ ": Illegal option -" ++ [c]) 2
    | .extended => fatal (command ++ ": -" ++ [c] ++ ": invalid option") 2

/-! ## Output -/

/-- Writes its arguments. -/
def echo : Builtin := fun arguments => do
  if ← isExtended then say "echo" (Printf.extendedEcho arguments)
  else say "echo" (Printf.echo arguments)

/-- Writes a format with arguments. -/
def printf : Builtin := fun arguments => do
  let ext ← isExtended
  let style := if ext then Printf.extended else Printf.standard
  let (variable_, arguments) := match ext, arguments with
    | true, ['-', 'v'] :: name :: r => (some name, r)
    | _, as => (none, as)
  match if arguments.head? = some "--" then arguments.drop 1 else arguments with
  | [] => fail "printf: usage: printf format [arg ...]" 2
  | format :: rest =>
    if format.head? = some '-' && arguments.head? ≠ some "--" && 1 < format.length then
      fail ("printf: Illegal option " ++ format.take 2) 2
    else
      let p := Printf.print style format rest
      for c in p.complaints do
        complain ("printf: " ++ c)
      match variable_ with
      | some name => assign name p.written.reverse
      | none => discard <| emit 1 p.written.reverse
      finish p.status

/-! ## Tests -/

/-- Ends with the outcome of a test. -/
def judge (command : Raw) (arguments : List Raw) : Act Unit := do
  match Test.evaluate (← get) arguments with
  | .ok v => finish (if v then 0 else 1)
  | .error why => fail (command ++ ": " ++ why) 2

/-- The command `test`. -/
def test : Builtin := judge "test"

/-- The command `[`, whose last argument is a bracket. -/
def bracket : Builtin := fun arguments =>
  if arguments.getLast? = some "]" then judge "[" arguments.dropLast
  else fail "[: missing ]" 2

/-! ## The working directory -/

/-- The directory that a path stands for below one of those in which directories are looked for, and
whether that one has a name. A path that starts at the root or with dots is not looked for. -/
def onSearchPath? (s : Session) (path : Raw) : Option (Bool × Raw) :=
  let first := path.takeWhile (· ≠ '/')
  match if path = [] || first = [] || first = "." || first = ".." then none else s.get? "CDPATH" with
  | none => none
  | some places =>
    ((Text.cut ':' places).map fun d => (!d.isEmpty, Path.within d path)).find? fun p =>
      match s.find? p.2 with
      | .ok .directory => true
      | _ => false

/-- Changes the working directory. -/
def cd : Builtin := fun arguments => do
  let s ← get
  let (_, operands) := if arguments.head? = some "-" then ([], arguments) else letters arguments
  let back := operands.head? = some "-"
  let path := match operands with
    | [] => (s.get? "HOME").getD []
    | p :: _ => if back then (s.get? "OLDPWD").getD [] else p
  let lost (cause : PathCause) : Act Unit :=
    match s.dialect with
    | .standard => fail ("cd: can't cd to " ++ path) 2
    | .extended => fail ("cd: " ++ path ++ ": " ++ cause.words) 1
  let listed := onSearchPath? s path
  let tells := back || listed.any fun p => p.1
  match if path = [] then .ok s.directory else s.locate ((listed.map Prod.snd).getD path) with
  | .error cause => lost cause
  | .ok place =>
    if s.tree.entry? place = none then lost .notFound
    else if !s.tree.isDirectoryAt place then lost .notDirectory
    else
      assign "OLDPWD" s.directoryPath
      modify fun s => { s with directory := place }
      let s ← get
      assign "PWD" s.directoryPath
      if tells then discard <| emit 1 (s.directoryPath ++ "\n")
      finish 0

/-- Writes the working directory. -/
def pwd : Builtin := fun _ => do
  say "pwd" ((← get).directoryPath ++ "\n")

/-! ## Variables -/

/-- A text in single quotes, as variables are shown. -/
def quoted (t : Raw) : Raw :=
  let pieces := Text.cut '\'' t
  ['\''] ++ Text.join "'\"'\"'" pieces ++ ['\'']

/-- Lines that show variables. -/
def showVariables (head : Raw) (chosen : Variable → Bool) (s : Session) : Raw :=
  let rows := (s.vars.entries.filter fun e => chosen e.2).mergeSort fun a b => Raw.notAfter a.1 b.1
  rows.flatMap fun e =>
    match e.2.value with
    | some (.text t) => head ++ e.1 ++ "=" ++ quoted t ++ "\n"
    | some (.array _) | some (.table _) =>
      head ++ e.1 ++ "=(" ++ Text.join " " ((s.entries e.1).map fun x =>
        "[" ++ x.1 ++ "]=" ++ quoted x.2) ++ ")\n"
    | none => if head = [] then [] else head ++ e.1 ++ "\n"

/-- The name and the value of an argument such as `name=value`. -/
def splitArgument (t : Raw) : Raw × Option Raw :=
  match Text.splitAt? '=' t with
  | some (name, value) => (name, some value)
  | none => (t, none)

/-- Changes the attributes of the variables that arguments name, after giving them values. -/
def declare (command : Raw) (change : Variable → Variable) (arguments : List Raw) : Act Unit := do
  for a in arguments do
    let (name, value) := splitArgument a
    unless Raw.isName name do
      match (← get).dialect with
      | .standard => fatal (command ++ ": " ++ name ++ ": bad variable name") 2
      | .extended => fatal (command ++ ": `" ++ a ++ "': not a valid identifier") 1
    match value with
    | some v => assign name v
    | none => pure ()
    modify fun s => { s with vars := s.vars.set name (change ((s.vars.get? name).getD {})) }
  finish 0

/-- Exports variables, or shows those that are. -/
def export_ : Builtin := fun arguments => do
  let (options, operands) := letters arguments
  demandOptions "export" (if ← isExtended then "pn" else "p") options
  if operands.isEmpty then
    let head : Raw := if ← isExtended then "declare -x " else "export "
    say "export" (showVariables head Variable.exported (← get))
  else declare "export" (fun v => { v with exported := !options.contains 'n' }) operands

/-- Fixes variables, or shows those that are. -/
def readonly : Builtin := fun arguments => do
  let (options, operands) := letters arguments
  demandOptions "readonly" "p" options
  if operands.isEmpty then
    let head : Raw := if ← isExtended then "declare -r " else "readonly "
    say "readonly" (showVariables head Variable.fixed (← get))
  else declare "readonly" (fun v => { v with fixed := true }) operands

/-- Keeps variables of the function's caller and gives the function its own. -/
def local_ : Builtin := fun arguments => do
  let ext ← isExtended
  let (_, operands) := if ext then letters arguments else ([], arguments)
  if (← get).frames.isEmpty then
    if ext then
      fail "local: can only be used in a function" 1
      return
    else fatal "local: not in a function" 2
  for a in operands do
    let (name, value) := splitArgument a
    if name = "-" then
      modify fun s =>
        let keep (f : Frame) : Frame := { f with options := f.options.or (some s.options) }
        { s with frames := s.frames.modifyHead keep }
    else
      modify fun s =>
        let saved := (name, s.vars.get? name)
        let isHidden := s.frames.head?.any fun f => f.hidden.any fun v => v.1 = name
        let hide (f : Frame) : Frame := if isHidden then f else { f with hidden := saved :: f.hidden }
        { s with
          frames := s.frames.modifyHead hide
          vars := if ext && !isHidden && value.isNone then s.vars.erase name else s.vars }
      match value with
      | some v => assign name v
      | none => pure ()
  finish 0

/-- Gives variables attributes; in a function they are its own. -/
def declare_ : Builtin := fun arguments => do
  let (options, operands) := letters arguments
  if options.contains 'p' && operands.isEmpty then
    say "declare" (showVariables "declare -- " (fun _ => true) (← get))
  else
    unless (← get).frames.isEmpty || options.contains 'g' do
      local_ operands
    let change (v : Variable) : Variable :=
      { v with
        exported := v.exported || options.contains 'x'
        fixed := v.fixed || options.contains 'r'
        value :=
          if v.value.isSome then v.value
          else if options.contains 'a' then some (.array [])
          else if options.contains 'A' then some (.table [])
          else none }
    declare "declare" change operands

/-- Forgets variables or functions. -/
def unset : Builtin := fun arguments => do
  let (options, operands) := letters arguments
  demandOptions "unset" "vf" options
  for name in operands do
    let (base, subscript) := Text.partition '[' name
    if options.contains 'f' then
      modify fun s => { s with functions := s.functions.erase name }
    else if (← isExtended) && subscript ≠ [] && Raw.isName base then
      let key := subscript.dropLast
      modify fun s =>
        match s.table? base with
        | some entries => s.put base (.table (entries.filter fun e => e.1 ≠ key))
        | none =>
          let i := (Raw.nat? key).getD 0
          s.put base (.array ((s.elements base).filter fun e => e.1 ≠ i))
    else if !Raw.isName name then fatal ("unset: " ++ name ++ ": bad variable name") 2
    else
      match (← get).vars.get? name with
      | some ⟨_, _, true⟩ => fatal ("unset: " ++ name ++ ": is read only") 2
      | found =>
        let isFunction := found.isNone && (← isExtended)
        modify fun s =>
          if isFunction then { s with functions := s.functions.erase name }
          else { s with vars := s.vars.erase name }
  finish 0

/-! ## Parameters and options -/

/-- Drops positional parameters from the front. -/
def shift : Builtin := fun arguments => do
  let n ← match arguments with
    | t :: _ => number "shift" t
    | [] => pure 1
  if (← get).parameters.length < n then
    if ← isExtended then finish 1 else fatal "shift: can't shift that many" 2
  else
    modify fun s => { s with parameters := s.parameters.drop n }
    finish 0

/-- The options by name, with their letters. -/
def optionNames : List (Raw × Char) :=
  [("errexit", 'e'), ("noglob", 'f'), ("ignoreeof", 'I'), ("interactive", 'i'), ("monitor", 'm'),
    ("noexec", 'n'), ("stdin", 's'), ("xtrace", 'x'), ("verbose", 'v'), ("vi", 'V'), ("emacs", 'E'),
    ("noclobber", 'C'), ("allexport", 'a'), ("notify", 'b'), ("nounset", 'u'), ("privileged", 'p'),
    ("nolog", 'l'), ("debug", 'd'), ("pipefail", 'P')]

/-- The further options of the extended dialect by name, with the characters that stand for them. -/
def furtherNames : List (Raw × Char) :=
  [("nullglob", '0'), ("dotglob", '.'), ("nocasematch", '~'), ("extglob", '('), ("globstar", '*')]

/-- Turns an option on or off. -/
def switch (on : Bool) (c : Char) : Act Unit :=
  modify fun s =>
    let others := s.options.filter (· ≠ c)
    { s with options := if on then c :: others else others }

/-- Turns further options on or off, or tells whether they are on. -/
def shopt : Builtin := fun arguments => do
  let (options, operands) := letters arguments
  finish 0
  for name in operands do
    match furtherNames.lookup name with
    | none => fail ("shopt: " ++ name ++ ": invalid shell option name") 1
    | some c =>
      if options.contains 's' || options.contains 'u' then switch (options.contains 's') c
      else
        let isOn := (← get).has c
        let state : Raw := if isOn then "on\n" else "off\n"
        unless options.contains 'q' do
          discard <| emit 1 (Raw.padRight 15 name ++ "\t" ++ state)
        unless isOn do
          finish 1

/-- Turns the options of a row of letters on or off. A letter `o` takes the name that follows; the
names that were not taken are left. -/
def switchAll (command : Raw) (on : Bool) : Raw → List Raw → Act (List Raw)
  | [], names => return names
  | 'o' :: cs, names => do
    let sign := if on then '-' else '+'
    match names with
    | name :: rest =>
      match optionNames.lookup name with
      | some c =>
        switch on c
        switchAll command on cs rest
      | none => fatal (command ++ ": Illegal option " ++ [sign] ++ "o " ++ name) 2
    | [] =>
      let s ← get
      let known := optionNames.filter fun o => o.2 ≠ 'P'
      let shown := known.flatMap fun o =>
        let state : Raw := if s.has o.2 then "on\n" else "off\n"
        Raw.padRight 16 o.1 ++ state
      let commands := known.flatMap fun o =>
        let sign : Raw := if s.has o.2 then "-o " else "+o "
        "set ".toList ++ sign ++ o.1 ++ ['\n']
      discard <| emit 1 (if on then "Current option settings\n".toList ++ shown else commands)
      return []
  | c :: cs, names => do
    let sign := if on then '-' else '+'
    let known := optionNames.any (fun o => o.2 = c) || (← isExtended)
    unless known do
      fatal (command ++ ": Illegal option " ++ [sign, c]) 2
    switch on c
    switchAll command on cs names

/-- Turns on and off the options at the front of some arguments, and gives the rest if something
other than options follows; the number bounds the arguments. -/
def readOptions (command : Raw) : Nat → List Raw → Act (Option (List Raw))
  | 0, _ => return none
  | _ + 1, [] => return none
  | n + 1, a :: rest => do
    match a with
    | ['-'] => return if rest.isEmpty then none else some rest
    | ['-', '-'] => return some rest
    | '-' :: cs => readOptions command n (← switchAll command true cs rest)
    | '+' :: c :: cs => readOptions command n (← switchAll command false (c :: cs) rest)
    | _ => return some (a :: rest)

/-- Shows variables, or sets options and positional parameters. -/
def set : Builtin := fun arguments => do
  if arguments.isEmpty then say "set" (showVariables [] (fun _ => true) (← get))
  else
    match ← readOptions "set" (arguments.length + 1) arguments with
    | some parameters => modify fun s => { s with parameters }
    | none => pure ()
    finish 0

/-- Reads the next option of the arguments, or of the positional parameters. -/
def getopts : Builtin := fun arguments => do
  match arguments with
  | known :: name :: given =>
    let s ← get
    let list := if given.isEmpty then s.parameters else given
    let quiet := known.head? = some ':'
    let index := s.optionIndex
    let offset := max 1 s.optionOffset
    let current := list.getD (index - 1) []
    if list.length < index || current.head? ≠ some '-' || current.length < 2 || current = "--" then
      let index := if current = "--" && index ≤ list.length then index + 1 else index
      assign name "?"
      assign "OPTIND" (Text.ofNat index)
      modify fun s => { s with vars := s.vars.erase "OPTARG" }
      finish 1
    else
      let letter := current.getD offset '?'
      let last := current.length ≤ offset + 1
      let go (index offset : Nat) : Act Unit := do
        assign "OPTIND" (Text.ofNat index)
        modify fun s => { s with optionOffset := offset }
      let follow := (known.drop (if quiet then 1 else 0)).dropWhile (· ≠ letter)
      if follow = [] || letter = ':' then
        if quiet then assign "OPTARG" [letter]
        else
          modify fun s => { s with vars := s.vars.erase "OPTARG" }
          discard <| emit 2 ("Illegal option -" ++ [letter] ++ "\n")
        assign name "?"
        if last then go (index + 1) 0 else go index (offset + 1)
      else if (follow.drop 1).head? = some ':' then
        if !last then
          assign "OPTARG" (current.drop (offset + 1))
          assign name [letter]
          go (index + 1) 0
        else
          match list[index]? with
          | some value =>
            assign "OPTARG" value
            assign name [letter]
            go (index + 2) 0
          | none =>
            if quiet then
              assign "OPTARG" [letter]
              assign name ":"
            else
              modify fun s => { s with vars := s.vars.erase "OPTARG" }
              discard <| emit 2 ("No arg for -" ++ [letter] ++ " option\n")
              assign name "?"
            go (index + 1) 0
      else
        assign name [letter]
        assign "OPTARG" []
        if last then go (index + 1) 0 else go index (offset + 1)
      finish 0
  | _ => fail "getopts: Usage: getopts optstring var [arg...]" 2

/-! ## Input -/

/-- How the reading of a line goes. -/
structure LineReading where
  /-- The characters of the line, last first; those after a backslash are marked. -/
  line : Marked := []
  /-- The number of characters that were read. -/
  taken : Nat := 0
  /-- The delimiter ended the line. -/
  ended : Bool := false

/-- Reads a line up to a delimiter, or so many characters. A backslash marks the character after it,
or takes away a line feed, unless the line is `raw`. -/
def readMarked {α : Type} (char : α → Char) (raw : Bool) (delimiter : Char) (most : Option Nat) :
    List α → Bool → LineReading → LineReading
  | [], _, k => k
  | x :: r, escaped, k =>
    let c := char x
    if most = some k.taken then { k with ended := true }
    else
      let k := { k with taken := k.taken + 1 }
      if escaped then
        let line := if c = '\n' then k.line else (c, true) :: k.line
        readMarked char raw delimiter most r false { k with line }
      else if c = delimiter then { k with ended := true }
      else if c = '\x00' then readMarked char raw delimiter most r false k
      else if c = '\\' && !raw then readMarked char raw delimiter most r true k
      else readMarked char raw delimiter most r false { k with line := (c, false) :: k.line }

/-- Reads a line from a channel. -/
def readChannel (tree : FileTree) (raw : Bool) (delimiter : Char) (most : Option Nat) :
    Channel → Option (LineReading × Channel)
  | .source rest =>
    let k := readMarked id raw delimiter most rest false {}
    some (k, .source (rest.drop k.taken))
  | .file place offset writes appends =>
    let rest := (Channel.contentAt tree place).drop offset
    let k := readMarked (fun b => Char.ofNat b.toNat) raw delimiter most rest false {}
    some (k, .file place (offset + k.taken) writes appends)
  | .null => some ({}, .null)
  | .zeros => some ({}, .zeros)
  | .full => some ({}, .full)
  | .sink .. | .directory => none

/-- Gives each of some variables a field of a line, and the last one all that is left. -/
def distribute (separators : Raw) : List Raw → Marked → Act Unit
  | [], _ => pure ()
  | name :: rest, line => do
    let isSeparator (c : Char × Bool) : Bool := !c.2 && separators.contains c.1
    let isBlank (c : Char × Bool) : Bool := isSeparator c && Fields.isSoft c.1
    let line := line.dropWhile isBlank
    let fieldsOf (line : Marked) : List Marked :=
      Fields.split separators (line.map fun c => .char c.1 c.2 !c.2)
    if rest.isEmpty then
      let text := match fieldsOf line with
        | [] => []
        | [one] => one.map Prod.fst
        | _ => ((line.map Prod.fst).reverse.dropWhile fun c =>
            separators.contains c && Fields.isSoft c).reverse
      assign name text
    else
      let field := line.takeWhile fun c => !isSeparator c
      let after := (line.drop field.length).dropWhile isBlank
      let after := match after with
        | c :: r => if isSeparator c then r else after
        | [] => []
      assign name (field.map Prod.fst)
      distribute separators rest after

/-- Reads a line of the input into variables. -/
def read : Builtin := fun arguments => do
  let ext ← isExtended
  let (options, operands) :=
    valuedOptions (if ext then "pdntuNi" else "p") (arguments.length + 1) arguments
  let has (c : Char) : Bool := options.any fun o => o.1 = c
  let names : List Raw := if operands.isEmpty && ext then ["REPLY"] else operands
  match names, names.find? fun n => !Raw.isName n with
  | [], _ => fatal "read: arg count" 2
  | _, some n => fatal ("read: " ++ n ++ ": bad variable name") 2
  | first :: _, none =>
    let s ← get
    let delimiter := ((options.lookup 'd').map fun d => d.headD '\x00').getD '\n'
    let most := ((options.lookup 'n').or (options.lookup 'N')).bind Raw.nat?
    match (s.channel? 0).bind (readChannel s.tree (has 'r') delimiter most) with
    | none => finish 1
    | some (reading, channel) =>
      let line := reading.line.reverse
      match s.descriptors.lookup 0 with
      | some handle =>
        modify fun s => { s with channels := s.channels.setIfInBounds handle channel }
      | none => pure ()
      let separators := Fields.separators s
      if ext && has 'a' then
        let fields := Fields.split separators (line.map fun c => .char c.1 c.2 !c.2)
        let names := if operands.isEmpty then (options.lookup 'a').toList else [first]
        modify fun s => s.put (names.headD first)
          (.array (fields.mapIdx fun i f => (i, f.map Prod.fst)))
      else if operands.isEmpty then assign first (line.map Prod.fst)
      else distribute separators names line
      finish (if reading.ended then 0 else 1)

/-- Reads the lines of the input into an array. -/
def mapfile : Builtin := fun arguments => do
  let (options, operands) := letters arguments
  let s ← get
  let input := ((s.channel? 0).bind (Channel.unread? s.tree)).getD []
  let ls := Raw.lines input
  let ls := if options.contains 't' then ls else ls.map (· ++ ['\n'])
  modify fun s => (s.leaveUnread 0 []).put (operands.headD "MAPFILE")
    (.array (ls.mapIdx fun i l => (i, l)))
  finish 0

/-! ## Masks, aliases and the rest -/

/-- The letters of a mask's permissions. -/
def permissionLetters (n : Nat) : Raw :=
  let kept := 7 - n % 8
  (if 4 ≤ kept then ['r'] else []) ++ (if 2 ≤ kept % 4 then ['w'] else []) ++
    (if kept % 2 = 1 then ['x'] else [])

/-- A mask after a clause such as `g-w`, for permissions taken from the mask. -/
def changeMask (mask : Nat) (clause : Raw) : Option Nat :=
  let who := clause.takeWhile fun c => ("ugoa" : Raw).contains c
  match clause.drop who.length with
  | o :: what =>
    if !("=+-" : Raw).contains o || !what.all fun c => ("rwxX" : Raw).contains c then none
    else
      let bits := (if what.contains 'r' then 4 else 0) + (if what.contains 'w' then 2 else 0) +
        (if what.contains 'x' || what.contains 'X' then 1 else 0)
      let everyone := who = [] || who.contains 'a'
      let change (chosen : Bool) (m : Nat) : Nat :=
        if !chosen then m
        else if o = '=' then 7 - bits
        else if o = '+' then m - Nat.land m bits
        else Nat.lor m bits
      some (64 * change (everyone || who.contains 'u') (mask / 64 % 8) +
        8 * change (everyone || who.contains 'g') (mask / 8 % 8) +
        change (everyone || who.contains 'o') (mask % 8))
  | [] => none

/-- Shows or changes the mask of new files. -/
def umask : Builtin := fun arguments => do
  let mask := (← get).umask
  match arguments with
  | [] => say "umask" (Raw.padLeft '0' 4 (Nat.toDigits 8 mask) ++ "\n")
  | ['-', 'S'] :: _ =>
    say "umask" ("u=" ++ permissionLetters (mask / 64) ++ ",g=" ++ permissionLetters (mask / 8) ++
      ",o=" ++ permissionLetters mask ++ "\n")
  | t :: _ =>
    if t.head?.any Char.isDigit then
      if t.all isOctal then
        modify fun s => { s with umask := numberOf 8 t % 512 }
        finish 0
      else fail ("umask: Illegal number: " ++ t) 2
    else
      let changed := (Text.cut ',' t).foldl (fun m clause => m.bind fun m => changeMask m clause)
        (some mask)
      match changed with
      | some umask =>
        modify fun s => { s with umask }
        finish 0
      | none => fail ("umask: Illegal mode: " ++ t) 2

/-- Defines or shows texts that stand for first words of commands. -/
def alias_ : Builtin := fun arguments => do
  let row (a : Raw × Raw) : Raw := a.1 ++ "=" ++ quoted a.2 ++ "\n"
  if arguments.isEmpty then say "alias" ((← get).aliases.flatMap row)
  else
    finish 0
    for a in arguments do
      match splitArgument a with
      | (name, some value) =>
        modify fun s =>
          { s with aliases := (name, value) :: s.aliases.filter fun b => b.1 ≠ name }
      | (name, none) =>
        match (← get).aliases.lookup name with
        | some value => discard <| emit 1 (row (name, value))
        | none =>
          discard <| emit 2 ("alias: " ++ name ++ " not found\n")
          finish 1

/-- Forgets texts that stand for first words of commands. -/
def unalias : Builtin := fun arguments => do
  finish 0
  if arguments.head? = some "-a" then modify fun s => { s with aliases := [] }
  else
    for name in arguments do
      if ((← get).aliases.lookup name).isNone then
        discard <| emit 2 ("unalias: " ++ name ++ " not found\n")
        finish 1
      modify fun s => { s with aliases := s.aliases.filter fun b => b.1 ≠ name }

/-- The signals by number. -/
def signals : List (Nat × Raw) :=
  [(0, "EXIT"), (1, "HUP"), (2, "INT"), (3, "QUIT"), (4, "ILL"), (5, "TRAP"), (6, "ABRT"),
    (7, "BUS"), (8, "FPE"), (9, "KILL"), (10, "USR1"), (11, "SEGV"), (12, "USR2"), (13, "PIPE"),
    (14, "ALRM"), (15, "TERM"), (17, "CHLD"), (18, "CONT"), (19, "STOP"), (20, "TSTP")]

/-- The name of the signal that a text names or numbers. -/
def signal? (t : Raw) : Option Raw :=
  match Raw.nat? t with
  | some n => signals.lookup n
  | none =>
    let name := t.map Char.toUpper
    let name := (Text.stripPrefix? "SIG" name).getD name
    (signals.find? fun s => s.2 = name).map Prod.snd

/-- Shows, sets or forgets the scripts to carry out on signals. -/
def trap : Builtin := fun arguments => do
  let operands := if arguments.head? = some "--" then arguments.drop 1 else arguments
  let numbered := operands.head?.any fun t => (Raw.nat? t).isSome
  match operands with
  | [] =>
    let s ← get
    let rows := signals.filterMap fun n => (s.traps.get? n.2).map fun t =>
      ("trap -- " : Raw) ++ quoted t ++ " " ++ n.2 ++ "\n"
    say "trap" rows.flatten
  | first :: rest =>
    let (action, names) :=
      if rest.isEmpty then (none, [first])
      else if first = "-" then (none, rest)
      else if numbered then (none, operands)
      else (some first, rest)
    finish 0
    for name in names do
      match signal? name, action with
      | some sig, some t => modify fun s => { s with traps := s.traps.set sig t }
      | some sig, none => modify fun s => { s with traps := s.traps.erase sig }
      | none, _ =>
        discard <| emit 2 ("trap: " ++ name ++ ": bad trap\n")
        finish 1

/-- Waits for processes in the background. -/
def wait : Builtin := fun arguments => do
  finish 0
  let jobs := (← get).jobs
  let jobOf (t : Raw) : Option Job :=
    let number := match t with
      | '%' :: r => (Raw.nat? r).bind fun n => (jobs.reverse[n - 1]?).map Job.process
      | r => Raw.nat? r
    jobs.find? fun j => some j.process = number
  if arguments.isEmpty then
    modify fun s => s.advanceTo ((jobs.map Job.ends).foldl max 0)
  for a in arguments do
    match jobOf a with
    | some job =>
      modify fun s => s.advanceTo job.ends
      finish job.status
    | none => finish 127

/-- Looks for programs, so that they are known. -/
def hash : Builtin := fun arguments => do
  let (_, names) := letters arguments
  finish 0
  for name in names do
    let s ← get
    let known := (s.functions.get? name).isSome || (s.commandPath? name).isSome
    unless known do
      fail ("hash: " ++ name ++ ": not found") 1

/-- Leaves so many loops, or goes on with the last of them. -/
def leaveLoops (command : Raw) (again : Bool) : Builtin := fun arguments => do
  let n ← match arguments with
    | t :: _ => number command t
    | [] => pure 1
  let loops := (← get).loops
  if n = 0 then fatal (command ++ ": Illegal number: 0") 2
  finish 0
  if 0 < loops then throw (.loop (min n loops) again)

/-- Leaves a function or a file. -/
def return_ : Builtin := fun arguments => do
  let s ← get
  if s.dialect = .extended && s.frames.isEmpty && s.sourced = 0 then
    fail "return: can only `return' from a function or sourced script" 2
  else
    match arguments with
    | t :: _ => finish (← number "return" t)
    | [] => pure ()
    throw .leave

/-- Leaves the shell. -/
def exit : Builtin := fun arguments => do
  match arguments with
  | t :: _ => finish ((← number "exit" t) % 256)
  | [] =>
    match (← get).ending with
    | some status => finish status
    | none => pure ()
  throw .exit

/-- The commands by name. -/
def table : List (Raw × Builtin) :=
  [(":", fun _ => finish 0), ("true", fun _ => finish 0), ("false", fun _ => finish 1),
    ("echo", echo), ("printf", printf), ("test", test), ("[", bracket), ("cd", cd), ("chdir", cd),
    ("pwd", pwd), ("export", export_), ("readonly", readonly), ("local", local_),
    ("unset", unset), ("shift", shift), ("set", set), ("getopts", getopts), ("read", read),
    ("umask", umask), ("alias", alias_), ("unalias", unalias), ("trap", trap), ("wait", wait),
    ("break", leaveLoops "break" false), ("continue", leaveLoops "continue" true),
    ("return", return_), ("exit", exit), ("hash", hash), ("jobs", fun _ => finish 0),
    ("times", fun _ => say "times" "0m0.000000s 0m0.000000s\n0m0.000000s 0m0.000000s\n"),
    ("ulimit", fun as => if as.isEmpty then say "ulimit" "unlimited\n" else finish 0)]

/-- The commands that only the extended shell has. -/
def extendedTable : List (Raw × Builtin) :=
  [("declare", declare_), ("typeset", declare_), ("mapfile", mapfile), ("readarray", mapfile),
    ("shopt", shopt), ("enable", fun _ => finish 0), ("disown", fun _ => finish 0),
    ("let", fun arguments => do
      let mut last : Int := 0
      for a in arguments do
        last ← Arithmetic.evaluate Arithmetic.depth a
      finish (if last = 0 then 1 else 0))]

/-- The commands after which an error ends the shell, and before which assignments stay. -/
def special : List Raw :=
  [".", ":", "break", "continue", "eval", "exec", "exit", "export", "local", "readonly", "return",
    "set", "shift", "times", "trap", "unset"]

/-- The commands whose arguments may be assignments. -/
def assigning : List Raw :=
  ["alias", "export", "readonly", "local", "declare", "typeset"]

/-- The command of a name. -/
def find? (ext : Bool) (name : Raw) : Option Builtin :=
  match table.lookup name with
  | some b => some b
  | none => if ext then extendedTable.lookup name else none

end Builtin

end Shell

end Haybuild
