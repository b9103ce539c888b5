import Haybuild.Shell.Start

/-!
# Simple commands

`Act.simple` carries out a simple command: its words are expanded, its redirections opened and its
assignments made, in this order. What its first word calls is a function, a command of the shell or
a program.
-/

namespace Haybuild

namespace Shell

namespace Act

/-! ## Assignments -/

/-- Assigns an element of an array. -/
def assignElement (name : Raw) (index : Nat) (value : Raw) : Act Unit := do
  demandFree name
  modify fun s =>
    let others := (s.elements name).filter fun e => e.1 ≠ index
    let (before, after) := others.partition fun e => e.1 < index
    s.put name (.array (before ++ (index, value) :: after))

/-- The subscript and the value of an element such as `[2]=x`. -/
def splitElement? (w : Word) : Option (Word × Word) :=
  match w with
  | .text false ('[' :: t) :: more =>
    match splitAssignment? true (.text false ('x' :: '[' :: t) :: more) with
    | some (_, some subscript, _, value) => some (subscript, value)
    | _ => none
  | _ => none

/-- The place of a key in the listing of a table: tables list their entries by the low bits of a hash,
which takes in one byte after another. -/
def bucket (key : Raw) : UInt32 :=
  (key.foldl (fun h c => (h * 16777619) ^^^ UInt32.ofNat c.toNat) 2166136261) % 1024

/-- Assigns an entry of a table. -/
def assignEntry (name key value : Raw) : Act Unit := do
  demandFree name
  modify fun s =>
    let entries := (s.table? name).getD []
    let entries :=
      if (entries.lookup key).isSome then
        entries.map fun e => if e.1 = key then (key, value) else e
      else
        let before := entries.takeWhile fun e => bucket e.1 < bucket key
        before ++ (key, value) :: entries.drop before.length
    s.put name (.table entries)

/-- Adds entries to a table. Keys and values stand in brackets and after an equals sign, or as words
that follow one another. -/
def assignEntries (run : Runner) (name : Raw) : Option Raw → List Word → Act Unit
  | none, [] => pure ()
  | some key, [] => assignEntry name key []
  | key, w :: rest => do
    match key, splitElement? w with
    | some key, _ =>
      assignEntry name key (← Word.value run w)
      assignEntries run name none rest
    | none, some (subscript, value) =>
      let key ← Word.text run subscript
      assignEntry name key (← Word.value run value)
      assignEntries run name none rest
    | none, none =>
      let key ← Word.value run w
      assignEntries run name (some key) rest

/-- Adds elements to an array from an index on. -/
def assignElements (run : Runner) (name : Raw) : Nat → List Word → Act Unit
  | _, [] => pure ()
  | index, w :: rest => do
    match splitElement? w with
    | some (subscript, value) =>
      let i ← Word.number run subscript
      assignElement name i.toNat (← Word.value run value)
      assignElements run name (i.toNat + 1) rest
    | none =>
      let values ← Word.fields run w
      for (value, i) in values.zipIdx do
        assignElement name (index + i) value
      assignElements run name (index + values.length) rest

/-- Makes an assignment, and gives it as it is shown when commands are traced. -/
def assignOne (run : Runner) (a : Assignment) : Act Raw := do
  match a with
  | .scalar name none adds w =>
    let value ← Word.value run w
    let s ← get
    let old := if adds then (s.get? name).getD [] else []
    match (s.vars.get? name).bind Variable.value with
    | some (.array _) => assignElement name 0 (old ++ value)
    | some (.table _) => assignEntry name ['0'] (old ++ value)
    | _ => assign name (old ++ value)
    return name ++ "=" ++ value
  | .scalar name (some subscript) adds w =>
    match (← get).table? name with
    | some entries =>
      let key ← Word.text run subscript
      let value ← Word.value run w
      let old := if adds then (entries.lookup key).getD [] else []
      assignEntry name key (old ++ value)
      return name ++ "=" ++ value
    | none =>
      let i ← Word.number run subscript
      let value ← Word.value run w
      let elements := (← get).elements name
      let i := if i < 0 then i + ((elements.getLast?.map Prod.fst).getD 0 : Nat) + 1 else i
      let old := if adds then (elements.lookup i.toNat).getD [] else []
      assignElement name i.toNat (old ++ value)
      return name ++ "=" ++ value
  | .array name adds ws =>
    demandFree name
    let s ← get
    match s.table? name with
    | some entries =>
      set (s.put name (.table (if adds then entries else [])))
      assignEntries run name none ws
    | none =>
      let old := if adds then s.elements name else []
      set (s.put name (.array old))
      assignElements run name ((old.getLast?.map fun e => e.1 + 1).getD 0) ws
    return name ++ "=()"

/-- The variable of an assignment. -/
def assigned : Assignment → Raw
  | .scalar name .. | .array name .. => name

/-- Makes assignments for the time of something else, which finds them in its environment. -/
def withAssignments (run : Runner) (assignments : List Assignment) (act : List Raw → Act Unit) :
    Act Unit := do
  if assignments.isEmpty then act []
  else
    withVariables (assignments.map assigned) do
      let mut shown : List Raw := []
      for a in assignments do
        shown := (← assignOne run a) :: shown
        modify fun s =>
          let v := (s.vars.get? (assigned a)).getD {}
          { s with vars := s.vars.set (assigned a) { v with exported := true } }
      act shown.reverse

/-! ## Words -/

/-- The words behind words that ask for a command to be found among the builtins and programs only,
and whether there were such words. -/
def behindCommand (asked : Bool) : List Raw → Bool × List Raw
  | [] => (asked, [])
  | w :: rest =>
    let describes := match rest with
      | ('-' :: cs) :: _ => cs.any fun c => c = 'v' || c = 'V'
      | _ => false
    if w = "command" && !describes then behindCommand true rest
    else if asked && (w = "-p" || w = "--") then behindCommand asked rest
    else (asked, w :: rest)

/-- The words of a simple command. Those after a command that takes assignments may be some, and are
not split then. `assigning` tells whether that is known to be so. -/
def expandWords (run : Runner) : Option Bool → List Word → Act (List Raw)
  | _, [] => return []
  | assigning, w :: rest => do
    let fields ← match if assigning = some true then splitAssignment? false w else none with
      | some (name, _, _, value) => do pure [name ++ "=" ++ (← Word.value run value)]
      | none => Word.fields run w
    let known := match assigning, fields with
      | none, first :: _ => if first = "command" then none else
          some (Builtin.assigning.contains first)
      | _, _ => assigning
    return fields ++ (← expandWords run known rest)

/-- Shows a command before it is carried out, if the options ask for it. -/
def trace (outer : Session) (shown : List Raw) (words : List Raw) : Act Unit := do
  if outer.has 'x' then
    let words := if outer.dialect = .standard then words else words.map Printf.shellWord
    match outer.descriptors.lookup 2 with
    | some handle =>
      let mark := (outer.get? "PS4").getD []
      modify fun s => (s.writeTo handle (mark ++ Text.join " " (shown ++ words) ++ "\n")).1
    | none => pure ()

/-! ## Commands that carry out others -/

/-- Carries out the body of a function. -/
def callFunction (run : Runner) (body : Script) (arguments : List Raw) : Act Unit := do
  let outer ← get
  if 1000 ≤ outer.frames.length then
    fatal "Maximum function recursion depth (1000) reached" 2
  set { outer with frames := {} :: outer.frames, loops := 0, parameters := arguments
                   optionIndex := 1, optionOffset := 0 }
  let j ← attempt (run body)
  modify fun s =>
    let s := s.leaveFrame (s.frames.headD {})
    { s with frames := outer.frames, loops := outer.loops, parameters := outer.parameters
             optionIndex := outer.optionIndex, optionOffset := outer.optionOffset }
  unless j = some .leave do
    resume j

/-- The words of the language, as they are described. -/
def describedWords (s : Session) : List Raw :=
  reservedWords ++ if s.dialect = .extended then (["[[", "]]", "function", "time"] : List Raw) else []

/-- What a name stands for when it is the first word of a command, in short and at length. -/
def describe? (s : Session) (name : Raw) : Option (Raw × Raw) :=
  let builtin := (Builtin.find? (s.dialect = .extended) name).isSome ||
    Builtin.special.contains name || name = "command" || name = "type" || name = "kill" ||
    s.dialect = .extended && (name = "builtin" || name = "source")
  match s.aliases.lookup name with
  | some value =>
    some ("alias " ++ name ++ "=" ++ Builtin.quoted value, name ++ " is an alias for " ++ value)
  | none =>
    if (describedWords s).contains name then some (name, name ++ " is a shell keyword")
    else if (s.functions.get? name).isSome then
      some (name, name ++ (if s.dialect = .extended then " is a function" else
        " is a shell function"))
    else if builtin then
      let special := Builtin.special.contains name && s.dialect = .standard
      some (name, name ++ (if special then " is a special shell builtin" else
        " is a shell builtin"))
    else (s.commandPath? name).map fun path => (path, name ++ " is " ++ path)

/-- Describes commands. -/
def describe (verbose : Bool) (command : Raw) (names : List Raw) : Act Unit := do
  finish 0
  for name in names do
    match describe? (← get) name with
    | some (short, long) => discard <| emit 1 ((if verbose then long else short) ++ "\n")
    | none =>
      if verbose then
        if (← get).dialect = .standard then discard <| emit 1 (name ++ ": not found\n")
        else complain (command ++ ": " ++ name ++ ": not found")
      finish (if (← get).dialect = .standard then 127 else 1)

/-- The kind of a command, as `type -t` shows it. -/
def kind? (s : Session) (name : Raw) : Option Raw :=
  (describe? s name).map fun d =>
    if (s.aliases.lookup name).isSome then "alias"
    else if (describedWords s).contains name then "keyword"
    else if (s.functions.get? name).isSome then "function"
    else if d.1 = name && !name.contains '/' then "builtin"
    else "file"

/-- Carries out the content of a file in this shell. -/
def dot (run : Runner) (arguments : List Raw) : Act Unit := do
  match arguments with
  | [] => if (← get).dialect = .extended then fail ".: filename argument required" 2 else finish 0
  | name :: parameters =>
    let s ← get
    let places : List Raw :=
      if name.contains '/' then [name]
      else ((Text.cut ':' ((s.get? "PATH").getD [])).map fun d => Path.within d name) ++
        if s.dialect = .extended then [name] else []
    let content? := places.findSome? fun path => match s.find? path with
      | .ok (.file content _) => some content
      | .ok (.device _) => some []
      | _ => none
    match content? with
    | none =>
      if s.dialect = .extended then fail (name ++ ": No such file or directory") 1
      else if name.contains '/' then
        fatal (".: cannot open " ++ name ++ ": No such file") 2
      else fatal (".: " ++ name ++ ": not found") 2
    | some content =>
      let passes := s.dialect = .extended && !parameters.isEmpty
      if passes then
        set { s with parameters }
      let before := (← get).tested
      modify fun s => { s with tested := s.dialect = .extended && s.tested }
      modify fun s => { s with sourced := s.sourced + 1 }
      let j ← attempt (runText run (Raw.ofBytes content))
      modify fun t =>
        { t with
          tested := before
          sourced := s.sourced
          parameters := if passes then s.parameters else t.parameters }
      unless j = some .leave do
        resume j

/-- Sends a signal to a process. -/
def signal (run : Runner) (number : Nat) (name : Raw) (process : Raw) : Act Unit := do
  let s ← get
  match Raw.nat? process with
  | some n =>
    if n = Session.processNumber then
      if number = 0 then pure ()
      else
        match s.traps.get? name with
        | some [] => pure ()
        | some t =>
          runText run t
          finish 0
        | none =>
          finish (128 + number)
          modify fun s => { s with traps := s.traps.erase "EXIT" }
          throw .exit
    else if s.jobs.any fun j => j.process = n && s.clock ≤ j.ends then
      if number ≠ 0 then
        let ended (j : Job) : Job :=
          if j.process = n && s.clock < j.ends then ⟨n, 128 + number, s.clock⟩ else j
        set { s with
              jobs := s.jobs.map ended
              pending := s.pending.filter fun l => l.process ≠ n || l.time ≤ s.clock }
    else fail ("kill: (" ++ process ++ ") - No such process") 1
  | none => fail ("kill: Illegal number: " ++ process) 2

/-- Sends signals to processes, or lists the signals. -/
def kill (run : Runner) (arguments : List Raw) : Act Unit := do
  let send (name : Raw) (processes : List Raw) : Act Unit := do
    match Builtin.signal? name with
    | some name =>
      let number := ((Builtin.signals.find? fun s => s.2 = name).map Prod.fst).getD 0
      finish 0
      for p in processes do
        signal run number name p
    | none => fail ("kill: invalid signal number or name: " ++ name) 2
  match arguments with
  | [] => fail "kill: Usage: kill [-s sigspec | -signum | -sigspec] [pid | job]..." 2
  | ['-', 'l'] :: rest =>
    match rest with
    | [] =>
      finish 0
      discard <| emit 1 (Raw.unlines (['0'] :: (Builtin.signals.drop 1).map Prod.snd))
    | n :: _ =>
      finish 0
      let number := (Raw.nat? n).map fun n => if 128 < n then n - 128 else n
      match number with
      | some n => discard <| emit 1 ((Builtin.signals.lookup n).getD [] ++ "\n")
      | none =>
        if (← get).dialect = .standard then
          fail ("kill: Illegal number: " ++ n) 2
          return
        let found := Builtin.signals.find? fun s => some s.2 = Builtin.signal? n
        discard <| emit 1 ((found.map fun s => Text.ofNat s.1).getD [] ++ "\n")
  | ['-', 's'] :: name :: processes => send name processes
  | ['-', '-'] :: processes => send "TERM" processes
  | ('-' :: name) :: processes => send name processes
  | processes => send "TERM" processes

/-- The commands of the shell that carry out others. -/
def carrier? (run : Runner) (dialect : Dialect) (name : Raw) : Option (List Raw → Act Unit) :=
  let extended := dialect = .extended
  if name = "eval" then some fun arguments => runText run (Text.join " " arguments)
  else if name = "." || extended && name = "source" then some (dot run)
  else if name = "kill" then some (kill run)
  else if name = "command" then some fun arguments => do
    let (options, names) := Builtin.letters arguments
    let names := if dialect = .standard then names.take 1 else names
    describe (options.contains 'V') "command" names
  else if name = "type" then some fun arguments => do
    let (options, names) := if extended then Builtin.letters arguments else ([], arguments)
    if options.contains 't' then
      finish 0
      for n in names do
        match kind? (← get) n with
        | some kind => discard <| emit 1 (kind ++ "\n")
        | none => finish 1
    else if options.contains 'p' || options.contains 'P' then describe false "type" names
    else describe true "type" names
  else none

/-! ## Simple commands -/

/-- Carries out the command that gives its place to a program, or opens files for the rest of the
shell. -/
def replace (run : Runner) (assignments : List Assignment) (rs : List Redirection)
    (arguments : List Raw) : Act Unit := do
  let outer ← get
  if ← redirect run rs then
    match arguments with
    | [] =>
      let shown ← assignments.mapM (assignOne run)
      trace outer shown ["exec"]
      finish 0
    | name :: rest =>
      withAssignments run assignments fun shown => do
        trace outer shown ("exec" :: arguments)
        startByName run name rest
      modify fun s => { s with traps := s.traps.erase "EXIT" }
      throw .exit
  else
    finish (if outer.dialect = .standard then 2 else 1)
    throw .abort

/-- Carries out what the first of some words calls. -/
def call (run : Runner) (asked special : Bool) (name : Raw) (arguments : List Raw) : Act Unit := do
  let s ← get
  match if asked then none else s.functions.get? name with
  | some body => callFunction run body arguments
  | none =>
    match carrier? run s.dialect name, Builtin.find? (s.dialect = .extended) name with
    | some carrier, _ =>
      if asked && s.dialect = .standard then guarded (carrier arguments) else carrier arguments
    | none, some b => if special then b arguments else guarded (b arguments)
    | none, none =>
      if s.dialect = .extended && name = "builtin" then
        match arguments with
        | inner :: rest =>
          match carrier? run s.dialect inner, Builtin.find? true inner with
          | some carrier, _ => carrier rest
          | none, some b => guarded (b rest)
          | none, none => fail ("builtin: " ++ inner ++ ": not a shell builtin") 1
        | [] => finish 0
      else startByName run name arguments

/-- Carries out a simple command. -/
def simple (run : Runner) (line : Nat) (assignments : List Assignment) (words : List Word)
    (rs : List Redirection) : Act Unit := closingStreams do
  unless line = 0 do
    modify fun s => { s with line }
  modify fun s => { s with substituted := 0 }
  let fields ← expandWords run none words
  let outer ← get
  let standard := outer.dialect = .standard
  let failure := if standard then 2 else 1
  let (asked, rest) := behindCommand false fields
  match rest with
  | [] =>
    redirected run rs (finish failure) do
      let shown ← assignments.mapM (assignOne run)
      unless shown.isEmpty && fields.isEmpty do
        trace outer shown fields
      let s ← get
      finish s.substituted
  | name :: arguments =>
    let own := !asked && (outer.functions.get? name).isSome
    let special := standard && !asked && !own && Builtin.special.contains name
    if name = "exec" && !own then replace run assignments rs arguments
    else if special then
      redirected run rs (do finish failure; throw .abort) do
        let shown ← assignments.mapM (assignOne run)
        trace outer shown fields
        call run asked special name arguments
    else
      redirected run rs (finish failure) do
        withAssignments run assignments fun shown => do
          trace outer shown fields
          call run asked special name arguments

end Act

end Shell

end Haybuild
