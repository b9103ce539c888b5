import Haybuild.Shell.Apart
import Haybuild.Shell.Builtin
import Haybuild.Shell.Program.Table

/-!
# Programs that start programs

`Act.perform` carries out a program in a session. Some programs start others with arguments they
are given: `Act.launch` does that in a shell of its own that gives its place to the program.
-/

namespace Haybuild

namespace Shell

namespace Act

/-- Writes what a program wrote, up to a place that takes no more. -/
def passOn (name : Raw) : List (Nat × Raw) → Act Unit
  | [] => pure ()
  | (descriptor, t) :: rest => do
    match ← write descriptor t with
    | .done => passOn name rest
    | .cut => finish unreadStatus
    | .refused =>
      if descriptor = 1 then
        discard <| write 2 (name ++ ": write error\n")
        finish 1
      else passOn name rest

/-- Carries out a program. -/
def perform (program : Program) (name : Raw) (arguments : List Raw) : Act Unit := do
  let s ← get
  let before : Process :=
    { name, environment := s.environment, directory := s.directory, tree := s.tree
      channel := s.channel? 0, target := s.channel? 1
      readable := (s.descriptors.filter fun d => 2 < d.1).filterMap fun d =>
        (s.channels[d.2]?.bind (Channel.unread? s.tree)).map fun t => (d.1, t) }
  let (_, after) := (program arguments).run.run before
  modify fun s => { s with tree := after.tree }
  match after.unread with
  | some rest => modify fun s => s.leaveUnread 0 rest
  | none => pure ()
  finish after.status
  passOn name after.written.reverse

/-- The command that gives the place of the shell to a program. -/
def replacing (words : List Raw) : Script :=
  .simple 0 [] (Word.plain "exec" :: words.map fun w => [.text true w]) []

/-- Starts a program and waits for its end. -/
def launch (run : Runner) (words : List Raw) : Act Unit := do
  apart run (run (replacing words))

/-- Does something with an input that has an end at once. -/
def withoutInput (act : Act Unit) : Act Unit := do
  let before := (← get).descriptors.lookup 0
  modify fun s =>
    let (s, handle) := s.openChannel .null
    s.connect 0 handle
  ensuring act <| modify fun s =>
    match before with
    | some handle => s.connect 0 handle
    | none => s.disconnect 0

end Act

namespace Launcher

open Act

/-- Writes a complaint of a program as a line of errors. -/
def note (name message : Raw) : Act Unit := do
  discard <| write 2 (name ++ ": " ++ message ++ "\n")

/-- Reads the arguments of a program, and goes on unless they are wrong. -/
def withArguments (k : Arguments.Known) (name : Raw) (arguments : List Raw)
    (act : Arguments → Act Unit) : Act Unit := do
  let s ← get
  let before : Process :=
    { name, environment := [], directory := s.directory, tree := s.tree, channel := none
      target := none }
  match (Arguments.read k arguments).run.run before with
  | (.ok a, _) => act a
  | (.error _, after) =>
    finish after.status
    passOn name after.written.reverse

/-- All that is left of the input. -/
def takeInput : Act Raw := do
  let s ← get
  let input := ((s.channel? 0).bind (Channel.unread? s.tree)).getD []
  modify fun s => s.leaveUnread 0 []
  return input

/-- Starts a program with a changed environment, or shows the environment. -/
def env (run : Runner) (name : Raw) (arguments : List Raw) : Act Unit :=
  withArguments
    { flags := "i0v", valued := "uCS", firstOnly := true, status := 125
      names := [("ignore-environment", 'i'), ("unset", 'u'), ("chdir", 'C'), ("null", '0')] }
    name arguments fun a => do
  let settings := a.operands.takeWhile fun t => t.contains '='
  let words := a.operands.drop settings.length
  let words := match a.value? 'S' with
    | some t => Raw.words t ++ words
    | none => words
  apart run do
    let hide (v : Variable) : Variable := { v with exported := false }
    modify fun s =>
      let clear := a.has 'i' || a.operands.head? = some "-"
      let vars := if clear then NameMap.ofPairs (s.vars.entries.map fun e => (e.1, hide e.2))
        else s.vars
      let vars := (a.values 'u').foldl (fun vars n => vars.erase n) vars
      let vars := settings.foldl (fun vars t =>
        let (n, value) := Builtin.splitArgument t
        vars.set n ⟨some (.text (value.getD [])), true, false⟩) vars
      { s with vars }
    match a.value? 'C' with
    | some path =>
      match (← get).locate path with
      | .ok place => modify fun s => { s with directory := place }
      | .error _ => pure ()
    | none => pure ()
    if words.isEmpty then
      finish 0
      let ending : Raw := if a.has '0' then ['\x00'] else ['\n']
      discard <| emit 1 ((← get).environment.flatMap fun e => e.1 ++ "=" ++ e.2 ++ ending)
    else run (replacing (if words.head? = some "-" then words.drop 1 else words))

/-- Starts a program without changing anything else. -/
def through (k : Arguments.Known) (skipped : Nat) (run : Runner) (name : Raw)
    (arguments : List Raw) : Act Unit :=
  withArguments { k with firstOnly := true, status := 125 } name arguments fun a => do
  match a.operands.drop skipped with
  | [] =>
    note name "missing operand"
    finish 125
  | words => launch run words

/-! ## Time -/

/-- Waits. -/
def sleep (_ : Runner) (name : Raw) (arguments : List Raw) : Act Unit :=
  withArguments { flags := [] } name arguments fun a => do
  match a.operands.find? fun t => (Program.duration? t).isNone, a.operands with
  | some t, _ =>
    note name ("invalid time interval '" ++ t ++ "'")
    finish 1
  | none, [] =>
    note name "missing operand"
    finish 1
  | none, ts =>
    finish 0
    modify fun s => s.advanceTo (s.clock + (ts.filterMap Program.duration?).foldl (· + ·) 0)

/-- Starts a program and ends it when a time is over. -/
def timeout (run : Runner) (name : Raw) (arguments : List Raw) : Act Unit :=
  withArguments
    { flags := "v", valued := "sk", firstOnly := true, status := 125
      names := [("signal", 's'), ("kill-after", 'k'), ("preserve-status", 'v')] }
    name arguments fun a => do
  match a.operands with
  | limit :: words =>
    match Program.duration? limit, words with
    | none, _ | _, [] =>
      note name ("invalid time interval '" ++ limit ++ "'")
      finish 125
    | some limit, words =>
      let before ← get
      let stop := before.clock + limit
      set { before with pending := [], deferred := before.channels.size }
      launch run words
      let s ← get
      let late := 0 < limit && stop < s.clock
      let kept := s.pending.filter fun l => !late || l.time ≤ stop
      let s := { s with pending := before.pending ++ kept, deferred := before.deferred }
      let s := { s with clock := before.clock }.advanceTo (if late then stop else s.clock)
      set (if late then { s with status := 124 } else s)
  | [] =>
    note name "missing operand"
    finish 125

/-! ## Arguments from the input -/

/-- The arguments that a text holds: words that may be quoted, with or without an end of line before
the next one. -/
def splitInput : Nat → Option Raw → Raw → List (Raw × Bool)
  | 0, _, _ => []
  | _ + 1, none, [] => []
  | _ + 1, some w, [] => [(w.reverse, true)]
  | n + 1, word, c :: r =>
    if c = '\'' || c = '"' then
      let body := r.takeWhile fun d => d ≠ c && d ≠ '\n'
      splitInput n (some (body.reverse ++ word.getD [])) (r.drop (body.length + 1))
    else if c = '\\' then splitInput n (some (r.take 1 ++ word.getD [])) (r.drop 1)
    else if c = ' ' || c = '\t' || c = '\n' then
      match word with
      | some w => (w.reverse, c = '\n') :: splitInput n none r
      | none => splitInput n none r
    else splitInput n (some (c :: word.getD [])) r

/-- A text with another one in the place of a word in it. -/
def fill (mark value : Raw) : Nat → Raw → Raw
  | 0, t => t
  | _ + 1, [] => []
  | n + 1, c :: r =>
    match if mark = [] then none else Text.stripPrefix? mark (c :: r) with
    | some rest => value ++ fill mark value n rest
    | none => c :: fill mark value n r

/-- Items in groups of a size. -/
def groupsOf {α : Type} (size : Nat) : Nat → List α → List (List α)
  | 0, _ => []
  | _ + 1, [] => []
  | n + 1, xs => xs.take size :: groupsOf size n (xs.drop size)

/-- Items in groups of so many that end a line. -/
def linesOf (size : Nat) (items : List (Raw × Bool)) : List (List Raw) :=
  let (last, _, groups) := items.foldl (fun (group, count, done) item =>
    let group := item.1 :: group
    if item.2 && size ≤ count + 1 then ([], 0, group.reverse :: done)
    else (group, if item.2 then count + 1 else count, done)) (([] : List Raw), 0, [])
  (if last.isEmpty then groups else last.reverse :: groups).reverse

/-- Starts a program with arguments from the input. -/
def xargs (run : Runner) (name : Raw) (arguments : List Raw) : Act Unit :=
  withArguments
    { flags := "0rtxp", valued := "nILdPsEa", firstOnly := true
      names := [("null", '0'), ("no-run-if-empty", 'r'), ("verbose", 't'), ("max-args", 'n'),
        ("replace", 'I'), ("max-lines", 'L'), ("delimiter", 'd'), ("max-procs", 'P')] }
    name arguments fun a => do
  let input ← match a.value? 'a' with
    | none => takeInput
    | some path =>
      match (← get).find? path with
      | .ok (.file content _) => pure (Raw.ofBytes content)
      | _ => pure []
  let words := if a.operands.isEmpty then ["echo".toList] else a.operands
  let cutAt (c : Char) : List (Raw × Bool) :=
    let parts := Text.cut c input
    (if parts.getLast? = some [] then parts.dropLast else parts).map fun t => (t, true)
  let items : List (Raw × Bool) :=
    if a.has '0' then cutAt '\x00'
    else match a.value? 'd' with
      | some d => cutAt (if d = "\\n" then '\n' else if d = "\\t" then '\t'
          else if d = "\\0" then '\x00' else d.headD '\n')
      | none =>
        if a.has 'I' then
          ((Raw.lines input).map fun l => (l.dropWhile Raw.isSpace, true)).filter fun i => i.1 ≠ []
        else splitInput (2 * input.length + 2) none input
  let number (c : Char) : Option Nat := (a.value? c).bind Raw.nat?
  let commands : List (List Raw) := match a.value? 'I' with
    | some mark => items.map fun i => words.map fun w => fill mark i.1 (w.length + 1) w
    | none =>
      let batches := match number 'L', number 'n' with
        | some size, _ => linesOf size items
        | none, some size => groupsOf (max 1 size) (items.length + 1) (items.map Prod.fst)
        | none, none => [items.map Prod.fst]
      let batches := if items.isEmpty then if a.has 'r' then [] else [[]] else batches
      batches.map fun b => words ++ b
  let step (worst : Nat) (command : List Raw) : Act Nat := do
    if a.has 't' then
      discard <| write 2 (Text.join " " command ++ "\n")
    withoutInput (launch run command)
    let status := (← get).status
    return max worst (if status = 0 then 0 else if status = 126 || status = 127 then status
      else if status = 255 then 124 else 123)
  finish (← commands.foldlM step 0)

/-! ## Parts of the shell as programs -/

/-- Writes its arguments. -/
def echo (_ : Runner) (name : Raw) (arguments : List Raw) : Act Unit := do
  finish 0
  passOn name [(1, Printf.extendedEcho arguments)]

/-- Writes a format with arguments. -/
def printf (_ : Runner) (name : Raw) (arguments : List Raw) : Act Unit := do
  match if arguments.head? = some "--" then arguments.drop 1 else arguments with
  | [] =>
    note name "missing operand"
    finish 1
  | format :: rest =>
    let p := Printf.print Printf.system format rest
    for c in p.complaints do
      note name c
    finish p.status
    passOn name [(1, p.written.reverse)]

/-- Ends with the outcome of a test. -/
def test (_ : Runner) (name : Raw) (arguments : List Raw) : Act Unit := do
  let judged := if name.getLast? = some '[' then
      if arguments.getLast? = some "]" then some arguments.dropLast else none
    else some arguments
  match judged.map (Test.evaluate (← get)) with
  | some (.ok v) => finish (if v then 0 else 1)
  | some (.error why) =>
    note name why
    finish 2
  | none =>
    note name "missing ']'"
    finish 2

/-- Writes where commands are found. -/
def which (_ : Runner) (_ : Raw) (arguments : List Raw) : Act Unit := do
  let names := arguments.filter fun a => a.head? ≠ some '-'
  let s ← get
  let found := names.map s.commandPath?
  finish (if found.isEmpty || found.any Option.isNone then 1 else 0)
  passOn "which" [(1, Raw.unlines (found.filterMap id))]

end Launcher

end Shell

end Haybuild
