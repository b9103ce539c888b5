import Haybuild.Shell.Printf
import Haybuild.Shell.Program.Basic

/-!
# Programs on files

These programs list, make, copy, move and take away files and directories. Each complains about an
operand that it cannot deal with and goes on with the next.
-/

namespace Haybuild

namespace Shell

namespace Program

open Shell.Task

/-- A path without slashes at its end, unless it has nothing else. -/
def trimSlashes (path : Raw) : Raw :=
  let kept := (path.reverse.dropWhile (· = '/')).reverse
  if kept = [] then path.take 1 else kept

/-- The last component of a path. -/
def lastComponent (path : Raw) : Raw :=
  let t := trimSlashes path
  if t = "/" then t else (t.reverse.takeWhile (· ≠ '/')).reverse

/-- A path below another one. -/
def below (directory name : Raw) : Raw :=
  if directory.getLast? = some '/' then directory ++ name else directory ++ '/' :: name

/-- Complains about what could not be done with a path. -/
def cannot (what path why : Raw) : Task Unit :=
  complain ("cannot " ++ what ++ " " ++ quote path ++ ": " ++ why) 1

/-- Does something with each of some operands, of which there must be one. -/
def forOperands (operands : List Raw) (act : Raw → Task Unit) : Task Unit := do
  if operands.isEmpty then misuse "missing operand" 1 else operands.forM act

/-! ## Directories -/

/-- Makes a directory whose parent must be there. -/
def makeOne (path : Raw) (verbose : Bool) : Task (Except Raw Unit) := do
  match ← locateLink (trimSlashes path) with
  | .error cause => return .error cause.words
  | .ok place =>
    let tree := (← get).tree
    if (tree.entry? place).isSome then return .error "File exists"
    else if !tree.isDirectoryAt place.dropLast then return .error PathCause.notFound.words
    else
      changeTree fun t => t.put place .directory
      if verbose then
        say ("mkdir: created directory " ++ quote path ++ "\n")
      return .ok ()

/-- The beginnings of a path, one for each component. -/
def beginnings (path : Raw) : List Raw :=
  let cuts := (List.range path.length).filter fun i =>
    path[i]? ≠ some '/' && (path[i + 1]? = some '/' || i + 1 = path.length)
  cuts.map fun i => path.take (i + 1)

/-- Makes directories. -/
def mkdir : Program := fun arguments => do
  let a ← Arguments.read
    { flags := "pv", valued := "mZ", names := [("parents", 'p'), ("verbose", 'v'), ("mode", 'm')] }
    arguments
  forOperands a.operands fun path => do
    if a.has 'p' then
      for part in beginnings path do
        unless ← isDirectory part do
          match ← makeOne part (a.has 'v') with
          | .ok _ => pure ()
          | .error why =>
            if (← get).status = 0 || part = path then cannot "create directory" part why
            return
    else
      match ← makeOne path (a.has 'v') with
      | .ok _ => pure ()
      | .error why => cannot "create directory" path why

/-- Takes away a directory with nothing in it. -/
def removeEmpty (path : Raw) : Task Bool := do
  let failed (why : Raw) : Task Bool := do
    complain ("failed to remove " ++ quote path ++ ": " ++ why) 1
    return false
  match ← findLink? (trimSlashes path) with
  | .error cause => failed cause.words
  | .ok (place, .directory) =>
    if ((← get).tree.namesAt place).isEmpty then
      changeTree fun t => t.erase place
      return true
    else failed "Directory not empty"
  | .ok _ => failed PathCause.notDirectory.words

/-- Takes away directories. -/
def rmdir : Program := fun arguments => do
  let a ← Arguments.read
    { flags := "pv", names := [("parents", 'p'), ("ignore-fail-on-non-empty", 'i')] } arguments
  forOperands a.operands fun path => do
    let parts := if a.has 'p' then (beginnings path).reverse else [path]
    for part in parts do
      unless ← removeEmpty part do
        return

/-! ## Taking away -/

/-- Takes away files and directories. -/
def rm : Program := fun arguments => do
  let a ← Arguments.read
    { flags := "rRfvidI"
      names := [("recursive", 'r'), ("force", 'f'), ("verbose", 'v'), ("dir", 'd')] } arguments
  if a.operands.isEmpty && a.has 'f' then return
  forOperands a.operands fun path => do
    let deep := a.has 'r' || a.has 'R'
    let name := lastComponent path
    let found ← if path.getLast? = some '/' && path ≠ "/" && !(← isDirectory path) then
        pure ((← find? path).map fun e => (([] : Location), e))
      else findLink? (trimSlashes path)
    match found with
    | .error cause =>
      unless a.has 'f' && (cause = .notFound || cause = .notDirectory) do
        cannot "remove" path cause.words
    | .ok (place, .directory) =>
      if deep && (name = "." || name = ".." || place = []) then
        complain ("refusing to remove '.' or '..' directory: skipping " ++ quote path) 1
      else if deep || a.has 'd' && ((← get).tree.namesAt place).isEmpty then
        if a.has 'v' then
          let inside := (← get).tree.entries.filter fun e =>
            place.isPrefixOf e.1 && e.1 ≠ place
          for e in inside.reverse do
            let rest := Raw.ofText (Text.join "/" (e.1.drop place.length))
            let kind : Raw := if e.2 = .directory then "removed directory " else "removed "
            say (kind ++ quote (below path rest) ++ "\n")
          say ("removed directory " ++ quote path ++ "\n")
        changeTree fun t => t.erase place
      else if a.has 'd' then cannot "remove" path "Directory not empty"
      else cannot "remove" path PathCause.isDirectory.words
    | .ok (place, _) =>
      changeTree fun t => t.erase place
      if a.has 'v' then
        say ("removed " ++ quote path ++ "\n")

/-- Takes away one file. -/
def unlink : Program := fun arguments => do
  let a ← Arguments.read { flags := [] } arguments
  forOperands a.operands fun path => do
    match ← findLink? path with
    | .error cause => cannot "unlink" path cause.words
    | .ok (_, .directory) => cannot "unlink" path PathCause.isDirectory.words
    | .ok (place, _) => changeTree fun t => t.erase place

/-! ## Making files -/

/-- Makes files that are not there. -/
def touch : Program := fun arguments => do
  let a ← Arguments.read
    { flags := "acmfh", valued := "dtr"
      names := [("no-create", 'c'), ("date", 'd'), ("reference", 'r')] } arguments
  if a.operands.isEmpty then misuse "missing file operand" 1
  for path in a.operands do
    match ← find? path with
    | .ok _ => pure ()
    | .error .notFound =>
      unless a.has 'c' do
        match ← writePath path [] true with
        | .ok _ => pure ()
        | .error cause => cannot "touch" path cause.words
    | .error cause => cannot "touch" path cause.words

/-- The size that a text with a letter for a multiple stands for. -/
def readBytes (t : Raw) : Option Nat :=
  let number := t.takeWhile Char.isDigit
  let factor? : Option Nat := match t.drop number.length with
    | [] => some 1
    | ['k'] | ['K'] => some 1024
    | ['k', 'B'] => some 1000
    | ['M'] => some 1048576
    | _ => none
  match Raw.nat? number, factor? with
  | some n, some factor => some (n * factor)
  | _, _ => none

/-- Makes files longer or shorter. -/
def truncate : Program := fun arguments => do
  let a ← Arguments.read
    { flags := "co", valued := "sr", names := [("size", 's'), ("no-create", 'c')] } arguments
  match a.value? 's' with
  | none => misuse "you must specify either '--size' or '--reference'" 1
  | some size =>
    let (sign, digits) := match size with
      | '+' :: r => (some '+', r)
      | '-' :: r => (some '-', r)
      | r => (none, r)
    match readBytes digits with
    | none => fail ("Invalid number: " ++ quote size) 1
    | some n =>
      forOperands a.operands fun path => do
        let old := ((← readPath path).toOption).getD []
        let wanted := if sign = some '+' then old.length + n
          else if sign = some '-' then old.length - n else n
        let content := old.take wanted ++ List.replicate (wanted - old.length) '\x00'
        match ← writePath path content false with
        | .ok _ => pure ()
        | .error cause => cannot "open" path (cause.words)

/-- Makes a temporary file or directory, and writes its path. -/
def mktemp : Program := fun arguments => do
  let a ← Arguments.read
    { flags := "duqt", valued := "p", names := [("directory", 'd'), ("tmpdir", 'p')] } arguments
  let template := a.operands.headD "/tmp/tmp.XXXXXXXXXX"
  let stem := (template.reverse.dropWhile (· = 'X')).reverse
  let size := template.length - stem.length
  let tree := (← get).tree
  let path := stem ++ Raw.padLeft '0' size (Text.ofNat tree.entries.length)
  if a.has 'd' then discard <| makeOne path false
  else discard <| writePath path [] false
  say (path ++ "\n")

/-! ## Links and modes -/

/-- The path of a target in a directory, if it is one, or else the target. -/
def placeIn (directory : Bool) (target source : Raw) : Raw :=
  if directory then below target (lastComponent source) else target

/-- Makes links. Without `-s` a link is a file of the same content. -/
def ln : Program := fun arguments => do
  let a ← Arguments.read
    { flags := "sfnvTr", valued := "t"
      names := [("symbolic", 's'), ("force", 'f'), ("no-dereference", 'n'), ("verbose", 'v')] }
    arguments
  let link (source target : Raw) : Task Unit := do
    let place? ← locateLink target
    let there := match ← findLink? target with
      | .ok (_, e) => some e
      | .error _ => none
    match place? with
    | .error cause => cannot "link" target cause.words
    | .ok place =>
      if there.isSome && !a.has 'f' then
        let kind : Raw := if a.has 's' then "symbolic" else "hard"
        complain ("failed to create " ++ kind ++ " link " ++ quote target ++ ": File exists") 1
      else if there = some .directory then
        complain (target ++ ": cannot overwrite directory") 1
      else if !(← get).tree.isDirectoryAt place.dropLast then
        complain ("failed to create link " ++ quote target ++ ": " ++ PathCause.notFound.words) 1
      else if a.has 's' then changeTree fun t => t.put place (.link (Raw.toText source))
      else
        match ← find? source with
        | .error cause => complain ("failed to access " ++ quote source ++ ": " ++ cause.words) 1
        | .ok .directory =>
          complain (source ++ ": hard link not allowed for directory") 1
        | .ok e => changeTree fun t => t.put place e
  match a.operands with
  | [] => misuse "missing file operand" 1
  | [one] => link one (lastComponent one)
  | operands =>
    let target := operands.getLastD []
    let direct := a.has 'n' && (← findLink? target).toOption.any fun e => e.2 ≠ .directory
    let inside := !a.has 'T' && !direct && (← isDirectory target)
    if operands.length = 2 || inside then
      for source in operands.dropLast do
        link source (placeIn inside target source)
    else fail ("target " ++ quote target ++ ": " ++ PathCause.notDirectory.words) 1

/-- Whether files may be started after a change of mode. -/
def changeRuns (mode : Raw) (runs : Bool) : Option Bool :=
  if mode ≠ [] && mode.all fun c => '0' ≤ c && c ≤ '7' then
    some (mode.any fun c => (c.toNat - 48) % 2 = 1)
  else
    (Text.cut ',' mode).foldlM (fun runs clause =>
      let who := clause.takeWhile fun c => ("ugoa" : Raw).contains c
      match clause.drop who.length with
      | o :: what =>
        if !what.all (fun c => ("rwxXst" : Raw).contains c) then none
        else if o = '+' then some (runs || what.contains 'x')
        else if o = '-' then some (runs && !what.contains 'x')
        else if o = '=' then some (what.contains 'x' || runs && !(who = [] || who.contains 'a'))
        else none
      | [] => none) runs

/-- Changes modes. Of a mode only counts whether a file may be started. -/
def chmod : Program := fun arguments => do
  let known := arguments.map fun a =>
    match a with
    | '-' :: c :: _ => if ("rwx".toList).contains c then 'a' :: a else a
    | _ => a
  let a ← Arguments.read
    { flags := "Rvcf", names := [("recursive", 'R'), ("verbose", 'v')] } known
  match a.operands with
  | [] => misuse "missing operand" 1
  | [mode] => misuse ("missing operand after " ++ quote mode) 1
  | mode :: paths =>
    if (changeRuns mode false).isNone then misuse ("invalid mode: " ++ quote mode) 1
    for path in paths do
      match ← locate path with
      | .error cause => cannot "access" path cause.words
      | .ok place =>
        if ((← get).tree.entry? place).isNone then cannot "access" path PathCause.notFound.words
        else
          changeTree fun t => ⟨t.entries.map fun e =>
            let chosen := if a.has 'R' then place.isPrefixOf e.1 else e.1 = place
            match e.2 with
            | .file content runs =>
              if chosen then (e.1, .file content ((changeRuns mode runs).getD runs)) else e
            | _ => e⟩

/-- Shows where links lead. -/
def readlink : Program := fun arguments => do
  let a ← Arguments.read { flags := "fenmqsvz" } arguments
  for path in a.operands do
    if a.has 'f' || a.has 'e' || a.has 'm' then
      match ← locate path with
      | .ok place =>
        if a.has 'e' && ((← get).tree.entry? place).isNone then fault 1
        else say (Raw.ofText ('/' :: Text.join "/" place) ++ (if a.has 'n' then [] else ['\n']))
      | .error _ => fault 1
    else
      match ← findLink? path with
      | .ok (_, .link target) => say (Raw.ofText target ++ (if a.has 'n' then [] else ['\n']))
      | _ => fault 1

/-- Shows paths without links. -/
def realpath : Program := fun arguments => do
  let a ← Arguments.read { flags := "emsqz", valued := "R" } arguments
  forOperands a.operands fun path => do
    match ← locate path with
    | .ok place =>
      let tree := (← get).tree
      if a.has 'e' && (tree.entry? place).isNone || !tree.isDirectoryAt place.dropLast then
        complain (path ++ ": " ++ PathCause.notFound.words) 1
      else say (Raw.ofText ('/' :: Text.join "/" place) ++ "\n")
    | .error cause => complain (path ++ ": " ++ cause.words) 1

/-! ## Copying and moving -/

/-- Puts a copy of what stands at a location at another one. -/
def copyTree (source target : Location) : Task Unit :=
  changeTree fun t =>
    let copies := t.entries.filterMap fun e =>
      if source.isPrefixOf e.1 then some (target ++ e.1.drop source.length, e.2) else none
    copies.foldl (fun t e =>
      match e.2, t.entry? e.1 with
      | .directory, some .directory => t
      | .file content _, some (.file _ _) => t.putContent e.1 content
      | entry, _ => t.put e.1 entry) t

/-- Copies one path to another. -/
def copyOne (a : Arguments) (source target : Raw) : Task Unit := do
  let deep := a.has 'r' || a.has 'R' || a.has 'a'
  let keepsLinks := deep || a.has 'd' || a.has 'P'
  let found ← if keepsLinks then findLink? source
    else do
      match ← find? source, ← locate source with
      | .ok e, .ok place => pure (Except.ok (place, e))
      | .error cause, _ | _, .error cause => pure (Except.error cause)
  match found with
  | .error cause => complain ("cannot stat " ++ quote source ++ ": " ++ cause.words) 1
  | .ok (place, entry) =>
    match ← locate (trimSlashes target) with
    | .error cause => complain ("cannot stat " ++ quote target ++ ": " ++ cause.words) 1
    | .ok goal =>
      let tree := (← get).tree
      let there := tree.entry? goal
      let verbose : Task Unit := do
        if a.has 'v' then
          say (quote source ++ " -> " ++ quote target ++ "\n")
      if a.has 'n' && there.isSome then pure ()
      else if goal = place then
        complain (quote source ++ " and " ++ quote target ++ " are the same file") 1
      else if !tree.isDirectoryAt goal.dropLast then
        complain ("cannot create regular file " ++ quote target ++ ": " ++
          PathCause.notFound.words) 1
      else
        match entry, there with
        | .directory, there =>
          if !deep then
            complain ("-r not specified; omitting directory " ++ quote source) 1
          else if there.any fun e => e ≠ .directory then
            complain ("cannot overwrite non-directory " ++ quote target ++ " with directory " ++
              quote source) 1
          else if place.isPrefixOf goal then
            complain ("cannot copy a directory, " ++ quote source ++ ", into itself, " ++
              quote target) 1
          else
            verbose
            copyTree place goal
        | _, some .directory =>
          complain ("cannot overwrite directory " ++ quote target ++ " with non-directory") 1
        | .link path, _ =>
          changeTree fun t => t.put goal (.link path)
          verbose
        | .device _, _ =>
          match ← readPath source with
          | .ok content => discard <| writePath target content false
          | .error cause => complain (source ++ ": " ++ cause.words) 1
        | .file content runs, there =>
          if there.isSome then discard <| writePath target (Raw.ofBytes content) false
          else changeTree fun t => t.put goal (.file content runs)
          verbose
        | e, _ => changeTree fun t => t.put goal e

/-- Moves one path to another. -/
def moveOne (a : Arguments) (source target : Raw) : Task Unit := do
  match ← findLink? (trimSlashes source) with
  | .error cause => complain ("cannot stat " ++ quote source ++ ": " ++ cause.words) 1
  | .ok (place, entry) =>
    match ← locateLink (trimSlashes target) with
    | .error cause => complain ("cannot stat " ++ quote target ++ ": " ++ cause.words) 1
    | .ok goal =>
      let tree := (← get).tree
      let there := tree.entry? goal
      if a.has 'n' && there.isSome then pure ()
      else if goal = place then
        complain (quote source ++ " and " ++ quote target ++ " are the same file") 1
      else if !tree.isDirectoryAt goal.dropLast then
        complain ("cannot move " ++ quote source ++ " to " ++ quote target ++ ": " ++
          PathCause.notFound.words) 1
      else if entry = .directory && place.isPrefixOf goal then
        complain ("cannot move " ++ quote source ++ " to a subdirectory of itself, " ++
          quote target) 1
      else if entry = .directory && there.any fun e => e ≠ .directory then
        complain ("cannot overwrite non-directory " ++ quote target ++ " with directory " ++
          quote source) 1
      else if entry ≠ .directory && there = some .directory then
        complain ("cannot overwrite directory " ++ quote target ++ " with non-directory") 1
      else if there = some .directory && !(tree.namesAt goal).isEmpty then
        complain ("cannot move " ++ quote source ++ " to " ++ quote target ++
          ": Directory not empty") 1
      else if entry ≠ .directory && target.getLast? = some '/' then
        complain ("cannot move " ++ quote source ++ " to " ++ quote target ++ ": " ++
          PathCause.notDirectory.words) 1
      else
        match there with
        | some (.device _) =>
          let content := ((← readPath source).toOption).getD []
          discard <| writePath target content false
          changeTree fun t => t.erase place
        | _ => changeTree fun t => t.relocate place goal
        if a.has 'v' then
          say ("renamed " ++ quote source ++ " -> " ++ quote target ++ "\n")

/-- Does something with sources and a target, which is a directory if there are several. -/
def toTarget (a : Arguments) (act : Raw → Raw → Task Unit) : Task Unit := do
  match a.value? 't', a.operands with
  | some target, sources =>
    for source in sources do
      act source (below target (lastComponent source))
  | none, [] => misuse "missing file operand" 1
  | none, [one] => misuse ("missing destination file operand after " ++ quote one) 1
  | none, operands =>
    let target := operands.getLastD []
    let inside := !a.has 'T' && (← isDirectory target)
    if operands.length = 2 || inside then
      for source in operands.dropLast do
        act source (placeIn inside target source)
    else
      let why := match ← find? target with
        | .ok _ => PathCause.notDirectory.words
        | .error cause => cause.words
      fail ("target " ++ quote target ++ ": " ++ why) 1

/-- Copies files and directories. -/
def cp : Program := fun arguments => do
  let a ← Arguments.read
    { flags := "rRafpnviudPLHTls", valued := "tS"
      names := [("recursive", 'r'), ("archive", 'a'), ("force", 'f'), ("no-clobber", 'n'),
        ("verbose", 'v'), ("target-directory", 't'), ("no-target-directory", 'T'),
        ("parents", 'z')] } arguments
  toTarget a fun source target => do
    if target.getLast? = some '/' && !(← isDirectory target) && !(← isDirectory source) then
      complain ("cannot create regular file " ++ quote target ++ ": " ++
        PathCause.notDirectory.words) 1
    else copyOne a source target

/-- Moves files and directories. -/
def mv : Program := fun arguments => do
  let a ← Arguments.read
    { flags := "fnviuT", valued := "tS"
      names := [("force", 'f'), ("no-clobber", 'n'), ("verbose", 'v'),
        ("target-directory", 't'), ("no-target-directory", 'T')] } arguments
  toTarget a (moveOne a)

/-- Copies files and makes them programs, or makes directories. -/
def install : Program := fun arguments => do
  let a ← Arguments.read
    { flags := "dDvcpT", valued := "mogt", names := [("directory", 'd'), ("mode", 'm')] } arguments
  if a.has 'd' then
    for path in a.operands do
      for part in beginnings path do
        unless ← isDirectory part do
          discard <| makeOne part false
  else
    toTarget a fun source target => do
      if a.has 'D' then
        for part in (beginnings target).dropLast do
          unless ← isDirectory part do
            discard <| makeOne part false
      copyOne a source target
      match ← locate target with
      | .ok place => changeTree fun t =>
        match t.entry? place with
        | some (.file content _) =>
          t.put place (.file content ((changeRuns ((a.value? 'm').getD "755") true).getD true))
        | _ => t
      | .error _ => pure ()

/-! ## Lists -/

/-- The mark that shows what kind of thing a name stands for. -/
def kindMark (a : Arguments) (e : FileTree.Entry) : Raw :=
  match e with
  | .directory => if a.has 'F' || a.has 'p' then ['/'] else []
  | .file _ true | .program _ => if a.has 'F' then ['*'] else []
  | .link _ => if a.has 'F' then ['@'] else []
  | _ => []

/-- A line of a long list. -/
def longRow (name : Raw) (e : FileTree.Entry) : Raw :=
  let (kind, size) : Raw × Nat := match e with
    | .directory => ("drwxr-xr-x", 4096)
    | .file content runs => (if runs then "-rwxr-xr-x" else "-rw-r--r--", content.length)
    | .link target => ("lrwxrwxrwx", target.length)
    | .program _ => ("-rwxr-xr-x", 0)
    | .device _ => ("crw-rw-rw-", 0)
  let shown := match e with
    | .link target => name ++ " -> " ++ Raw.ofText target
    | _ => name
  kind ++ " 1 root root " ++ Text.ofNat size ++ " Jan  1 00:00 " ++ shown

/-- Names in the order in which they are listed. -/
def listed (a : Arguments) (names : List (Raw × FileTree.Entry)) : List (Raw × FileTree.Entry) :=
  let size (e : FileTree.Entry) : Nat := match e with
    | .file content _ => content.length
    | _ => 4096
  let sorted := if a.has 'U' || a.has 'f' then names
    else if a.has 'S' then
      (names.mergeSort fun x y => Raw.notAfter x.1 y.1).mergeSort fun x y => size y.2 ≤ size x.2
    else names.mergeSort fun x y => Raw.notAfter x.1 y.1
  if a.has 'r' then sorted.reverse else sorted

/-- The lines that show names. -/
def rows (a : Arguments) (names : List (Raw × FileTree.Entry)) : Raw :=
  if a.has 'l' then Raw.unlines (names.map fun n => longRow n.1 n.2 ++ kindMark a n.2)
  else
    let named (name : Raw) : Raw := if a.has 'Q' then ['"'] ++ name ++ ['"'] else name
    let shown := names.map fun n => named n.1 ++ kindMark a n.2
    if a.has 'm' then if shown.isEmpty then [] else Text.join ", " shown ++ "\n"
    else Raw.unlines shown

/-- The names in a directory that are listed. -/
def namesIn (a : Arguments) (tree : FileTree) (place : Location) :
    List (Raw × FileTree.Entry) :=
  let inside := (tree.namesAt place).filterMap fun n =>
    (tree.entry? (place ++ [n])).map fun e => (Raw.ofText n, e)
  let hidden := a.has 'a' || a.has 'A' || a.has 'f'
  let shown := inside.filter fun n => hidden || n.1.head? ≠ some '.'
  let dots : List (Raw × FileTree.Entry) :=
    if a.has 'a' || a.has 'f' then [(['.'], .directory), (['.', '.'], .directory)] else []
  listed a (dots ++ shown)

/-- The blocks of a list of directories, and with `-R` of those in them; the number bounds how deep
they lie. -/
def blocks (a : Arguments) (titled : Bool) (tree : FileTree) : Nat → Raw → Location → List Raw
  | 0, _, _ => []
  | n + 1, path, place =>
    let names := namesIn a tree place
    let title := if titled then path ++ ":\n" else []
    let total : Raw := if a.has 'l' then "total 0\n" else []
    let inner := if a.has 'R' then
        names.flatMap fun e =>
          if e.2 = .directory && e.1 ≠ ['.'] && e.1 ≠ ['.', '.'] then
            blocks a titled tree n (below path e.1) (place ++ [Raw.toText e.1])
          else []
      else []
    (title ++ total ++ rows a names) :: inner

/-- Lists files and what is in directories. -/
def ls : Program := fun arguments => do
  let a ← Arguments.read
    { flags := "aA1dlRrFpStUfmQChHLnogsikxcuNqbX", valued := "Iw", status := 2
      names := [("all", 'a'), ("almost-all", 'A'), ("directory", 'd'), ("recursive", 'R'),
        ("reverse", 'r'), ("classify", 'F'), ("color", 'N'), ("size", 's')] } arguments
  let operands := if a.operands.isEmpty then [['.']] else a.operands
  let mut files : List (Raw × FileTree.Entry) := []
  let mut directories : List (Raw × Location) := []
  for path in operands do
    let found ← if a.has 'l' && path.getLast? ≠ some '/' then
        (·.map Prod.snd) <$> findLink? path
      else find? path
    match found with
    | .error cause => complain ("cannot access " ++ quote path ++ ": " ++ cause.words) 2
    | .ok .directory =>
      if a.has 'd' then files := (path, .directory) :: files
      else
        match ← locate path with
        | .ok place => directories := (path, place) :: directories
        | .error _ => pure ()
    | .ok e => files := (path, e) :: files
  let tree := (← get).tree
  let titled := 1 < operands.length || a.has 'R'
  let ordered := directories.mergeSort fun x y => Raw.notAfter x.1 y.1
  let ordered := if a.has 'r' then ordered.reverse else ordered
  let depth := tree.entries.length + 1
  let parts := (if files.isEmpty then [] else [rows a (listed a files)]) ++
    ordered.flatMap fun d => blocks a titled tree depth d.1 d.2
  say (Text.join "\n" parts)

/-- A format with what it shows of a file in the place of its marks. -/
def describe (path : Raw) (e : FileTree.Entry) : Raw → Raw
  | '%' :: c :: r =>
    let size := match e with
      | .file content _ => content.length
      | .directory => 4096
      | _ => 0
    let kind : Raw := match e with
      | .directory => "directory"
      | .file [] _ => "regular empty file"
      | .link _ => "symbolic link"
      | .device _ => "character special file"
      | _ => "regular file"
    let runs := match e with
      | .directory | .file _ true | .program _ => true
      | _ => false
    let value : Raw :=
      if c = 's' then Text.ofNat size
      else if c = 'n' then path
      else if c = 'F' then kind
      else if c = 'a' then if runs then "755" else "644"
      else if c = 'A' then (longRow [] e).take 10
      else if c = 'U' || c = 'G' then "root"
      else if c = 'u' || c = 'g' then "0"
      else if c = 'h' then "1"
      else if c = '%' then ['%']
      else ['?']
    value ++ describe path e r
  | c :: r => c :: describe path e r
  | [] => []

/-- Shows what is known of files. -/
def stat : Program := fun arguments => do
  let a ← Arguments.read
    { flags := "Lft", valued := "cp", names := [("format", 'c'), ("printf", 'p')] } arguments
  forOperands a.operands fun path => do
    let found ← if a.has 'L' then find? path else (·.map Prod.snd) <$> findLink? path
    match found with
    | .error cause => complain ("cannot statx " ++ quote path ++ ": " ++ cause.words) 1
    | .ok e =>
      match a.value? 'c', a.value? 'p' with
      | some format, _ => say (describe path e format ++ "\n")
      | none, some format => say (Printf.unescape Printf.system (describe path e format)).1
      | none, none => say ("  File: " ++ path ++ "\n")

/-! ## Comparing -/

/-- The place and line of the first difference of two contents, if there is one. -/
def difference (a b : Raw) : Nat → Nat → Option (Nat × Nat)
  | offset, line =>
    match a, b with
    | [], [] => none
    | x :: xs, y :: ys =>
      if x = y then difference xs ys (offset + 1) (if x = '\n' then line + 1 else line)
      else some (offset, line)
    | _, _ => some (offset, line)
termination_by a.length

/-- Compares two files byte by byte. -/
def cmp : Program := fun arguments => do
  let a ← Arguments.read
    { flags := "slb", valued := "n", status := 2, names := [("silent", 's'), ("quiet", 's')] }
    arguments
  let left := a.operands.headD "-"
  let right := a.operands.getD 1 "-"
  match ← readPath left, ← readPath right with
  | .ok x, .ok y =>
    match difference x y 1 1 with
    | none => pure ()
    | some (offset, line) =>
      fault 1
      unless a.has 's' do
        let ended := offset = x.length + 1 || offset = y.length + 1
        if ended then
          let short := if x.length < y.length then left else right
          note ("EOF on " ++ short ++ " after byte " ++ Text.ofNat (offset - 1))
        else say (left ++ " " ++ right ++ " differ: byte " ++ Text.ofNat offset ++ ", line " ++
          Text.ofNat line ++ "\n")
  | .error cause, _ => complain (left ++ ": " ++ cause.words) 2
  | _, .error cause => complain (right ++ ": " ++ cause.words) 2

end Program

end Shell

end Haybuild
