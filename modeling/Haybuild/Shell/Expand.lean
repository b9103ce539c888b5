import Haybuild.Shell.Apart
import Haybuild.Shell.Arithmetic
import Haybuild.Shell.Fields

/-!
# Expansion of words

`Word.expand` puts values in the place of parameters, scripts and arithmetic terms. From the atoms
that come out, `Word.fields` makes fields, `Word.text` one text and `Word.pattern` one pattern.
-/

namespace Haybuild

namespace Shell

namespace Session

/-- The letters of the options that are on, in the order in which they are shown. -/
def optionLetters (s : Session) : Raw :=
  match s.dialect with
  | .standard => ("ubaCvxnfe" : Raw).filter s.has
  | .extended => ("aefhnuvxBC" : Raw).filter (fun c => c = 'h' || c = 'B' || s.has c) ++ ['c']

/-- The number of the process of a shell. -/
def processNumber : Nat := 4000

/-- The value of a variable of the extended dialect that tells something of the shell. -/
def telling? (s : Session) (name : Raw) : Option Raw :=
  if name = "LINENO" then some (Text.ofNat s.line)
  else if name = "SECONDS" then some (Text.ofNat (s.clock / 1000000))
  else if name = "BASH" then some s.name
  else if name = "UID" || name = "EUID" then some ['0']
  else if name = "BASHPID" then some (Text.ofNat (processNumber + s.process))
  else none

/-- The value of a parameter. -/
def parameter? (s : Session) (name : Raw) : Option Raw :=
  match name with
  | ['?'] => some (Text.ofNat s.status)
  | ['#'] => some (Text.ofNat s.parameters.length)
  | ['$'] => some (Text.ofNat processNumber)
  | ['-'] => some s.optionLetters
  | ['!'] => s.lastBackground.map Text.ofNat
  | ['0'] => some s.name
  | _ =>
    match Raw.nat? name with
    | some n => if n = 0 then some s.name else s.parameters[n - 1]?
    | none =>
      match if s.dialect = .extended then s.telling? name else none with
      | some value => some value
      | none => s.get? name

/-- The elements of an array by their subscripts. A text is the only element of one. -/
def elements (s : Session) (name : Raw) : List (Nat × Raw) :=
  match (s.vars.get? name).bind Variable.value with
  | some (.array elements) => elements
  | some (.text t) => [(0, t)]
  | some (.table _) => []
  | none =>
    if name = "PIPESTATUS" && s.dialect = .extended then
      s.stageStatuses.mapIdx fun i status => (i, Text.ofNat status)
    else []

/-- The entries of a table. -/
def table? (s : Session) (name : Raw) : Option (List (Raw × Raw)) :=
  match (s.vars.get? name).bind Variable.value with
  | some (.table entries) => some entries
  | _ => none

/-- The elements of an array or a table by their subscripts as texts. -/
def entries (s : Session) (name : Raw) : List (Raw × Raw) :=
  (s.table? name).getD ((s.elements name).map fun e => (Text.ofNat e.1, e.2))

end Session

namespace Word

/-- The home directory that a tilde with a name stands for. -/
def home? (s : Session) (user : Raw) : Option Raw :=
  if user = [] then s.get? "HOME" else if user = "root" then some "/root" else none

/-- Takes a tilde at the front for the home directory it names. `ends` are the characters before
which it may stand, and `whole` tells that it may stand at the end too. -/
def withHome (s : Session) (ends : List Char) (whole : Bool) (t : Raw) : Word :=
  match t with
  | '~' :: r =>
    let user := r.takeWhile fun c => !ends.contains c
    let rest := r.drop user.length
    match if rest = [] && !whole then none else home? s user with
    | some path => [.text true path, .text false rest]
    | none => [.text false t]
  | _ => [.text false t]

/-- A word with the home directory in the place of a tilde at its front. -/
def tilde (s : Session) (w : Word) : Word :=
  match w with
  | .text false ('~' :: t) :: r => withHome s ['/'] r.isEmpty ('~' :: t) ++ r
  | _ => w

/-- The value of an assignment with home directories in the place of tildes at its front and after
colons. -/
def tildes (s : Session) (w : Word) : Word :=
  let rec go (atFront : Bool) : Word → Word
    | [] => []
    | .text false t :: r =>
      let pieces := Text.cut ':' t
      let count := pieces.length
      let row := pieces.mapIdx fun i piece =>
        let after : Word := if i + 1 < count then [.text false [':']] else []
        let whole := i + 1 < count || r.isEmpty
        (if i = 0 && !atFront then [.text false piece] else withHome s ['/'] whole piece) ++ after
      row.flatten ++ go false r
    | p :: r => p :: go false r
  go true w

/-- The values that a parameter with a subscript has. -/
inductive Found where
  | one (value : Option Raw)
  /-- All positional parameters, or all elements of an array. -/
  | many (starred : Bool) (values : List Raw)

/-- The atoms of what was found, as it stands. -/
def Found.atoms (s : Session) (quoted : Bool) : Found → List Atom
  | one value => Fields.ofValue quoted (value.getD [])
  | many starred values =>
    if starred && quoted then Fields.ofValue true (Text.join (Fields.separator s) values)
    else Fields.ofValues quoted values

/-- What was found, with every value changed. -/
def Found.map (f : Raw → Raw) : Found → Found
  | one value => one (value.map f)
  | many starred values => many starred (values.map f)

/-- There is a value, which with `orEmpty` is not empty. -/
def Found.isPresent (orEmpty : Bool) : Found → Bool
  | one none => false
  | one (some t) => !(orEmpty && t = [])
  | many _ values => !orEmpty || values.any (· ≠ [])

/-- The characters of a text from an offset on. A negative offset counts from the end, and so does a
negative length. -/
def slice {α : Type} (t : List α) (offset : Int) (length : Option Int) : List α :=
  let size : Int := t.length
  let start := if offset < 0 then max 0 (size + offset) else offset
  match length with
  | none => t.drop start.toNat
  | some n =>
    let stop := if n < 0 then size + n else start + n
    (t.take stop.toNat).drop start.toNat

/-- A text with its letters made large or small: the first, or every one. Only those change that a
pattern stands for. -/
def recase (upper all : Bool) (gs : List FilePattern.Glyph) (t : Raw) : Raw :=
  let change (c : Char) : Char :=
    if !FilePattern.Glyph.matchAll gs [c] then c else if upper then c.toUpper else c.toLower
  match t with
  | [] => []
  | c :: r => change c :: if all then r.map change else r

/-- A text as a word of a script that stands for it. -/
def quoteText (t : Raw) : Raw :=
  ['\''] ++ (t.flatMap fun c => if c = '\'' then "'\\''" else [c]) ++ ['\'']

/-- A text cut into the characters that its bytes make, each as a raw text. -/
def characterTexts (t : Raw) : List Raw :=
  (Raw.toText t).map fun c => Raw.ofText [c]

/-- Complains about a parameter and leaves the shell. -/
def failParameter {α : Type} (name message : Raw) : Act α := do
  let s ← get
  let status := if s.dialect = .standard then 2 else if s.isApart then 1 else 127
  Act.fatal (name ++ ": " ++ message) status
mutual

/-- The atoms of a word. -/
def expandParts (run : Runner) : Nat → Word → Act (List Atom)
  | 0, _ => Act.fatal "word nested too deep" 2
  | n + 1, w => do
    return (← w.mapM (expandPart run n)).flatten

/-- The atoms of a part. -/
def expandPart (run : Runner) : Nat → Part → Act (List Atom)
  | 0, _ => Act.fatal "word nested too deep" 2
  | n + 1, part => do
    match part with
    | .text quoted t =>
      return if quoted && t = [] then [.mark] else t.map fun c => .char c quoted false
    | .output quoted body =>
      let body := match body, (← get).dialect with
        | .list [.simple line [] [] [.mk 0 .input target]], .extended =>
          Script.simple line [] [Word.plain "cat"] [.mk 0 .input target]
        | body, _ => body
      let t ← Act.outputOf run (run body)
      return Fields.ofValue quoted (Raw.dropLineFeeds (t.filter (· ≠ '\x00')))
    | .stream body =>
      let t ← Act.outputOf run (run body)
      let s ← get
      let descriptor := Session.greatestStream - s.streams
      let (s, handle) := s.openChannel (.source t)
      set { s.connect descriptor handle with streams := s.streams + 1 }
      return Fields.ofValue true ("/dev/fd/" ++ Text.ofNat descriptor)
    | .arithmetic quoted term =>
      let atoms ← expandParts run n term
      let v ← Arithmetic.evaluate Arithmetic.depth (Fields.text (← get) atoms)
      return Fields.ofValue quoted (Text.ofInt v)
    | .parameter quoted name subscript use words =>
      let found ← findParameter run n name subscript
      useParameter run n quoted name use words subscript found

/-- The values of a parameter. -/
def findParameter (run : Runner) : Nat → Raw → Option Word → Act Found
  | 0, _, _ => Act.fatal "word nested too deep" 2
  | n + 1, name, subscript => do
    let s ← get
    match subscript with
    | none =>
      if name = "@" || name = "*" then return .many (name = "*") s.parameters
      else return .one (s.parameter? name)
    | some w =>
      let t := Fields.text s (← expandParts run n w)
      if t = "@" || t = "*" then return .many (t = "*") ((s.entries name).map Prod.snd)
      else
        match s.table? name with
        | some entries => return .one (entries.lookup t)
        | none =>
          let i ← Arithmetic.evaluate Arithmetic.depth t
          let elements := s.elements name
          let i := if i < 0 then i + ((elements.getLast?.map Prod.fst).getD 0 : Nat) + 1 else i
          return .one (elements.lookup i.toNat)

/-- The atoms of a parameter of which something is made. -/
def useParameter (run : Runner) :
    Nat → Bool → Raw → Use → List Word → Option Word → Found → Act (List Atom)
  | 0, _, _, _, _, _, _ => Act.fatal "word nested too deep" 2
  | n + 1, quoted, name, use, words, subscript, found => do
    let s ← get
    let word (i : Nat) : Act (List Atom) := do
      let w := tilde s (words.getD i [])
      expandParts run n w
    let other : Act (List Atom) := do
      let atoms ← word 0
      return if quoted then .mark :: atoms else Fields.splitting atoms
    let demandSet : Act Unit := do
      match found with
      | .one none =>
        if s.has 'u' then
          failParameter name (if s.dialect = .standard then "parameter not set" else
            "unbound variable")
      | _ => pure ()
    let changed (f : Raw → Raw) : Act (List Atom) := do
      demandSet
      return (found.map f).atoms (← get) quoted
    let number (i : Nat) : Act Int := do
      Arithmetic.evaluate Arithmetic.depth (Fields.text s (← word i))
    match use with
    | .value =>
      demandSet
      return found.atoms s quoted
    | .length =>
      demandSet
      match found, s.dialect with
      | .one v, .standard => return Fields.ofValue quoted (Text.ofNat (v.getD []).length)
      | .one v, .extended =>
        return Fields.ofValue quoted (Text.ofNat (characterTexts (v.getD [])).length)
      | .many _ values, .standard =>
        return Fields.ofValue quoted
          (Text.ofNat (Text.join (Fields.separator s) values).length)
      | .many _ values, .extended => return Fields.ofValue quoted (Text.ofNat values.length)
    | .otherwise orEmpty => if found.isPresent orEmpty then return found.atoms s quoted else other
    | .instead orEmpty =>
      if found.isPresent orEmpty then other else return Fields.ofValue quoted []
    | .assign orEmpty =>
      if found.isPresent orEmpty then return found.atoms s quoted
      else if !Raw.isName name then failParameter name "bad variable name"
      else
        let value := Fields.text s (← word 0)
        Act.assign name value
        return Fields.ofValue quoted value
    | .demand orEmpty =>
      if found.isPresent orEmpty then return found.atoms s quoted
      else
        let message := Fields.text s (← word 0)
        let usual : Raw :=
          if !orEmpty then "parameter not set"
          else if s.dialect = .standard then "parameter not set or null"
          else "parameter null or not set"
        failParameter name (if words.all List.isEmpty then usual else message)
    | .trim atEnd longest =>
      let gs := Pattern.ofMarked s (Fields.joined s (← word 0))
      changed (Pattern.removeMatch atEnd longest gs)
    | .replace all atFront atEnd =>
      let gs := Pattern.ofMarked s (Fields.joined s (← word 0))
      let new := Fields.text s (← word 1)
      changed fun t =>
        if atFront then
          match Pattern.longestFront? gs t with
          | some size => new ++ t.drop size
          | none => t
        else if atEnd then
          let ends := FilePattern.Glyph.matchEnds gs t
          match (List.range ends.length).find? fun i => ends.getD i false with
          | some i => t.take i ++ new
          | none => t
        else Pattern.replace all gs new (t.length + 1) t
    | .recase upper all =>
      let gs := Pattern.ofMarked s (Fields.joined s (← word 0))
      changed (recase upper all (if gs.isEmpty then Pattern.row true [('?', false)] else gs))
    | .quote => changed quoteText
    | .slice =>
      let offset ← number 0
      let length ← if words.length < 2 then pure none else some <$> number 1
      match found with
      | .one v =>
        return Fields.ofValue quoted (slice (characterTexts (v.getD [])) offset length).flatten
      | .many starred values =>
        let values := if subscript.isNone then s.name :: values else values
        return (Found.many starred (slice values offset length)).atoms s quoted
    | .indirect =>
      match found with
      | .one (some target) => return (Found.one (s.parameter? target)).atoms s quoted
      | _ => Act.fatal (name ++ ": invalid indirect expansion") 1
    | .keys =>
      let keys := (s.entries name).map Prod.fst
      match found with
      | .many starred _ => return (Found.many starred keys).atoms s quoted
      | .one _ => return []
    | .nonsense =>
      match s.dialect with
      | .standard => Act.fatal "Bad substitution" 2
      | .extended => Act.fatal "bad substitution" 1

end

/-- The greatest depth of words in words. -/
def depth : Nat := 10000

/-- The atoms of a word. -/
def expand (run : Runner) (w : Word) : Act (List Atom) := do
  expandParts run depth (tilde (← get) w)

/-- The fields of a word: it is split, and patterns give way to the paths they name. -/
def fields (run : Runner) (w : Word) : Act (List Raw) := do
  let atoms ← expand run w
  let s ← get
  return (Fields.split (Fields.separators s) atoms).flatMap (Fields.paths s)

/-- The text of a word that is one field whatever it holds. -/
def text (run : Runner) (w : Word) : Act Raw := do
  let atoms ← expand run w
  return Fields.text (← get) atoms

/-- The pattern of a word. -/
def pattern (run : Runner) (w : Word) : Act Marked := do
  let atoms ← expand run w
  return Fields.joined (← get) atoms

/-- The text of the value of an assignment. -/
def value (run : Runner) (w : Word) : Act Raw := do
  let atoms ← expandParts run depth (tildes (← get) w)
  return Fields.text (← get) atoms

/-- The value of a word as an arithmetic term. -/
def number (run : Runner) (w : Word) : Act Int := do
  Arithmetic.evaluate Arithmetic.depth (← text run w)

end Word

end Shell

end Haybuild
