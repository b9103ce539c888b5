import Haybuild.Shell.Command
import Haybuild.Shell.Regex

/-!
# Running scripts

`run` carries out a script. Its first argument bounds how deep scripts may lie in one another; the
turns of loops do not count. What is carried out in a part of a script is done by the same function
with a smaller bound.
-/

namespace Haybuild

namespace Shell

namespace Act

/-! ## Conditions -/

/-- A regular expression for a word whose quoted characters match themselves. -/
def expressionOf (w : Marked) : Raw :=
  w.flatMap fun c => if c.2 && !c.1.isAlphanum then ['\\', c.1] else [c.1]

/-- A pattern accepts a text, perhaps with large letters taken for small ones. -/
def accepts (pattern : Marked) (t : Raw) : Act Bool := do
  let s ← get
  let gs (pattern : Marked) := Pattern.ofMarked s pattern
  if s.has '~' then
    let small := pattern.map fun c => (c.1.toLower, c.2)
    return FilePattern.Glyph.matchAll (gs small) (t.map Char.toLower)
  else return FilePattern.Glyph.matchAll (gs pattern) t

/-- Compares texts or numbers in a condition. -/
def compare (run : Runner) (operator : Raw) (left right : Word) : Act Bool := do
  let a ← Word.text run left
  if operator = "=" || operator = "==" || operator = "!=" then
    let pattern ← Word.pattern run right
    return (← accepts pattern a) != decide (operator = "!=")
  else if operator = "=~" then
    let t := expressionOf (← Word.pattern run right)
    match Regex.parse? true t with
    | none => return false
    | some r =>
      let found := r.find? false a 0
      match found with
      | some m =>
        let groups := (List.range 10).filterMap fun k => (m.text? a k).map fun t => (k, t)
        modify fun s => s.put "BASH_REMATCH" (.array groups)
      | none => pure ()
      return found.isSome
  else
    let b ← Word.text run right
    if operator = "<" then return a < b
    else if operator = ">" then return b < a
    else if operator.head? = some '-' && operator ≠ "-nt" && operator ≠ "-ot" && operator ≠ "-ef" then
      let x ← Arithmetic.evaluate Arithmetic.depth a
      let y ← Arithmetic.evaluate Arithmetic.depth b
      match Test.binary (← get) true operator (Text.ofInt x) (Text.ofInt y) with
      | .ok v => return v
      | .error _ => return false
    else
      match Test.binary (← get) true operator a b with
      | .ok v => return v
      | .error _ => return false

/-- A condition holds. -/
def holds (run : Runner) : Condition → Act Bool
  | .present w => return (← Word.text run w) ≠ []
  | .unary o w => do
    let t ← Word.text run w
    let s ← get
    if o = "-v" then return (s.get? t).isSome else return Test.unary s o t
  | .binary o a b => compare run o a b
  | .negation c => return !(← holds run c)
  | .both a b => do
    if ← holds run a then holds run b else return false
  | .either a b => do
    if ← holds run a then return true else holds run b

/-! ## Loops -/

/-- How a turn of a loop ends. -/
inductive Turn where
  | normal
  | again
  | leave

/-- Carries out a part of a loop. -/
def turn (act : Act Unit) : Act Turn := do
  match ← attempt act with
  | none => return .normal
  | some (.loop levels again) =>
    if 1 < levels then throw (.loop (levels - 1) again)
    else return if again then .again else .leave
  | some j => throw j

/-- Does something that is one loop deeper. -/
def inLoop (act : Act Unit) : Act Unit := do
  let loops := (← get).loops
  modify fun s => { s with loops := loops + 1 }
  ensuring act (modify fun s => { s with loops })

/-- Repeats a step, which gets what the one before it gave, until it asks for no more. -/
def iterate {α : Type} (step : α → Act (α × Bool)) : Nat → α → Act α
  | 0, a => return a
  | n + 1, a => do
    match ← step a with
    | (a, true) => iterate step n a
    | (a, false) => return a

/-- The greatest number of turns of a loop. -/
def turnBound : Nat := 1000000000000

/-- A turn of a loop whose body is carried out while the test ends well, or with `negated` while it
does not. The status is that of the last turn of the body. -/
def loopStep (negated : Bool) (test body after : Act Unit) (status : Nat) : Act (Nat × Bool) := do
  match ← turn (observed test) with
  | .leave => return (status, false)
  | .again => return (status, true)
  | .normal =>
    if ((← get).status = 0) = negated then return (status, false)
    else
      match ← turn body with
      | .leave => return ((← get).status, false)
      | .normal | .again =>
        after
        return ((← get).status, true)

/-- Repeats a body. -/
def repeatWhile (negated : Bool) (test body after : Act Unit) : Act Unit :=
  inLoop do
    finish (← iterate (loopStep negated test body after) turnBound 0)

/-- Carries out a body once for each value of a variable. -/
def eachValue (name : Raw) (body : Act Unit) : List Raw → Act Unit
  | [] => pure ()
  | value :: rest => do
    assign name value
    match ← turn body with
    | .leave => pure ()
    | .normal | .again => eachValue name body rest

/-! ## Choices -/

/-- One of some patterns matches a value. -/
def matchesAny (run : Runner) (value : Raw) : List Word → Act Bool
  | [] => return false
  | w :: rest => do
    let pattern ← Word.pattern run w
    if ← accepts pattern value then return true else matchesAny run value rest

/-- Carries out the first case with a pattern that matches, and what follows on it. With `asked` false
the first case is carried out whatever its patterns are; `found` tells that one was before. -/
def selectCase (run : Runner) (value : Raw) (asked found : Bool) :
    List (List Word × Script × Sequel) → Act Unit
  | [] => unless found do finish 0
  | (patterns, body, sequel) :: rest => do
    let chosen ← if asked then matchesAny run value patterns else pure true
    if chosen then
      match body with
      | .list [] => finish 0
      | body => run body
      match sequel with
      | .done => pure ()
      | .body => selectCase run value false true rest
      | .search => selectCase run value true true rest
    else selectCase run value true found rest

/-! ## Pipelines -/

/-- Nothing is left to read from a channel. -/
def isExhausted (handle : Option Nat) : Act Bool := do
  match handle with
  | none => return true
  | some handle =>
    match (← get).channels[handle]? with
    | some (.source rest) => return rest.isEmpty
    | _ => return true

/-- Does something in a shell of its own that reads from a channel. -/
def stage (run : Runner) (input : Option Nat) (act : Act Unit) : Act Unit :=
  apart run do
    match input with
    | some handle => modify fun s => s.connect 0 handle
    | none => pure ()
    act

/-- Carries out a stage of a pipeline and then those after it, which read what it writes. A stage may
write without end, so it is cut off after so many characters; it gets more room if the stages after
it ask for all of that. What is given tells whether the stage and those after it did so, and the
statuses with which they ended. -/
def feed (run : Runner) (input : Option Nat) (act : Act Unit)
    (next : Nat → Act (Bool × List Nat)) : List Nat → Act (Bool × List Nat)
  | [] => return (false, [])
  | room :: rooms => do
    let before ← get
    let (s, out) := before.openChannel (.sink [] (some room) false)
    set s
    stage run input do
      modify fun s => s.connect 1 out
      act
    let s := (← get).release fun l => l.handle = out
    let ended := s.clock
    let (written, cut) := match s.channels[out]? with
      | some (.sink written _ cut) => (written.reverse, cut)
      | _ => ([], false)
    set { s with
          channels := s.channels.setIfInBounds out (.source written)
          clock := before.clock }
    let (wanted, statuses) ← next out
    modify fun s => s.advanceTo ended
    if cut && wanted && !rooms.isEmpty then
      set before
      feed run input act next rooms
    else return (wanted && (← isExhausted input), s.status :: statuses)

/-- The room for what a stage of a pipeline writes, in the order in which it is tried. -/
def rooms : List Nat :=
  [65536, 1048576, 16777216]

/-- Carries out the stages of a pipeline. -/
def flow (run : Runner) (input : Option Nat) : List Script → Act (Bool × List Nat)
  | [] => return (true, [])
  | [last] => do
    stage run input (run last)
    let status := (← get).status
    return (← isExhausted input, [status])
  | first :: rest => feed run input (run first) (fun out => flow run (some out) rest) rooms

/-- Carries out a pipeline. Its status is that of its last stage, or that of the last stage that ended
badly if the options ask for it. -/
def pipeline (run : Runner) (stages : List Script) : Act Unit := do
  let before ← get
  let (_, statuses) ← flow run none stages
  modify fun s =>
    { s.forgetChannels before.channels.size with stageStatuses := statuses }
  if before.has 'P' then
    finish ((statuses.reverse.find? (· ≠ 0)).getD 0)

/-- Carries out a script that nothing waits for. What it does to files is done at once; what it writes
to pipes is written at its time. -/
def background (run : Runner) (body : Script) : Act Unit := do
  let before ← get
  let process := Session.processNumber + before.processes + 1
  set { before with processes := before.processes + 1 }
  apart run do
    modify fun s =>
      let deferred := s.channels.size
      let (s, handle) := s.openChannel .null
      { s.connect 0 handle with tested := false, deferred, process }
    run body
  modify fun s =>
    { s with
      status := 0
      clock := before.clock
      lastBackground := some process
      jobs := ⟨process, s.status, s.clock⟩ :: s.jobs }

end Act

open Act

/-- Carries out a script. -/
def run : Nat → Runner
  | 0, _ => fatal "commands are nested too deep" 2
  | n + 1, script => do
    if (← get).has 'n' then return
    match script with
    | .simple line assignments words redirections =>
      simple (run n) line assignments words redirections
      modify fun s => { s with stageStatuses := [s.status] }
      settle
    | .list items => items.forM (run n)
    | .background body => background (run n) body
    | .both first second =>
      observed (run n first)
      if (← get).status = 0 then run n second
    | .either first second =>
      observed (run n first)
      unless (← get).status = 0 do
        run n second
    | .negation body =>
      observed (run n body)
      finish (if (← get).status = 0 then 1 else 0)
    | .pipeline stages =>
      pipeline (run n) stages
      settle
    | .subshell body =>
      apart (run n) (run n body)
      settle
    | .redirected line (.subshell body) redirections =>
      apart (run n) do
        modify fun s => { s with line }
        if ← redirect (run n) redirections then run n body else finish 2
      settle
    | .redirected line body redirections =>
      unless line = 0 do
        modify fun s => { s with line }
      redirected (run n) redirections (finish 2) (run n body)
    | .choice condition yes no =>
      observed (run n condition)
      if (← get).status = 0 then run n yes
      else
        match no with
        | .list [] => finish 0
        | no => run n no
    | .loop negated condition body =>
      repeatWhile negated (run n condition) (run n body) (pure ())
    | .each name words body =>
      let values ← match words with
        | some words => do pure (← words.mapM (Word.fields (run n))).flatten
        | none => do pure (← get).parameters
      if values.isEmpty then finish 0 else inLoop (eachValue name (run n body) values)
    | .count start condition step body =>
      let term (w : Word) (empty : Int) : Act Int := do
        let t ← Word.text (run n) w
        if t.all Raw.isSpace then return empty else Arithmetic.evaluate Arithmetic.depth t
      discard <| term start 0
      repeatWhile false (do finish (if (← term condition 1) = 0 then 1 else 0)) (run n body)
        (discard (term step 0))
    | .select w cases => selectCase (run n) (← Word.text (run n) w) true false cases
    | .define name body =>
      modify fun s => { s with functions := s.functions.set name body }
      finish 0
    | .condition c =>
      finish (if ← holds (run n) c then 0 else 1)
      settle
    | .compute term =>
      guarded do
        finish (if (← Word.number (run n) term) = 0 then 1 else 0)
      settle

/-- The bound on how deep scripts may lie in one another. -/
def depthBound : Nat := 100000

end Shell

end Haybuild
