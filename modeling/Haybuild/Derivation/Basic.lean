import Haybuild.Text.Basic

/-!
# Derivations

A derivation ends with a value or an error, and on its way it may ask what a shell command prints
and which files a pattern names. A `Derivation` is the tree of these questions, so that it can be
spoken of without a shell or files at hand; `Derivation.eval` is its outcome for given answers.
-/

namespace Haybuild

/-- The greatest number of expansions inside one another. -/
def depthLimit : Nat := 32

namespace Derivation

/-- Why a reference cannot be derived. -/
inductive Fault where
  /-- A bracket opened by this text is never closed. -/
  | unterminated (rest : Text)
  /-- Expanding goes deeper than the limit. -/
  | notConverged (reference : Text)
  /-- The derived body is neither a call nor the name of a variable. -/
  | unknown (reference name : Text)
  /-- A call has fewer arguments than it needs. -/
  | tooFewArguments (reference : Text) (expected given : Nat)
  /-- The word number is no integer. -/
  | notANumber (text : Text)
  /-- A shell command failed; `detail` is the last line it wrote as an error. -/
  | shellFailed (reference : Text) (code : Int) (detail : Option Text)
  /-- A fault told in other words. -/
  | other (message : Text)
  deriving Repr, DecidableEq

/-- A fault in words. -/
def Fault.message : Fault → Text
  | unterminated rest => "unterminated reference `" ++ rest ++ "`"
  | notConverged reference =>
    "derivation did not converge after " ++ Text.ofNat depthLimit ++ " nested expansions at `" ++
      reference ++ "`"
  | unknown reference name =>
    let what : Text := if name.contains ' ' then "call" else "variable"
    "`" ++ reference ++ "` names no known " ++ what ++ " `" ++ name ++ "`"
  | tooFewArguments reference expected given =>
    "`" ++ reference ++ "` expects " ++ Text.ofNat expected ++ " argument(s), got " ++
      Text.ofNat given
  | notANumber text => "`word` needs a number, got `" ++ text ++ "`"
  | shellFailed reference code detail =>
    let ending : Text := match detail with
      | some line => ": " ++ line
      | none => []
    "`" ++ reference ++ "` exited with " ++ Text.ofInt code ++ ending
  | other message => message

/-- What goes wrong in a derivation: the fault, the reference at fault as it is written, and the
references being derived around it, outermost first. -/
structure Error where
  fault : Fault
  reference : Text
  trace : List Text
  debug : Bool
  deriving Repr, DecidableEq

/-- The message of an error. In debug mode it goes on with the references around the fault. -/
def Error.message (e : Error) : Text :=
  if e.debug && !e.trace.isEmpty then
    e.fault.message ++ "\n  while deriving " ++ Text.join " -> " e.trace
  else e.fault.message

/-- What a finished shell command leaves: its exit code and what it wrote. -/
structure ShellAnswer where
  code : Int
  output : Text
  errors : Text
  deriving Repr, DecidableEq

end Derivation

/-- A derivation of an `α`: its value, its error, or its next question and how it goes on. -/
inductive Derivation (α : Type) where
  | done (value : α)
  | failed (error : Derivation.Error)
  /-- Asks what a shell command does. -/
  | shell (command : Text) (next : Derivation.ShellAnswer → Derivation α)
  /-- Asks which paths a file pattern names. -/
  | wildcard (pattern : Text) (next : List Text → Derivation α)

namespace Derivation

variable {α β γ : Type}

/-- Goes on with the value of a derivation. -/
def bind : Derivation α → (α → Derivation β) → Derivation β
  | done value, f => f value
  | failed e, _ => failed e
  | shell command next, f => shell command fun a => (next a).bind f
  | wildcard pattern next, f => wildcard pattern fun paths => (next paths).bind f

instance : Monad Derivation where
  pure := done
  bind := bind

@[simp] theorem pure_eq (a : α) : (pure a : Derivation α) = done a := rfl

@[simp] theorem bind_eq (d : Derivation α) (f : α → Derivation β) : d >>= f = d.bind f := rfl

@[simp] theorem done_bind (a : α) (f : α → Derivation β) : (done a).bind f = f a := rfl

@[simp] theorem failed_bind (e : Error) (f : α → Derivation β) : (failed e).bind f = failed e := rfl

@[simp] theorem shell_bind (c : Text) (next : ShellAnswer → Derivation α) (f : α → Derivation β) :
    (shell c next).bind f = shell c fun a => (next a).bind f := rfl

@[simp] theorem wildcard_bind (p : Text) (next : List Text → Derivation α) (f : α → Derivation β) :
    (wildcard p next).bind f = wildcard p fun paths => (next paths).bind f := rfl

@[simp] theorem bind_done (d : Derivation α) : d.bind done = d := by
  induction d with
  | done | failed => rfl
  | shell c next ih => simp [ih]
  | wildcard p next ih => simp [ih]

theorem bind_assoc (d : Derivation α) (f : α → Derivation β) (g : β → Derivation γ) :
    (d.bind f).bind g = d.bind fun a => (f a).bind g := by
  induction d with
  | done | failed => rfl
  | shell c next ih => simp [ih]
  | wildcard p next ih => simp [ih]

instance : LawfulMonad Derivation :=
  LawfulMonad.mk' Derivation (fun d => bind_done d) (fun _ _ => rfl) bind_assoc

/-- The derivation that ends with the error as its value where the given one fails. -/
def attempt : Derivation α → Derivation (Except Error α)
  | done value => done (.ok value)
  | failed e => done (.error e)
  | shell command next => shell command fun a => (next a).attempt
  | wildcard pattern next => wildcard pattern fun paths => (next paths).attempt

/-- Fixed answers to every question. -/
structure Answers where
  shell : Text → ShellAnswer
  wildcard : Text → List Text

/-- The outcome of a derivation for given answers. -/
def eval (answers : Answers) : Derivation α → Except Error α
  | done value => .ok value
  | failed e => .error e
  | shell command next => (next (answers.shell command)).eval answers
  | wildcard pattern next => (next (answers.wildcard pattern)).eval answers

theorem eval_bind (answers : Answers) (d : Derivation α) (f : α → Derivation β) :
    (d.bind f).eval answers = d.eval answers >>= fun a => (f a).eval answers := by
  induction d with
  | done | failed => rfl
  | shell c next ih => exact ih _
  | wildcard p next ih => exact ih _

theorem eval_attempt (answers : Answers) (d : Derivation α) :
    d.attempt.eval answers = .ok (d.eval answers) := by
  induction d with
  | done | failed => rfl
  | shell c next ih => exact ih _
  | wildcard p next ih => exact ih _

end Derivation

end Haybuild
