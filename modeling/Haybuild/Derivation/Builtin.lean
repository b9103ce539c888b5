import Haybuild.Derivation.Basic
import Haybuild.Derivation.Words
import Haybuild.Text.Lines
import Haybuild.Text.Order
import Haybuild.Text.Integer
import Haybuild.Text.Case.Upper
import Haybuild.Text.Case.Lower

/-!
# Calls

A reference whose body starts with the name of a builtin and a blank is a call. Its arguments are
separated by the commas outside brackets; a call of fixed arity gives the commas it has too many to
its last argument. Arguments are derived before the call, except that `if` derives only the branch
it takes.
-/

namespace Haybuild

/-- The calls a reference can make. -/
inductive Builtin where
  | subst | patsubst | strip | findstring | filter | filterOut | sort | word | words | firstword
  | lastword | dir | notdir | suffix | basename | addprefix | addsuffix | join | wildcard | upper
  | lower | cond | shell
  deriving Repr, DecidableEq

namespace Builtin

/-- The name by which a reference calls a builtin. -/
def name : Builtin → Text
  | subst => "subst"
  | patsubst => "patsubst"
  | strip => "strip"
  | findstring => "findstring"
  | filter => "filter"
  | filterOut => "filter-out"
  | sort => "sort"
  | word => "word"
  | words => "words"
  | firstword => "firstword"
  | lastword => "lastword"
  | dir => "dir"
  | notdir => "notdir"
  | suffix => "suffix"
  | basename => "basename"
  | addprefix => "addprefix"
  | addsuffix => "addsuffix"
  | join => "join"
  | wildcard => "wildcard"
  | upper => "upper"
  | lower => "lower"
  | cond => "if"
  | shell => "shell"

/-- Every builtin. -/
def all : List Builtin :=
  [subst, patsubst, strip, findstring, filter, filterOut, sort, word, words, firstword, lastword,
    dir, notdir, suffix, basename, addprefix, addsuffix, join, wildcard, upper, lower, cond, shell]

/-- The builtin of a name. -/
def ofName? (n : Text) : Option Builtin :=
  all.find? fun b => b.name = n

/-- The number of arguments of the builtins that have a fixed one. -/
def arity? : Builtin → Option Nat
  | subst | patsubst => some 3
  | findstring | filter | filterOut | word | addprefix | addsuffix | join => some 2
  | strip | sort | words | firstword | lastword | dir | notdir | suffix | basename | wildcard
  | upper | lower => some 1
  | cond | shell => none

/-- The character can stand in the name of a call. -/
def isNameChar (c : Char) : Bool :=
  ('a' ≤ c && c ≤ 'z') || c = '-'

/-- The builtin that the body of a reference calls, and the text of its arguments. -/
def ofBody? (body : Text) : Option (Builtin × Text) :=
  let n := body.takeWhile isNameChar
  match body.dropWhile isNameChar with
  | [] => none
  | c :: r => if Text.isBlank c then (ofName? n).map fun b => (b, Text.trimLeft (c :: r)) else none

/-- The argument that starts here, inside `level` brackets, and the arguments after it. A closer
without opener takes the level below zero. -/
def argumentsFrom : Int → Text → Text × List Text
  | _, [] => ([], [])
  | level, c :: r =>
    if c = '(' || c = '\x7b' then
      let (argument, rest) := argumentsFrom (level + 1) r
      (c :: argument, rest)
    else if c = ')' || c = '\x7d' then
      let (argument, rest) := argumentsFrom (level - 1) r
      (c :: argument, rest)
    else if c = ',' && level = 0 then
      let (argument, rest) := argumentsFrom level r
      ([], argument :: rest)
    else
      let (argument, rest) := argumentsFrom level r
      (c :: argument, rest)

/-- The arguments of a call, separated by the commas outside brackets. -/
def arguments (t : Text) : List Text :=
  let (argument, rest) := argumentsFrom 0 t
  argument :: rest

/-- Gives the arguments past the last of `n` to that one, with their commas. -/
def soakUp : Nat → List Text → List Text
  | 0, as => as
  | _, [] => []
  | 1, as => [Text.join "," as]
  | n + 2, a :: as => a :: soakUp (n + 1) as

/-- Asks for the paths of every pattern. -/
def wildcardAll : List Text → Derivation (List Text)
  | [] => pure []
  | p :: ps => .wildcard p fun paths => do
    let rest ← wildcardAll ps
    pure (paths ++ rest)

/-- The value of a builtin of fixed arity for its derived arguments. -/
def apply : Builtin → List Text → Derivation Text
  | subst, [old, new, t] => pure (Text.replaceAll old new t)
  | patsubst, [pattern, replacement, t] => pure (Words.substitutePattern pattern replacement t)
  | strip, [t] => pure (Text.squeeze t)
  | findstring, [needle, t] => pure (if Text.holds needle t then needle else [])
  | filter, [patterns, t] => pure (Words.filter patterns t true)
  | filterOut, [patterns, t] => pure (Words.filter patterns t false)
  | sort, [t] => pure (Text.join " " (Text.sortDistinct (Text.words t)))
  | word, [n, t] =>
    match Text.readInt? (Text.trim n) with
    | some i => pure (Words.nth i t)
    | none => .failed ⟨.notANumber (Text.trim n), "word", [], false⟩
  | words, [t] => pure (Text.ofNat (Text.words t).length)
  | firstword, [t] => pure ((Text.words t).headD [])
  | lastword, [t] => pure ((Text.words t).getLastD [])
  | dir, [t] => pure (Words.directories t)
  | notdir, [t] => pure (Words.fileNames t)
  | suffix, [t] => pure (Words.suffixes t)
  | basename, [t] => pure (Words.withoutSuffixes t)
  | addprefix, [front, t] => pure (Words.addFront front t)
  | addsuffix, [back, t] => pure (Words.addBack back t)
  | join, [a, b] => pure (Words.pairWords a b)
  | wildcard, [patterns] => do
    let paths ← wildcardAll (Text.words patterns)
    pure (Text.join " " (Text.sort paths))
  | upper, [t] => pure (Text.upper t)
  | lower, [t] => pure (Text.lower t)
  | _, _ => pure []

end Builtin

/-- The text that a shell reads: each pair of dollars stands for one. -/
def unescapeDollars : Text → Text
  | [] => []
  | '$' :: '$' :: r => '$' :: unescapeDollars r
  | c :: r => c :: unescapeDollars r

namespace Builtin

/-- Derives texts from left to right. -/
def deriveAll (expand : Text → Derivation Text) : List Text → Derivation (List Text)
  | [] => pure []
  | a :: as => do
    let value ← expand a
    let values ← deriveAll expand as
    pure (value :: values)

/-- The branch of `if` that the condition chooses. -/
def branch (expand : Text → Derivation Text) : List Text → Derivation Text
  | [] => pure []
  | condition :: branches => do
    let value ← expand condition
    if Text.blank value then
      match branches with
      | _ :: otherwise :: rest => expand (Text.join "," (otherwise :: rest))
      | _ => pure []
    else
      match branches with
      | chosen :: _ => expand chosen
      | [] => pure []

/-- The output of a shell command as one line. -/
def shellOutput (t : Text) : Text :=
  Text.trim (Text.join " " (Text.lines t))

/-- The value of a call, written `reference`. `expand` derives its arguments and `fail` reports a
fault of the call itself. -/
def call (b : Builtin) (expand : Text → Derivation Text) (fail : Derivation.Fault → Derivation Text)
    (reference : Text) (args : List Text) : Derivation Text :=
  match b with
  | cond => branch expand args
  | shell => do
    let command ← expand (Text.join "," args)
    .shell (unescapeDollars command) fun answer =>
      if answer.code = 0 then pure (shellOutput answer.output)
      else
        fail (.shellFailed reference answer.code (Text.lines (Text.trim answer.errors)).getLast?)
  | b =>
    let arity := b.arity?.getD 0
    if args.length < arity then fail (.tooFewArguments reference arity args.length)
    else do
      let values ← deriveAll expand (soakUp arity args)
      b.apply values

end Builtin

end Haybuild
