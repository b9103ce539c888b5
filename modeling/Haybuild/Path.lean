import Haybuild.Text.Basic

/-!
# Paths

A path is a text whose components are separated by slashes. `Path.display` is the form in which
messages show a path, and `Path.absolute` the form by which included files are told apart; neither
looks at the files.
-/

namespace Haybuild

namespace Path

/-- The slashes that make a path absolute: exactly two are kept, any other number counts as one. -/
def root (p : Text) : Text :=
  match p.takeWhile (· = '/') with
  | [] => []
  | [_, _] => ['/', '/']
  | _ => ['/']

/-- The components of a path, without those that say nothing. -/
def components (p : Text) : List Text :=
  (Text.cut '/' p).filter fun c => c ≠ [] && c ≠ ['.']

/-- A path without doubled or trailing slashes and without `.` components. -/
def display (p : Text) : Text :=
  match root p ++ Text.join "/" (components p) with
  | [] => ['.']
  | shown => shown

/-- The components before a row of components in which `..` takes away the one before it. -/
def collapse (before : List Text) : List Text → List Text
  | [] => before
  | c :: r => collapse (if c = ['.', '.'] then before.dropLast else before ++ [c]) r

/-- A path that starts in another one, unless it is absolute. -/
def within (directory p : Text) : Text :=
  if p.head? = some '/' then p
  else if directory = [] || directory.getLast? = some '/' then directory ++ p
  else directory ++ '/' :: p

/-- The absolute form of a path that starts in a directory. -/
def absolute (directory p : Text) : Text :=
  let full := within directory p
  root full ++ Text.join "/" (collapse [] (components full))

/-- A path cut before its last component. Slashes at the end of the first part are dropped unless
it has nothing else. -/
def split (p : Text) : Text × Text :=
  let name := (p.reverse.takeWhile (· ≠ '/')).reverse
  let head := p.take (p.length - name.length)
  (if head.all (· = '/') then head else (head.reverse.dropWhile (· = '/')).reverse, name)

end Path

end Haybuild
