import Haybuild.Text.Basic

/-!
# Finding and replacing

`find?` gives the first place where a text stands inside another one, and `replaceAll` puts a new
text in place of every occurrence, read from left to right without overlaps.
-/

namespace Haybuild

namespace Text

/-- The offset of the first occurrence of `needle`. -/
def find? (needle : Text) : Text → Option Nat
  | [] => if needle = [] then some 0 else none
  | c :: r => if needle.isPrefixOf (c :: r) then some 0 else (find? needle r).map (· + 1)

/-- The text `needle` stands somewhere in `t`. -/
def holds (needle t : Text) : Bool :=
  (find? needle t).isSome

/-- The texts before and after the first occurrence of `needle`; all of the text is before it when
there is none. -/
def partitionAt (needle t : Text) : Text × Text :=
  match find? needle t with
  | some i => (t.take i, t.drop (i + needle.length))
  | none => (t, [])

/-- Writes `new` for each `old`, a nonempty text, after passing over `skip` characters, which belong
to an occurrence already replaced. -/
def replaceFrom (old new : Text) : Nat → Text → Text
  | _, [] => []
  | skip + 1, _ :: r => replaceFrom old new skip r
  | 0, c :: r =>
    if old.isPrefixOf (c :: r) then new ++ replaceFrom old new (old.length - 1) r
    else c :: replaceFrom old new 0 r

theorem replaceFrom_eq_drop (old new : Text) (skip : Nat) (t : Text) :
    replaceFrom old new skip t = replaceFrom old new 0 (t.drop skip) := by
  induction skip generalizing t with
  | zero => rfl
  | succ skip ih =>
    cases t with
    | nil => rfl
    | cons c r => simpa [replaceFrom] using ih r

/-- The text with `new` for each `old`. The empty text occurs before every character and at the
end. -/
def replaceAll (old new t : Text) : Text :=
  if old = [] then new ++ t.flatMap fun c => c :: new else replaceFrom old new 0 t

end Text

end Haybuild
