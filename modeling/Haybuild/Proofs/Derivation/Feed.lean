import Haybuild.Proofs.Derivation.Room

/-!
# The texts behind a value

The value of a text is made of the values of further texts: the raw text of each variable it names,
the arguments of the calls it makes, and of an `if` the branch it takes. `Feeds` is the relation
that these steps generate. The body of a reference is no such text when it only says which variable
is meant.
-/

namespace Haybuild

variable {vars : Variables} {debug : Bool} {depth : Nat} {trace : List Text} {ref : Reference}
  {t u v : Text}

/-- The text has the value, found without a question to a shell or about files. -/
def Derives (vars : Variables) (t v : Text) : Prop :=
  derive vars false t = .done v

theorem derives_of_expand (hd : depth ≤ depthLimit)
    (h : Derivation.expand vars debug depth trace t = .done v) : Derives vars t v :=
  derive_of_expand hd h

/-- The debug mode plays no part in a value. -/
theorem derives_iff : Derives vars t v ↔ derive vars debug t = .done v :=
  ⟨derive_of_expand (Nat.le_refl _), derive_of_expand (Nat.le_refl _)⟩

namespace Builtin

/-- The call makes its value of the value of this argument. -/
inductive Takes (vars : Variables) (args : List Text) : Builtin → Text → Prop
  | branch {condition value a : Text} {branches : List Text} :
      args = condition :: branches → Derives vars condition value →
      chosen? (Text.blank value) branches = some a → Takes vars args cond a
  | argument {b : Builtin} {n : Nat} {a : Text} :
      b.arity? = some n → a ∈ soakUp n args → Takes vars args b a

end Builtin

/-- The value of the text `u` is the value of a text or, on the way to it, of what stands for one of
its references. -/
inductive Feeds (vars : Variables) (u : Text) : Text → Prop
  | refl : Feeds vars u u
  | raw {t name raw : Text} {ref : Reference} :
      .reference ref ∈ pieces t → Builtin.ofBody? ref.body = none → Derives vars ref.body name →
      vars.get? (Text.trim name) = some raw → Feeds vars u raw → Feeds vars u t
  | argument {t args a : Text} {ref : Reference} {b : Builtin} :
      .reference ref ∈ pieces t → Builtin.ofBody? ref.body = some (b, args) →
      b.Takes vars (Builtin.arguments args) a → Feeds vars u a → Feeds vars u t

end Haybuild
