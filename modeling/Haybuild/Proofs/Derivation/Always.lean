import Haybuild.Console.Event
import Haybuild.Host

/-!
# Derivations that cannot fail

An attempt turns the error of a derivation into a value, so what is made of attempts alone ends with
a value whatever the answers are (`Derivation.Always`). The table of the variables is made so: on a
host only a fault can stop it.
-/

namespace Haybuild

variable {α β σ : Type}

namespace Derivation

/-- Whatever the answers are, the derivation ends with a value that satisfies `p`. -/
def Always (p : α → Prop) : Derivation α → Prop
  | done a => p a
  | failed _ => False
  | shell _ next => ∀ answer, (next answer).Always p
  | wildcard _ next => ∀ paths, (next paths).Always p

theorem always_attempt (d : Derivation α) : d.attempt.Always fun _ => True := by
  induction d with
  | done | failed => trivial
  | shell c next ih => exact ih
  | wildcard p next ih => exact ih

theorem Always.bind {p : α → Prop} {q : β → Prop} {d : Derivation α} {f : α → Derivation β}
    (H : d.Always p) (hf : ∀ a, p a → (f a).Always q) : (d.bind f).Always q := by
  induction d with
  | done a => exact hf a H
  | failed e => exact H.elim
  | shell c next ih => exact fun answer => ih answer (H answer)
  | wildcard p next ih => exact fun paths => ih paths (H paths)

theorem always_variableRows (vars : Variables) (es : List (Text × Text)) :
    (Event.variableRows vars es).Always fun _ => True := by
  induction es with
  | nil => trivial
  | cons e es ih =>
    refine (always_attempt _).bind fun outcome _ => ih.bind fun rest _ => ?_
    cases outcome <;> trivial

/-- The variables can be shown, each by its value or by its raw text. -/
theorem always_ofVariables (vars : Variables) :
    (Event.ofVariables vars).Always fun e => ∃ rows, e = .variableTable rows :=
  (always_variableRows vars vars.entries).bind fun rows _ => ⟨rows, rfl⟩

end Derivation

namespace Host

variable {h : Host σ} {d : Derivation α} {s : σ}

/-- No question of the derivation ends with a fault: the shell can be started for each of its calls,
what the calls print is text, and the directories of its patterns can be listed. -/
def Faultless (h : Host σ) (d : Derivation α) (s : σ) : Prop :=
  ∀ fault s', h.derive d s ≠ (.error fault, s')

/-- What cannot fail ends with a value where no question ends with a fault. -/
theorem Faultless.derive_eq {p : α → Prop} (F : h.Faultless d s) (H : d.Always p) :
    ∃ a s', p a ∧ h.derive d s = (.ok (.ok a), s') := by
  induction d generalizing s with
  | done a => exact ⟨a, s, H, rfl⟩
  | failed e => exact H.elim
  | shell c next ih =>
    unfold Faultless at F
    rw [derive] at F ⊢
    cases ha : h.ask standardShell [] c s with
    | mk out s₁ =>
      rw [ha] at F
      cases out with
      | error fault => exact absurd rfl (F fault s₁)
      | ok answer => exact ih answer F (H answer)
  | wildcard p next ih =>
    unfold Faultless at F
    rw [derive] at F ⊢
    split
    · next hnull =>
      rw [if_pos hnull] at F
      exact absurd rfl (F _ s)
    · next hnull =>
      rw [if_neg hnull] at F
      exact ih _ F (H _)

end Host

end Haybuild
