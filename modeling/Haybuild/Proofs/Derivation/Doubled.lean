import Haybuild.Proofs.Derivation.Settled
import Haybuild.Proofs.Text.Escaped

/-!
# Doubled dollars

A text in which every dollar is written twice has pairs for its dollars, so nothing is derived in
it under any variables, and unescaping it gives back the text before.
-/

namespace Haybuild

/-- The text with every dollar written twice. -/
def doubleDollars (t : Text) : Text :=
  Text.replaceAll ['$'] ['$', '$'] t

variable {c : Char} {t : Text}

theorem doubleDollars_dollar (t : Text) :
    doubleDollars ('$' :: t) = '$' :: '$' :: doubleDollars t :=
  Text.replaceAll_singleton_cons_self '$' _ t

theorem doubleDollars_cons (hc : c ≠ '$') (t : Text) :
    doubleDollars (c :: t) = c :: doubleDollars t :=
  Text.replaceAll_singleton_cons_of_ne hc _ t

@[simp] theorem head?_doubleDollars (t : Text) : (doubleDollars t).head? = t.head? := by
  cases t with
  | nil => rfl
  | cons c t =>
    by_cases hc : c = '$'
    · rw [hc, doubleDollars_dollar]
      rfl
    · rw [doubleDollars_cons hc]
      rfl

@[simp] theorem getLast?_doubleDollars (t : Text) : (doubleDollars t).getLast? = t.getLast? :=
  Text.getLast?_replaceAll_singleton rfl

@[simp] theorem doubleDollars_eq_nil_iff : doubleDollars t = [] ↔ t = [] := by
  rw [← List.head?_eq_none_iff, head?_doubleDollars, List.head?_eq_none_iff]

theorem paired_doubleDollars (t : Text) : Paired (doubleDollars t) := by
  induction t with
  | nil => exact tame_nil
  | cons c t ih =>
    by_cases hc : c = '$'
    · rw [hc, doubleDollars_dollar]
      exact tame_pair.2 ih
    · rw [doubleDollars_cons hc]
      exact (tame_cons_of_ne hc).2 ih

/-- Nothing is derived in a text with doubled dollars. -/
theorem derive_doubleDollars (vars : Variables) (debug : Bool) (t : Text) :
    derive vars debug (doubleDollars t) = .done (doubleDollars t) :=
  derive_of_settled vars debug (paired_doubleDollars t).settled

theorem unescapeDollars_doubleDollars (t : Text) : unescapeDollars (doubleDollars t) = t := by
  rw [unescapeDollars_of_settled (paired_doubleDollars t).settled]
  induction t with
  | nil => exact congrArg (List.flatMap Piece.said) pieces_nil
  | cons c t ih =>
    by_cases hc : c = '$'
    · rw [hc, doubleDollars_dollar, pieces_pair, List.flatMap_cons, ih]
      rfl
    · rw [doubleDollars_cons hc, pieces_cons_of_ne hc, List.flatMap_cons, ih]
      rfl

end Haybuild
