import Haybuild.Proofs.Derivation.Bracket
import Haybuild.Proofs.Derivation.Piece

/-!
# The one way to split a text

`Splits` says what the pieces of a text are without saying how they are found: a reference holds
what its brackets balance, and a dollar stands alone only where no pair and no reference starts.
Every text splits, and in one way: into the pieces that `pieces` finds (`splits_iff`).
-/

namespace Haybuild

/-- The text is made, from left to right, of `$$` pairs, of references that hold what their brackets
balance, and of other characters; a bracket that is opened after a dollar and that nothing closes
takes all that is left. -/
inductive Splits : Text → List Piece → Prop
  | nil : Splits [] []
  | plain {c : Char} {t : Text} {ps : List Piece} : c ≠ '$' → Splits t ps →
      Splits (c :: t) (.literal c :: ps)
  | lone {t : Text} {ps : List Piece} : (∀ c, t.head? = some c → takesDollar c = false) →
      Splits t ps → Splits ('$' :: t) (.literal '$' :: ps)
  | pair {t : Text} {ps : List Piece} : Splits t ps → Splits ('$' :: '$' :: t) (.pair :: ps)
  | reference {ref : Reference} {t : Text} {ps : List Piece} : ref.bracket.Balanced ref.body →
      Splits t ps → Splits (ref.source ++ t) (.reference ref :: ps)
  | unterminated {b : Bracket} {t : Text} : (∀ u v, t = u ++ b.closer :: v → ¬b.Balanced u) →
      Splits ('$' :: b.opener :: t) [.unterminated b t]

variable {t : Text} {ps : List Piece}

/-- A reference with a balanced body is one piece, whatever is behind it. -/
theorem Bracket.Balanced.pieces_append {ref : Reference} (H : ref.bracket.Balanced ref.body)
    (t : Text) : pieces (ref.source ++ t) = .reference ref :: pieces t :=
  pieces_closed (H.close?_eq t) t

theorem Bracket.Balanced.pieces_source {ref : Reference} (H : ref.bracket.Balanced ref.body) :
    pieces ref.source = [.reference ref] := by
  have hpieces := H.pieces_append []
  rwa [List.append_nil, pieces_nil] at hpieces

namespace Splits

theorem pieces_eq (H : Splits t ps) : pieces t = ps := by
  induction H with
  | nil => exact pieces_nil
  | plain hc _ ih => rw [pieces_cons_of_ne hc, ih]
  | @lone t ps hhead _ ih =>
    cases t with
    | nil => rw [pieces_dollar, ← ih, pieces_nil]
    | cons c t => rw [pieces_lone (hhead c rfl), ih]
  | pair _ ih => rw [pieces_pair, ih]
  | @reference ref t ps hbody _ ih => rw [hbody.pieces_append, ih]
  | unterminated hopen => exact pieces_unclosed (Bracket.close?_eq_none_iff.2 hopen)

/-- What is behind a dollar decides how the text splits there. -/
theorem dollar (t : Text) (H : Splits (Piece.afterDollar t).2 (pieces (Piece.afterDollar t).2)) :
    Splits ('$' :: t) ((Piece.afterDollar t).1 :: pieces (Piece.afterDollar t).2) := by
  cases t with
  | nil => exact .lone nofun H
  | cons d t =>
    simp only [Piece.afterDollar] at H ⊢
    split at H
    · next hd =>
      rw [if_pos hd, hd]
      exact .pair H
    · next hd =>
      rw [if_neg hd]
      cases hb : Bracket.ofOpener? d with
      | none =>
        rw [hb] at H
        refine .lone (fun c hc => ?_) H
        cases hc
        simp [takesDollar, hd, hb]
      | some b =>
        rw [hb] at H
        obtain rfl := Bracket.opener_of_ofOpener? hb
        dsimp only at H ⊢
        cases hclose : b.close? 0 t with
        | some s =>
          rw [hclose] at H
          obtain ⟨rfl, hbody⟩ := Bracket.close?_eq_some_iff.1 hclose
          have hsplits : Splits (Reference.source ⟨b, s.1⟩ ++ s.2)
              (.reference ⟨b, s.1⟩ :: pieces s.2) := .reference hbody H
          simpa [Reference.source] using hsplits
        | none =>
          rw [pieces_nil]
          exact .unterminated (Bracket.close?_eq_none_iff.1 hclose)

end Splits

/-- A text splits into its pieces, and in no other way. -/
theorem splits_iff : Splits t ps ↔ ps = pieces t := by
  refine ⟨fun H => H.pieces_eq.symm, ?_⟩
  rintro rfl
  fun_induction pieces t with
  | case1 => exact .nil
  | case2 c r _ ih =>
    by_cases hc : c = '$'
    · rw [Piece.first, if_pos hc] at ih ⊢
      exact hc ▸ Splits.dollar r ih
    · rw [Piece.first, if_neg hc] at ih ⊢
      exact .plain hc ih

end Haybuild
