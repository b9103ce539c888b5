import Haybuild.Console.Style
import Mathlib.Data.List.TakeWhile

/-!
# Plain texts

Removing the escape sequences undoes every style: a text without escape characters that is dressed
in any style is the text again, whatever is written behind it (`Style.plain_dress_append`). What a
text comes to whatever is written behind it is put together from what its parts come to (`Reads`).
-/

namespace Haybuild.Style

variable {s t : Text} {c : Char}

theorem isParameter_of_mem_ofNat {code : Nat} (h : c ∈ Text.ofNat code) : isParameter c = true := by
  have hdigit := Nat.isDigit_of_mem_toDigits (by decide) (by decide) h
  simp only [Char.isDigit, ge_iff_le, Bool.and_eq_true, decide_eq_true_eq] at hdigit
  simp only [isParameter, Bool.or_eq_true, Bool.and_eq_true, decide_eq_true_eq]
  exact .inl (.inl hdigit)

/-- What is passed over is the rest of an escape sequence. -/
theorem plainFrom_length_append (s t : Text) : plainFrom s.length (s ++ t) = plainFrom 0 t := by
  induction s with
  | nil => rfl
  | cons c s ih => exact ih

/-- An escape sequence behind its escape character. -/
def sequenceBody (code : Nat) : Text :=
  '[' :: (Text.ofNat code ++ ['m'])

theorem sequence_eq (code : Nat) : sequence code = escape :: sequenceBody code := by
  simp [sequence, sequenceBody]

theorem sequenceLength?_sequenceBody_append (code : Nat) (t : Text) :
    sequenceLength? (sequenceBody code ++ t) = some (sequenceBody code).length := by
  have htake : (Text.ofNat code ++ 'm' :: t).takeWhile isParameter = Text.ofNat code := by
    rw [List.takeWhile_append_of_pos fun c => isParameter_of_mem_ofNat]
    simp [isParameter]
  have hbody : sequenceBody code ++ t = '[' :: (Text.ofNat code ++ 'm' :: t) := by
    simp [sequenceBody]
  rw [hbody]
  simp only [sequenceLength?, htake, List.drop_left]
  simp [sequenceBody, isFinal]

theorem plain_sequence_append (code : Nat) (t : Text) : plain (sequence code ++ t) = plain t := by
  rw [sequence_eq, List.cons_append, plain, plainFrom, if_pos rfl,
    sequenceLength?_sequenceBody_append]
  exact plainFrom_length_append _ t

theorem plain_append_of_notMem (hs : escape ∉ s) (t : Text) : plain (s ++ t) = s ++ plain t := by
  induction s with
  | nil => rfl
  | cons c s ih =>
    obtain ⟨hc, hs⟩ := List.ne_and_not_mem_of_not_mem_cons hs
    rw [List.cons_append, plain, plainFrom, if_neg hc.symm]
    exact congrArg _ (ih hs)

/-- Without escape sequences a dressed text is the text, whatever its style is. -/
theorem plain_dress_append (style : Style) (hs : escape ∉ s) (t : Text) :
    plain (style.dress s ++ t) = s ++ plain t := by
  obtain ⟨colour, bold, dim⟩ := style
  cases colour <;> cases bold <;> cases dim <;>
    simp [dress, plain_sequence_append, plain_append_of_notMem hs]

/-! ## Parts of a text -/

section Reads

variable {α β : Type} {f : Text → List α} {r r' : List α}

/-- Read by `f`, the text comes to `r`, whatever is written behind it. -/
def Reads (f : Text → List α) (t : Text) (r : List α) : Prop :=
  ∀ u, f (t ++ u) = r ++ f u

theorem Reads.eq (H : Reads f t r) (hf : f [] = []) : f t = r := by
  simpa [hf] using H []

theorem reads_nil (f : Text → List α) : Reads f [] [] := fun _ => rfl

theorem Reads.append (H : Reads f s r) (H' : Reads f t r') : Reads f (s ++ t) (r ++ r') := by
  intro u
  rw [List.append_assoc, H, H', List.append_assoc]

theorem reads_flatMap {g : β → Text} {h : β → List α} {bs : List β}
    (H : ∀ b ∈ bs, Reads f (g b) (h b)) : Reads f (bs.flatMap g) (bs.flatMap h) := by
  induction bs with
  | nil => exact reads_nil f
  | cons b bs ih =>
    obtain ⟨hb, hbs⟩ := List.forall_mem_cons.1 H
    rw [List.flatMap_cons, List.flatMap_cons]
    exact hb.append (ih hbs)

end Reads

theorem reads_plain (ht : escape ∉ t) : Reads plain t t := plain_append_of_notMem ht

theorem reads_plain_dress (style : Style) (ht : escape ∉ t) : Reads plain (style.dress t) t :=
  plain_dress_append style ht

end Haybuild.Style
