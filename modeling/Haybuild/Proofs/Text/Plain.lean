import Haybuild.Text.Blank
import Haybuild.Text.Escaped
import Haybuild.Text.Quoting
import Mathlib.Data.List.DropRight

/-!
# Texts without marks

A text that does not hold a mark has no place where the mark counts, and nothing is replaced or
split there.
-/

namespace Haybuild

namespace Text

variable {c : Char} {s t : Text}

theorem findUnescaped_of_notMem (h : c ∉ t) : findUnescaped [c] t = none := by
  have hfrom : ∀ escaped, findUnescapedFrom [c] escaped t = none := by
    induction t with
    | nil => simp [findUnescapedFrom]
    | cons d t ih =>
      obtain ⟨hd, ht⟩ := List.ne_and_not_mem_of_not_mem_cons h
      intro escaped
      rw [findUnescapedFrom, if_neg (by simp [hd]), ih ht, Option.map_none]
  exact hfrom false

/-- A text that does not hold a character of another one has no place where that one stands. -/
theorem replaceAll_of_notMem {old : Text} (new : Text) (hc : c ∈ old) (h : c ∉ t) :
    replaceAll old new t = t := by
  have hne : old ≠ [] := List.ne_nil_of_mem hc
  rw [replaceAll, if_neg hne]
  induction t with
  | nil => rfl
  | cons d t ih =>
    have hprefix : ¬old.isPrefixOf (d :: t) = true := fun hp =>
      h ((List.isPrefixOf_iff_prefix.1 hp).subset hc)
    rw [replaceFrom, if_neg hprefix, ih fun ht => h (List.mem_cons_of_mem d ht)]

/-- What stands behind a character that is not blank has no part in trimming the front. -/
theorem trimLeft_append_cons (hc : isBlank c = false) (s t : Text) :
    trimLeft (s ++ c :: t) = trimLeft s ++ c :: t := by
  have hmark : trimLeft (c :: t) = c :: t := List.dropWhile_cons_of_neg (by simp [hc])
  rw [trimLeft, List.dropWhile_append]
  split
  · next hs =>
    rw [trimLeft, List.isEmpty_iff.1 hs]
    exact hmark
  · rfl

/-- Nor has what stands before one a part in trimming the end. -/
theorem trimRight_append_cons (hc : isBlank c = false) (s t : Text) :
    trimRight (s ++ c :: t) = s ++ c :: trimRight t := by
  have hreverse : (s ++ c :: t).reverse = t.reverse ++ c :: s.reverse := by simp
  have htrim := trimLeft_append_cons hc t.reverse s.reverse
  rw [trimLeft, trimLeft] at htrim
  rw [trimRight, trimRight, hreverse, htrim]
  simp

theorem trimRight_eq_self (hlast : t.getLast?.any isBlank = false) : trimRight t = t := by
  refine List.rdropWhile_eq_self_iff.2 fun hne => ?_
  rw [List.getLast?_eq_some_getLast hne, Option.any_some] at hlast
  rw [hlast]
  exact Bool.false_ne_true

theorem trim_eq_self (hhead : t.head?.any isBlank = false)
    (hlast : t.getLast?.any isBlank = false) : trim t = t := by
  have hleft : trimLeft t = t := by
    cases t with
    | nil => rfl
    | cons c t =>
      have hc : isBlank c = false := hhead
      exact List.dropWhile_cons_of_neg (by simp [hc])
  rw [trim, hleft, trimRight_eq_self hlast]

/-- Neither separators nor quotes in front of a text have a part in how it is split. -/
theorem splitBalancedFrom_append {sep quote : Char} (hsep : sep ∉ s) (hquote : quote ∉ s)
    (inside : Bool) (offset : Nat) (t : Text) :
    splitBalancedFrom [sep] [quote] inside offset (s ++ t) =
      (s ++ (splitBalancedFrom [sep] [quote] inside (offset + s.length) t).1,
        (splitBalancedFrom [sep] [quote] inside (offset + s.length) t).2) := by
  induction s generalizing offset with
  | nil => rfl
  | cons d s ih =>
    obtain ⟨hd, hs⟩ := List.ne_and_not_mem_of_not_mem_cons hsep
    obtain ⟨hd', hs'⟩ := List.ne_and_not_mem_of_not_mem_cons hquote
    have hoffset : offset + (d :: s).length = offset + 1 + s.length := by
      simp only [List.length_cons]
      omega
    rw [List.cons_append, splitBalancedFrom, if_neg (by simp [Ne.symm hd']),
      if_neg (by simp [Ne.symm hd]), ih hs hs', hoffset]
    rfl

/-- Two words with a separator between them are its two pieces. -/
theorem splitBalanced_pair {sep quote : Char} (hs : s ≠ []) (ht : t ≠ []) (hne : sep ≠ quote)
    (hsep : sep ∉ s ++ t) (hquote : quote ∉ s ++ t) :
    splitBalanced [sep] [quote] (s ++ sep :: t) = [⟨0, s⟩, ⟨s.length + 1, t⟩] := by
  rw [List.mem_append, not_or] at hsep hquote
  have hsecond : splitBalancedFrom [sep] [quote] false (0 + s.length + 1) t = (t, []) := by
    have happend := splitBalancedFrom_append hsep.2 hquote.2 false (0 + s.length + 1) []
    simpa [splitBalancedFrom] using happend
  rw [splitBalanced, splitBalancedFrom_append hsep.1 hquote.1, splitBalancedFrom,
    if_neg (by simp [hne]), if_pos (by simp), hsecond]
  simp [Slice.unlessEmpty, hs, ht]

end Text

end Haybuild
