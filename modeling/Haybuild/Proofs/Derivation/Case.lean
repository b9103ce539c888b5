import Haybuild.Proofs.Derivation.Settled
import Haybuild.Text.Case.Lower
import Haybuild.Text.Case.Upper
import Mathlib.Data.List.Forall2

/-!
# Dollars and letter case

Upper and lower case leave dollars and brackets where they are, and no other character becomes one
(`harmless_upperChar`, `harmless_lowerChar`). Each character of a text turned into another case is
replaced by a `Harmless` text, so a tame text stays tame (`Tame.upper`, `Tame.lower`).
-/

namespace Haybuild

variable {lone : Bool} {c : Char} {s t : Text} {chunks : List Text}

/-- The text can stand for the character: it is that character, or none of its characters takes a
dollar. -/
def Harmless (c : Char) (chunk : Text) : Prop :=
  chunk = [c] ∨ c ≠ '$' ∧ chunk ≠ [] ∧ ∀ d ∈ chunk, takesDollar d = false

theorem Harmless.dollar {chunk : Text} (H : Harmless '$' chunk) : chunk = ['$'] :=
  H.resolve_right fun h => h.1 rfl

theorem Harmless.tame_append (hc : c ≠ '$') {chunk : Text} (H : Harmless c chunk) :
    Tame lone (chunk ++ t) ↔ Tame lone t := by
  refine tame_append_of_notMem ?_
  rcases H with rfl | ⟨-, -, h⟩
  · simpa using hc.symm
  · exact fun hd => ne_dollar_of_takesDollar (h _ hd) rfl

/-- In place of a character that takes no dollar stands a text that takes none. -/
theorem Harmless.head {chunk : Text} (H : Harmless c chunk) (hc : takesDollar c = false) :
    ∃ d r, chunk = d :: r ∧ takesDollar d = false := by
  rcases H with rfl | ⟨-, hne, h⟩
  · exact ⟨c, [], rfl, hc⟩
  · obtain ⟨d, r, rfl⟩ := List.exists_cons_of_ne_nil hne
    exact ⟨d, r, rfl, h d List.mem_cons_self⟩

/-- A tame text stays tame where each of its characters is replaced by a harmless text. -/
theorem Tame.flatten (H : Tame lone t) (hchunks : List.Forall₂ Harmless t chunks) :
    Tame lone chunks.flatten := by
  induction t using dollarInduction generalizing chunks with
  | nil =>
    cases hchunks
    exact H
  | plain c t hc ih =>
    obtain ⟨chunk, rest, hchunk, hrest, rfl⟩ := List.forall₂_cons_left_iff.1 hchunks
    rw [List.flatten_cons, hchunk.tame_append hc]
    exact ih ((tame_cons_of_ne hc).1 H) hrest
  | dollar =>
    obtain ⟨chunk, rest, hchunk, hrest, rfl⟩ := List.forall₂_cons_left_iff.1 hchunks
    cases hrest
    rw [hchunk.dollar]
    exact H
  | pair t ih =>
    obtain ⟨chunk, rest, hchunk, hrest, rfl⟩ := List.forall₂_cons_left_iff.1 hchunks
    obtain ⟨chunk', rest', hchunk', hrest', rfl⟩ := List.forall₂_cons_left_iff.1 hrest
    rw [List.flatten_cons, List.flatten_cons, hchunk.dollar, hchunk'.dollar]
    exact tame_pair.2 (ih (tame_pair.1 H) hrest')
  | lone c t hc ih =>
    obtain ⟨chunk, rest, hchunk, hrest, rfl⟩ := List.forall₂_cons_left_iff.1 hchunks
    obtain ⟨hlone, H⟩ := (tame_lone hc).1 H
    have hflat := ih H hrest
    obtain ⟨chunk', rest, hchunk', -, rfl⟩ := List.forall₂_cons_left_iff.1 hrest
    obtain ⟨d, r, rfl, hd⟩ := hchunk'.head hc
    rw [hchunk.dollar]
    exact (tame_lone hd).2 ⟨hlone, hflat⟩
  | opener b c t hb => exact absurd H (not_tame_opener hb)

/-! ## The case tables -/

/-- The codes of the dollar and of the brackets that can follow one. -/
def takerCodes : List Nat := [0x24, 0x28, 0x7B]

theorem takesDollar_of_code (h : c.toNat ∉ takerCodes) : takesDollar c = false := by
  simp only [takerCodes, List.mem_cons, List.not_mem_nil, or_false, not_or] at h
  have hne : c ≠ '$' ∧ c ≠ '(' ∧ c ≠ '\x7b' :=
    ⟨ne_of_apply_ne Char.toNat h.1, ne_of_apply_ne Char.toNat h.2.1,
      ne_of_apply_ne Char.toNat h.2.2⟩
  simp [takesDollar, Bracket.ofOpener?, hne]

/-- A number that is no code gives the character with code zero. -/
theorem takesDollar_ofNat {n : Nat} (h : n ∉ takerCodes) : takesDollar (Char.ofNat n) = false := by
  apply takesDollar_of_code
  by_cases hn : n.isValidChar
  · rw [Char.ofNat, dif_pos hn]
    exact h
  · rw [Char.ofNat, dif_neg hn]
    decide

namespace Text

/-- The characters of the range lie above the dollar, and their partners away from the codes that
take one: above all of them, or between the brackets. -/
def Shift.Avoids (s : Shift) : Prop :=
  0x24 < s.first ∧
    (0x7B < s.first + s.offset ∨ 0x28 < s.first + s.offset ∧ s.last + s.offset < 0x7B)

instance (s : Shift) : Decidable s.Avoids :=
  inferInstanceAs (Decidable (_ ∧ _))

theorem upperShifts_avoid : ∀ s ∈ upperShifts, s.Avoids := by
  decide +kernel

theorem lowerShifts_avoid : ∀ s ∈ lowerShifts, s.Avoids := by
  decide +kernel

theorem upperExpansions_avoid : ∀ e ∈ upperExpansions,
    e.1 ≠ 0x24 ∧ e.2 ≠ [] ∧ ∀ n ∈ e.2, n ∉ takerCodes := by
  decide +kernel

theorem Shift.Avoids.harmless {s : Shift} {d : Char} (H : s.Avoids) (h : s.apply? c = some d) :
    Harmless c [d] := by
  unfold Shift.apply? at h
  simp only [Option.ite_none_right_eq_some, Bool.and_eq_true, decide_eq_true_eq,
    Option.some.injEq] at h
  obtain ⟨⟨⟨hfirst, hlast⟩, -⟩, rfl⟩ := h
  obtain ⟨habove, hpartner⟩ := H
  refine .inr ⟨?_, by simp, ?_⟩
  · rintro rfl
    have : ('$' : Char).toNat = 0x24 := rfl
    omega
  · simp only [List.mem_singleton, forall_eq]
    apply takesDollar_ofNat
    simp only [takerCodes, List.mem_cons, List.not_mem_nil, or_false]
    omega

theorem harmless_shifted {shifts : List Shift} (H : ∀ s ∈ shifts, s.Avoids) (c : Char) :
    Harmless c [(shifts.findSome? fun s => s.apply? c).getD c] := by
  cases h : shifts.findSome? fun s => s.apply? c with
  | none => exact .inl rfl
  | some d =>
    obtain ⟨s, hs, hd⟩ := List.exists_of_findSome?_eq_some h
    exact (H s hs).harmless hd

theorem harmless_map_ofNat (codes : List Nat) (hc : c.toNat ≠ 0x24) (hne : codes ≠ [])
    (h : ∀ n ∈ codes, n ∉ takerCodes) : Harmless c (codes.map Char.ofNat) := by
  refine .inr ⟨ne_of_apply_ne Char.toNat hc, by simpa using hne, fun d hd => ?_⟩
  obtain ⟨n, hn, rfl⟩ := List.mem_map.1 hd
  exact takesDollar_ofNat (h n hn)

theorem harmless_upperChar (c : Char) : Harmless c (upperChar c) := by
  rw [upperChar]
  split
  · next codes h =>
    obtain ⟨l₁, l₂, hsplit, -⟩ := List.lookup_eq_some_iff.1 h
    have hmem : (c.toNat, codes) ∈ upperExpansions := by simp [hsplit]
    obtain ⟨hc, hne, hcodes⟩ := upperExpansions_avoid _ hmem
    exact harmless_map_ofNat codes hc hne hcodes
  · exact harmless_shifted upperShifts_avoid c

theorem harmless_lowerChar (c : Char) : Harmless c (lowerChar c) := by
  rw [lowerChar]
  split
  · next h =>
    exact harmless_map_ofNat [0x69, 0x307] (by rw [h]; decide) (by simp) (by decide)
  · exact harmless_shifted lowerShifts_avoid c

/-- The text is cut into what the lower case puts in place of each character. -/
theorem exists_chunks_lowerFrom (before t : Text) :
    ∃ chunks, List.Forall₂ Harmless t chunks ∧ lowerFrom before t = chunks.flatten := by
  induction t generalizing before with
  | nil => exact ⟨[], .nil, rfl⟩
  | cons c t ih =>
    obtain ⟨chunks, hchunks, ht⟩ := ih (c :: before)
    refine ⟨_, .cons ?_ hchunks, by rw [lowerFrom, ht, List.flatten_cons]⟩
    split
    · next h =>
      have hc : c.toNat ≠ 0x24 := by rw [h]; decide
      split
      · exact harmless_map_ofNat [0x3C2] hc (by simp) (by decide)
      · exact harmless_map_ofNat [0x3C3] hc (by simp) (by decide)
    · exact harmless_lowerChar c

end Text

theorem Tame.upper (H : Tame lone t) : Tame lone (Text.upper t) := by
  rw [Text.upper, List.flatMap_def]
  refine H.flatten ?_
  rw [List.forall₂_map_right_iff, List.forall₂_same]
  exact fun c _ => Text.harmless_upperChar c

theorem Tame.lower (H : Tame lone t) : Tame lone (Text.lower t) := by
  obtain ⟨chunks, hchunks, ht⟩ := Text.exists_chunks_lowerFrom [] t
  rw [Text.lower, ht]
  exact H.flatten hchunks

end Haybuild
