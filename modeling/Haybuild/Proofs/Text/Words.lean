import Haybuild.Proofs.Text.Plain
import Haybuild.Text.Order
import Mathlib.Data.List.Sort

/-!
# Laws of words

The words of a text are those before a blank and those after it (`words_append_blank`), so each word
stands in the text between blanks or the text's ends (`exists_of_mem_words`). Words that are joined
by spaces are the words of what they make (`words_join`). With the words stand the laws of cutting a
text at its first mark and of sorting texts without repetition, which puts the members of a list in
strictly ascending order whatever their own order was (`sortDistinct_congr`).
-/

namespace Haybuild

variable {c : Char} {s t u v w : Text} {ws : List Text}

namespace Text

/-! ## Words -/

theorem wordsFrom_append_blank (hc : isBlank c) (s t : Text) :
    wordsFrom (s ++ c :: t) = ((wordsFrom s).1, (wordsFrom s).2 ++ words t) := by
  induction s with
  | nil => simp [wordsFrom, words, hc]
  | cons d s ih =>
    simp only [List.cons_append, wordsFrom, ih]
    split
    · split <;> rfl
    · rfl

/-- A blank parts the words of a text. -/
theorem words_append_blank (hc : isBlank c) (s t : Text) :
    words (s ++ c :: t) = words s ++ words t := by
  simp only [words, wordsFrom_append_blank hc]
  split
  · rfl
  · exact (List.cons_append ..).symm

theorem wordsFrom_of_not_blank (h : ∀ c ∈ t, ¬isBlank c) : wordsFrom t = (t, []) := by
  induction t with
  | nil => rfl
  | cons c t ih =>
    obtain ⟨hc, ht⟩ := List.forall_mem_cons.1 h
    simp [wordsFrom, ih ht, hc]

theorem eq_of_mem_words (h : ∀ c ∈ t, ¬isBlank c) (hw : w ∈ words t) : w = t := by
  simp only [words, wordsFrom_of_not_blank h] at hw
  split at hw
  · cases hw
  · exact List.mem_singleton.1 hw

/-- A word stands in its text between blanks or the ends of the text. -/
theorem exists_of_mem_words (hw : w ∈ words t) :
    ∃ u v, t = u ++ w ++ v ∧ (∀ c, u.getLast? = some c → isBlank c) ∧
      ∀ c, v.head? = some c → isBlank c := by
  induction h : t.length using Nat.strongRecOn generalizing t with
  | ind n ih =>
    by_cases hblank : ∀ c ∈ t, ¬isBlank c
    · obtain rfl := eq_of_mem_words hblank hw
      exact ⟨[], [], by simp, by simp, by simp⟩
    · -- the first blank parts the text into a word, perhaps empty, and a shorter text
      obtain ⟨c, hfind⟩ : ∃ c, List.find? isBlank t = some c := by
        refine Option.isSome_iff_exists.1 (List.find?_isSome.2 ?_)
        simpa using hblank
      obtain ⟨hc, s, r, rfl, hs⟩ := List.find?_eq_some_iff_append.1 hfind
      rw [words_append_blank hc, List.mem_append] at hw
      rcases hw with hw | hw
      · obtain rfl := eq_of_mem_words (by simpa using hs) hw
        refine ⟨[], c :: r, by simp, by simp, ?_⟩
        rintro d ⟨⟩
        exact hc
      · have hr : r.length < n := by
          rw [← h, List.length_append, List.length_cons]
          omega
        obtain ⟨u, v, rfl, hu, hv⟩ := ih _ hr hw rfl
        refine ⟨s ++ c :: u, v, by simp, ?_, hv⟩
        intro d hd
        rw [List.getLast?_append, List.getLast?_cons] at hd
        cases hu' : u.getLast? with
        | none =>
          rw [hu'] at hd
          cases hd
          exact hc
        | some e =>
          rw [hu'] at hd
          cases hd
          exact hu _ hu'

/-- The text is one word: it is not empty and holds no blank. -/
structure IsWord (t : Text) : Prop where
  ne_nil : t ≠ []
  not_blank : ∀ c ∈ t, ¬isBlank c

instance : DecidablePred IsWord := fun t =>
  decidable_of_iff (t ≠ [] ∧ t.all fun c => !isBlank c)
    ⟨fun ⟨ne_nil, not_blank⟩ => ⟨ne_nil, by simpa using not_blank⟩,
      fun ⟨ne_nil, not_blank⟩ => ⟨ne_nil, by simpa using not_blank⟩⟩

theorem IsWord.words_eq (H : IsWord w) : words w = [w] := by
  rw [words, wordsFrom_of_not_blank H.not_blank]
  exact if_neg H.ne_nil

theorem IsWord.trim_eq (H : IsWord w) : trim w = w := by
  have hblank : ∀ c, c ∈ w → isBlank c = false := fun c hc => Bool.eq_false_iff.2 (H.not_blank c hc)
  apply trim_eq_self
  · rw [Option.any_eq_false]
    exact fun c hc => hblank c (List.mem_of_head? hc)
  · rw [Option.any_eq_false]
    exact fun c hc => hblank c (List.mem_of_getLast? hc)

/-- Blanks around a word are trimmed. -/
theorem IsWord.trim_append (H : IsWord w) (hu : ∀ c ∈ u, isBlank c) (hv : ∀ c ∈ v, isBlank c) :
    trim (u ++ w ++ v) = w := by
  have hleft : trimLeft (u ++ w ++ v) = trimLeft w ++ v := by
    obtain ⟨c, r, rfl⟩ := List.exists_cons_of_ne_nil H.ne_nil
    have hc : ¬isBlank c := H.not_blank c List.mem_cons_self
    rw [trimLeft, trimLeft, List.append_assoc, List.dropWhile_append_of_pos hu, List.cons_append,
      List.dropWhile_cons_of_neg hc, List.dropWhile_cons_of_neg hc, List.cons_append]
  have hright : trimRight (trimLeft w ++ v) = trimRight (trimLeft w) := by
    rw [trimRight, trimRight, List.reverse_append, List.dropWhile_append_of_pos]
    exact fun c hc => hv c (List.mem_reverse.1 hc)
  rw [trim, hleft, hright]
  exact H.trim_eq

theorem isWord_of_mem_wordsFrom (t : Text) :
    (∀ c ∈ (wordsFrom t).1, ¬isBlank c) ∧ ∀ w ∈ (wordsFrom t).2, IsWord w := by
  induction t with
  | nil => exact ⟨List.forall_mem_nil _, List.forall_mem_nil _⟩
  | cons c t ih =>
    obtain ⟨hword, hrest⟩ := ih
    simp only [wordsFrom]
    split
    · refine ⟨List.forall_mem_nil _, ?_⟩
      dsimp only
      split
      · exact hrest
      · next hne => exact List.forall_mem_cons.2 ⟨⟨hne, hword⟩, hrest⟩
    · next hc => exact ⟨List.forall_mem_cons.2 ⟨hc, hword⟩, hrest⟩

theorem isWord_of_mem_words (hw : w ∈ words t) : IsWord w := by
  obtain ⟨hword, hrest⟩ := isWord_of_mem_wordsFrom t
  simp only [words] at hw
  split at hw
  · exact hrest w hw
  · next hne =>
    rcases List.mem_cons.1 hw with rfl | hw
    · exact ⟨hne, hword⟩
    · exact hrest w hw

theorem exists_join_cons (sep : Text) (ts : List Text) :
    ∃ after, ∀ t, join sep (t :: ts) = t ++ after := by
  cases ts with
  | nil => exact ⟨[], fun t => by simp⟩
  | cons u us => exact ⟨sep ++ join sep (u :: us), fun t => by simp [join_cons_cons]⟩

theorem mem_join_iff {sep : Text} {ts : List Text} (hsep : c ∉ sep) :
    c ∈ join sep ts ↔ ∃ t ∈ ts, c ∈ t := by
  induction ts with
  | nil => simp
  | cons t ts ih =>
    cases ts with
    | nil => simp
    | cons u us =>
      rw [join_cons_cons, List.mem_append, List.mem_append, ih]
      simp [hsep]

/-- Joined by spaces, words come back one by one. -/
theorem words_join (H : ∀ w ∈ ws, IsWord w) : words (join " " ws) = ws := by
  induction ws with
  | nil => rfl
  | cons w ws ih =>
    obtain ⟨hw, hws⟩ := List.forall_mem_cons.1 H
    cases ws with
    | nil => exact hw.words_eq
    | cons x ws =>
      have happend : join " " (w :: x :: ws) = w ++ ' ' :: join " " (x :: ws) := by
        rw [join_cons_cons, List.append_assoc]
        rfl
      rw [happend, words_append_blank rfl, hw.words_eq, ih hws]
      rfl

/-- A text is what `trim` leaves of it, between blanks. -/
theorem exists_eq_trim (t : Text) :
    ∃ u v, t = u ++ trim t ++ v ∧ (∀ c ∈ u, isBlank c) ∧ ∀ c ∈ v, isBlank c := by
  refine ⟨t.takeWhile isBlank, (trimLeft t).rtakeWhile isBlank, ?_,
    fun c => List.mem_takeWhile_imp, fun c => List.mem_rtakeWhile_imp⟩
  have htrim : trim t ++ (trimLeft t).rtakeWhile isBlank = trimLeft t :=
    List.rdropWhile_append_rtakeWhile
  rw [List.append_assoc, htrim]
  exact List.takeWhile_append_dropWhile.symm

/-! ## Cutting at a character -/

theorem splitAt?_append (hs : c ∉ s) (t : Text) : splitAt? c (s ++ c :: t) = some (s, t) := by
  induction s with
  | nil => simp [splitAt?]
  | cons d s ih =>
    obtain ⟨hd, hs⟩ := List.ne_and_not_mem_of_not_mem_cons hs
    rw [List.cons_append, splitAt?, if_neg (Ne.symm hd), ih hs]
    rfl

theorem splitAt?_eq_none (hs : c ∉ s) : splitAt? c s = none := by
  induction s with
  | nil => rfl
  | cons d s ih =>
    obtain ⟨hd, hs⟩ := List.ne_and_not_mem_of_not_mem_cons hs
    rw [splitAt?, if_neg (Ne.symm hd), ih hs]
    rfl

theorem splitAt?_eq_none_iff : splitAt? c s = none ↔ c ∉ s := by
  refine ⟨fun h hc => ?_, splitAt?_eq_none⟩
  obtain ⟨u, v, rfl, hu⟩ := List.eq_append_cons_of_mem hc
  rw [splitAt?_append hu] at h
  cases h

/-- A text is cut at the first of the characters. -/
theorem splitAt?_eq_some_iff : splitAt? c t = some (u, v) ↔ c ∉ u ∧ t = u ++ c :: v := by
  constructor
  · intro h
    have hc : c ∈ t := by
      apply Decidable.byContradiction
      intro hc
      cases h.symm.trans (splitAt?_eq_none hc)
    obtain ⟨u', v', rfl, hu⟩ := List.eq_append_cons_of_mem hc
    cases h.symm.trans (splitAt?_append hu v')
    exact ⟨hu, rfl⟩
  · rintro ⟨hu, rfl⟩
    exact splitAt?_append hu v

theorem splitAt?_append_cons (c : Char) (s t : Text) :
    ∃ v, splitAt? c (s ++ c :: t) = some (s.takeWhile (· ≠ c), v) := by
  induction s with
  | nil => exact ⟨t, if_pos rfl⟩
  | cons d s ih =>
    rw [List.cons_append, splitAt?]
    by_cases hd : d = c
    · exact ⟨s ++ c :: t, by simp [hd]⟩
    · obtain ⟨v, hv⟩ := ih
      exact ⟨v, by simp [hd, hv]⟩

/-! ## Sorting without repetition -/

theorem mem_insertDistinct {ts : List Text} : w ∈ insertDistinct t ts ↔ w = t ∨ w ∈ ts := by
  induction ts with
  | nil => simp [insertDistinct]
  | cons u ts ih =>
    rw [insertDistinct]
    split
    · next h => simp [h]
    · split
      · simp
      · simp [ih, or_left_comm]

theorem mem_sortDistinct {ts : List Text} : w ∈ sortDistinct ts ↔ w ∈ ts := by
  induction ts with
  | nil => simp [sortDistinct]
  | cons t ts ih =>
    rw [sortDistinct, List.foldr_cons, mem_insertDistinct, List.mem_cons]
    exact or_congr_right ih

theorem pairwise_insertDistinct {ts : List Text} (h : ts.Pairwise (· < ·)) :
    (insertDistinct t ts).Pairwise (· < ·) := by
  induction ts with
  | nil => exact List.pairwise_singleton _ _
  | cons u ts ih =>
    obtain ⟨hu, hts⟩ := List.pairwise_cons.1 h
    rw [insertDistinct]
    split
    · exact h
    · next hne =>
      split
      · next hlt =>
        refine List.pairwise_cons.2 ⟨List.forall_mem_cons.2 ⟨hlt, fun v hv => ?_⟩, h⟩
        exact List.lt_trans hlt (hu v hv)
      · next hlt =>
        have hut : u < t := by
          by_contra hut
          exact hne (Std.Trichotomous.trichotomous t u hlt hut)
        refine List.pairwise_cons.2 ⟨fun v hv => ?_, ih hts⟩
        rcases mem_insertDistinct.1 hv with rfl | hv
        · exact hut
        · exact hu v hv

theorem pairwise_sortDistinct (ts : List Text) : (sortDistinct ts).Pairwise (· < ·) := by
  induction ts with
  | nil => exact .nil
  | cons t ts ih => exact pairwise_insertDistinct ih

/-- Neither the order of the texts nor how often they occur has a part in sorting. -/
theorem sortDistinct_congr {ts us : List Text} (h : ∀ w, w ∈ ts ↔ w ∈ us) :
    sortDistinct ts = sortDistinct us := by
  refine (pairwise_sortDistinct ts).eq_of_mem_iff (pairwise_sortDistinct us) fun w => ?_
  rw [mem_sortDistinct, mem_sortDistinct, h]

end Text

end Haybuild
