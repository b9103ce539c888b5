import Haybuild.Derivation.Words
import Haybuild.Proofs.Text.Words
import Mathlib.Data.List.Forall2

/-!
# Words that match patterns

A word matches a pattern if it is the pattern with a stem in place of the first `%` (`Matches`), and
that stem is the one that is found (`stem?_eq_some_iff`). Which words are kept by a filter and which
are dropped is decided by this alone, so the two filters part the words of a text (`filter_parts`).
To substitute a pattern is to put the stem into another pattern, from which it is taken out again by
the substitution the other way (`substitutePattern_reverses`).
-/

namespace Haybuild.Words

open Text

variable {pattern replacement front back stem t w w' : Text}

/-- The word is the pattern with the stem in place of the first `%`. A pattern without `%` is
matched by itself alone. -/
inductive Matches : (pattern word stem : Text) → Prop
  | plain {pattern : Text} : '%' ∉ pattern → Matches pattern pattern []
  | marked {front back stem : Text} : '%' ∉ front →
      Matches (front ++ '%' :: back) (front ++ stem ++ back) stem

theorem stem?_eq_some_iff : stem? pattern w = some stem ↔ Matches pattern w stem := by
  constructor
  · intro h
    rw [stem?] at h
    split at h
    · next hmark =>
      obtain ⟨rfl, hstem⟩ := Option.ite_none_right_eq_some.1 h
      cases hstem
      exact .plain (splitAt?_eq_none_iff.1 hmark)
    · next front back hmark =>
      obtain ⟨hfront, rfl⟩ := splitAt?_eq_some_iff.1 hmark
      obtain ⟨r, hr, hstem⟩ := Option.bind_eq_some_iff.1 h
      rw [stripPrefix?_eq_some_iff] at hr
      rw [stripSuffix?_eq_some_iff] at hstem
      rw [hr, hstem, ← List.append_assoc]
      exact .marked hfront
  · intro H
    cases H with
    | plain hmark =>
      rw [stem?, splitAt?_eq_none hmark]
      exact if_pos rfl
    | @marked front back stem hfront =>
      rw [stem?, splitAt?_append hfront]
      refine Option.bind_eq_some_iff.2 ⟨stem ++ back, ?_, stripSuffix?_eq_some_iff.2 rfl⟩
      rw [stripPrefix?_eq_some_iff, List.append_assoc]

instance : Decidable (Matches pattern w stem) :=
  decidable_of_iff _ stem?_eq_some_iff

/-- A pattern with its stem is the word. -/
theorem Matches.fillStem_eq (H : Matches pattern w stem) : fillStem pattern stem = w := by
  cases H with
  | plain hmark => rw [fillStem, splitAt?_eq_none hmark]
  | marked hfront => rw [fillStem, splitAt?_append hfront]

theorem matches_fillStem (hmark : '%' ∈ pattern) (stem : Text) :
    Matches pattern (fillStem pattern stem) stem := by
  obtain ⟨front, back, rfl, hfront⟩ := List.eq_append_cons_of_mem hmark
  rw [fillStem, splitAt?_append hfront]
  exact .marked hfront

theorem Matches.stem_subset (H : Matches pattern w stem) : stem ⊆ w := by
  cases H with
  | plain hmark => exact List.nil_subset _
  | marked hfront => exact fun c hc => List.mem_append_left _ (List.mem_append_right _ hc)

theorem Matches.mem (H : Matches pattern w stem) {c : Char} (hc : c ∈ w) :
    c ∈ pattern ∨ c ∈ stem := by
  cases H with
  | plain hmark => exact .inl hc
  | marked hfront =>
    simp only [List.mem_append, List.mem_cons] at hc ⊢
    tauto

/-! ## Filters -/

section Filter

variable {α : Type} {p : α → Prop} {f : α → Bool}

/-- The members of the third list are dealt out in order: those of which `p` holds to the first
list, the others to the second one. -/
inductive Parted (p : α → Prop) : List α → List α → List α → Prop
  | nil : Parted p [] [] []
  | kept {a : α} {kept dropped as : List α} : p a → Parted p kept dropped as →
      Parted p (a :: kept) dropped (a :: as)
  | dropped {a : α} {kept dropped as : List α} : ¬p a → Parted p kept dropped as →
      Parted p kept (a :: dropped) (a :: as)

theorem parted_filter (hf : ∀ a, f a = true ↔ p a) (as : List α) :
    Parted p (as.filter (f · == true)) (as.filter (f · == false)) as := by
  induction as with
  | nil => exact .nil
  | cons a as ih =>
    cases ha : f a with
    | true =>
      rw [List.filter_cons_of_pos (by simp [ha]), List.filter_cons_of_neg (by simp [ha])]
      exact .kept ((hf a).1 ha) ih
    | false =>
      rw [List.filter_cons_of_neg (by simp [ha]), List.filter_cons_of_pos (by simp [ha])]
      refine .dropped (fun hp => ?_) ih
      cases ha.symm.trans ((hf a).2 hp)

end Filter

theorem matchesSome_iff {patterns : List Text} :
    matchesSome patterns w = true ↔ ∃ pattern ∈ patterns, ∃ stem, Matches pattern w stem := by
  simp only [matchesSome, List.any_eq_true, Option.isSome_iff_exists, stem?_eq_some_iff]

theorem words_filter (patterns t : Text) (keep : Bool) :
    words (filter patterns t keep) =
      (words t).filter fun w => matchesSome (words patterns) w == keep :=
  words_join fun _ hw => isWord_of_mem_words (List.mem_of_mem_filter hw)

/-- Filtering twice is filtering for both conditions at once. -/
theorem filter_filter (patterns t : Text) (keep keep' : Bool) :
    filter patterns (filter patterns t keep) keep' =
      join " " ((words t).filter fun w => matchesSome (words patterns) w == keep' &&
        matchesSome (words patterns) w == keep) := by
  rw [filter, words_filter, List.filter_filter]

/-- The words that a filter keeps and those that it drops are all the words, dealt out in order: to
the first those that match one of the patterns. What was kept is kept, and what was dropped is
dropped, when it is filtered once more. -/
theorem filter_parts (patterns t : Text) :
    Parted (fun w => ∃ pattern ∈ words patterns, ∃ stem, Matches pattern w stem)
        (words (filter patterns t true)) (words (filter patterns t false)) (words t) ∧
      ∀ keep, filter patterns (filter patterns t keep) keep = filter patterns t keep ∧
        filter patterns (filter patterns t keep) (!keep) = [] := by
  refine ⟨?_, fun keep => ⟨?_, ?_⟩⟩
  · rw [words_filter, words_filter]
    exact parted_filter (fun _ => matchesSome_iff) (words t)
  · simp only [filter_filter, Bool.and_self]
    rfl
  · have hnone : ∀ b : Bool, (b == !keep && b == keep) = false := by
      cases keep <;> decide
    simp only [filter_filter, hnone, List.filter_false]
    rfl

/-! ## Substitution -/

/-- What becomes of a word: the replacement for its stem if it matches, and otherwise the word. -/
def substituteWord (pattern replacement w : Text) : Text :=
  match stem? pattern w with
  | none => w
  | some stem => fillStem replacement stem

theorem substitutePattern_eq (hpattern : IsWord pattern) (hreplacement : IsWord replacement)
    (t : Text) : substitutePattern pattern replacement t =
      join " " ((words t).map (substituteWord pattern replacement)) := by
  rw [substitutePattern, hpattern.trim_eq, hreplacement.trim_eq]
  rfl

/-- A word that matches becomes what the other pattern makes of its stem. -/
theorem substituteWord_spec (hmark : '%' ∈ replacement) (pattern w : Text) :
    (∃ stem, Matches pattern w stem ∧
        Matches replacement (substituteWord pattern replacement w) stem) ∨
      (∀ stem, ¬Matches pattern w stem) ∧ substituteWord pattern replacement w = w := by
  rw [substituteWord]
  split
  · next hstem =>
    refine .inr ⟨fun stem H => ?_, rfl⟩
    cases hstem.symm.trans (stem?_eq_some_iff.2 H)
  · next stem hstem => exact .inl ⟨stem, stem?_eq_some_iff.1 hstem, matches_fillStem hmark stem⟩

theorem Matches.substituteWord_eq (H : Matches pattern w stem) (replacement : Text) :
    substituteWord pattern replacement w = fillStem replacement stem := by
  rw [substituteWord, stem?_eq_some_iff.2 H]

theorem substituteWord_of_not_matches (h : ∀ stem, ¬Matches pattern w stem) (replacement : Text) :
    substituteWord pattern replacement w = w := by
  rw [substituteWord, Option.eq_none_iff_forall_ne_some.2 fun stem hstem =>
    h stem (stem?_eq_some_iff.1 hstem)]

/-- No blank comes into a word by substitution. -/
theorem isWord_substituteWord (hreplacement : IsWord replacement) (hmark : '%' ∈ replacement)
    (hw : IsWord w) (hne : ∀ stem, Matches pattern w stem → ¬Matches replacement [] stem) :
    IsWord (substituteWord pattern replacement w) := by
  rcases substituteWord_spec hmark pattern w with ⟨stem, H, H'⟩ | ⟨-, heq⟩
  · refine ⟨fun hnil => hne stem H (hnil ▸ H'), fun c hc => ?_⟩
    rcases H'.mem hc with hc | hc
    · exact hreplacement.not_blank c hc
    · exact hw.not_blank c (H.stem_subset hc)
  · rwa [heq]

/-- The substitution the other way takes the stem out again and puts it back. -/
theorem substituteWord_reverses (hmark : '%' ∈ replacement)
    (hapart : (∀ stem, ¬Matches pattern w stem) → ∀ stem, ¬Matches replacement w stem) :
    substituteWord replacement pattern (substituteWord pattern replacement w) = w := by
  rcases substituteWord_spec hmark pattern w with ⟨stem, H, H'⟩ | ⟨hnone, heq⟩
  · rw [H'.substituteWord_eq, H.fillStem_eq]
  · rw [heq, substituteWord_of_not_matches (hapart hnone)]

/-- A substitution gives one word for each word, in order: a word that matches is replaced by what
the other pattern makes of its stem, and any other word stays. If no word that does not match the
pattern matches the replacement, the substitution the other way gives all words back. -/
theorem substitutePattern_reverses (hpattern : IsWord pattern) (hreplacement : IsWord replacement)
    (hmark : '%' ∈ replacement)
    (hne : ∀ w ∈ words t, ∀ stem, Matches pattern w stem → ¬Matches replacement [] stem) :
    List.Forall₂
        (fun w w' => (∃ stem, Matches pattern w stem ∧ Matches replacement w' stem) ∨
          (∀ stem, ¬Matches pattern w stem) ∧ w' = w)
        (words t) (words (substitutePattern pattern replacement t)) ∧
      ((∀ w ∈ words t, (∀ stem, ¬Matches pattern w stem) → ∀ stem, ¬Matches replacement w stem) →
        substitutePattern replacement pattern (substitutePattern pattern replacement t) =
          join " " (words t)) := by
  have hwords : words (substitutePattern pattern replacement t) =
      (words t).map (substituteWord pattern replacement) := by
    rw [substitutePattern_eq hpattern hreplacement, words_join]
    exact List.forall_mem_map.2 fun w hw =>
      isWord_substituteWord hreplacement hmark (isWord_of_mem_words hw) (hne w hw)
  constructor
  · rw [hwords, List.forall₂_map_right_iff, List.forall₂_same]
    exact fun w _ => substituteWord_spec hmark pattern w
  · intro hapart
    rw [substitutePattern_eq hreplacement hpattern, hwords, List.map_map]
    have hback : ∀ w ∈ words t,
        (substituteWord replacement pattern ∘ substituteWord pattern replacement) w = w :=
      fun w hw => substituteWord_reverses hmark (hapart w hw)
    rw [List.map_congr_left hback, List.map_id']

/-- A word too short for both ends of the pattern `a%a`, one with nothing between them, and one with
a `%` for its stem. -/
def overlapping : Text := " a  aa a%a\tabca "

theorem substitutePattern_reverses_overlapping :
    IsWord "a%a" ∧ IsWord "%%.o" ∧ '%' ∈ ("%%.o" : Text) ∧
      (∀ w ∈ words overlapping, ∀ stem, Matches "a%a" w stem → ¬Matches "%%.o" [] stem) ∧
      (∀ w ∈ words overlapping, (∀ stem, ¬Matches "a%a" w stem) → ∀ stem, ¬Matches "%%.o" w stem) ∧
      substitutePattern "a%a" "%%.o" overlapping = "a %.o %%.o bc%.o" ∧
      substitutePattern "%%.o" "a%a" "a %.o %%.o bc%.o" = "a aa a%a abca" := by
  have hpattern : IsWord "a%a" := by decide
  have hreplacement : IsWord "%%.o" := by decide
  have hmark : '%' ∈ ("%%.o" : Text) := by decide
  have hne : ∀ w ∈ words overlapping, ∀ stem, Matches "a%a" w stem → ¬Matches "%%.o" [] stem := by
    intro w _ stem _ H
    have hnone : stem? "%%.o" [] = none := by decide
    cases hnone.symm.trans (stem?_eq_some_iff.2 H)
  have hapart : ∀ w ∈ words overlapping, (∀ stem, ¬Matches "a%a" w stem) →
      ∀ stem, ¬Matches "%%.o" w stem := by
    intro w hw _ stem H
    have hnone : ∀ w ∈ words overlapping, stem? "%%.o" w = none := by decide
    cases (hnone w hw).symm.trans (stem?_eq_some_iff.2 H)
  have hvalue : substitutePattern "a%a" "%%.o" overlapping = "a %.o %%.o bc%.o" := by decide
  have hwords : join " " (words overlapping) = "a aa a%a abca" := by decide
  have hback := (substitutePattern_reverses hpattern hreplacement hmark hne).2 hapart
  rw [hvalue, hwords] at hback
  exact ⟨hpattern, hreplacement, hmark, hne, hapart, hvalue, hback⟩

end Haybuild.Words
