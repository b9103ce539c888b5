import Haybuild.Proofs.Words.Path

/-!
# The suffix of a path

The suffix of a path is what its file name ends with from its last dot on, unless nothing but dots
stands before that dot in the name (`splitSuffix_cases`). So a path without its suffix is never
empty, and the calls `basename` and `suffix` give as many words as they are given, if each of these
has a suffix; `join` puts them together again (`basename_append_suffix`).
-/

namespace Haybuild.Words

open Text

variable {c : Char} {r s v w : Text}

/-! ## The place of the suffix -/

/-- What stands behind the last `c` goes on with a text that holds no `c`. -/
theorem rtakeWhile_ne_append (hs : c ∉ s) (v : Text) :
    (v ++ s).rtakeWhile (· ≠ c) = v.rtakeWhile (· ≠ c) ++ s := by
  have hpass : ∀ d ∈ s.reverse, decide (d ≠ c) = true := fun d hd =>
    decide_eq_true fun h => hs (h ▸ List.mem_reverse.1 hd)
  rw [List.rtakeWhile, List.reverse_append, List.takeWhile_append_of_pos hpass,
    List.reverse_append, List.reverse_reverse]
  rfl

theorem afterSlash_append (hs : '/' ∉ s) (v : Text) : afterSlash (v ++ s) = afterSlash v ++ s :=
  rtakeWhile_ne_append hs v

/-- A path that goes on behind `v` with a dot and `r` can be cut before this dot: it is the last one
of the name, and something other than dots stands before it in the name. -/
structure CutsSuffix (v r : Text) : Prop where
  dot : '.' ∉ r
  slash : '/' ∉ r
  name : ∃ c ∈ afterSlash v, c ≠ '.'

theorem CutsSuffix.splitSuffix_eq (H : CutsSuffix v r) :
    splitSuffix (v ++ '.' :: r) = (v, '.' :: r) := by
  obtain ⟨hdot, hslash, c, hc, hne⟩ := H
  have hname : afterSlash (v ++ '.' :: r) = afterSlash v ++ '.' :: r :=
    afterSlash_append (List.not_mem_cons_of_ne_of_not_mem (by decide) hslash) v
  have hfront : (afterSlash v).dropWhile (· = '.') ≠ [] := fun hnil =>
    hne (by simpa using List.dropWhile_eq_nil_iff.1 hnil c hc)
  have hrest : (afterSlash v ++ '.' :: r).dropWhile (· = '.') =
      (afterSlash v).dropWhile (· = '.') ++ ['.'] ++ r := by
    rw [List.dropWhile_append, if_neg (by simpa using hfront), List.append_assoc]
    rfl
  have hsuffix : ((afterSlash v).dropWhile (· = '.') ++ ['.'] ++ r).rtakeWhile (· ≠ '.') = r := by
    rw [rtakeWhile_ne_append hdot, List.rtakeWhile_concat_neg _ _ _ (by decide), List.nil_append]
  have hcut : splitSuffix (v ++ '.' :: r) =
      if ((afterSlash (v ++ '.' :: r)).dropWhile (· = '.')).contains '.' then
        let suffix := '.' :: ((afterSlash (v ++ '.' :: r)).dropWhile (· = '.')).rtakeWhile (· ≠ '.')
        ((v ++ '.' :: r).take ((v ++ '.' :: r).length - suffix.length), suffix)
      else (v ++ '.' :: r, []) := rfl
  rw [hcut, hname, hrest, hsuffix, if_pos (by simp)]
  simp

theorem exists_cutsSuffix (h : '.' ∈ (afterSlash w).dropWhile (· = '.')) :
    ∃ v r, w = v ++ '.' :: r ∧ CutsSuffix v r := by
  generalize hrest : (afterSlash w).dropWhile (· = '.') = rest at h
  obtain ⟨hno, -⟩ | ⟨u, hu⟩ := rdropWhile_ne_eq '.' rest
  · exact absurd h hno
  · have hlast : rest = u ++ '.' :: rest.rtakeWhile (· ≠ '.') := by
      conv_lhs => rw [← List.rdropWhile_append_rtakeWhile (p := (· ≠ '.')) (l := rest), hu]
      simp
    have hname : afterSlash w =
        (afterSlash w).takeWhile (· = '.') ++ u ++ '.' :: rest.rtakeWhile (· ≠ '.') := by
      rw [List.append_assoc, ← hlast, ← hrest, List.takeWhile_append_dropWhile]
    have hw : upToSlash w ++ ((afterSlash w).takeWhile (· = '.') ++ u) ++
        '.' :: rest.rtakeWhile (· ≠ '.') = w := by
      rw [List.append_assoc, ← hname, upToSlash_append_afterSlash]
    have hslash := slash_notMem_afterSlash w
    rw [hname, List.mem_append, not_or] at hslash
    refine ⟨_, _, hw.symm, fun hdot => ?_, List.not_mem_of_not_mem_cons hslash.2, ?_⟩
    · exact absurd (List.mem_rtakeWhile_imp hdot) (by decide)
    · -- the dots at the front of the name are gone, so the rest starts with something else
      have hfront := List.head?_dropWhile_not (· = '.') (afterSlash w)
      rw [hrest, hlast] at hfront
      rw [afterSlash_append hslash.1]
      cases u with
      | nil => simp at hfront
      | cons c u => exact ⟨c, by simp, by simpa using hfront⟩

/-- A path is cut at the place of its suffix, or it has none. -/
theorem splitSuffix_cases (w : Text) :
    (∃ v r, w = v ++ '.' :: r ∧ CutsSuffix v r ∧ splitSuffix w = (v, '.' :: r)) ∨
      (∀ v r, w = v ++ '.' :: r → ¬CutsSuffix v r) ∧ splitSuffix w = (w, []) := by
  by_cases h : '.' ∈ (afterSlash w).dropWhile (· = '.')
  · obtain ⟨v, r, rfl, H⟩ := exists_cutsSuffix h
    exact .inl ⟨v, r, rfl, H, H.splitSuffix_eq⟩
  · have hnone : splitSuffix w = (w, []) := if_neg (by simpa using h)
    refine .inr ⟨?_, hnone⟩
    rintro v r rfl H
    cases congrArg Prod.snd (hnone.symm.trans H.splitSuffix_eq)

/-- A path is cut before its suffix, which starts with a dot. -/
theorem splitSuffix_spec (w : Text) :
    w = (splitSuffix w).1 ++ (splitSuffix w).2 ∧
      ((splitSuffix w).2 = [] ∨ ∃ r, (splitSuffix w).2 = '.' :: r) := by
  obtain ⟨v, r, hw, -, hcut⟩ | ⟨-, hcut⟩ := splitSuffix_cases w
  · rw [hcut]
    exact ⟨hw, .inr ⟨r, rfl⟩⟩
  · rw [hcut]
    exact ⟨(List.append_nil w).symm, .inl rfl⟩

theorem isWord_withoutSuffix (hw : IsWord w) : IsWord (splitSuffix w).1 := by
  obtain ⟨v, r, rfl, ⟨-, -, c, hc, -⟩, hcut⟩ | ⟨-, hcut⟩ := splitSuffix_cases w
  · rw [hcut]
    refine ⟨?_, fun c hc => hw.not_blank c (List.mem_append_left _ hc)⟩
    rintro rfl
    cases hc
  · rwa [hcut]

theorem isWord_suffix (hw : IsWord w) (hne : (splitSuffix w).2 ≠ []) : IsWord (splitSuffix w).2 :=
  ⟨hne, fun c hc => hw.not_blank c ((splitSuffix_spec w).1 ▸ List.mem_append_right _ hc)⟩

/-! ## The two parts of words -/

theorem words_withoutSuffixes (t : Text) :
    words (withoutSuffixes t) = (words t).map fun w => (splitSuffix w).1 :=
  words_join <| List.forall_mem_map.2 fun _ hw => isWord_withoutSuffix (isWord_of_mem_words hw)

/-- Words that have suffixes all keep their places. -/
theorem words_suffixes (ht : ∀ w ∈ words t, (splitSuffix w).2 ≠ []) :
    words (suffixes t) = (words t).map fun w => (splitSuffix w).2 := by
  have hall : ((words t).map fun w => (splitSuffix w).2).filter (· ≠ []) =
      (words t).map fun w => (splitSuffix w).2 :=
    List.filter_eq_self.2 <| List.forall_mem_map.2 fun w hw => decide_eq_true (ht w hw)
  rw [suffixes, hall]
  exact words_join <| List.forall_mem_map.2 fun w hw =>
    isWord_suffix (isWord_of_mem_words hw) (ht w hw)

theorem withoutSuffixes_word (hw : IsWord w) : withoutSuffixes w = (splitSuffix w).1 := by
  rw [withoutSuffixes, hw.words_eq]
  rfl

theorem suffixes_word (hw : IsWord w) : suffixes w = (splitSuffix w).2 := by
  rw [suffixes, hw.words_eq, List.map_singleton, List.filter_singleton]
  by_cases h : (splitSuffix w).2 = []
  · rw [h]
    rfl
  · simp [h]

theorem pairUp_map (f g : Text → Text) (ws : List Text) :
    pairUp (ws.map f) (ws.map g) = ws.map fun w => f w ++ g w := by
  induction ws with
  | nil => rfl
  | cons w ws ih => rw [List.map_cons, List.map_cons, pairUp, ih, List.map_cons]

/-- The calls `basename` and `suffix` take a path into two parts that make it, cut where a suffix
starts if there is such a place. Of a text whose words all have suffixes, `join` makes the words
again from what the two calls give. -/
theorem basename_append_suffix (w t : Text) :
    (IsWord w → ∃ b s,
      Builtin.basename.apply [w] = .done b ∧ Builtin.suffix.apply [w] = .done s ∧ b ++ s = w ∧
        ((∃ r, s = '.' :: r ∧ CutsSuffix b r) ∨
          s = [] ∧ ∀ v r, w = v ++ '.' :: r → ¬CutsSuffix v r)) ∧
    ((∀ w ∈ words t, Builtin.suffix.apply [w] ≠ .done []) → ∃ b s,
      Builtin.basename.apply [t] = .done b ∧ Builtin.suffix.apply [t] = .done s ∧
        Builtin.join.apply [b, s] = .done (join " " (words t))) := by
  constructor
  · intro hw
    refine ⟨withoutSuffixes w, suffixes w, rfl, rfl, ?_⟩
    rw [withoutSuffixes_word hw, suffixes_word hw]
    refine ⟨(splitSuffix_spec w).1.symm, ?_⟩
    obtain ⟨v, r, -, H, hcut⟩ | ⟨hnone, hcut⟩ := splitSuffix_cases w
    · rw [hcut]
      exact .inl ⟨r, rfl, H⟩
    · rw [hcut]
      exact .inr ⟨rfl, hnone⟩
  · intro ht
    have hsuffixes : ∀ w ∈ words t, (splitSuffix w).2 ≠ [] := fun w hw h => by
      refine ht w hw (congrArg Derivation.done ?_)
      rw [suffixes_word (isWord_of_mem_words hw), h]
    refine ⟨withoutSuffixes t, suffixes t, rfl, rfl, congrArg Derivation.done ?_⟩
    rw [pairWords, words_withoutSuffixes, words_suffixes hsuffixes, pairUp_map]
    have hwhole : ∀ w ∈ words t, (splitSuffix w).1 ++ (splitSuffix w).2 = w := fun w _ =>
      (splitSuffix_spec w).1.symm
    rw [List.map_congr_left hwhole, List.map_id']

/-- Dots in a directory, at the front and at the end of a name, and two beside one another. -/
theorem basename_append_suffix_dots :
    (IsWord "a.d/..x.tar.gz" ∧ ∃ b s, Builtin.basename.apply ["a.d/..x.tar.gz"] = .done b ∧
      Builtin.suffix.apply ["a.d/..x.tar.gz"] = .done s ∧ b ++ s = "a.d/..x.tar.gz") ∧
    (∀ w ∈ words " x.  .y.z\ta..c", Builtin.suffix.apply [w] ≠ .done []) ∧ ∃ b s,
      Builtin.basename.apply [" x.  .y.z\ta..c"] = .done b ∧
        Builtin.suffix.apply [" x.  .y.z\ta..c"] = .done s ∧
        Builtin.join.apply [b, s] = .done "x. .y.z a..c" := by
  have hword : IsWord "a.d/..x.tar.gz" := by decide
  have hsuffixes : ∀ w ∈ words " x.  .y.z\ta..c", suffixes w ≠ [] := by decide
  have hne : ∀ w ∈ words " x.  .y.z\ta..c", Builtin.suffix.apply [w] ≠ .done [] :=
    fun w hw h => hsuffixes w hw (Derivation.done.inj h)
  have hwords : join " " (words " x.  .y.z\ta..c") = "x. .y.z a..c" := by decide
  obtain ⟨hparts, hjoined⟩ := basename_append_suffix "a.d/..x.tar.gz" " x.  .y.z\ta..c"
  obtain ⟨b, s, hb, hs, happend, -⟩ := hparts hword
  rw [← hwords]
  exact ⟨⟨hword, b, s, hb, hs, happend⟩, hne, hjoined hne⟩

end Haybuild.Words
