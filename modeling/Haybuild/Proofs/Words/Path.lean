import Haybuild.Derivation.Builtin
import Haybuild.Proofs.Text.Words
import Mathlib.Data.List.Infix

/-!
# Laws of the parts of a path

A path is what stands up to its last slash and the name behind it (`upToSlash_append_afterSlash`).
The calls `dir` and `notdir` give these two parts of each word, but `dir` puts a slash at the end of
the directory that it finds, and the directory of a path in the root ends with one already. So the
two parts make the path again if and only if it is not such a path (`dir_append_notdir`).
-/

namespace Haybuild

namespace Words

open Text

variable {u w t : Text}

/-! ## The last slash -/

/-- Without what follows its last `c`, a text ends with that `c`, if it has one. -/
theorem rdropWhile_ne_eq (c : Char) (t : Text) :
    c ∉ t ∧ t.rdropWhile (· ≠ c) = [] ∨ ∃ u, t.rdropWhile (· ≠ c) = u ++ [c] := by
  by_cases h : t.rdropWhile (· ≠ c) = []
  · refine .inl ⟨fun hc => ?_, h⟩
    simpa using List.rdropWhile_eq_nil_iff.1 h c hc
  · have hlast := List.rdropWhile_last_not (· ≠ c) t h
    refine .inr ⟨(t.rdropWhile (· ≠ c)).dropLast, ?_⟩
    conv_lhs => rw [← List.dropLast_append_getLast h]
    simpa using hlast

/-- The run of a character at the end of a text starts with that character. -/
theorem exists_eq_rdropWhile_append (c : Char) (u : Text) :
    ∃ k, u ++ [c] = u.rdropWhile (· = c) ++ c :: k := by
  have hrun : (u ++ [c]).rtakeWhile (· = c) = u.rtakeWhile (· = c) ++ [c] :=
    List.rtakeWhile_concat_pos _ _ _ (by simp)
  have hfront : (u ++ [c]).rdropWhile (· = c) = u.rdropWhile (· = c) :=
    List.rdropWhile_concat_pos _ _ _ (by simp)
  cases hk : (u ++ [c]).rtakeWhile (· = c) with
  | nil => simp [hk] at hrun
  | cons d k =>
    have hd : d ∈ (u ++ [c]).rtakeWhile (· = c) := hk ▸ List.mem_cons_self
    obtain rfl : d = c := by simpa using List.mem_rtakeWhile_imp hd
    exact ⟨k, by rw [← hfront, ← hk, List.rdropWhile_append_rtakeWhile]⟩

theorem upToSlash_append_afterSlash (w : Text) : upToSlash w ++ afterSlash w = w :=
  List.rdropWhile_append_rtakeWhile

theorem slash_notMem_afterSlash (w : Text) : '/' ∉ afterSlash w := by
  intro h
  have hne := List.mem_rtakeWhile_imp h
  exact absurd hne (by decide)

theorem upToSlash_cases (w : Text) :
    '/' ∉ w ∧ upToSlash w = [] ∨ ∃ u, upToSlash w = u ++ ['/'] :=
  rdropWhile_ne_eq '/' w

/-! ## The directory of a path -/

/-- Of several slashes at the end of a directory one is left, unless there is nothing else. -/
theorem directory_of_upToSlash (h : upToSlash w = u ++ ['/']) :
    directory w =
      (if u.all (· = '/') then u ++ ['/'] else u.rdropWhile (· = '/')) ++ ['/'] := by
  have hname : directory w = (if (if (upToSlash w).all (· = '/') then upToSlash w
      else (upToSlash w).rdropWhile (· = '/')) = [] then ['.']
      else if (upToSlash w).all (· = '/') then upToSlash w
      else (upToSlash w).rdropWhile (· = '/')) ++ ['/'] := rfl
  have hall : (u ++ ['/']).all (· = '/') = u.all (· = '/') := by simp
  have hfront : (u ++ ['/']).rdropWhile (· = '/') = u.rdropWhile (· = '/') :=
    List.rdropWhile_concat_pos _ _ _ (by simp)
  rw [hname, h, hall, hfront]
  split
  · rw [if_neg (by simp)]
  · next hu =>
    have hne : u.rdropWhile (· = '/') ≠ [] := by
      rw [Ne, List.rdropWhile_eq_nil_iff]
      simpa using hu
    rw [if_neg hne]

/-- The directory of a path is the path up to a slash, or it says that there is none. -/
theorem directory_eq (w : Text) :
    directory w = ['.', '/'] ∨ (∀ c ∈ directory w, c = '/') ∨
      ∃ name rest, directory w = name ++ ['/'] ∧ w = name ++ '/' :: rest := by
  rcases upToSlash_cases w with ⟨-, hnil⟩ | ⟨u, hu⟩
  · exact .inl (by rw [directory, hnil]; rfl)
  · refine .inr ?_
    rw [directory_of_upToSlash hu]
    split
    · next hall =>
      refine .inl fun c hc => ?_
      simp only [List.mem_append, List.mem_singleton, or_assoc, or_self] at hc
      rcases hc with hc | hc
      · simpa using List.all_eq_true.1 hall c hc
      · exact hc
    · obtain ⟨k, hk⟩ := exists_eq_rdropWhile_append '/' u
      refine .inr ⟨_, k ++ afterSlash w, rfl, ?_⟩
      conv_lhs => rw [← upToSlash_append_afterSlash w, hu, hk]
      simp

/-- The only slash of the path is at its front: the path names something in the root. -/
def AtRoot (w : Text) : Prop :=
  ∃ name, w = '/' :: name ∧ '/' ∉ name

instance : DecidablePred AtRoot
  | [] => isFalse nofun
  | c :: name => decidable_of_iff (c = '/' ∧ '/' ∉ name) (by simp [AtRoot])

/-- Where slashes stand alone, the directory is the path up to the last slash, except in the root,
where it has a slash more. -/
theorem directory_cases (hslash : '/' ∈ w) (hdouble : ¬['/', '/'] <:+: w) :
    AtRoot w ∧ directory w = '/' :: upToSlash w ∨ ¬AtRoot w ∧ directory w = upToSlash w := by
  obtain ⟨u, hu⟩ := (upToSlash_cases w).resolve_left fun h => h.1 hslash
  have hw : u ++ '/' :: afterSlash w = w := by
    rw [← List.singleton_append, ← List.append_assoc, ← hu, upToSlash_append_afterSlash]
  rw [directory_of_upToSlash hu, hu]
  cases u with
  | nil => exact .inl ⟨⟨afterSlash w, hw.symm, slash_notMem_afterSlash w⟩, rfl⟩
  | cons c r =>
    have hne : c :: r ≠ [] := List.cons_ne_nil c r
    have hlast : (c :: r).getLast hne ≠ '/' := by
      intro hlast
      apply hdouble
      have hfront := List.dropLast_append_getLast hne
      rw [hlast] at hfront
      rw [← hfront] at hw
      exact ⟨(c :: r).dropLast, afterSlash w, by simpa using hw⟩
    have hall : (c :: r).all (· = '/') = false :=
      List.all_eq_false.2 ⟨_, List.getLast_mem hne, by simpa using hlast⟩
    have hkeep : (c :: r).rdropWhile (· = '/') = c :: r :=
      List.rdropWhile_eq_self_iff.2 fun _ => by simpa using hlast
    rw [hall, hkeep]
    refine .inr ⟨?_, rfl⟩
    rintro ⟨name, hroot, hname⟩
    obtain ⟨-, rfl⟩ := List.cons.inj (hw.trans hroot)
    exact hname (List.mem_append_right r List.mem_cons_self)

theorem isWord_directory (hw : IsWord w) : IsWord (directory w) := by
  refine ⟨List.append_ne_nil_of_right_ne_nil _ (List.cons_ne_nil _ _), fun c hc => ?_⟩
  rcases directory_eq w with h | h | ⟨name, rest, h, hcut⟩
  · rw [h, List.mem_pair] at hc
    rcases hc with rfl | rfl <;> decide
  · rw [h c hc]
    decide
  · apply hw.not_blank
    rw [h] at hc
    rw [hcut]
    rcases List.mem_append.1 hc with hc | hc
    · exact List.mem_append_left _ hc
    · obtain rfl := List.mem_singleton.1 hc
      exact List.mem_append_right _ List.mem_cons_self

theorem isWord_afterSlash (hw : IsWord w) (hlast : w.getLast? ≠ some '/') :
    IsWord (afterSlash w) := by
  have hcut := upToSlash_append_afterSlash w
  refine ⟨fun hnil => ?_, fun c hc => hw.not_blank c (hcut ▸ List.mem_append_right _ hc)⟩
  rw [hnil, List.append_nil] at hcut
  rcases upToSlash_cases w with ⟨-, h⟩ | ⟨u, hu⟩
  · exact hw.ne_nil (hcut.symm.trans h)
  · apply hlast
    rw [← hcut, hu, List.getLast?_concat]

theorem words_directories (t : Text) : words (directories t) = (words t).map directory :=
  words_join <| List.forall_mem_map.2 fun _ hw => isWord_directory (isWord_of_mem_words hw)

theorem words_fileNames (ht : ∀ w ∈ words t, w.getLast? ≠ some '/') :
    words (fileNames t) = (words t).map afterSlash :=
  words_join <| List.forall_mem_map.2 fun w hw =>
    isWord_afterSlash (isWord_of_mem_words hw) (ht w hw)

/-! ## The two parts -/

/-- The calls `dir` and `notdir` take a path with slashes, none beside another one, into two parts
that make the path again, unless its only slash is at its front: then they make it with one slash
more. Of a text, each call gives one word for each word, in order, if no word ends with a slash. -/
theorem dir_append_notdir (w t : Text) :
    (IsWord w → '/' ∈ w → ¬['/', '/'] <:+: w → ∃ d n,
      Builtin.dir.apply [w] = .done d ∧ Builtin.notdir.apply [w] = .done n ∧
        (d ++ n = w ↔ ¬AtRoot w) ∧ (AtRoot w → d ++ n = '/' :: w)) ∧
    ((∀ w ∈ words t, w.getLast? ≠ some '/') → ∃ d n,
      Builtin.dir.apply [t] = .done d ∧ Builtin.notdir.apply [t] = .done n ∧
        words d = (words t).map directory ∧ words n = (words t).map afterSlash) := by
  constructor
  · intro hw hslash hdouble
    have hdir : directories w = directory w := by
      rw [directories, hw.words_eq]
      rfl
    have hname : fileNames w = afterSlash w := by
      rw [fileNames, hw.words_eq]
      rfl
    refine ⟨directories w, fileNames w, rfl, rfl, ?_⟩
    rw [hdir, hname]
    rcases directory_cases hslash hdouble with ⟨hroot, h⟩ | ⟨hroot, h⟩
    · rw [h, List.cons_append, upToSlash_append_afterSlash]
      exact ⟨iff_of_false (List.cons_ne_self _ _) (not_not_intro hroot), fun _ => rfl⟩
    · rw [h, upToSlash_append_afterSlash]
      exact ⟨iff_of_true rfl hroot, fun h => absurd h hroot⟩
  · intro ht
    exact ⟨directories t, fileNames t, rfl, rfl, words_directories t, words_fileNames ht⟩

/-- A path below the root with a dot for a component, and words of which one has no slash and one
has two beside one another. -/
theorem dir_append_notdir_shell :
    (IsWord "/usr/./sh.d" ∧ '/' ∈ ("/usr/./sh.d" : Text) ∧
      ¬['/', '/'] <:+: ("/usr/./sh.d" : Text) ∧ ∃ d n,
        Builtin.dir.apply ["/usr/./sh.d"] = .done d ∧
          Builtin.notdir.apply ["/usr/./sh.d"] = .done n ∧ d ++ n = "/usr/./sh.d") ∧
    (∀ w ∈ words " ../a  b\tc//d", w.getLast? ≠ some '/') ∧ ∃ d n,
      Builtin.dir.apply [" ../a  b\tc//d"] = .done d ∧
        Builtin.notdir.apply [" ../a  b\tc//d"] = .done n ∧
        words d = ["../".toList, "./".toList, "c/".toList] ∧
        words n = ["a".toList, "b".toList, "d".toList] := by
  have hword : IsWord "/usr/./sh.d" := by decide
  have hslash : '/' ∈ ("/usr/./sh.d" : Text) := by decide
  have hdouble : ¬['/', '/'] <:+: ("/usr/./sh.d" : Text) := by decide
  have hlast : ∀ w ∈ words " ../a  b\tc//d", w.getLast? ≠ some '/' := by decide
  obtain ⟨hparts, hwords⟩ := dir_append_notdir "/usr/./sh.d" " ../a  b\tc//d"
  obtain ⟨d, n, hd, hn, heq, -⟩ := hparts hword hslash hdouble
  have hdirectories : (words " ../a  b\tc//d").map directory =
      ["../".toList, "./".toList, "c/".toList] := by decide
  have hnames : (words " ../a  b\tc//d").map afterSlash =
      ["a".toList, "b".toList, "d".toList] := by decide
  rw [← hdirectories, ← hnames]
  exact ⟨⟨hword, hslash, hdouble, d, n, hd, hn, heq.2 (by decide)⟩, hlast, hwords hlast⟩

/-- A name in the root: its two parts make another path. -/
theorem dir_append_notdir_ne :
    IsWord "/x" ∧ '/' ∈ ("/x" : Text) ∧ ¬['/', '/'] <:+: ("/x" : Text) ∧
      Builtin.dir.apply ["/x"] = .done "//" ∧ Builtin.notdir.apply ["/x"] = .done "x" ∧
      "//".toList ++ "x".toList ≠ "/x".toList :=
  ⟨by decide, by decide, by decide, rfl, rfl, by decide⟩

end Words

end Haybuild
