import Haybuild.Proofs.Text.Plain
import Haybuild.Text.Comment

/-!
# Escaping marks

`escape` puts a backslash before every mark of a text. No mark of an escaped text counts
(`findUnescaped_escape`), and each way in which marks are read takes the backslashes away again:
before a comment (`beforeComment_escape_append`), between the sides of an assignment
(`splitUnescapedFrom_escape`), and where escaped marks are replaced (`replaceAll_escape`). A
backslash that stood before a mark is no obstacle, since a backslash is escaped nowhere.
-/

namespace Haybuild.Text

variable {c mark : Char} {s t new : Text}

/-! ## Replacing a character -/

theorem replaceAll_singleton (c : Char) (new t : Text) :
    replaceAll [c] new t = t.flatMap fun d => if d = c then new else [d] := by
  rw [replaceAll, if_neg (List.cons_ne_nil _ _)]
  induction t with
  | nil => rfl
  | cons d t ih =>
    by_cases hd : d = c
    · simp [replaceFrom, hd, ih]
    · simp [replaceFrom, hd, Ne.symm hd, ih]

theorem replaceAll_singleton_cons_self (c : Char) (new t : Text) :
    replaceAll [c] new (c :: t) = new ++ replaceAll [c] new t := by
  rw [replaceAll_singleton, replaceAll_singleton, List.flatMap_cons, if_pos rfl]

theorem replaceAll_singleton_cons_of_ne {d : Char} (hd : d ≠ c) (new t : Text) :
    replaceAll [c] new (d :: t) = d :: replaceAll [c] new t := by
  rw [replaceAll_singleton, replaceAll_singleton, List.flatMap_cons, if_neg hd,
    List.singleton_append]

theorem replaceAll_singleton_append (c : Char) (new s t : Text) :
    replaceAll [c] new (s ++ t) = replaceAll [c] new s ++ replaceAll [c] new t := by
  simp only [replaceAll_singleton, List.flatMap_append]

theorem replaceAll_singleton_join (c : Char) (new sep : Text) (ts : List Text) :
    replaceAll [c] new (join sep ts) =
      join (replaceAll [c] new sep) (ts.map (replaceAll [c] new)) := by
  induction ts with
  | nil => rfl
  | cons t ts ih =>
    cases ts with
    | nil => rfl
    | cons u ts =>
      rw [join_cons_cons, replaceAll_singleton_append, replaceAll_singleton_append, ih]
      rfl

/-- What is put in place of a character and ends with it leaves the end of the text as it is. -/
theorem getLast?_replaceAll_singleton (hnew : new.getLast? = some c) :
    (replaceAll [c] new t).getLast? = t.getLast? := by
  rcases List.eq_nil_or_concat t with rfl | ⟨s, d, rfl⟩
  · rfl
  · rw [List.concat_eq_append, replaceAll_singleton_append, List.getLast?_concat]
    by_cases hd : d = c
    · have hlast : replaceAll [c] new [d] = new := by simp [replaceAll_singleton, hd]
      rw [hlast, List.getLast?_append, hnew, hd, Option.some_or]
    · have hlast : replaceAll [c] new [d] = [d] := by simp [replaceAll_singleton, hd]
      rw [hlast, List.getLast?_concat]

/-! ## Putting backslashes -/

/-- The text with a backslash before each `mark`. -/
def escape (mark : Char) (t : Text) : Text :=
  replaceAll [mark] ['\\', mark] t

theorem escape_cons_self (mark : Char) (t : Text) :
    escape mark (mark :: t) = '\\' :: mark :: escape mark t :=
  replaceAll_singleton_cons_self mark _ t

theorem escape_cons_of_ne (h : c ≠ mark) (t : Text) :
    escape mark (c :: t) = c :: escape mark t :=
  replaceAll_singleton_cons_of_ne h _ t

theorem escape_append (mark : Char) (s t : Text) :
    escape mark (s ++ t) = escape mark s ++ escape mark t :=
  replaceAll_singleton_append mark _ s t

theorem escape_of_notMem (h : mark ∉ t) : escape mark t = t :=
  replaceAll_of_notMem _ List.mem_cons_self h

theorem head?_escape (mark : Char) (t : Text) :
    (escape mark t).head? = if t.head? = some mark then some '\\' else t.head? := by
  cases t with
  | nil => rfl
  | cons c t =>
    by_cases hc : c = mark
    · rw [hc, escape_cons_self, List.head?_cons, List.head?_cons, if_pos rfl]
    · rw [escape_cons_of_ne hc, List.head?_cons, List.head?_cons, if_neg (by simpa using hc)]

@[simp] theorem getLast?_escape : (escape mark t).getLast? = t.getLast? :=
  getLast?_replaceAll_singleton rfl

@[simp] theorem escape_eq_nil_iff : escape mark t = [] ↔ t = [] := by
  rw [← List.getLast?_eq_none_iff, getLast?_escape, List.getLast?_eq_none_iff]

theorem isPrefixOf_mark_iff : List.isPrefixOf [mark] t = true ↔ t.head? = some mark := by
  cases t with
  | nil => exact iff_of_false Bool.false_ne_true nofun
  | cons d t =>
    rw [List.isPrefixOf_cons_cons, List.isPrefixOf_nil_left, Bool.and_true, beq_iff_eq,
      List.head?_cons, Option.some_inj, eq_comm]

theorem isPrefixOf_mark_eq_false (h : t.head? ≠ some mark) : List.isPrefixOf [mark] t = false := by
  rwa [← Bool.not_eq_true, isPrefixOf_mark_iff]

/-- An escaped text does not start with the mark, so a backslash in front of it escapes nothing. -/
theorem head?_escape_ne (hmark : mark ≠ '\\') (t : Text) : (escape mark t).head? ≠ some mark := by
  rw [head?_escape]
  split
  · exact fun h => hmark (Option.some.inj h).symm
  · assumption

theorem head?_escape_append_ne (hmark : mark ≠ '\\') (t : Text) (hs : s.head? ≠ some mark) :
    (escape mark t ++ s).head? ≠ some mark := by
  by_cases ht : t = []
  · rwa [ht, escape_of_notMem List.not_mem_nil, List.nil_append]
  · rw [List.head?_append_of_ne_nil _ (by simpa using ht)]
    exact head?_escape_ne hmark t

theorem not_isPrefixOf_escape (hmark : mark ≠ '\\') (t : Text) :
    List.isPrefixOf [mark] (escape mark t) = false :=
  isPrefixOf_mark_eq_false (head?_escape_ne hmark t)

/-! ## Reading escaped marks -/

/-- Behind an escaped text, a comment starts where it starts in what follows. -/
theorem beforeComment_escape_append (hmark : mark ≠ '\\') (t : Text) (hs : s.head? ≠ some mark) :
    beforeComment [mark] 0 (escape mark t ++ s) = t ++ beforeComment [mark] 0 s := by
  induction t with
  | nil => rfl
  | cons c t ih =>
    by_cases hc : c = mark
    · rw [hc, escape_cons_self, List.cons_append, List.cons_append, beforeComment]
      simp [beforeComment, ih]
    · rw [escape_cons_of_ne hc, List.cons_append, beforeComment,
        isPrefixOf_mark_eq_false (head?_escape_append_ne hmark t hs), ih]
      simp [Ne.symm hc]

/-- A mark counts if a character other than a backslash stands before it. -/
theorem isSome_findUnescaped (hc : c ≠ '\\') (s t : Text) :
    (findUnescaped [mark] (s ++ c :: mark :: t)).isSome := by
  have hfrom : ∀ escaped, (findUnescapedFrom [mark] escaped (s ++ c :: mark :: t)).isSome := by
    induction s with
    | nil =>
      intro escaped
      -- `c` ends what a backslash before it escapes
      rw [List.nil_append, findUnescapedFrom, findUnescapedFrom, beq_false_of_ne hc]
      split <;> simp
    | cons d s ih =>
      intro escaped
      rw [List.cons_append, findUnescapedFrom]
      split
      · rfl
      · rw [Option.isSome_map, ih]
  exact hfrom false

theorem findUnescaped_escape (hmark : mark ≠ '\\') (t : Text) :
    findUnescaped [mark] (escape mark t) = none := by
  -- whether a backslash stands before the text does not matter
  have hfrom : ∀ escaped, findUnescapedFrom [mark] escaped (escape mark t) = none := by
    induction t with
    | nil => simp [escape, replaceAll, replaceFrom, findUnescapedFrom]
    | cons c t ih =>
      intro escaped
      by_cases hc : c = mark
      · rw [hc, escape_cons_self]
        simp [findUnescapedFrom, hmark, ih]
      · rw [escape_cons_of_ne hc, findUnescapedFrom, ih]
        simp [Ne.symm hc]
  exact hfrom false

theorem splitUnescapedFrom_escape (hmark : mark ≠ '\\') (t : Text) :
    splitUnescapedFrom [mark] 0 (escape mark t) = (t, []) := by
  induction t with
  | nil => rfl
  | cons c t ih =>
    by_cases hc : c = mark
    · rw [hc, escape_cons_self, splitUnescapedFrom]
      simp [splitUnescapedFrom, ih]
    · rw [escape_cons_of_ne hc, splitUnescapedFrom, not_isPrefixOf_escape hmark, ih]
      simp [Ne.symm hc]

theorem replaceAll_escape (hmark : mark ≠ '\\') (t : Text) :
    replaceAll ['\\', mark] [mark] (escape mark t) = t := by
  rw [replaceAll, if_neg (List.cons_ne_nil _ _)]
  induction t with
  | nil => rfl
  | cons c t ih =>
    by_cases hc : c = mark
    · rw [hc, escape_cons_self]
      simp [replaceFrom, ih]
    · have hprefix : ¬List.isPrefixOf ['\\', mark] (c :: escape mark t) = true := by
        rw [List.isPrefixOf_cons_cons, not_isPrefixOf_escape hmark]
        simp
      rw [escape_cons_of_ne hc, replaceFrom, if_neg hprefix, ih]

/-- What stands before a text without marks and backslashes has no part in how the text behind is
split. -/
theorem splitUnescapedFrom_append (hmark : mark ∉ s) (hbackslash : '\\' ∉ s) (t : Text) :
    splitUnescapedFrom [mark] 0 (s ++ t) =
      (s ++ (splitUnescapedFrom [mark] 0 t).1, (splitUnescapedFrom [mark] 0 t).2) := by
  induction s with
  | nil => rfl
  | cons c s ih =>
    obtain ⟨hc, hs⟩ := List.ne_and_not_mem_of_not_mem_cons hmark
    obtain ⟨hc', hs'⟩ := List.ne_and_not_mem_of_not_mem_cons hbackslash
    rw [List.cons_append, splitUnescapedFrom, ih hs hs']
    simp [hc, Ne.symm hc']

/-! ## Texts that are escaped -/

/-- A text in which no mark counts is an escaped one. Behind a backslash it may also start with a
mark. -/
theorem exists_eq_escape {escaped : Bool} (hmark : mark ≠ '\\')
    (h : findUnescapedFrom [mark] escaped t = none) :
    (∃ u, t = escape mark u) ∨ escaped = true ∧ ∃ u, t = mark :: escape mark u := by
  induction t generalizing escaped with
  | nil => exact .inl ⟨[], rfl⟩
  | cons c t ih =>
    rw [findUnescapedFrom] at h
    split at h
    · cases h
    · next hcount =>
      have ih := ih (Option.map_eq_none_iff.1 h)
      by_cases hc : c = mark
      · subst hc
        refine .inr ⟨by simpa using hcount, ?_⟩
        rcases ih with ih | ⟨hslash, -⟩
        · obtain ⟨u, rfl⟩ := ih
          exact ⟨u, rfl⟩
        · exact absurd (beq_iff_eq.1 hslash) hmark
      · rcases ih with ⟨u, rfl⟩ | ⟨hslash, u, rfl⟩
        · exact .inl ⟨c :: u, (escape_cons_of_ne hc u).symm⟩
        · obtain rfl := beq_iff_eq.1 hslash
          exact .inl ⟨mark :: u, (escape_cons_self mark u).symm⟩

/-- Replacing escaped marks can be undone where no mark counts. -/
theorem escape_replaceAll (hmark : mark ≠ '\\') (h : findUnescaped [mark] t = none) :
    escape mark (replaceAll ['\\', mark] [mark] t) = t := by
  rcases exists_eq_escape hmark h with ⟨u, rfl⟩ | ⟨hescaped, -⟩
  · rw [replaceAll_escape hmark]
  · cases hescaped

/-- A text that is the front of its escaped form holds no mark. -/
theorem notMem_of_prefix_escape (hmark : mark ≠ '\\') (h : t <+: escape mark t) : mark ∉ t := by
  induction t with
  | nil => exact List.not_mem_nil
  | cons c t ih =>
    by_cases hc : c = mark
    · subst hc
      rw [escape_cons_self, List.cons_prefix_cons] at h
      exact absurd h.1 hmark
    · rw [escape_cons_of_ne hc, List.cons_prefix_cons] at h
      exact List.not_mem_cons_of_ne_of_not_mem (Ne.symm hc) (ih h.2)

end Haybuild.Text
