import Haybuild.Proofs.Text.Escaped

/-!
# Parts between marks that count

A mark counts unless a backslash stands right before it (`CountsAt`). Searching looks back at that
backslash and splitting passes over it going forward, and yet both see the same marks: the first
one that counts is found (`findUnescaped_eq_head?`), and there is one part more than marks that
count (`length_splitUnescaped`). Escaped and joined again, the parts are the text
(`join_splitUnescaped`); conversely, parts come back from the text that they make if none but the
last ends with a backslash (`splitUnescaped_join`). So a text has sides between its marks that count
in one way only (`partedAt_iff`).
-/

namespace Haybuild.Text

variable {c mark : Char} {s t : Text} {i : Nat} {parts sides : List Text}

/-- A mark stands at the offset, and no backslash right before it. -/
def CountsAt (mark : Char) (t : Text) (i : Nat) : Prop :=
  t[i]? = some mark ∧ (i = 0 ∨ t[i - 1]? ≠ some '\\')

instance (mark : Char) (t : Text) : DecidablePred (CountsAt mark t) := fun i =>
  inferInstanceAs (Decidable (t[i]? = some mark ∧ (i = 0 ∨ t[i - 1]? ≠ some '\\')))

/-- The offsets of the marks that count. -/
def countedAt (mark : Char) (t : Text) : List Nat :=
  (List.range t.length).filter (CountsAt mark t)

/-! ## What stands at the front of a text -/

/-- Texts by what stands at their front: nothing, an escaped mark, a mark that counts, or another
character. -/
@[elab_as_elim]
theorem markInduction (mark : Char) {motive : Text → Prop} (nil : motive [])
    (escaped : ∀ t, motive t → motive ('\\' :: mark :: t))
    (counted : ∀ t, motive t → motive (mark :: t))
    (cons : ∀ c t, c ≠ mark → (c = '\\' → t.head? ≠ some mark) → motive t → motive (c :: t)) :
    ∀ t, motive t
  | [] => nil
  | [c] =>
    if hc : c = mark then hc.symm ▸ counted [] nil else cons c [] hc (fun _ => nofun) nil
  | c :: d :: t =>
    have ih := markInduction mark nil escaped counted cons t
    have ih' := markInduction mark nil escaped counted cons (d :: t)
    if hc : c = mark then hc.symm ▸ counted (d :: t) ih'
    else if h : c = '\\' ∧ d = mark then h.1.symm ▸ h.2.symm ▸ escaped t ih
    else cons c (d :: t) hc (fun hc' hd => h ⟨hc', Option.some.inj hd⟩) ih'

/-! ### The search -/

theorem findUnescaped_mark (mark : Char) (t : Text) :
    findUnescaped [mark] (mark :: t) = some 0 := by
  simp [findUnescaped, findUnescapedFrom]

/-- A backslash in front of a text is of no account if the text does not start with a mark. -/
theorem findUnescapedFrom_eq (h : t.head? ≠ some mark) (escaped : Bool) :
    findUnescapedFrom [mark] escaped t = findUnescaped [mark] t := by
  cases t with
  | nil => simp [findUnescaped, findUnescapedFrom]
  | cons d t =>
    rw [findUnescaped, findUnescapedFrom, findUnescapedFrom, isPrefixOf_mark_eq_false h,
      Bool.and_false, Bool.and_false]

theorem findUnescaped_cons (hc : c ≠ mark) (h : c = '\\' → t.head? ≠ some mark) :
    findUnescaped [mark] (c :: t) = (findUnescaped [mark] t).map (· + 1) := by
  have hfront : (c :: t).head? ≠ some mark := fun hhead => hc (Option.some.inj hhead)
  rw [findUnescaped, findUnescapedFrom, isPrefixOf_mark_eq_false hfront, Bool.and_false,
    if_neg Bool.false_ne_true]
  by_cases hslash : c = '\\'
  · rw [findUnescapedFrom_eq (h hslash)]
  · rw [beq_false_of_ne hslash, ← findUnescaped]

theorem findUnescaped_escaped (hmark : mark ≠ '\\') (t : Text) :
    findUnescaped [mark] ('\\' :: mark :: t) = (findUnescaped [mark] t).map (· + 2) := by
  have hfront : ('\\' :: mark :: t).head? ≠ some mark := fun hhead =>
    hmark (Option.some.inj hhead).symm
  rw [findUnescaped, findUnescapedFrom, isPrefixOf_mark_eq_false hfront, findUnescapedFrom]
  simp [beq_false_of_ne hmark, findUnescaped, Function.comp_def]

/-! ### The split -/

theorem splitUnescaped_ne_nil (mark t : Text) : splitUnescaped mark t ≠ [] :=
  List.cons_ne_nil _ _

theorem splitUnescaped_mark (hmark : mark ≠ '\\') (t : Text) :
    splitUnescaped [mark] (mark :: t) = [] :: splitUnescaped [mark] t := by
  simp [splitUnescaped, splitUnescapedFrom, hmark]

theorem splitUnescaped_escaped (mark : Char) (t : Text) :
    splitUnescaped [mark] ('\\' :: mark :: t) =
      (splitUnescaped [mark] t).modifyHead (mark :: ·) := by
  have hescape : ('\\' = '\\' && List.isPrefixOf [mark] (mark :: t)) = true := by simp
  rw [splitUnescaped, splitUnescapedFrom, if_pos hescape]
  rfl

theorem splitUnescaped_cons (hc : c ≠ mark) (h : c = '\\' → t.head? ≠ some mark) :
    splitUnescaped [mark] (c :: t) = (splitUnescaped [mark] t).modifyHead (c :: ·) := by
  have hescape : ¬(c = '\\' && List.isPrefixOf [mark] t) = true := by
    rw [Bool.and_eq_true, decide_eq_true_eq, isPrefixOf_mark_iff]
    exact fun ⟨hslash, hhead⟩ => h hslash hhead
  have hfront : ¬List.isPrefixOf [mark] (c :: t) = true := by
    rw [isPrefixOf_mark_iff]
    exact fun hhead => hc (Option.some.inj hhead)
  rw [splitUnescaped, splitUnescapedFrom, if_neg hescape, if_neg hfront]
  rfl

/-! ### The marks that count -/

/-- In front of a text, a character changes nothing about the marks that count, unless it is a
backslash that escapes the first character. -/
theorem countsAt_cons_succ (h : c = '\\' → t.head? ≠ some mark) :
    CountsAt mark (c :: t) (i + 1) ↔ CountsAt mark t i := by
  cases i with
  | zero =>
    have hhead : t[0]? = some mark → c ≠ '\\' := by
      intro hmark hc
      exact h hc (List.head?_eq_getElem?.trans hmark)
    simpa [CountsAt] using hhead
  | succ i => simp [CountsAt]

theorem countsAt_cons_succ_succ :
    CountsAt mark (c :: t) (i + 1 + 1) ↔ CountsAt mark t (i + 1) := by
  simp [CountsAt]

theorem countedAt_cons (c : Char) (t : Text) :
    countedAt mark (c :: t) =
      (if c = mark then [0] else []) ++
        ((List.range t.length).filter fun i => CountsAt mark (c :: t) (i + 1)).map (· + 1) := by
  have hfront : CountsAt mark (c :: t) 0 ↔ c = mark := by simp [CountsAt]
  rw [countedAt, List.length_cons, List.range_succ_eq_map, List.filter_cons, List.filter_map]
  simp only [decide_eq_true_eq, hfront]
  split <;> rfl

theorem countedAt_mark (hmark : mark ≠ '\\') (t : Text) :
    countedAt mark (mark :: t) = 0 :: (countedAt mark t).map (· + 1) := by
  have hshift : ∀ i, CountsAt mark (mark :: t) (i + 1) ↔ CountsAt mark t i := fun i =>
    countsAt_cons_succ fun h => absurd h hmark
  rw [countedAt_cons, if_pos rfl]
  simp only [hshift]
  rfl

theorem countedAt_cons_of_ne (hc : c ≠ mark) (h : c = '\\' → t.head? ≠ some mark) :
    countedAt mark (c :: t) = (countedAt mark t).map (· + 1) := by
  rw [countedAt_cons, if_neg hc]
  simp only [countsAt_cons_succ h]
  rfl

theorem countedAt_escaped (hmark : mark ≠ '\\') (t : Text) :
    countedAt mark ('\\' :: mark :: t) = (countedAt mark t).map (· + 2) := by
  have hsecond : ¬CountsAt mark ('\\' :: mark :: t) (0 + 1) := by simp [CountsAt]
  have hshift : ∀ i, CountsAt mark ('\\' :: mark :: t) (i + 1 + 1) ↔ CountsAt mark t i := fun i =>
    countsAt_cons_succ_succ.trans (countsAt_cons_succ fun h => absurd h hmark)
  rw [countedAt_cons, if_neg hmark.symm, List.length_cons, List.range_succ_eq_map, List.filter_cons,
    if_neg (by simpa using hsecond), List.filter_map, List.map_map]
  simp only [Function.comp_def, Nat.succ_eq_add_one, hshift]
  rfl

/-! ## Search and split see the same marks -/

theorem findUnescaped_eq_head? (hmark : mark ≠ '\\') (t : Text) :
    findUnescaped [mark] t = (countedAt mark t).head? := by
  induction t using markInduction mark with
  | nil => simp [findUnescaped, findUnescapedFrom, countedAt]
  | escaped t ih => rw [findUnescaped_escaped hmark, countedAt_escaped hmark, List.head?_map, ih]
  | counted t ih => rw [findUnescaped_mark, countedAt_mark hmark, List.head?_cons]
  | cons c t hc h ih =>
    rw [findUnescaped_cons hc h, countedAt_cons_of_ne hc h, List.head?_map, ih]

theorem length_splitUnescaped (hmark : mark ≠ '\\') (t : Text) :
    (splitUnescaped [mark] t).length = (countedAt mark t).length + 1 := by
  induction t using markInduction mark with
  | nil => rfl
  | escaped t ih =>
    rw [splitUnescaped_escaped, countedAt_escaped hmark, List.length_modifyHead, List.length_map,
      ih]
  | counted t ih =>
    rw [splitUnescaped_mark hmark, countedAt_mark hmark, List.length_cons, List.length_cons,
      List.length_map, ih]
  | cons c t hc h ih =>
    rw [splitUnescaped_cons hc h, countedAt_cons_of_ne hc h, List.length_modifyHead,
      List.length_map, ih]

theorem findUnescaped_eq_none_iff (hmark : mark ≠ '\\') (t : Text) :
    findUnescaped [mark] t = none ↔ (splitUnescaped [mark] t).length = 1 := by
  rw [findUnescaped_eq_head? hmark, List.head?_eq_none_iff, length_splitUnescaped hmark,
    Nat.add_eq_right, List.length_eq_zero_iff]

/-! ## Parts put together -/

theorem join_modifyHead (c : Char) (hne : parts ≠ []) :
    join [mark] ((parts.modifyHead (c :: ·)).map (escape mark)) =
      escape mark [c] ++ join [mark] (parts.map (escape mark)) := by
  obtain ⟨part, rest, rfl⟩ := List.exists_cons_of_ne_nil hne
  have hpart : escape mark (c :: part) = escape mark [c] ++ escape mark part :=
    escape_append mark [c] part
  rw [List.modifyHead_cons, List.map_cons, List.map_cons, hpart]
  cases rest with
  | nil => rfl
  | cons q rest => simp only [List.map_cons, join_cons_cons, List.append_assoc]

theorem join_splitUnescaped (hmark : mark ≠ '\\') (t : Text) :
    join [mark] ((splitUnescaped [mark] t).map (escape mark)) = t := by
  induction t using markInduction mark with
  | nil => rfl
  | escaped t ih =>
    rw [splitUnescaped_escaped, join_modifyHead mark (splitUnescaped_ne_nil [mark] t), ih,
      escape_cons_self]
    rfl
  | counted t ih =>
    obtain ⟨part, rest, hsplit⟩ := List.exists_cons_of_ne_nil (splitUnescaped_ne_nil [mark] t)
    rw [hsplit, List.map_cons] at ih
    rw [splitUnescaped_mark hmark, hsplit, List.map_cons, List.map_cons, join_cons_cons, ih]
    rfl
  | cons c t hc h ih =>
    rw [splitUnescaped_cons hc h, join_modifyHead c (splitUnescaped_ne_nil [mark] t), ih,
      escape_cons_of_ne hc]
    rfl

theorem splitUnescaped_escape (hmark : mark ≠ '\\') (t : Text) :
    splitUnescaped [mark] (escape mark t) = [t] := by
  rw [splitUnescaped, splitUnescapedFrom_escape hmark]

/-- The mark behind an escaped text counts, unless the text ends with a backslash. -/
theorem splitUnescaped_escape_append (hmark : mark ≠ '\\') (hlast : s.getLast? ≠ some '\\')
    (t : Text) :
    splitUnescaped [mark] (escape mark s ++ mark :: t) = s :: splitUnescaped [mark] t := by
  induction s with
  | nil => exact splitUnescaped_mark hmark t
  | cons c s ih =>
    have hlast' : s.getLast? ≠ some '\\' := by
      intro hs
      rw [List.getLast?_cons, hs] at hlast
      exact hlast rfl
    by_cases hc : c = mark
    · subst hc
      rw [escape_cons_self, List.cons_append, List.cons_append, splitUnescaped_escaped, ih hlast']
      rfl
    · have hhead : c = '\\' → (escape mark s ++ mark :: t).head? ≠ some mark := by
        rintro rfl
        have hs : s ≠ [] := by
          rintro rfl
          exact hlast rfl
        rw [List.head?_append_of_ne_nil _ (by simpa using hs)]
        exact head?_escape_ne hmark s
      rw [escape_cons_of_ne hc, List.cons_append, splitUnescaped_cons hc hhead, ih hlast']
      rfl

theorem splitUnescaped_join (hmark : mark ≠ '\\') (hne : parts ≠ [])
    (hlast : ∀ p ∈ parts.dropLast, p.getLast? ≠ some '\\') :
    splitUnescaped [mark] (join [mark] (parts.map (escape mark))) = parts := by
  induction parts with
  | nil => exact absurd rfl hne
  | cons p parts ih =>
    cases parts with
    | nil => exact splitUnescaped_escape hmark p
    | cons q parts =>
      rw [List.dropLast_cons_of_ne_nil (List.cons_ne_nil q parts), List.forall_mem_cons] at hlast
      rw [List.map_cons, List.map_cons, join_cons_cons, List.append_assoc, List.singleton_append,
        splitUnescaped_escape_append hmark hlast.1, ← List.map_cons,
        ih (List.cons_ne_nil q parts) hlast.2]

theorem getLast?_ne_of_mem_modifyHead {part : Text} {rest : List Text}
    (hc : c = '\\' → rest ≠ [] → part ≠ [])
    (H : ∀ p ∈ (part :: rest).dropLast, p.getLast? ≠ some '\\') :
    ∀ p ∈ ((c :: part) :: rest).dropLast, p.getLast? ≠ some '\\' := by
  cases rest with
  | nil => exact nofun
  | cons q rest =>
    rw [List.dropLast_cons_of_ne_nil (List.cons_ne_nil q rest), List.forall_mem_cons] at H ⊢
    refine ⟨?_, H.2⟩
    by_cases hpart : part = []
    · subst hpart
      intro hslash
      exact hc (Option.some.inj hslash) (List.cons_ne_nil q rest) rfl
    · rw [List.getLast?_cons_of_ne_nil hpart]
      exact H.1

/-- No part but the last ends with a backslash, since the mark behind it would not count. -/
theorem getLast?_ne_of_mem_splitUnescaped (hmark : mark ≠ '\\') (t : Text) :
    ∀ p ∈ (splitUnescaped [mark] t).dropLast, p.getLast? ≠ some '\\' := by
  induction t using markInduction mark with
  | nil => exact nofun
  | escaped t ih =>
    obtain ⟨part, rest, hsplit⟩ := List.exists_cons_of_ne_nil (splitUnescaped_ne_nil [mark] t)
    rw [hsplit] at ih
    rw [splitUnescaped_escaped, hsplit, List.modifyHead_cons]
    exact getLast?_ne_of_mem_modifyHead (fun h => absurd h hmark) ih
  | counted t ih =>
    rw [splitUnescaped_mark hmark, List.dropLast_cons_of_ne_nil (splitUnescaped_ne_nil [mark] t)]
    exact List.forall_mem_cons.2 ⟨nofun, ih⟩
  | cons c t hc h ih =>
    obtain ⟨part, rest, hsplit⟩ := List.exists_cons_of_ne_nil (splitUnescaped_ne_nil [mark] t)
    have hjoin := join_splitUnescaped hmark t
    rw [hsplit] at ih hjoin
    rw [splitUnescaped_cons hc h, hsplit, List.modifyHead_cons]
    refine getLast?_ne_of_mem_modifyHead ?_ ih
    -- an empty part that is not the last stands before a mark, which the backslash would escape
    rintro hslash hrest rfl
    obtain ⟨q, rest, rfl⟩ := List.exists_cons_of_ne_nil hrest
    exact h hslash (hjoin ▸ rfl)

/-- Searching and splitting see the same marks, and splitting is undone by joining what is escaped
again, as joining is by splitting. -/
theorem splitUnescaped_invertible (hmark : mark ≠ '\\') :
    (∀ t, (findUnescaped [mark] t = none ↔ (splitUnescaped [mark] t).length = 1) ∧
        findUnescaped [mark] t = (countedAt mark t).head? ∧
        (splitUnescaped [mark] t).length = (countedAt mark t).length + 1 ∧
        join [mark] ((splitUnescaped [mark] t).map (escape mark)) = t) ∧
      ∀ parts, parts ≠ [] → (∀ p ∈ parts.dropLast, p.getLast? ≠ some '\\') →
        splitUnescaped [mark] (join [mark] (parts.map (escape mark))) = parts := by
  constructor
  · intro t
    exact ⟨findUnescaped_eq_none_iff hmark t, findUnescaped_eq_head? hmark t,
      length_splitUnescaped hmark t, join_splitUnescaped hmark t⟩
  · intro parts hne hlast
    exact splitUnescaped_join hmark hne hlast

/-- Parts with marks and backslashes in them and at their ends, one of them empty. -/
def oddParts : List Text :=
  ["a\\b", "", "\\=", "c=\\"]

theorem splitUnescaped_invertible_oddParts :
    '=' ≠ '\\' ∧ oddParts ≠ [] ∧ (∀ p ∈ oddParts.dropLast, p.getLast? ≠ some '\\') ∧
      join ['='] (oddParts.map (escape '=')) = "a\\b==\\\\==c\\=\\" ∧
      splitUnescaped ['='] "a\\b==\\\\==c\\=\\" = oddParts ∧
      findUnescaped ['='] "a\\b==\\\\==c\\=\\" = some 3 ∧
      (splitUnescaped ['='] "a\\b==\\\\==c\\=\\").length = 4 := by
  have hmark : '=' ≠ '\\' := by decide
  have hne : oddParts ≠ [] := List.cons_ne_nil _ _
  have hlast : ∀ p ∈ oddParts.dropLast, p.getLast? ≠ some '\\' := by decide
  have htext : join ['='] (oddParts.map (escape '=')) = "a\\b==\\\\==c\\=\\" := by decide
  have hcounted : countedAt '=' "a\\b==\\\\==c\\=\\" = [3, 4, 8] := by decide
  obtain ⟨hsplit, hjoin⟩ := splitUnescaped_invertible hmark
  obtain ⟨-, hfind, hlength, -⟩ := hsplit "a\\b==\\\\==c\\=\\"
  rw [hcounted] at hfind hlength
  exact ⟨hmark, hne, hlast, htext, htext ▸ hjoin oddParts hne hlast, hfind, hlength⟩

/-! ## Sides -/

/-- The sides of a text at its marks that count: between them stand these marks, none counts inside
of a side, and no side but the last ends with a backslash. -/
structure PartedAt (mark : Char) (t : Text) (sides : List Text) : Prop where
  join_eq : join [mark] sides = t
  ne_nil : sides ≠ []
  findUnescaped_eq : ∀ s ∈ sides, findUnescaped [mark] s = none
  getLast?_ne : ∀ s ∈ sides.dropLast, s.getLast? ≠ some '\\'

instance (mark : Char) (t : Text) : DecidablePred (PartedAt mark t) := fun sides =>
  decidable_of_iff (join [mark] sides = t ∧ sides ≠ [] ∧
      (∀ s ∈ sides, findUnescaped [mark] s = none) ∧ ∀ s ∈ sides.dropLast, s.getLast? ≠ some '\\')
    ⟨fun ⟨h, h', h'', h'''⟩ => ⟨h, h', h'', h'''⟩, fun ⟨h, h', h'', h'''⟩ => ⟨h, h', h'', h'''⟩⟩

namespace PartedAt

theorem map_escape (hmark : mark ≠ '\\') (H : PartedAt mark t sides) :
    (sides.map (replaceAll ['\\', mark] [mark])).map (escape mark) = sides := by
  rw [List.map_map]
  refine (List.map_congr_left fun s hs => ?_).trans (List.map_id sides)
  exact escape_replaceAll hmark (H.findUnescaped_eq s hs)

/-- With their marks unescaped, the sides of a text are its parts. -/
theorem splitUnescaped_eq (hmark : mark ≠ '\\') (H : PartedAt mark t sides) :
    splitUnescaped [mark] t = sides.map (replaceAll ['\\', mark] [mark]) := by
  conv_lhs => rw [← H.join_eq, ← H.map_escape hmark]
  refine splitUnescaped_join hmark (by simpa using H.ne_nil) fun p hp => ?_
  rw [← List.map_dropLast] at hp
  obtain ⟨s, hs, rfl⟩ := List.mem_map.1 hp
  have hescape : escape mark (replaceAll ['\\', mark] [mark] s) = s :=
    escape_replaceAll hmark (H.findUnescaped_eq s (List.dropLast_subset sides hs))
  have hlast : s.getLast? = (replaceAll ['\\', mark] [mark] s).getLast? := by
    conv_lhs => rw [← hescape, getLast?_escape]
  rw [← hlast]
  exact H.getLast?_ne s hs

end PartedAt

/-- Every text has its sides in one way. -/
theorem partedAt_iff (hmark : mark ≠ '\\') :
    PartedAt mark t sides ↔ sides = (splitUnescaped [mark] t).map (escape mark) := by
  constructor
  · intro H
    rw [H.splitUnescaped_eq hmark, H.map_escape hmark]
  · rintro rfl
    refine ⟨join_splitUnescaped hmark t, by simpa using splitUnescaped_ne_nil [mark] t, ?_, ?_⟩
    · intro s hs
      obtain ⟨p, -, rfl⟩ := List.mem_map.1 hs
      exact findUnescaped_escape hmark p
    · intro s hs
      rw [← List.map_dropLast] at hs
      obtain ⟨p, hp, rfl⟩ := List.mem_map.1 hs
      rw [getLast?_escape]
      exact getLast?_ne_of_mem_splitUnescaped hmark t p hp

end Haybuild.Text
