import Haybuild.Proofs.Text.Words
import Haybuild.Rule
import Mathlib.Data.List.TakeWhile

/-!
# Tokens of rule lines

The front of a text decides its first token: spacing, a colon, a name between quotes, a run of name
characters up to one that breaks it, or a character where no token starts. Laws of texts of tokens
are proved by this distinction (`lexInduction`). The tokens of two texts put together are those of
both, if the first one has no stray character and the second one does not go on its last name
(`lex_append`); and a text can be cut before any colon or stray character among its tokens
(`exists_cut_of_lex`).
-/

namespace Haybuild

namespace Rule

variable {c : Char} {n s t u : Text} {place : Position} {l : Lexeme} {pre rest : List Lexeme}

/-- A name between quotes. -/
def quoted (name : Text) : Text :=
  '\'' :: name ++ ['\'']

/-- The character separates names and is no part of them. -/
def Spacing (c : Char) : Prop :=
  c = ' ' ∨ c = '\t'

instance : DecidablePred Spacing := fun c => inferInstanceAs (Decidable (c = ' ' ∨ c = '\t'))

/-- The character is blank, but does not separate names. -/
structure Stray (c : Char) : Prop where
  blank : Text.isBlank c
  not_spacing : ¬Spacing c

/-- A name without quotes. -/
structure IsRun (n : Text) : Prop where
  ne_nil : n ≠ []
  isNameChar : ∀ c ∈ n, isNameChar c

/-- The text does not go on a name that stands before it. -/
def Breaks (t : Text) : Prop :=
  ∀ c, t.head? = some c → isNameChar c = false

theorem breaks_cons (hc : isNameChar c = false) (t : Text) : Breaks (c :: t) := by
  rintro d hd
  cases hd
  exact hc

theorem Breaks.left (H : Breaks (s ++ t)) : Breaks s := by
  cases s with
  | nil => nofun
  | cons c s => exact breaks_cons (H c rfl) s

theorem Breaks.append (Hs : Breaks s) (Ht : Breaks t) : Breaks (s ++ t) := by
  cases s with
  | nil => exact Ht
  | cons c s => exact breaks_cons (Hs c rfl) (s ++ t)

/-! ## Characters -/

theorem Spacing.isBlank (hc : Spacing c) : Text.isBlank c := by
  rcases hc with rfl | rfl
  · rfl
  · rfl

theorem not_isNameChar_of_isBlank (hc : Text.isBlank c) : isNameChar c = false := by
  simp [isNameChar, hc]

/-- Every character separates names, stands in one, or starts something else. -/
theorem char_cases (c : Char) :
    Spacing c ∨ c = ':' ∨ c = '\'' ∨ Stray c ∨ isNameChar c := by
  by_cases hspacing : Spacing c
  · exact .inl hspacing
  by_cases hcolon : c = ':'
  · exact .inr (.inl hcolon)
  by_cases hquote : c = '\''
  · exact .inr (.inr (.inl hquote))
  by_cases hblank : Text.isBlank c
  · exact .inr (.inr (.inr (.inl ⟨hblank, hspacing⟩)))
  · exact .inr (.inr (.inr (.inr (by simp [isNameChar, hblank, hcolon, hquote]))))

theorem ne_of_isNameChar (hc : isNameChar c) :
    ¬Spacing c ∧ c ≠ ':' ∧ c ≠ '\'' ∧ ¬Text.isBlank c := by
  have hblank : ¬Text.isBlank c := by
    intro hblank
    rw [not_isNameChar_of_isBlank hblank] at hc
    cases hc
  refine ⟨fun hspacing => hblank hspacing.isBlank, ?_, ?_, hblank⟩
  · rintro rfl
    cases hc
  · rintro rfl
    cases hc

theorem IsRun.quote_notMem (H : IsRun n) : '\'' ∉ n := fun hquote =>
  (ne_of_isNameChar (H.isNameChar _ hquote)).2.2.1 rfl

/-! ## The first token -/

theorem lex_nil (place : Position) : lex place [] = [] := by
  rw [lex]

theorem lex_spacing (hc : Spacing c) (place : Position) (t : Text) :
    lex place (c :: t) = lex (place.after [c]) t := by
  rcases hc with rfl | rfl
  · rw [lex]
    rfl
  · rw [lex]
    rfl

theorem lex_colon (place : Position) (t : Text) :
    lex place (':' :: t) = ⟨.colon, place⟩ :: lex (place.after [':']) t := by
  rw [lex]
  rfl

theorem lex_quoted (hn : '\'' ∉ n) (place : Position) (t : Text) :
    lex place (quoted n ++ t) = ⟨.name n, place⟩ :: lex (place.after (quoted n)) t := by
  have hsplit := Text.splitAt?_append hn t
  have hquoted : quoted n ++ t = '\'' :: (n ++ '\'' :: t) := by simp [quoted]
  rw [hquoted, lex, if_neg (by decide), if_neg (by decide), if_pos rfl]
  split
  · next h =>
    cases h.symm.trans hsplit
    rfl
  · next h => cases h.symm.trans hsplit

theorem lex_unclosed (ht : '\'' ∉ t) (place : Position) :
    lex place ('\'' :: t) = [⟨.stray '\'', place⟩] := by
  have hsplit := Text.splitAt?_eq_none ht
  rw [lex, if_neg (by decide), if_neg (by decide), if_pos rfl]
  split
  · next h => cases h.symm.trans hsplit
  · rfl

theorem lex_stray (hc : Stray c) (place : Position) (t : Text) :
    lex place (c :: t) = [⟨.stray c, place⟩] := by
  have hspacing : ¬(decide (c = ' ') || decide (c = '\t')) = true := by
    simpa [Spacing] using hc.not_spacing
  have hcolon : c ≠ ':' := by
    rintro rfl
    exact absurd hc.blank (by decide)
  have hquote : c ≠ '\'' := by
    rintro rfl
    exact absurd hc.blank (by decide)
  rw [lex, if_neg hspacing, if_neg hcolon, if_neg hquote, if_pos hc.blank]

theorem lex_run (hn : IsRun n) (ht : Breaks t) (place : Position) :
    lex place (n ++ t) = ⟨.name n, place⟩ :: lex (place.after n) t := by
  obtain ⟨c, r, rfl⟩ := List.exists_cons_of_ne_nil hn.ne_nil
  obtain ⟨hc, hr⟩ := List.forall_mem_cons.1 hn.isNameChar
  obtain ⟨hspacing, hcolon, hquote, hblank⟩ := ne_of_isNameChar hc
  have hspacing : ¬(decide (c = ' ') || decide (c = '\t')) = true := by
    simpa [Spacing] using hspacing
  have htake : t.takeWhile isNameChar = [] := by
    cases t with
    | nil => rfl
    | cons d t => rw [List.takeWhile_cons, ht d rfl, if_neg (by decide)]
  have hdrop : t.dropWhile isNameChar = t := by
    cases t with
    | nil => rfl
    | cons d t => rw [List.dropWhile_cons, ht d rfl, if_neg (by decide)]
  rw [List.cons_append, lex, if_neg hspacing, if_neg hcolon, if_neg hquote, if_neg hblank]
  simp only [List.takeWhile_append_of_pos hr, List.dropWhile_append_of_pos hr, htake, hdrop,
    List.append_nil]

/-- Texts by the first token: spacing, a colon, a closed quote, a quote that is not closed, a stray
character, or a run of name characters. -/
@[elab_as_elim]
theorem lexInduction {motive : Text → Prop} (nil : motive [])
    (spacing : ∀ c t, Spacing c → motive t → motive (c :: t))
    (colon : ∀ t, motive t → motive (':' :: t))
    (quoted : ∀ n t, '\'' ∉ n → motive t → motive (quoted n ++ t))
    (unclosed : ∀ t, '\'' ∉ t → motive ('\'' :: t))
    (stray : ∀ c t, Stray c → motive (c :: t))
    (run : ∀ n t, IsRun n → Breaks t → motive t → motive (n ++ t)) (t : Text) : motive t := by
  induction hlength : t.length using Nat.strongRecOn generalizing t with
  | ind k ih =>
    cases t with
    | nil => exact nil
    | cons c r =>
      rw [List.length_cons] at hlength
      rcases char_cases c with hc | rfl | rfl | hc | hc
      · exact spacing c r hc (ih r.length (by omega) r rfl)
      · exact colon r (ih r.length (by omega) r rfl)
      · by_cases hquote : '\'' ∈ r
        · obtain ⟨n, t, rfl, hn⟩ := List.eq_append_cons_of_mem hquote
          have hquoted : Rule.quoted n ++ t = '\'' :: (n ++ '\'' :: t) := by simp [Rule.quoted]
          rw [← hquoted]
          rw [List.length_append, List.length_cons] at hlength
          exact quoted n t hn (ih t.length (by omega) t rfl)
        · exact unclosed r hquote
      · exact stray c r hc
      · have hr : r = r.takeWhile isNameChar ++ r.dropWhile isNameChar :=
          List.takeWhile_append_dropWhile.symm
        have hle := length_dropWhile_le isNameChar r
        have hrun : IsRun (c :: r.takeWhile isNameChar) :=
          ⟨List.cons_ne_nil _ _,
            List.forall_mem_cons.2 ⟨hc, fun d hd => List.mem_takeWhile_imp hd⟩⟩
        have hbreaks : Breaks (r.dropWhile isNameChar) := by
          intro d hd
          have hnot := List.head?_dropWhile_not isNameChar r
          rwa [hd] at hnot
        rw [hr, ← List.cons_append]
        exact run _ _ hrun hbreaks (ih _ (by omega) _ rfl)

/-! ## Putting texts together and cutting them -/

theorem Position.after_append (p : Position) (s t : Text) :
    p.after (s ++ t) = (p.after s).after t := by
  induction s generalizing p with
  | nil => rfl
  | cons c s ih => exact ih _

/-- A text without line feeds lies in one line. -/
theorem Position.after_of_notMem (p : Position) (ht : '\n' ∉ t) :
    p.after t = ⟨p.line, p.column + t.length⟩ := by
  induction t generalizing p with
  | nil => rfl
  | cons c t ih =>
    obtain ⟨hc, ht⟩ := List.ne_and_not_mem_of_not_mem_cons ht
    have hsum : p.column + 1 + t.length = p.column + (t.length + 1) := by omega
    rw [after, if_neg (Ne.symm hc), ih _ ht, List.length_cons, ← hsum]

/-- A text has no tokens if and only if it is spacing. -/
theorem lex_eq_nil_iff : lex place t = [] ↔ ∀ c ∈ t, Spacing c := by
  induction t using lexInduction generalizing place with
  | nil => simp [lex_nil]
  | spacing c t hc ih => simp [lex_spacing hc, hc, ih]
  | colon t => simp [lex_colon, Spacing]
  | quoted n t hn =>
    rw [lex_quoted hn]
    simp [quoted, Spacing]
  | unclosed t ht => simp [lex_unclosed ht, Spacing]
  | stray c t hc => simp [lex_stray hc, hc.not_spacing]
  | run n t hn ht =>
    rw [lex_run hn ht]
    obtain ⟨c, r, rfl⟩ := List.exists_cons_of_ne_nil hn.ne_nil
    simp [(ne_of_isNameChar (hn.isNameChar c List.mem_cons_self)).1]

/-- The token is a character where no token starts. -/
def Token.IsStray (token : Token) : Prop :=
  ∃ c, token = .stray c

theorem not_isStray_of_tokens {tokens : List Token} (h : rest.map Lexeme.token = tokens)
    (htokens : ∀ c, .stray c ∉ tokens) : ∀ l ∈ rest, ¬l.token.IsStray := by
  rintro l hl ⟨c, hc⟩
  have hmem : l.token ∈ tokens := h ▸ List.mem_map_of_mem hl
  exact htokens c (hc ▸ hmem)

/-- The tokens of a text with one more behind it that does not go on its last name. -/
theorem lex_append (hs : ∀ l ∈ lex place s, ¬l.token.IsStray) (ht : Breaks t) :
    lex place (s ++ t) = lex place s ++ lex (place.after s) t := by
  induction s using lexInduction generalizing place with
  | nil => rw [lex_nil]; rfl
  | spacing c s hc ih =>
    rw [lex_spacing hc] at hs
    rw [List.cons_append, lex_spacing hc, lex_spacing hc, ih hs]
    rfl
  | colon s ih =>
    rw [lex_colon, List.forall_mem_cons] at hs
    rw [List.cons_append, lex_colon, lex_colon, ih hs.2]
    rfl
  | quoted n s hn ih =>
    rw [lex_quoted hn, List.forall_mem_cons] at hs
    rw [List.append_assoc, lex_quoted hn, lex_quoted hn, ih hs.2, Position.after_append]
    rfl
  | unclosed s hquote =>
    rw [lex_unclosed hquote] at hs
    exact absurd ⟨_, rfl⟩ (hs _ List.mem_cons_self)
  | stray c s hc =>
    rw [lex_stray hc] at hs
    exact absurd ⟨_, rfl⟩ (hs _ List.mem_cons_self)
  | run n s hn hbreaks ih =>
    rw [lex_run hn hbreaks, List.forall_mem_cons] at hs
    rw [List.append_assoc, lex_run hn (hbreaks.append ht), lex_run hn hbreaks, ih hs.2,
      Position.after_append]
    rfl

/-- The token is no name, and this is the character that it starts with. -/
def Token.StartsWith (token : Token) (c : Char) : Prop :=
  token = .colon ∧ c = ':' ∨ token = .stray c ∧ (c = '\'' ∨ Stray c)

theorem Token.StartsWith.breaks {token : Token} (H : token.StartsWith c) (t : Text) :
    Breaks (c :: t) := by
  rcases H with ⟨-, rfl⟩ | ⟨-, rfl | hc⟩
  · exact breaks_cons rfl t
  · exact breaks_cons rfl t
  · exact breaks_cons (not_isNameChar_of_isBlank hc.blank) t

/-- Any text has the token in front that its first character starts, unless that is a quote, for
which the rest of the text decides. -/
theorem Token.StartsWith.lex_cons {token : Token} (H : token.StartsWith c) (hc : c ≠ '\'')
    (place : Position) (t : Text) : ∃ rest, lex place (c :: t) = ⟨token, place⟩ :: rest := by
  rcases H with ⟨rfl, rfl⟩ | ⟨rfl, hquote | hstray⟩
  · exact ⟨_, lex_colon place t⟩
  · exact absurd hquote hc
  · exact ⟨_, lex_stray hstray place t⟩

/-- A text can be cut before a colon or a stray character among its tokens. What stands before the
cut has the tokens before it. -/
theorem exists_cut_of_lex (h : lex place t = pre ++ l :: rest) (hl : ∀ n, l.token ≠ .name n) :
    ∃ u c v, t = u ++ c :: v ∧ lex place u = pre ∧ l.place = place.after u ∧
      l.token.StartsWith c := by
  induction t using lexInduction generalizing place pre with
  | nil =>
    rw [lex_nil] at h
    simp at h
  | spacing c t hc ih =>
    rw [lex_spacing hc] at h
    obtain ⟨u, d, v, rfl, hu, hplace, hd⟩ := ih h
    exact ⟨c :: u, d, v, rfl, (lex_spacing hc place u).trans hu, hplace, hd⟩
  | colon t ih =>
    rw [lex_colon] at h
    rcases List.cons_eq_append_iff.1 h with ⟨rfl, hfirst⟩ | ⟨pre, rfl, hrest⟩
    · cases hfirst
      exact ⟨[], ':', t, rfl, lex_nil place, rfl, .inl ⟨rfl, rfl⟩⟩
    · obtain ⟨u, d, v, rfl, hu, hplace, hd⟩ := ih hrest
      exact ⟨':' :: u, d, v, rfl, by rw [lex_colon, hu], hplace, hd⟩
  | quoted n t hn ih =>
    rw [lex_quoted hn] at h
    rcases List.cons_eq_append_iff.1 h with ⟨rfl, hfirst⟩ | ⟨pre, rfl, hrest⟩
    · cases hfirst
      exact absurd rfl (hl n)
    · obtain ⟨u, d, v, rfl, hu, hplace, hd⟩ := ih hrest
      refine ⟨quoted n ++ u, d, v, (List.append_assoc _ _ _).symm, ?_, ?_, hd⟩
      · rw [lex_quoted hn, hu]
      · rw [hplace, Position.after_append]
  | unclosed t ht =>
    rw [lex_unclosed ht] at h
    obtain ⟨rfl, h⟩ := List.append_eq_singleton_iff.1 h.symm |>.resolve_right (by simp)
    cases h
    exact ⟨[], '\'', t, rfl, lex_nil place, rfl, .inr ⟨rfl, .inl rfl⟩⟩
  | stray c t hc =>
    rw [lex_stray hc] at h
    obtain ⟨rfl, h⟩ := List.append_eq_singleton_iff.1 h.symm |>.resolve_right (by simp)
    cases h
    exact ⟨[], c, t, rfl, lex_nil place, rfl, .inr ⟨rfl, .inr hc⟩⟩
  | run n t hn ht ih =>
    rw [lex_run hn ht] at h
    rcases List.cons_eq_append_iff.1 h with ⟨rfl, hfirst⟩ | ⟨pre, rfl, hrest⟩
    · cases hfirst
      exact absurd rfl (hl n)
    · obtain ⟨u, d, v, rfl, hu, hplace, hd⟩ := ih hrest
      refine ⟨n ++ u, d, v, (List.append_assoc _ _ _).symm, ?_, ?_, hd⟩
      · rw [lex_run hn ht.left, hu]
      · rw [hplace, Position.after_append]

end Rule

end Haybuild
