import Haybuild.Proofs.Rule.Lexer
import Haybuild.Proofs.Rule.Reader

/-!
# Where faults of rules point

A text is viable if it can go on to a rule. The reader stops behind names or behind a rule, and both
are viable with a quote behind them (`viable_concat_quote`). Any other token at which it stops is
there whatever follows its first character. So in a line a fault points at the first character that
is impossible (`fault_at_first_impossible`), except for a quote: that one is possible, since it
could be closed.
-/

namespace Haybuild

namespace Rule

variable {s t u : Text} {c : Char} {l : Lexeme} {e : Fault}

/-- The text can go on to a rule. -/
def Viable (s : Text) : Prop :=
  ∃ t rule, parse (s ++ t) = .ok (some rule)

theorem Viable.left (H : Viable (s ++ t)) : Viable s := by
  obtain ⟨r, rule, hr⟩ := H
  exact ⟨t ++ r, rule, by rwa [← List.append_assoc]⟩

/-- The tokens are names alone, or those of a rule. -/
def Open (lexemes : List Lexeme) : Prop :=
  (∃ ns, readPrerequisites lexemes = .ok ns) ∨ ∃ rule, ofLexemes lexemes = .ok (some rule)

theorem Open.not_isStray {lexemes : List Lexeme} (H : Open lexemes) :
    ∀ l ∈ lexemes, ¬l.token.IsStray := by
  rcases H with ⟨ns, hns⟩ | ⟨rule, hrule⟩
  · exact not_isStray_of_tokens (tokens_of_readPrerequisites hns) (by simp)
  · exact not_isStray_of_tokens (ofLexemes_eq_some_iff.1 hrule).2 (by simp)

/-- Names become a rule by an empty name and a colon, and a rule is still one with an empty name
behind it. The quotes of that name close what a quote opens. -/
theorem viable_concat_quote (H : Open (lex .start s)) : Viable (s ++ ['\'']) := by
  have hlex : ∀ t, lex .start (s ++ ['\''] ++ '\'' :: t) = lex .start s ++
      ⟨.name [], Position.start.after s⟩ ::
        lex ((Position.start.after s).after (quoted [])) t := by
    intro t
    have hquoted : s ++ ['\''] ++ '\'' :: t = s ++ (quoted [] ++ t) := by simp [quoted]
    have hbreaks : Breaks (quoted [] ++ t) := breaks_cons rfl _
    rw [hquoted, lex_append H.not_isStray hbreaks, lex_quoted List.not_mem_nil]
  rcases H with ⟨ns, hns⟩ | ⟨⟨targets, prerequisites⟩, hrule⟩
  · refine ⟨['\'', ':'], ⟨ns ++ [[]], []⟩, ofLexemes_eq_some_iff.2 ⟨by simp, ?_⟩⟩
    rw [hlex, lex_colon, lex_nil, List.map_append, tokens_of_readPrerequisites hns]
    simp
  · obtain ⟨hne, htokens⟩ := ofLexemes_eq_some_iff.1 hrule
    refine ⟨['\''], ⟨targets, prerequisites ++ [[]]⟩, ofLexemes_eq_some_iff.2 ⟨hne, ?_⟩⟩
    rw [hlex, lex_nil, List.map_append, htokens]
    simp

/-- The reader stops at a token that starts like this whatever follows it. -/
theorem not_viable_concat (hopen : Open (lex .start s))
    (hstop : StopsAt ofLexemes (lex .start s) l e) (hplace : l.place = Position.start.after s)
    (hstarts : l.token.StartsWith c) (hc : c ≠ '\'') : ¬Viable (s ++ [c]) := by
  rintro ⟨t, rule, hrule⟩
  obtain ⟨rest, hrest⟩ := hstarts.lex_cons hc (Position.start.after s) t
  have hlex : lex .start (s ++ [c] ++ t) = lex .start s ++ l :: rest := by
    rw [List.append_assoc, List.singleton_append, lex_append hopen.not_isStray (hstarts.breaks t),
      hrest, ← hplace]
  rw [parse, hlex, hstop.reads] at hrule
  cases hrule

theorem Lexeme.Causes.token_ne (H : l.Causes e) (n : Text) : l.token ≠ .name n := by
  rcases H with ⟨hl, -⟩ | ⟨c, hl, -⟩
  · simp [hl]
  · simp [hl]

theorem Lexeme.Causes.fault_eq (H : l.Causes e) (hstarts : l.token.StartsWith c) :
    e = .colon l.place ∧ c = ':' ∨ e = .stray c l.place := by
  rcases H with ⟨hl, rfl⟩ | ⟨d, hl, rfl⟩
  · refine .inl ⟨rfl, ?_⟩
    simpa [Token.StartsWith, hl] using hstarts
  · obtain ⟨rfl, -⟩ : d = c ∧ _ := by simpa [Token.StartsWith, hl] using hstarts
    exact .inr rfl

/-- The fault of a line that does not just end too early points at a character that is no name. What
stands before it can go on to a rule, and with it this is possible only if it is a quote. -/
theorem fault_at_first_impossible (hline : '\n' ∉ t) (h : parse t = .error e)
    (hended : ∀ place, e ≠ .ended place) :
    ∃ i c, (e = .colon ⟨1, i + 1⟩ ∧ c = ':' ∨ e = .stray c ⟨1, i + 1⟩) ∧ t[i]? = some c ∧
      Viable (t.take i) ∧ (Viable (t.take (i + 1)) ↔ c = '\'') := by
  obtain ⟨pre, l, rest, hlex, hstop, hopen⟩ := exists_stop h hended
  obtain ⟨u, c, v, rfl, rfl, hplace, hstarts⟩ := exists_cut_of_lex hlex hstop.causes.token_ne
  have hu : '\n' ∉ u := fun hmem => hline (List.mem_append_left _ hmem)
  have hcolumn : l.place = ⟨1, u.length + 1⟩ := by
    rw [hplace, Position.after_of_notMem _ hu, Nat.add_comm u.length]
    rfl
  have hfault := hstop.causes.fault_eq hstarts
  rw [hcolumn] at hfault
  have hbefore : (u ++ c :: v).take u.length = u := List.take_left
  have hwith : (u ++ c :: v).take (u.length + 1) = u ++ [c] := List.take_length_add_append 1
  have hquote : Viable (u ++ ['\'']) := viable_concat_quote hopen
  refine ⟨u.length, c, hfault, by simp, ?_, ?_⟩
  · rw [hbefore]
    exact hquote.left
  · rw [hwith]
    constructor
    · intro hviable
      by_contra hc
      exact not_viable_concat hopen hstop hplace hstarts hc hviable
    · rintro rfl
      exact hquote

/-- The second colon of a line is impossible, and a quoted name before it is not. -/
theorem second_colon_impossible :
    parse "a: 'b c' : d" = .error (.colon ⟨1, 10⟩) ∧ Viable "a: 'b c' " ∧
      ¬Viable "a: 'b c' :" := by
  have hparse : parse "a: 'b c' : d" = .error (.colon ⟨1, 10⟩) := by decide +kernel
  obtain ⟨i, c, hfault, -, hbefore, hwith⟩ :=
    fault_at_first_impossible (by decide) hparse (by simp)
  obtain ⟨rfl, rfl⟩ : i = 9 ∧ c = ':' := by simpa [eq_comm] using hfault
  exact ⟨hparse, hbefore, fun hviable => absurd (hwith.1 hviable) (by decide)⟩

end Rule

end Haybuild
