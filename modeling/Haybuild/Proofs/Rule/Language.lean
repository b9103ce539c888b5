import Haybuild.Proofs.Rule.Lexer
import Haybuild.Proofs.Rule.Reader
import Mathlib.Algebra.Group.Nat.Even

/-!
# The language of rules

Which texts are rules can be said without tokens: quotes are counted, and what stands behind an even
number of them stands outside quotes. A rule has an even number of quotes, no blanks outside quotes
but spaces and tabs, one colon outside quotes, and something other than spacing before it
(`WrittenAt`). Its targets and prerequisites are the names on the two sides of that colon: what
stands between quotes, and the runs of name characters outside (`names`). A text of spacing holds no
rule, and all other texts are faulty (`parse_exact`).
-/

namespace Haybuild

namespace Rule

variable {c : Char} {n s t u v : Text} {ns ts ps : List Text} {i j : Nat} {place : Position}
  {lexemes : List Lexeme} {p q : Char → Prop}

/-! ## Outside quotes -/

/-- The character at this place of the text is no quote and stands outside quotes: the number of
quotes before it is even. -/
structure Outside (t : Text) (i : Nat) (c : Char) : Prop where
  stands : t[i]? = some c
  ne_quote : c ≠ '\''
  even : Even ((t.take i).count '\'')

theorem outside_append_left (hi : i < s.length) : Outside (s ++ t) i c ↔ Outside s i c := by
  have hget : (s ++ t)[i]? = s[i]? := List.getElem?_append_left hi
  have htake : (s ++ t).take i = s.take i := List.take_append_of_le_length (Nat.le_of_lt hi)
  constructor
  · rintro ⟨hstands, hne, heven⟩
    exact ⟨hget ▸ hstands, hne, htake ▸ heven⟩
  · rintro ⟨hstands, hne, heven⟩
    exact ⟨hget.trans hstands, hne, by rwa [htake]⟩

/-- Behind an even number of quotes, a place is outside as it is in the rest of the text. -/
theorem outside_append_right (hs : Even (s.count '\'')) :
    Outside (s ++ t) (s.length + i) c ↔ Outside t i c := by
  have hget : (s ++ t)[s.length + i]? = t[i]? := by
    rw [List.getElem?_append_right (Nat.le_add_right _ _), Nat.add_sub_cancel_left]
  have htake : (s ++ t).take (s.length + i) = s ++ t.take i := List.take_length_add_append i
  have heven : Even ((s ++ t.take i).count '\'') ↔ Even ((t.take i).count '\'') := by
    rw [List.count_append, Nat.even_add]
    exact iff_true_left hs
  constructor
  · rintro ⟨hstands, hne, H⟩
    rw [htake] at H
    exact ⟨hget ▸ hstands, hne, heven.1 H⟩
  · rintro ⟨hstands, hne, H⟩
    exact ⟨hget.trans hstands, hne, by rw [htake]; exact heven.2 H⟩

/-- All characters outside quotes satisfy `p`. -/
def Throughout (p : Char → Prop) (t : Text) : Prop :=
  ∀ i c, Outside t i c → p c

theorem Throughout.head (H : Throughout p (c :: t)) (hc : c ≠ '\'') : p c :=
  H 0 c ⟨rfl, hc, by simp⟩

theorem throughout_of_forall (h : ∀ c ∈ t, p c) : Throughout p t := fun _ c H =>
  h c (List.mem_of_getElem? H.stands)

theorem throughout_append (hs : Even (s.count '\'')) :
    Throughout p (s ++ t) ↔ Throughout p s ∧ Throughout p t := by
  constructor
  · intro H
    constructor
    · intro i c hi
      obtain ⟨hlt, -⟩ := List.getElem?_eq_some_iff.1 hi.stands
      exact H i c ((outside_append_left hlt).2 hi)
    · intro i c hi
      exact H (s.length + i) c ((outside_append_right hs).2 hi)
  · rintro ⟨Hs, Ht⟩ i c hi
    rcases Nat.lt_or_ge i s.length with hlt | hge
    · exact Hs i c ((outside_append_left hlt).1 hi)
    · obtain ⟨k, rfl⟩ := Nat.exists_eq_add_of_le hge
      exact Ht k c ((outside_append_right hs).1 hi)

theorem count_quoted (hn : '\'' ∉ n) : (quoted n).count '\'' = 2 := by
  simp [quoted, List.count_eq_zero.2 hn]

/-- Nothing of a name between quotes stands outside them. -/
theorem throughout_quoted (hn : '\'' ∉ n) : Throughout p (quoted n) := by
  rintro i c ⟨hstands, hne, heven⟩
  obtain ⟨hlt, -⟩ := List.getElem?_eq_some_iff.1 hstands
  have hlength : (quoted n).length = n.length + 2 := by simp [quoted]
  cases i with
  | zero =>
    cases hstands
    exact absurd rfl hne
  | succ i =>
    rcases Nat.lt_or_ge i n.length with hi | hi
    · -- inside the name the opening quote is the only one before
      have htake : (quoted n).take (i + 1) = '\'' :: n.take i := by
        rw [quoted, List.cons_append, List.take_succ_cons,
          List.take_append_of_le_length (Nat.le_of_lt hi)]
      have hzero : (n.take i).count '\'' = 0 :=
        List.count_eq_zero.2 fun hmem => hn (List.mem_of_mem_take hmem)
      rw [htake, List.count_cons_self, hzero] at heven
      exact absurd heven (by decide)
    · obtain rfl : i = n.length := by omega
      have hlast : (quoted n)[n.length + 1]? = some '\'' := by simp [quoted]
      cases hlast.symm.trans hstands
      exact absurd rfl hne

/-! ## Names -/

/-- The runs of name characters in a text, each as long as it can be. -/
def runs (t : Text) : List Text :=
  (t.splitOnP fun c => !isNameChar c).filter (· ≠ [])

/-- The names in the parts between quotes, of which every second one is `inside`: a part inside is a
name, and a part outside holds runs. -/
def namesAmong : (inside : Bool) → List Text → List Text
  | _, [] => []
  | false, part :: parts => runs part ++ namesAmong true parts
  | true, part :: parts => part :: namesAmong false parts

/-- The names of a text: what stands between its quotes, and the runs outside them. -/
def names (t : Text) : List Text :=
  namesAmong false (t.splitOn '\'')

theorem runs_append_break (hc : isNameChar c = false) (s t : Text) :
    runs (s ++ c :: t) = runs s ++ runs t := by
  have hbreak : (!isNameChar c) = true := by simp [hc]
  rw [runs, List.splitOnP_append_cons s t hbreak, List.filter_append]
  rfl

theorem runs_cons_break (hc : isNameChar c = false) (t : Text) : runs (c :: t) = runs t :=
  runs_append_break hc [] t

theorem IsRun.runs_eq (H : IsRun n) : runs n = [n] := by
  have hn : ∀ c ∈ n, (!Rule.isNameChar c) = false := fun c hc => by simp [H.isNameChar c hc]
  rw [runs, List.splitOnP_eq_singleton hn]
  simp [H.ne_nil]

theorem IsRun.runs_append (H : IsRun n) (ht : Breaks t) : runs (n ++ t) = n :: runs t := by
  cases t with
  | nil =>
    rw [List.append_nil, H.runs_eq]
    rfl
  | cons c t =>
    have hc := ht c rfl
    rw [runs_append_break hc, H.runs_eq, runs_cons_break hc]
    rfl

theorem names_eq_runs (ht : '\'' ∉ t) : names t = runs t := by
  rw [names, List.splitOn_eq_singleton ht]
  exact List.append_nil _

theorem names_append_quote (hs : '\'' ∉ s) (t : Text) :
    names (s ++ '\'' :: t) = runs s ++ namesAmong true (t.splitOn '\'') := by
  rw [names, List.splitOn_append_cons_self, List.splitOn_eq_singleton hs]
  rfl

/-- What a text without quotes adds to the names of a text behind it, if it adds it to the runs of
any front of that text. -/
theorem names_append (ns : List Text) (hs : '\'' ∉ s)
    (h : ∀ a, a <+: t → runs (s ++ a) = ns ++ runs a) : names (s ++ t) = ns ++ names t := by
  by_cases hquote : '\'' ∈ t
  · obtain ⟨a, r, rfl, ha⟩ := List.eq_append_cons_of_mem hquote
    have hsa : '\'' ∉ s ++ a := by simp [hs, ha]
    rw [← List.append_assoc, names_append_quote hsa, names_append_quote ha,
      h a (List.prefix_append _ _), List.append_assoc]
  · have hst : '\'' ∉ s ++ t := by simp [hs, hquote]
    rw [names_eq_runs hst, names_eq_runs hquote, h t List.prefix_rfl]

theorem names_cons_break (hc : isNameChar c = false) (hquote : c ≠ '\'') (t : Text) :
    names (c :: t) = names t :=
  names_append (s := [c]) [] (by simpa using hquote.symm) fun a _ => runs_cons_break hc a

theorem names_run (hn : IsRun n) (ht : Breaks t) : names (n ++ t) = n :: names t := by
  refine names_append [n] hn.quote_notMem fun a ha => ?_
  obtain ⟨r, rfl⟩ := ha
  exact hn.runs_append ht.left

theorem names_quoted (hn : '\'' ∉ n) (t : Text) : names (quoted n ++ t) = n :: names t := by
  have hquoted : quoted n ++ t = [] ++ '\'' :: (n ++ '\'' :: t) := by simp [quoted]
  rw [hquoted, names_append_quote List.not_mem_nil, List.splitOn_append_cons_self,
    List.splitOn_eq_singleton hn]
  rfl

/-! ## Texts of names -/

/-- Every quote is closed, and nothing but names and spacing stands outside quotes. -/
structure Tidy (t : Text) : Prop where
  quotes : Even (t.count '\'')
  outside : Throughout (fun c => Spacing c ∨ isNameChar c) t

theorem Tidy.append_iff (Hs : Tidy s) : Tidy (s ++ t) ↔ Tidy t := by
  have hcount : Even ((s ++ t).count '\'') ↔ Even (t.count '\'') := by
    rw [List.count_append, Nat.even_add]
    exact iff_true_left Hs.quotes
  constructor
  · rintro ⟨hquotes, houtside⟩
    exact ⟨hcount.1 hquotes, ((throughout_append Hs.quotes).1 houtside).2⟩
  · rintro ⟨hquotes, houtside⟩
    exact ⟨hcount.2 hquotes, (throughout_append Hs.quotes).2 ⟨Hs.outside, houtside⟩⟩

theorem tidy_nil : Tidy [] :=
  ⟨by simp, nofun⟩

theorem Spacing.tidy (hc : Spacing c) : Tidy [c] := by
  refine ⟨?_, throughout_of_forall fun d hd => .inl (List.mem_singleton.1 hd ▸ hc)⟩
  rcases hc with rfl | rfl
  · decide
  · decide

theorem tidy_quoted (hn : '\'' ∉ n) : Tidy (quoted n) := by
  refine ⟨?_, throughout_quoted hn⟩
  rw [count_quoted hn]
  exact ⟨1, rfl⟩

theorem IsRun.tidy (H : IsRun n) : Tidy n := by
  refine ⟨?_, throughout_of_forall fun c hc => .inr (H.isNameChar c hc)⟩
  rw [List.count_eq_zero.2 H.quote_notMem]
  exact Even.zero

theorem not_tidy_cons (hc : ¬Spacing c) (hname : isNameChar c = false) (hquote : c ≠ '\'') :
    ¬Tidy (c :: t) := by
  intro H
  rcases H.outside.head hquote with hspacing | hchar
  · exact hc hspacing
  · rw [hname] at hchar
    cases hchar

theorem not_tidy_unclosed (ht : '\'' ∉ t) : ¬Tidy ('\'' :: t) := by
  intro H
  have hquotes := H.quotes
  rw [List.count_cons_self, List.count_eq_zero.2 ht] at hquotes
  exact absurd hquotes (by decide)

/-- The tokens of a text are names alone if and only if it is tidy, and then they are its names. -/
theorem tokens_eq_names_iff :
    (lex place t).map Lexeme.token = ns.map Token.name ↔ Tidy t ∧ ns = names t := by
  induction t using lexInduction generalizing place ns with
  | nil =>
    rw [lex_nil, List.map_nil, eq_comm, List.map_eq_nil_iff]
    exact (and_iff_right tidy_nil).symm
  | spacing c t hc ih =>
    have hname := not_isNameChar_of_isBlank hc.isBlank
    have hquote : c ≠ '\'' := by
      rintro rfl
      exact absurd hc (by decide)
    rw [lex_spacing hc, ih, names_cons_break hname hquote]
    exact and_congr_left' (hc.tidy.append_iff (t := t)).symm
  | colon t =>
    rw [lex_colon]
    have htidy : ¬Tidy (':' :: t) := not_tidy_cons (by decide) rfl (by decide)
    cases ns <;> simp [htidy]
  | quoted n t hn ih =>
    rw [lex_quoted hn, names_quoted hn, (tidy_quoted hn).append_iff, List.map_cons]
    cases ns with
    | nil => simp
    | cons m ns =>
      rw [List.map_cons, List.cons.injEq, List.cons.injEq, Token.name.injEq, ih, eq_comm]
      exact and_left_comm
  | unclosed t ht =>
    rw [lex_unclosed ht]
    cases ns <;> simp [not_tidy_unclosed ht]
  | stray c t hc =>
    rw [lex_stray hc]
    have hquote : c ≠ '\'' := by
      rintro rfl
      exact absurd hc.blank (by decide)
    have htidy : ¬Tidy (c :: t) :=
      not_tidy_cons hc.not_spacing (not_isNameChar_of_isBlank hc.blank) hquote
    cases ns <;> simp [htidy]
  | run n t hn ht ih =>
    rw [lex_run hn ht, names_run hn ht, hn.tidy.append_iff, List.map_cons]
    cases ns with
    | nil => simp
    | cons m ns =>
      rw [List.map_cons, List.cons.injEq, List.cons.injEq, Token.name.injEq, ih, eq_comm]
      exact and_left_comm

theorem names_eq_nil_iff (H : Tidy t) : names t = [] ↔ ∀ c ∈ t, Spacing c := by
  have htokens : (lex .start t).map Lexeme.token = (names t).map Token.name :=
    tokens_eq_names_iff.2 ⟨H, rfl⟩
  have hnil : lex .start t = [] ↔ ∀ c ∈ t, Spacing c := lex_eq_nil_iff
  rw [← hnil, ← List.map_eq_nil_iff (f := Token.name), ← htokens, List.map_eq_nil_iff]

/-! ## Texts of rules -/

/-- The tokens of a text are names with a colon between them if and only if the text has a colon
between two tidy texts, and then they are the names of those. -/
theorem tokens_eq_rule_iff :
    (lex place t).map Lexeme.token = ts.map Token.name ++ .colon :: ps.map Token.name ↔
      ∃ u v, t = u ++ ':' :: v ∧ (Tidy u ∧ ts = names u) ∧ Tidy v ∧ ps = names v := by
  constructor
  · intro h
    obtain ⟨pre, behind, hlex, hpre, hbehind⟩ := List.map_eq_append_iff.1 h
    obtain ⟨⟨_, q⟩, rest, rfl, rfl, hrest⟩ := List.map_eq_cons_iff.1 hbehind
    obtain ⟨u, c, v, rfl, hu, -, hc⟩ := exists_cut_of_lex hlex (by simp)
    obtain rfl : c = ':' := by simpa [Token.StartsWith] using hc
    rw [← hu] at hpre
    have hstray : ∀ l ∈ lex place u, ¬l.token.IsStray := not_isStray_of_tokens hpre (by simp)
    rw [lex_append hstray (breaks_cons rfl v), lex_colon, hu] at hlex
    cases List.append_cancel_left hlex
    exact ⟨u, v, rfl, tokens_eq_names_iff.1 hpre, tokens_eq_names_iff.1 hrest⟩
  · rintro ⟨u, v, rfl, hu, hv⟩
    have hnames : (lex place u).map Lexeme.token = ts.map Token.name := tokens_eq_names_iff.2 hu
    have hstray : ∀ l ∈ lex place u, ¬l.token.IsStray := not_isStray_of_tokens hnames (by simp)
    rw [lex_append hstray (breaks_cons rfl v), lex_colon, List.map_append, List.map_cons, hnames,
      tokens_eq_names_iff.2 hv]

/-- A rule is written in the text, with its colon at this place. -/
structure WrittenAt (t : Text) (i : Nat) : Prop where
  quotes : Even (t.count '\'')
  blanks : Throughout (fun c => Text.isBlank c → Spacing c) t
  colon : ∀ j, Outside t j ':' ↔ j = i
  target : ∃ c ∈ t.take i, ¬Spacing c

theorem tidy_iff :
    Tidy t ↔ Even (t.count '\'') ∧ Throughout (fun c => Text.isBlank c → Spacing c) t ∧
      Throughout (· ≠ ':') t := by
  constructor
  · rintro ⟨hquotes, houtside⟩
    refine ⟨hquotes, fun i c hi hblank => ?_, fun i c hi => ?_⟩
    · refine (houtside i c hi).resolve_right fun hname => ?_
      exact (ne_of_isNameChar hname).2.2.2 hblank
    · rintro rfl
      exact absurd (houtside i ':' hi) (by decide)
  · rintro ⟨hquotes, hblanks, hcolon⟩
    refine ⟨hquotes, fun i c hi => ?_⟩
    rcases char_cases c with hc | rfl | rfl | hc | hc
    · exact .inl hc
    · exact absurd rfl (hcolon i ':' hi)
    · exact absurd rfl hi.ne_quote
    · exact .inl (hblanks i c hi hc.blank)
    · exact .inr hc

/-- A rule is written around a colon if and only if the texts on its two sides are tidy and the
first one is not spacing alone. -/
theorem writtenAt_append_iff :
    WrittenAt (u ++ ':' :: v) u.length ↔ Tidy u ∧ Tidy v ∧ ∃ c ∈ u, ¬Spacing c := by
  have htake : (u ++ ':' :: v).take u.length = u := List.take_left
  have hone : Even (([':'] : Text).count '\'') := by decide
  have hcount : (u ++ ':' :: v).count '\'' = u.count '\'' + v.count '\'' := by simp
  constructor
  · rintro ⟨hquotes, hblanks, hcolon, htarget⟩
    have hu : Even (u.count '\'') := by
      have heven := ((hcolon u.length).2 rfl).even
      rwa [htake] at heven
    have hv : Even (v.count '\'') := by
      rw [hcount, Nat.even_add] at hquotes
      exact hquotes.1 hu
    obtain ⟨hblanksu, hrest⟩ := (throughout_append hu).1 hblanks
    obtain ⟨-, hblanksv⟩ := (throughout_append (s := [':']) hone).1 hrest
    refine ⟨tidy_iff.2 ⟨hu, hblanksu, ?_⟩, tidy_iff.2 ⟨hv, hblanksv, ?_⟩, by rwa [htake] at htarget⟩
    · rintro j c hj rfl
      obtain ⟨hlt, -⟩ := List.getElem?_eq_some_iff.1 hj.stands
      exact absurd ((hcolon j).1 ((outside_append_left hlt).2 hj)) (Nat.ne_of_lt hlt)
    · rintro j c hj rfl
      have hbehind : Outside ([':'] ++ v) (1 + j) ':' := (outside_append_right hone).2 hj
      have hplace := (hcolon _).1 ((outside_append_right hu).2 hbehind)
      omega
  · rintro ⟨hu, hv, htarget⟩
    obtain ⟨hquotesu, hblanksu, hcolonu⟩ := tidy_iff.1 hu
    obtain ⟨hquotesv, hblanksv, hcolonv⟩ := tidy_iff.1 hv
    refine ⟨?_, (throughout_append hquotesu).2 ⟨hblanksu, ?_⟩, fun j => ⟨fun hj => ?_, ?_⟩, ?_⟩
    · rw [hcount]
      exact hquotesu.add hquotesv
    · refine (throughout_append (s := [':']) hone).2 ⟨throughout_of_forall fun c hc => ?_, hblanksv⟩
      obtain rfl := List.mem_singleton.1 hc
      exact fun hblank => absurd hblank (by decide)
    · rcases Nat.lt_or_ge j u.length with hlt | hge
      · exact absurd rfl (hcolonu j ':' ((outside_append_left hlt).1 hj))
      · obtain ⟨k, rfl⟩ := Nat.exists_eq_add_of_le hge
        cases k with
        | zero => rfl
        | succ k =>
          have hbehind : Outside ([':'] ++ v) (1 + k) ':' := by
            rw [Nat.add_comm 1 k]
            exact (outside_append_right hquotesu).1 hj
          exact absurd rfl (hcolonv k ':' ((outside_append_right hone).1 hbehind))
    · rintro rfl
      exact ⟨by simp, by decide, by rwa [htake]⟩
    · rwa [htake]

theorem WrittenAt.eq_append (H : WrittenAt t i) :
    t = t.take i ++ ':' :: t.drop (i + 1) ∧ (t.take i).length = i := by
  obtain ⟨hlt, hget⟩ := List.getElem?_eq_some_iff.1 ((H.colon i).2 rfl).stands
  refine ⟨?_, List.length_take_of_le (Nat.le_of_lt hlt)⟩
  rw [← hget, ← List.drop_eq_getElem_cons hlt, List.take_append_drop]

theorem parse_eq_none_iff : parse t = .ok none ↔ ∀ c ∈ t, Spacing c := by
  rw [parse, ofLexemes_eq_none_iff, lex_eq_nil_iff]

theorem parse_eq_some_iff {rule : Rule} :
    parse t = .ok (some rule) ↔
      ∃ i, WrittenAt t i ∧ rule = ⟨names (t.take i), names (t.drop (i + 1))⟩ := by
  rw [parse, ofLexemes_eq_some_iff, tokens_eq_rule_iff]
  constructor
  · rintro ⟨hne, u, v, rfl, ⟨hu, htargets⟩, hv, hprerequisites⟩
    have htarget : ∃ c ∈ u, ¬Spacing c := by
      rw [htargets, ne_eq, names_eq_nil_iff hu] at hne
      simpa using hne
    refine ⟨u.length, writtenAt_append_iff.2 ⟨hu, hv, htarget⟩, ?_⟩
    have hdrop : (u ++ ':' :: v).drop (u.length + 1) = v := by simp
    rw [List.take_left, hdrop, ← htargets, ← hprerequisites]
  · rintro ⟨i, H, rfl⟩
    obtain ⟨ht, hlength⟩ := H.eq_append
    have hparts : Tidy (t.take i) ∧ Tidy (t.drop (i + 1)) ∧ ∃ c ∈ t.take i, ¬Spacing c := by
      refine writtenAt_append_iff.1 ?_
      rwa [← ht, hlength]
    obtain ⟨hu, hv, htarget⟩ := hparts
    refine ⟨?_, t.take i, t.drop (i + 1), ht, ⟨hu, rfl⟩, hv, rfl⟩
    rw [ne_eq, names_eq_nil_iff hu]
    simpa using htarget

/-- A text holds no rule if and only if it is spacing. It is a rule if and only if one is written in
it, and then the targets are the names before the colon and the prerequisites those behind it. All
other texts are faulty. -/
theorem parse_exact (t : Text) :
    (parse t = .ok none ↔ ∀ c ∈ t, Spacing c) ∧
      (∀ rule, parse t = .ok (some rule) ↔
        ∃ i, WrittenAt t i ∧ rule = ⟨names (t.take i), names (t.drop (i + 1))⟩) ∧
      ((∃ e, parse t = .error e) ↔ (∃ c ∈ t, ¬Spacing c) ∧ ∀ i, ¬WrittenAt t i) := by
  have hnone : parse t = .ok none ↔ ∀ c ∈ t, Spacing c := parse_eq_none_iff
  refine ⟨hnone, fun rule => parse_eq_some_iff, ?_, ?_⟩
  · rintro ⟨e, he⟩
    constructor
    · by_contra hall
      have hspacing : ∀ c ∈ t, Spacing c := by simpa using hall
      cases he.symm.trans (hnone.2 hspacing)
    · intro i hi
      cases he.symm.trans (parse_eq_some_iff.2 ⟨i, hi, rfl⟩)
  · rintro ⟨⟨c, hc, hspacing⟩, hwritten⟩
    rcases hparse : parse t with e | (- | rule)
    · exact ⟨e, rfl⟩
    · exact absurd (hnone.1 hparse c hc) hspacing
    · obtain ⟨i, hi, -⟩ := parse_eq_some_iff.1 hparse
      exact absurd hi (hwritten i)

end Rule

end Haybuild
