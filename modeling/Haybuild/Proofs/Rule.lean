import Haybuild.Proofs.Line
import Haybuild.Proofs.Rule.Lexer
import Haybuild.Proofs.Rule.Reader
import Haybuild.Proofs.Text.Lines

/-!
# Rules written with quotes

A rule can be written with every name between quotes, whatever characters other than quotes the
names hold. Reading what is written so gives the rule back (`parse_written`).
-/

namespace Haybuild

namespace Rule

variable {n t : Text} {ns targets prerequisites : List Text}

/-- Names between quotes, each with a space before it. -/
def spaced (names : List Text) : Text :=
  names.flatMap fun n => ' ' :: quoted n

theorem spaced_cons (n : Text) (ns : List Text) :
    spaced (n :: ns) = ' ' :: (quoted n ++ spaced ns) := rfl

/-- A rule with every name between quotes. -/
def written (targets prerequisites : List Text) : Text :=
  Text.join [' '] (targets.map quoted) ++ ':' :: spaced prerequisites

theorem join_quoted (n : Text) (ns : List Text) :
    Text.join [' '] ((n :: ns).map quoted) = quoted n ++ spaced ns := by
  induction ns generalizing n with
  | nil => exact (List.append_nil _).symm
  | cons m ns ih =>
    rw [List.map_cons, List.map_cons, Text.join_cons_cons, ← List.map_cons, ih m, spaced_cons,
      List.append_assoc, List.singleton_append]

theorem flush_written (hne : targets ≠ []) (prerequisites : List Text) :
    Flush (written targets prerequisites) := by
  obtain ⟨n, ns, rfl⟩ := List.exists_cons_of_ne_nil hne
  have hhead : (written (n :: ns) prerequisites).head? = some '\'' := by
    rw [written, join_quoted]
    rfl
  have hlast : (written (n :: ns) prerequisites).getLast? = some ':' ∨
      (written (n :: ns) prerequisites).getLast? = some '\'' := by
    rcases List.eq_nil_or_concat prerequisites with rfl | ⟨ps, p, rfl⟩
    · exact .inl (by simp [written, spaced])
    · refine .inr ?_
      have hspaced : spaced (ps ++ [p]) = spaced ps ++ ' ' :: '\'' :: p ++ ['\''] := by
        simp [spaced, quoted]
      rw [List.concat_eq_append, written, hspaced, ← List.cons_append, ← List.append_assoc,
        List.getLast?_concat]
  refine ⟨⟨hhead ▸ rfl, ?_⟩, hhead ▸ rfl⟩
  rcases hlast with hlast | hlast
  · exact hlast ▸ rfl
  · exact hlast ▸ rfl

theorem oneLine_quoted (hn : Text.OneLine n) : Text.OneLine (quoted n) :=
  (Text.OneLine.cons (c := '\'') rfl hn).append (by decide)

theorem oneLine_spaced (hns : ∀ n ∈ ns, Text.OneLine n) : Text.OneLine (spaced ns) := by
  induction ns with
  | nil => nofun
  | cons n ns ih =>
    obtain ⟨hn, hns⟩ := List.forall_mem_cons.1 hns
    exact (Text.OneLine.cons (c := ' ') rfl (oneLine_quoted hn)).append (ih hns)

theorem oneLine_written (hts : ∀ n ∈ targets, Text.OneLine n)
    (hps : ∀ n ∈ prerequisites, Text.OneLine n) : Text.OneLine (written targets prerequisites) := by
  have hrest : Text.OneLine (':' :: spaced prerequisites) := .cons rfl (oneLine_spaced hps)
  cases targets with
  | nil => exact hrest
  | cons n ns =>
    obtain ⟨hn, hns⟩ := List.forall_mem_cons.1 hts
    rw [written, join_quoted]
    exact ((oneLine_quoted hn).append (oneLine_spaced hns)).append hrest

section

variable {c : Char}

theorem replaceAll_quoted (hc : c ≠ '\'') (new n : Text) :
    Text.replaceAll [c] new (quoted n) = quoted (Text.replaceAll [c] new n) := by
  simp [Text.replaceAll_singleton, quoted, Ne.symm hc]

theorem replaceAll_spaced (hc : c ≠ '\'') (hspace : c ≠ ' ') (new : Text) (ns : List Text) :
    Text.replaceAll [c] new (spaced ns) = spaced (ns.map (Text.replaceAll [c] new)) := by
  induction ns with
  | nil => rfl
  | cons n ns ih =>
    rw [spaced_cons, Text.replaceAll_singleton_cons_of_ne (Ne.symm hspace),
      Text.replaceAll_singleton_append, replaceAll_quoted hc, ih, List.map_cons, spaced_cons]

/-- Characters that stand in names only are replaced in each name by itself. -/
theorem replaceAll_written (hc : c ∉ ['\'', ':', ' ']) (new : Text)
    (targets prerequisites : List Text) :
    Text.replaceAll [c] new (written targets prerequisites) =
      written (targets.map (Text.replaceAll [c] new))
        (prerequisites.map (Text.replaceAll [c] new)) := by
  simp only [List.mem_cons, List.not_mem_nil, or_false, not_or] at hc
  obtain ⟨hquote, hcolon, hspace⟩ := hc
  have hsep : Text.replaceAll [c] new [' '] = [' '] :=
    Text.replaceAll_singleton_cons_of_ne (Ne.symm hspace) new []
  have hquoted : Text.replaceAll [c] new ∘ quoted = quoted ∘ Text.replaceAll [c] new :=
    funext (replaceAll_quoted hquote new)
  rw [written, written, Text.replaceAll_singleton_append, Text.replaceAll_singleton_join, hsep,
    Text.replaceAll_singleton_cons_of_ne (Ne.symm hcolon), replaceAll_spaced hquote hspace,
    List.map_map, List.map_map, hquoted]

end

/-! ## Tokens -/

/-- Names between quotes are the first tokens of a text that starts with them. -/
theorem lex_spaced (hns : ∀ n ∈ ns, '\'' ∉ n) (place : Position) (t : Text) :
    ∃ place', (lex place (spaced ns ++ t)).map Lexeme.token =
      ns.map Token.name ++ (lex place' t).map Lexeme.token := by
  induction ns generalizing place with
  | nil => exact ⟨place, rfl⟩
  | cons n ns ih =>
    obtain ⟨hn, hns⟩ := List.forall_mem_cons.1 hns
    obtain ⟨place', hrest⟩ := ih hns ((place.after [' ']).after (quoted n))
    refine ⟨place', ?_⟩
    rw [spaced_cons, List.cons_append, List.append_assoc, lex_spacing (.inl rfl), lex_quoted hn,
      List.map_cons, hrest]
    rfl

/-- The tokens of a rule that is written with quotes. -/
theorem lex_written (hne : targets ≠ []) (hts : ∀ n ∈ targets, '\'' ∉ n)
    (hps : ∀ n ∈ prerequisites, '\'' ∉ n) (place : Position) :
    (lex place (written targets prerequisites)).map Lexeme.token =
      targets.map Token.name ++ .colon :: prerequisites.map Token.name := by
  obtain ⟨n, ns, rfl⟩ := List.exists_cons_of_ne_nil hne
  obtain ⟨hn, hns⟩ := List.forall_mem_cons.1 hts
  have htext : written (n :: ns) prerequisites =
      quoted n ++ (spaced ns ++ ':' :: (spaced prerequisites ++ [])) := by
    rw [written, join_quoted, List.append_assoc, List.append_nil]
  obtain ⟨p, htargets⟩ :=
    lex_spaced hns (place.after (quoted n)) (':' :: (spaced prerequisites ++ []))
  obtain ⟨q, hprerequisites⟩ := lex_spaced hps (p.after [':']) []
  rw [htext, lex_quoted hn, List.map_cons, htargets, lex_colon, List.map_cons, hprerequisites,
    lex_nil, List.map_nil, List.append_nil]
  rfl

/-- What is written with quotes is read as the rule it was written for. -/
theorem parse_written (hne : targets ≠ []) (hts : ∀ n ∈ targets, '\'' ∉ n)
    (hps : ∀ n ∈ prerequisites, '\'' ∉ n) :
    parse (written targets prerequisites) = .ok (some ⟨targets, prerequisites⟩) :=
  ofLexemes_eq_some_iff.2 ⟨hne, lex_written hne hts hps .start⟩

end Rule

end Haybuild
