import Haybuild.Rule

/-!
# Reading the tokens of a rule

The tokens of a rule are the names of its targets, of which there is one at least, a colon, and the
names of its prerequisites (`ofLexemes_eq_some_iff`). The reader stops at the first token that
cannot go on a rule, whatever is behind it, and what it has read by then is names alone or a rule
(`exists_stop`).
-/

namespace Haybuild

namespace Rule

variable {α : Type} {lexemes pre : List Lexeme} {l : Lexeme} {last : Position}
  {ns targets prerequisites : List Text} {rule : Rule} {e : Fault}

/-! ## Rules -/

theorem readPrerequisites_eq (h : lexemes.map Lexeme.token = ns.map Token.name) :
    readPrerequisites lexemes = .ok ns := by
  induction ns generalizing lexemes with
  | nil =>
    rw [List.map_eq_nil_iff.1 h]
    rfl
  | cons n ns ih =>
    obtain ⟨⟨_, place⟩, rest, rfl, rfl, hrest⟩ := List.map_eq_cons_iff.1 h
    rw [readPrerequisites, ih hrest]

theorem tokens_of_readPrerequisites (h : readPrerequisites lexemes = .ok ns) :
    lexemes.map Lexeme.token = ns.map Token.name := by
  induction lexemes generalizing ns with
  | nil =>
    cases h
    rfl
  | cons l r ih =>
    obtain ⟨token, place⟩ := l
    cases token with
    | name n =>
      rw [readPrerequisites] at h
      split at h
      · next hr =>
        cases h
        exact congrArg (Token.name n :: ·) (ih hr)
      · cases h
    | colon | stray => cases h

theorem readTargets_eq (last : Position)
    (h : lexemes.map Lexeme.token =
      targets.map Token.name ++ .colon :: prerequisites.map Token.name) :
    readTargets last lexemes = .ok ⟨targets, prerequisites⟩ := by
  induction targets generalizing last lexemes with
  | nil =>
    obtain ⟨⟨_, place⟩, rest, rfl, rfl, hrest⟩ := List.map_eq_cons_iff.1 h
    rw [readTargets, readPrerequisites_eq hrest]
  | cons n targets ih =>
    obtain ⟨⟨_, place⟩, rest, rfl, rfl, hrest⟩ := List.map_eq_cons_iff.1 h
    rw [readTargets, ih place hrest]

theorem tokens_of_readTargets (h : readTargets last lexemes = .ok rule) :
    lexemes.map Lexeme.token =
      rule.targets.map Token.name ++ .colon :: rule.prerequisites.map Token.name := by
  induction lexemes generalizing last rule with
  | nil => cases h
  | cons l r ih =>
    obtain ⟨token, place⟩ := l
    cases token with
    | name n =>
      rw [readTargets] at h
      split at h
      · next hr =>
        cases h
        exact congrArg (Token.name n :: ·) (ih hr)
      · cases h
    | colon =>
      rw [readTargets] at h
      split at h
      · next hr =>
        cases h
        exact congrArg (Token.colon :: ·) (tokens_of_readPrerequisites hr)
      · cases h
    | stray => cases h

/-- A rule is read if and only if the tokens are its names with a colon between them. -/
theorem ofLexemes_eq_some_iff :
    ofLexemes lexemes = .ok (some rule) ↔ rule.targets ≠ [] ∧ lexemes.map Lexeme.token =
      rule.targets.map Token.name ++ .colon :: rule.prerequisites.map Token.name := by
  constructor
  · intro h
    rcases lexemes with - | ⟨⟨n | - | c, place⟩, r⟩
    · cases h
    · rw [ofLexemes] at h
      split at h
      · next hr =>
        cases h
        exact ⟨List.cons_ne_nil _ _, congrArg (Token.name n :: ·) (tokens_of_readTargets hr)⟩
      · cases h
    · cases h
    · cases h
  · rintro ⟨hne, h⟩
    obtain ⟨targets, prerequisites⟩ := rule
    obtain ⟨n, targets, rfl⟩ := List.exists_cons_of_ne_nil hne
    obtain ⟨⟨_, place⟩, rest, rfl, rfl, hrest⟩ := List.map_eq_cons_iff.1 h
    rw [ofLexemes, readTargets_eq place hrest]

theorem ofLexemes_eq_none_iff : ofLexemes lexemes = .ok none ↔ lexemes = [] := by
  constructor
  · intro h
    rcases lexemes with - | ⟨⟨n | - | c, place⟩, r⟩
    · rfl
    · rw [ofLexemes] at h
      split at h <;> cases h
    · cases h
    · cases h
  · rintro rfl
    rfl

/-! ## Faults -/

/-- The fault is that of meeting this token, which is no name, where it cannot stand. -/
def Lexeme.Causes (l : Lexeme) (e : Fault) : Prop :=
  l.token = .colon ∧ e = .colon l.place ∨ ∃ c, l.token = .stray c ∧ e = .stray c l.place

/-- Behind `pre`, the reader stops at a token because of a fault, whatever follows. -/
structure StopsAt (read : List Lexeme → Except Fault α) (pre : List Lexeme) (l : Lexeme)
    (e : Fault) : Prop where
  causes : l.Causes e
  reads : ∀ rest, read (pre ++ l :: rest) = .error e

theorem exists_stop_of_readPrerequisites (h : readPrerequisites lexemes = .error e) :
    ∃ pre l rest, lexemes = pre ++ l :: rest ∧ StopsAt readPrerequisites pre l e ∧
      ∃ ns, readPrerequisites pre = .ok ns := by
  induction lexemes with
  | nil => cases h
  | cons l r ih =>
    obtain ⟨token, place⟩ := l
    cases token with
    | name n =>
      rw [readPrerequisites] at h
      split at h
      · cases h
      · next hr =>
        cases h
        obtain ⟨pre, l, rest, rfl, hstop, ns, hpre⟩ := ih hr
        refine ⟨⟨.name n, place⟩ :: pre, l, rest, rfl, ⟨hstop.causes, fun rest => ?_⟩, n :: ns, ?_⟩
        · rw [List.cons_append, readPrerequisites, hstop.reads]
        · rw [readPrerequisites, hpre]
    | colon =>
      cases h
      exact ⟨[], _, r, rfl, ⟨.inl ⟨rfl, rfl⟩, fun _ => rfl⟩, [], rfl⟩
    | stray c =>
      cases h
      exact ⟨[], _, r, rfl, ⟨.inr ⟨c, rfl, rfl⟩, fun _ => rfl⟩, [], rfl⟩

theorem exists_stop_of_readTargets (h : readTargets last lexemes = .error e)
    (hended : ∀ place, e ≠ .ended place) :
    ∃ pre l rest, lexemes = pre ++ l :: rest ∧ StopsAt (readTargets last) pre l e ∧
      ((∃ ns, readPrerequisites pre = .ok ns) ∨ ∃ rule, readTargets last pre = .ok rule) := by
  induction lexemes generalizing last with
  | nil =>
    cases h
    exact absurd rfl (hended last)
  | cons l r ih =>
    obtain ⟨token, place⟩ := l
    cases token with
    | name n =>
      rw [readTargets] at h
      split at h
      · cases h
      · next hr =>
        cases h
        obtain ⟨pre, l, rest, rfl, hstop, hpre⟩ := ih hr
        refine ⟨⟨.name n, place⟩ :: pre, l, rest, rfl, ⟨hstop.causes, fun rest => ?_⟩, ?_⟩
        · rw [List.cons_append, readTargets, hstop.reads]
        · rcases hpre with ⟨ns, hpre⟩ | ⟨rule, hpre⟩
          · exact .inl ⟨n :: ns, by rw [readPrerequisites, hpre]⟩
          · exact .inr ⟨_, by rw [readTargets, hpre]⟩
    | colon =>
      rw [readTargets] at h
      split at h
      · cases h
      · next hr =>
        cases h
        obtain ⟨pre, l, rest, rfl, hstop, ns, hpre⟩ := exists_stop_of_readPrerequisites hr
        refine ⟨⟨.colon, place⟩ :: pre, l, rest, rfl, ⟨hstop.causes, fun rest => ?_⟩, .inr ?_⟩
        · rw [List.cons_append, readTargets, hstop.reads]
        · exact ⟨⟨[], ns⟩, by rw [readTargets, hpre]⟩
    | stray c =>
      cases h
      exact ⟨[], _, r, rfl, ⟨.inr ⟨c, rfl, rfl⟩, fun _ => rfl⟩, .inl ⟨[], rfl⟩⟩

/-- A line that is not a rule, and does not just end too early, has a token at which the reader
stops, behind names alone or behind a rule. -/
theorem exists_stop (h : ofLexemes lexemes = .error e) (hended : ∀ place, e ≠ .ended place) :
    ∃ pre l rest, lexemes = pre ++ l :: rest ∧ StopsAt ofLexemes pre l e ∧
      ((∃ ns, readPrerequisites pre = .ok ns) ∨ ∃ rule, ofLexemes pre = .ok (some rule)) := by
  rcases lexemes with - | ⟨⟨n | - | c, place⟩, r⟩
  · cases h
  · rw [ofLexemes] at h
    split at h
    · cases h
    · next hr =>
      cases h
      obtain ⟨pre, l, rest, rfl, hstop, hpre⟩ := exists_stop_of_readTargets hr hended
      refine ⟨⟨.name n, place⟩ :: pre, l, rest, rfl, ⟨hstop.causes, fun rest => ?_⟩, ?_⟩
      · rw [List.cons_append, ofLexemes, hstop.reads]
      · rcases hpre with ⟨ns, hpre⟩ | ⟨rule, hpre⟩
        · exact .inl ⟨n :: ns, by rw [readPrerequisites, hpre]⟩
        · exact .inr ⟨_, by rw [ofLexemes, hpre]⟩
  · cases h
    exact ⟨[], _, r, rfl, ⟨.inl ⟨rfl, rfl⟩, fun _ => rfl⟩, .inl ⟨[], rfl⟩⟩
  · cases h
    exact ⟨[], _, r, rfl, ⟨.inr ⟨c, rfl, rfl⟩, fun _ => rfl⟩, .inl ⟨[], rfl⟩⟩

end Rule

end Haybuild
