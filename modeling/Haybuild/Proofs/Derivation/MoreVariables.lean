import Haybuild.Proofs.Derivation.Named

/-!
# More variables

Which names a derivation looks up is itself a result of derivation, but it never asks for the names
that there are. So under a map that holds all variables of another one a text asks the same
questions and ends in the same way, unless it came to a name that the smaller map lacks
(`Derivation.outlasts_resolve_of_within`). What has a value keeps it, with the same spans
(`derive_of_within`).
-/

namespace Haybuild

namespace Derivation

variable {vars vars' : Variables} {debug : Bool} {depth : Nat} {trace : List Text} {ref : Reference}

/-- The error is about a name that the map lacks. -/
def Error.Misses (vars : Variables) (e : Error) : Prop :=
  ∃ reference name, e.fault = .unknown reference name ∧ vars.get? name = none

theorem congruence_misses (vars : Variables) : Congruence (Outlasts (Error.Misses vars) Eq) :=
  Outlasts.congruence fun _ => rfl

theorem outlasts_named_of_within (hvars : vars.Within vars')
    (hinside : ∀ t, Outlasts (Error.Misses vars) Eq
      (expand vars debug depth (trace ++ [ref.source]) t)
      (expand vars' debug depth (trace ++ [ref.source]) t)) (name : Text) :
    Outlasts (Error.Misses vars) Eq (named vars debug depth trace ref name)
      (named vars' debug depth trace ref name) := by
  rw [named]
  cases hname : vars.get? name with
  | none => exact .stopped _ ⟨ref.source, name, rfl, hname⟩
  | some raw =>
    rw [named, hvars name raw hname]
    exact hinside raw

/-- Under more variables a reference asks the same questions and ends in the same way, unless it
came to a name that was missing. -/
theorem outlasts_resolve_of_within (hvars : vars.Within vars') :
    Outlasts (Error.Misses vars) Eq (resolve vars debug depth trace ref)
      (resolve vars' debug depth trace ref) := by
  induction depth generalizing trace ref with
  | zero => exact .failed rfl
  | succ depth ih =>
    have hexpand : ∀ trace t, Outlasts (Error.Misses vars) Eq (expand vars debug depth trace t)
        (expand vars' debug depth trace t) := fun trace =>
      (congruence_misses vars).expand (fun _ => ih) fun _ _ => .failed rfl
    apply (congruence_misses vars).resolve_of_named
    · exact hexpand trace ref.body
    · exact hexpand _
    · exact fun fault => .failed rfl
    · exact outlasts_named_of_within hvars (hexpand _)

theorem outlasts_expandSegments_of_within (hvars : vars.Within vars') (t : Text) :
    Outlasts (Error.Misses vars) Eq (expandSegments vars debug depth trace t)
      (expandSegments vars' debug depth trace t) :=
  (congruence_misses vars).expandSegments (fun _ => outlasts_resolve_of_within hvars)
    (fun _ _ => .failed rfl) t

end Derivation

/-- Under more variables a text that derives has the same value and the same spans. One that fails
fails with the same error, or its error was about a name that is missing from the smaller map. -/
theorem derive_of_within {vars vars' : Variables} (hvars : vars.Within vars') (debug : Bool)
    (answers : Derivation.Answers) (t : Text) :
    (∀ v, (derive vars debug t).eval answers = .ok v →
      (derive vars' debug t).eval answers = .ok v ∧
        ∃ spans, (deriveSpans vars debug t).eval answers = .ok (v, spans) ∧
          (deriveSpans vars' debug t).eval answers = .ok (v, spans)) ∧
      ∀ e, (derive vars debug t).eval answers = .error e →
        e.Misses vars ∨ (derive vars' debug t).eval answers = .error e ∧
          (deriveSpans vars' debug t).eval answers = .error e := by
  have houtlasts : Derivation.Outlasts (Derivation.Error.Misses vars) Eq
      (Derivation.expandSegments vars debug depthLimit [] t)
      (Derivation.expandSegments vars' debug depthLimit [] t) :=
    Derivation.outlasts_expandSegments_of_within hvars t
  simp only [eval_derive, eval_deriveSpans]
  rcases houtlasts.eval answers with ⟨e, hmisses, h⟩ | ⟨segs, h, h'⟩ | ⟨e, _, rfl, h, h'⟩
  · rw [h]
    refine ⟨nofun, fun e' he' => .inl ?_⟩
    cases he'
    exact hmisses
  · rw [h, h']
    refine ⟨fun v hv => ?_, nofun⟩
    cases hv
    exact ⟨rfl, Segment.spansFrom 0 segs, rfl, rfl⟩
  · rw [h, h']
    refine ⟨nofun, fun e' he' => .inr ?_⟩
    cases he'
    exact ⟨rfl, rfl⟩

/-- A program is built in a mode, and each mode has flags; those of one mode name nothing. -/
def modeVariables : Variables :=
  NameMap.ofPairs [("MODE", "fast"), ("FLAGS_fast", "at $(shell date)"), ("FLAGS_slow", "$(NOPE)")]

/-- The same with more names before and between them. -/
def moreModeVariables : Variables :=
  NameMap.ofPairs [("NOPE", "careful"), ("FLAGS_slow", "$(NOPE)"), ("MODE", "fast"),
    ("FLAGS_", "none"), ("FLAGS_fast", "at $(shell date)")]

theorem derive_of_within_modes :
    modeVariables.Within moreModeVariables ∧
      (derive modeVariables false "$(if $(MODE),$(FLAGS_$(MODE)),$(FLAGS_slow))").eval noon =
        .ok "at noon" ∧
      (derive moreModeVariables false "$(if $(MODE),$(FLAGS_$(MODE)),$(FLAGS_slow))").eval noon =
        .ok "at noon" := by
  have hwithin : modeVariables.Within moreModeVariables := by decide +kernel
  have hvalue : (derive modeVariables false
      "$(if $(MODE),$(FLAGS_$(MODE)),$(FLAGS_slow))").eval noon = .ok "at noon" := by
    decide +kernel
  exact ⟨hwithin, hvalue, ((derive_of_within hwithin false noon _).1 _ hvalue).1⟩

end Haybuild
