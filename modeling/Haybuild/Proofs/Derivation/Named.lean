import Haybuild.Proofs.Derivation.Room
import Haybuild.Proofs.Derivation.Splitting
import Haybuild.Proofs.NameMap
import Haybuild.Proofs.Variables

/-!
# References by name

A reference around a name is no call, and its value is that of the raw text of the variable
(`resolve_of_isName`), expanded with a room that is one smaller. The commands find the same values
in their environment, where each raw text is derived with all the room there is
(`Variables.eval_resolved`). So the two agree, except that a reference may lack the room that the
environment still has (`derive_reference_agrees_with_resolved`).
-/

namespace Haybuild

open Variables (IsName)

variable {vars : Variables} {debug : Bool} {depth : Nat} {trace : List Text} {ref : Reference}
  {name body v : Text}

/-! ## The text of a reference -/

namespace Variables.IsName

theorem pieces_source (H : IsName ref.body) : pieces ref.source = [.reference ref] := by
  apply Bracket.Balanced.pieces_source
  apply Bracket.balanced_of_notMem
  · exact H.notMem (by cases ref.bracket <;> decide)
  · exact H.notMem (by cases ref.bracket <;> decide)

theorem settled (H : IsName name) : Settled name :=
  tame_of_notMem (H.notMem (by decide))

/-- No call has a name for its body. -/
theorem ofBody?_eq_none (H : IsName name) : Builtin.ofBody? name = none := by
  rw [Builtin.ofBody?]
  split
  · rfl
  · next c r hr =>
    have hc : c ∈ name := (List.dropWhile_suffix _).subset (hr ▸ List.mem_cons_self)
    rw [if_neg]
    simp [(not_isBlank_of_isNameChar (H.isNameChar hc)).1]

end Variables.IsName

namespace Derivation

/-- A reference around a name stands for the raw text of the variable. -/
theorem resolve_of_isName (H : IsName ref.body) :
    resolve vars debug (depth + 1) trace ref =
      match vars.get? ref.body with
      | some raw => expand vars debug depth (trace ++ [ref.source]) raw
      | none => .failed ⟨.unknown ref.source ref.body, ref.source, trace, debug⟩ := by
  have hbody := expand_of_settled vars debug depth trace H.settled
  simp only [expand, expandSegments, bind_eq, pure_eq] at hbody
  rw [resolve, H.ofBody?_eq_none]
  simp only [bind_eq, pure_eq, hbody, done_bind, H.trimmed.trim_eq]
  cases vars.get? ref.body <;> rfl

end Derivation

/-! ## The environment -/

namespace Variables

variable {answers : Derivation.Answers} {environment : Environment}

theorem eval_resolveEntries (vars : Variables) (answers : Derivation.Answers)
    (es : List (Text × Text)) :
    ∃ environment, (vars.resolveEntries es).eval answers = .ok environment ∧
      (environment.map Prod.fst).Sublist (es.map Prod.fst) ∧ ∀ name v,
        (name, v) ∈ environment ↔
          ∃ raw, (name, raw) ∈ es ∧ (derive vars false raw).eval answers = .ok v := by
  induction es with
  | nil => exact ⟨[], rfl, .slnil, by simp⟩
  | cons e es ih =>
    obtain ⟨name, raw⟩ := e
    obtain ⟨environment, heval, hnames, hmem⟩ := ih
    simp only [resolveEntries, Derivation.bind_eq, Derivation.eval_bind, Derivation.eval_attempt,
      heval]
    cases hv : (derive vars false raw).eval answers with
    | ok value =>
      refine ⟨(name, value) :: environment, rfl, hnames.cons_cons name, fun name' v => ?_⟩
      simp only [List.mem_cons, hmem, Prod.mk.injEq, or_and_right, exists_or]
      refine or_congr_left ⟨?_, ?_⟩
      · rintro ⟨rfl, rfl⟩
        exact ⟨raw, ⟨rfl, rfl⟩, hv⟩
      · rintro ⟨_, ⟨rfl, rfl⟩, hv'⟩
        cases hv.symm.trans hv'
        exact ⟨rfl, rfl⟩
    | error error =>
      refine ⟨environment, rfl, hnames.cons name, fun name' v => ?_⟩
      simp only [List.mem_cons, hmem, Prod.mk.injEq, or_and_right, exists_or]
      refine ⟨.inr, ?_⟩
      rintro (⟨_, ⟨rfl, rfl⟩, hv'⟩ | h)
      · cases hv.symm.trans hv'
      · exact h

/-- The environment holds the values of those variables whose raw texts derive. -/
theorem eval_resolved (vars : Variables) (answers : Derivation.Answers) :
    ∃ environment, vars.resolved.eval answers = .ok environment ∧ ∀ name v,
      environment.lookup name = some v ↔
        ∃ raw, vars.get? name = some raw ∧ (derive vars false raw).eval answers = .ok v := by
  obtain ⟨environment, heval, hnames, hmem⟩ := eval_resolveEntries vars answers vars.entries
  refine ⟨environment, heval, fun name v => ?_⟩
  rw [lookup_eq_some_iff_mem (vars.nodup.sublist hnames), hmem]
  simp only [NameMap.get?_eq_some_iff]

end Variables

/-- The environment and a reference to the name of a variable agree. A value of the reference is the
one in the environment; and where the environment has a value, the reference has it too or there is
no room for one more expansion. For room never changes a value: what has a value inside other
expansions has it inside fewer of them, whichever references stand around it. -/
theorem derive_reference_agrees_with_resolved (vars : Variables) (answers : Derivation.Answers) :
    (∃ environment, vars.resolved.eval answers = .ok environment ∧
      ∀ name ∈ vars.names, IsName name → ∀ bracket debug,
        let value := (derive vars debug (Reference.source ⟨bracket, name⟩)).eval answers
        (∀ v, value = .ok v → environment.lookup name = some v) ∧
          ∀ v, environment.lookup name = some v →
            value = .ok v ∨ ∃ e reference, value = .error e ∧ e.fault = .notConverged reference) ∧
      ∀ depth depth' debug debug' trace trace' t v, depth ≤ depth' →
        (Derivation.expand vars debug depth trace t).eval answers = .ok v →
          (Derivation.expand vars debug' depth' trace' t).eval answers = .ok v := by
  refine ⟨?_, fun _ _ _ _ _ _ _ _ => Derivation.eval_expand_mono⟩
  obtain ⟨environment, heval, hlookup⟩ := vars.eval_resolved answers
  refine ⟨environment, heval, fun name hmem H bracket debug => ?_⟩
  obtain ⟨raw, hraw⟩ := Option.isSome_iff_exists.1 (NameMap.mem_names.1 hmem)
  -- the reference expands the raw text with one expansion less than the environment does
  have hderive : derive vars debug (Reference.source ⟨bracket, name⟩) =
      Derivation.expand vars debug (depthLimit - 1) [Reference.source ⟨bracket, name⟩] raw := by
    rw [derive, Derivation.expand_reference H.pieces_source, depthLimit, Derivation.resolve_of_isName H, hraw]
    rfl
  have houtlasts : Derivation.Outlasts Derivation.Error.OutOfRoom Derivation.Error.SameFault
      (Derivation.expand vars debug (depthLimit - 1) [Reference.source ⟨bracket, name⟩] raw)
      (derive vars false raw) := Derivation.outlasts_expand (Nat.sub_le depthLimit 1) raw
  dsimp only
  rw [hderive]
  refine ⟨fun v hv => (hlookup name v).2 ⟨raw, hraw, houtlasts.eval_eq_ok hv⟩, fun v hv => ?_⟩
  obtain ⟨raw', hraw', hv⟩ := (hlookup name v).1 hv
  obtain rfl : raw = raw' := Option.some.inj (hraw.symm.trans hraw')
  rcases houtlasts.eval answers with ⟨e, ⟨reference, he⟩, h⟩ | ⟨v', h, h'⟩ | ⟨e, e', -, -, h'⟩
  · exact .inr ⟨e, reference, h, he⟩
  · cases hv.symm.trans h'
    exact .inl h
  · cases hv.symm.trans h'

/-- A variable that asks the shell for the time, and one that names it. -/
def clockVariables : Variables :=
  NameMap.ofPairs [("NOW", "$(shell date)"), ("SEEN", "seen at $(NOW)")]

/-- It is always noon. -/
def noon : Derivation.Answers :=
  ⟨fun _ => ⟨0, "noon\n", []⟩, fun _ => []⟩

theorem derive_reference_agrees_with_resolved_clock :
    ("SEEN" : Text) ∈ clockVariables.names ∧ IsName "SEEN" ∧
      (derive clockVariables true "$(SEEN)").eval noon = .ok "seen at noon" ∧
      ∃ environment : Environment, clockVariables.resolved.eval noon = .ok environment ∧
        environment.lookup (("SEEN" : Text)) = some "seen at noon" := by
  have hname : IsName "SEEN" := by decide +kernel
  have hmem : ("SEEN" : Text) ∈ clockVariables.names := by decide +kernel
  have hvalue : (derive clockVariables true "$(SEEN)").eval noon = .ok "seen at noon" := by
    decide +kernel
  obtain ⟨⟨environment, heval, hagree⟩, -⟩ :=
    derive_reference_agrees_with_resolved clockVariables noon
  exact ⟨hmem, hname, hvalue, environment, heval, (hagree _ hmem hname .round true).1 _ hvalue⟩

end Haybuild
