import Haybuild.Proofs.Derivation.Culprit
import Haybuild.Proofs.Derivation.Settled
import Haybuild.Proofs.Derivation.Span
import Haybuild.Proofs.Derivation.Splitting
import Haybuild.Proofs.Derivation.Value

/-!
# Derivations piece by piece

To derive a text is to derive its pieces, each by itself, from left to right
(`Derivation.expandSegments_eq_deriveAll`). So it has a value if every piece has one
(`Builtin.eval_deriveAll_eq_ok_iff`), and fails as the first piece that fails
(`Builtin.eval_deriveAll_eq_error_iff`). With the one way to split a text and the places of the
values of references, that is all there is to know about the value of a text and its spans
(`derive_piecewise`).
-/

namespace Haybuild

variable {vars : Variables} {debug : Bool} {depth : Nat} {trace : List Text} {t : Text} {p : Piece}
  {ps : List Piece} {answers : Derivation.Answers} {e : Derivation.Error}

/-! ## Texts derived one after the other -/

namespace Builtin

variable {expand : Text → Derivation Text} {args values : List Text}

theorem eval_deriveAll_cons (a : Text) (args : List Text) :
    (deriveAll expand (a :: args)).eval answers =
      (expand a).eval answers >>= fun value =>
        ((deriveAll expand args).eval answers).map (value :: ·) := by
  rw [deriveAll, Derivation.bind_eq, Derivation.eval_bind]
  refine congrArg _ (funext fun value => ?_)
  rw [Derivation.bind_eq, Derivation.eval_bind]
  cases (deriveAll expand args).eval answers <;> rfl

theorem eval_deriveAll_eq_ok_iff :
    (deriveAll expand args).eval answers = .ok values ↔
      List.Forall₂ (fun a value => (expand a).eval answers = .ok value) args values := by
  induction args generalizing values with
  | nil => simp [deriveAll, Derivation.eval, eq_comm]
  | cons a args ih =>
    rw [eval_deriveAll_cons, List.forall₂_cons_left_iff]
    simp only [← ih]
    cases (expand a).eval answers with
    | error e => simp [bind, Except.bind]
    | ok value =>
      cases (deriveAll expand args).eval answers with
      | error e => simp [bind, Except.bind, Except.map]
      | ok rest => simp [bind, Except.bind, Except.map, eq_comm]

/-- The error is that of the first text that fails. -/
theorem eval_deriveAll_eq_error_iff :
    (deriveAll expand args).eval answers = .error e ↔
      ∃ before a after, args = before ++ a :: after ∧
        (∀ a' ∈ before, ∃ value, (expand a').eval answers = .ok value) ∧
        (expand a).eval answers = .error e := by
  induction args with
  | nil => simp [deriveAll, Derivation.eval]
  | cons a args ih =>
    rw [eval_deriveAll_cons]
    constructor
    · intro h
      cases ha : (expand a).eval answers with
      | error e' =>
        rw [ha] at h
        cases h
        exact ⟨[], a, args, rfl, List.forall_mem_nil _, ha⟩
      | ok value =>
        rw [ha] at h
        cases hargs : (deriveAll expand args).eval answers with
        | error e' =>
          rw [hargs] at h
          cases h
          obtain ⟨before, a', after, rfl, hbefore, ha'⟩ := ih.1 hargs
          exact ⟨a :: before, a', after, rfl, List.forall_mem_cons.2 ⟨⟨value, ha⟩, hbefore⟩, ha'⟩
        | ok rest =>
          rw [hargs] at h
          cases h
    · rintro ⟨before, a', after, hargs, hbefore, ha'⟩
      cases before with
      | nil =>
        obtain ⟨rfl, rfl⟩ := List.cons.inj hargs
        rw [ha']
        rfl
      | cons a'' before =>
        obtain ⟨rfl, rfl⟩ := List.cons.inj hargs
        obtain ⟨⟨value, ha⟩, hbefore⟩ := List.forall_mem_cons.1 hbefore
        rw [ha, ih.2 ⟨before, a', after, rfl, hbefore, ha'⟩]
        rfl

end Builtin

/-! ## The pieces of a text -/

theorem Segment.zipWith_spec {r : Piece → Text → Prop} {values : List Text}
    (h : List.Forall₂ r ps values) :
    (List.zipWith Segment.mk ps values).map Segment.piece = ps ∧
      ∀ s ∈ List.zipWith Segment.mk ps values, r s.piece s.value := by
  induction h with
  | nil => exact ⟨rfl, nofun⟩
  | cons hp _ ih =>
    obtain ⟨hpieces, hvalues⟩ := ih
    exact ⟨congrArg _ hpieces, List.forall_mem_cons.2 ⟨hp, hvalues⟩⟩

namespace Derivation

/-- A piece by itself is derived as its text is. -/
theorem segments_singleton (hp : pieces p.source = [p]) :
    segments (resolve vars debug depth trace)
        (fun fault written => .failed ⟨fault, written, trace, debug⟩) [p] =
      (expand vars debug depth trace p.source).bind fun value => .done [⟨p, value⟩] := by
  rw [expand, expandSegments, expandWith, hp]
  cases p with
  | literal | pair | unterminated => rfl
  | reference ref => simp [segments, bind_assoc, Segment.valueOf]

theorem segments_eq_deriveAll (hps : ∀ p ∈ ps, pieces p.source = [p]) :
    segments (resolve vars debug depth trace)
        (fun fault written => .failed ⟨fault, written, trace, debug⟩) ps =
      (Builtin.deriveAll (expand vars debug depth trace) (ps.map Piece.source)).bind fun values =>
        .done (List.zipWith Segment.mk ps values) := by
  induction ps with
  | nil => rfl
  | cons p ps ih =>
    obtain ⟨hp, hps⟩ := List.forall_mem_cons.1 hps
    rw [segments_cons, segments_singleton hp, ih hps, List.map_cons, Builtin.deriveAll]
    simp [bind_assoc]

/-- A text is derived by deriving its pieces from left to right. -/
theorem expandSegments_eq_deriveAll :
    expandSegments vars debug depth trace t =
      (Builtin.deriveAll (expand vars debug depth trace) ((pieces t).map Piece.source)).bind
        fun values => .done (List.zipWith Segment.mk (pieces t) values) :=
  segments_eq_deriveAll fun _ => pieces_source

theorem eval_expandSegments :
    (expandSegments vars debug depth trace t).eval answers =
      ((Builtin.deriveAll (expand vars debug depth trace) ((pieces t).map Piece.source)).eval
        answers).map (List.zipWith Segment.mk (pieces t)) := by
  rw [expandSegments_eq_deriveAll, eval_bind]
  cases (Builtin.deriveAll (expand vars debug depth trace) ((pieces t).map Piece.source)).eval
    answers <;> rfl

/-- The segments of a text are its pieces, each with the value that it has by itself. -/
theorem eval_expandSegments_eq_ok {segs : List Segment}
    (h : (expandSegments vars debug depth trace t).eval answers = .ok segs) :
    segs.map Segment.piece = pieces t ∧
      ∀ s ∈ segs, (expand vars debug depth trace s.piece.source).eval answers = .ok s.value := by
  rw [eval_expandSegments] at h
  cases hvalues : (Builtin.deriveAll (expand vars debug depth trace)
      ((pieces t).map Piece.source)).eval answers with
  | error e =>
    rw [hvalues] at h
    cases h
  | ok values =>
    rw [hvalues] at h
    cases h
    rw [Builtin.eval_deriveAll_eq_ok_iff, List.forall₂_map_left_iff] at hvalues
    exact Segment.zipWith_spec hvalues

/-- A text fails as the first of its pieces that fails. -/
theorem eval_expandSegments_eq_error_iff :
    (expandSegments vars debug depth trace t).eval answers = .error e ↔
      ∃ before p after, pieces t = before ++ p :: after ∧
        (∀ q ∈ before, ∃ v, (expand vars debug depth trace q.source).eval answers = .ok v) ∧
        (expand vars debug depth trace p.source).eval answers = .error e := by
  have hmap : ∀ r : Except Error (List Text),
      r.map (List.zipWith Segment.mk (pieces t)) = .error e ↔ r = .error e := by
    rintro (_ | _) <;> simp [Except.map]
  rw [eval_expandSegments, hmap, Builtin.eval_deriveAll_eq_error_iff]
  constructor
  · rintro ⟨_, _, _, hargs, hbefore, ha⟩
    obtain ⟨before, rest, hpieces, rfl, hrest⟩ := List.map_eq_append_iff.1 hargs
    obtain ⟨p, after, rfl, rfl, rfl⟩ := List.map_eq_cons_iff.1 hrest
    exact ⟨before, p, after, hpieces, fun q hq => hbefore _ (List.mem_map_of_mem hq), ha⟩
  · rintro ⟨before, p, after, hpieces, hbefore, hp⟩
    exact ⟨before.map Piece.source, p.source, after.map Piece.source, by simp [hpieces],
      List.forall_mem_map.2 hbefore, hp⟩

/-- A pair and a character stand for themselves, and a bracket that is not closed for nothing. -/
theorem faithful_of_eval {v : Text} (hp : pieces p.source = [p])
    (h : (expand vars debug depth trace p.source).eval answers = .ok v) :
    Segment.Faithful ⟨p, v⟩ := by
  rw [expand, expandSegments, expandWith, hp] at h
  cases p with
  | reference ref => exact trivial
  | literal | pair =>
    cases h
    rfl
  | unterminated => cases h

end Derivation

/-- The value and the spans of a text are read off its segments, in which each piece has the value
that it has by itself. -/
theorem exists_segments_of_deriveSpans {v : Text} {spans : List Span}
    (h : (deriveSpans vars debug t).eval answers = .ok (v, spans)) :
    ∃ segs : List Segment, segs.map Segment.piece = pieces t ∧
      (∀ s ∈ segs,
        (derive vars debug s.piece.source).eval answers = .ok s.value ∧ s.Faithful) ∧
      v = Segment.valueOf segs ∧ spans = Segment.spansFrom 0 segs := by
  obtain ⟨segs, hsegs, hv, hspans⟩ := eval_deriveSpans_eq_ok_iff.1 h
  obtain ⟨hpieces, hvalues⟩ := Derivation.eval_expandSegments_eq_ok hsegs
  have hfaithful : ∀ s ∈ segs, s.Faithful := fun s hs =>
    Derivation.faithful_of_eval (pieces_source (hpieces ▸ List.mem_map_of_mem hs)) (hvalues s hs)
  exact ⟨segs, hpieces, fun s hs => ⟨hvalues s hs, hfaithful s hs⟩, hv, hspans⟩

/-- There is one way to split a text, and deriving the text is deriving these pieces from left to
right. If each has a value by itself, so has the text; otherwise the error is that of the first
piece that fails. The value is that of the pieces put together, in which pairs and other characters
stand for themselves, and the spans are the places of the references that are not empty. -/
theorem derive_piecewise (vars : Variables) (debug : Bool) (t : Text) :
    (∀ ps, Splits t ps ↔ ps = pieces t) ∧
      (deriveSpans vars debug t =
        (Builtin.deriveAll (derive vars debug) ((pieces t).map Piece.source)).bind fun values =>
          let segs := List.zipWith Segment.mk (pieces t) values
          .done (Segment.valueOf segs, Segment.spansFrom 0 segs)) ∧
      ∀ answers : Derivation.Answers,
        let value (p : Piece) := (derive vars debug p.source).eval answers
        let outcome := (deriveSpans vars debug t).eval answers
        ((∃ r, outcome = .ok r) ↔ ∀ p ∈ pieces t, ∃ v, value p = .ok v) ∧
          (∀ e, outcome = .error e ↔ ∃ before p after, pieces t = before ++ p :: after ∧
            (∀ q ∈ before, ∃ v, value q = .ok v) ∧ value p = .error e) ∧
          ∀ v spans, outcome = .ok (v, spans) →
            (derive vars debug t).eval answers = .ok v ∧
              ∃ segs : List Segment, segs.map Segment.piece = pieces t ∧
                (∀ s ∈ segs, value s.piece = .ok s.value ∧ s.Faithful) ∧
                v = Segment.valueOf segs ∧ Segment.Placed segs spans := by
  refine ⟨fun _ => splits_iff, ?_, fun answers => ?_⟩
  · rw [deriveSpans, Derivation.expandSegments_eq_deriveAll, Derivation.bind_eq,
      Derivation.bind_assoc]
    rfl
  intro value outcome
  have herror : ∀ e, outcome = .error e ↔ ∃ before p after, pieces t = before ++ p :: after ∧
      (∀ q ∈ before, ∃ v, value q = .ok v) ∧ value p = .error e := fun _ =>
    eval_deriveSpans_eq_error_iff.trans Derivation.eval_expandSegments_eq_error_iff
  refine ⟨⟨?_, ?_⟩, herror, ?_⟩
  · rintro ⟨⟨v, spans⟩, hr⟩ p hp
    obtain ⟨segs, hpieces, hsegs, -⟩ := exists_segments_of_deriveSpans hr
    obtain ⟨s, hs, rfl⟩ := List.mem_map.1 (hpieces ▸ hp)
    exact ⟨s.value, (hsegs s hs).1⟩
  · intro hvalues
    cases hr : outcome with
    | ok r => exact ⟨r, rfl⟩
    | error e =>
      obtain ⟨before, p, after, hpieces, -, hp⟩ := (herror e).1 hr
      obtain ⟨v, hv⟩ := hvalues p (by simp [hpieces])
      cases hv.symm.trans hp
  · intro v spans hr
    obtain ⟨segs, hpieces, hsegs, rfl, rfl⟩ := exists_segments_of_deriveSpans hr
    exact ⟨eval_derive_of_deriveSpans hr, segs, hpieces, hsegs, rfl,
      Segment.placed_spansFrom fun s hs => (hsegs s hs).2⟩

end Haybuild
