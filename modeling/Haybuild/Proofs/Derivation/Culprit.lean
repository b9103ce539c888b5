import Haybuild.Derivation.Expand
import Haybuild.Proofs.Derivation.Piece
import Haybuild.Proofs.Host

/-!
# Where a derivation fails

The pieces of a text are derived one after the other, so a text that fails to derive does so at one
of its pieces: what stands before that piece has a value, and the piece fails by itself with the
same error (`exists_failsAt`).
-/

namespace Haybuild

variable {σ : Type} {h : Host σ} {vars : Variables} {debug : Bool} {t : Text} {s s' : σ}
  {e : Derivation.Error}

namespace Derivation

variable {resolve : Reference → Derivation Text} {error : Fault → Text → Error}

theorem segments_cons (p : Piece) (ps : List Piece) :
    segments resolve (fun fault written => .failed (error fault written)) (p :: ps) =
      (segments resolve (fun fault written => .failed (error fault written)) [p]).bind fun first =>
        (segments resolve (fun fault written => .failed (error fault written)) ps).bind fun rest =>
          done (first ++ rest) := by
  cases p <;> simp [segments, bind_assoc]

theorem exists_failing_piece {ps : List Piece}
    (H : h.derive (segments resolve (fun fault written => .failed (error fault written)) ps) s =
      (.ok (.error e), s')) :
    ∃ before p after, ps = before ++ p :: after ∧ ∃ segs s₁,
      h.derive (segments resolve (fun fault written => .failed (error fault written)) before) s =
        (.ok (.ok segs), s₁) ∧
      h.derive (segments resolve (fun fault written => .failed (error fault written)) [p]) s₁ =
        (.ok (.error e), s') := by
  induction ps generalizing s with
  | nil => cases H
  | cons p ps ih =>
    rw [segments_cons, Host.derive_bind] at H
    split at H
    · next first s₁ hfirst =>
      rw [Host.derive_bind] at H
      split at H
      · cases H
      · next hrest =>
        cases H
        obtain ⟨before, q, after, rfl, segs, s₂, hbefore, hq⟩ := ih hrest
        refine ⟨p :: before, q, after, rfl, first ++ segs, s₂, ?_, hq⟩
        simp only [segments_cons p before, Host.derive_bind, hfirst, hbefore]
        rfl
      · cases H
    · next hfirst =>
      cases H
      exact ⟨[], p, ps, rfl, [], s, rfl, hfirst⟩
    · cases H

end Derivation

/-- The text fails to derive at this piece: what stands before it has a value, and the piece fails
with the error. -/
structure FailsAt (h : Host σ) (vars : Variables) (debug : Bool) (t : Text) (s : σ)
    (e : Derivation.Error) (before : List Piece) (p : Piece) : Prop where
  cut : ∃ after, pieces t = before ++ p :: after
  fails : ∃ value s₁ s₂,
    h.derive (derive vars debug (before.flatMap Piece.source)) s = (.ok (.ok value), s₁) ∧
      h.derive (derive vars debug p.source) s₁ = (.ok (.error e), s₂)

/-- A text that fails to derive does so at one of its pieces. -/
theorem exists_failsAt (H : h.derive (derive vars debug t) s = (.ok (.error e), s')) :
    ∃ before p, FailsAt h vars debug t s e before p := by
  have hderive : ∀ t, derive vars debug t =
      (Derivation.segments (Derivation.resolve vars debug depthLimit [])
        (fun fault written => .failed ⟨fault, written, [], debug⟩) (pieces t)).bind
        fun segs => .done (Segment.valueOf segs) := fun _ => rfl
  rw [hderive, Host.derive_bind] at H
  split at H
  · cases H
  · next hsegs =>
    cases H
    obtain ⟨before, p, after, hcut, segs, s₁, hbefore, hp⟩ :=
      Derivation.exists_failing_piece hsegs
    have hpieces : pieces p.source = [p] :=
      pieces_source (hcut ▸ List.mem_append_right before List.mem_cons_self)
    refine ⟨before, p, ⟨after, hcut⟩, Segment.valueOf segs, s₁, s', ?_, ?_⟩
    · rw [hderive, pieces_flatMap_of_append hcut, Host.derive_bind, hbefore]
      rfl
    · rw [hderive, hpieces, Host.derive_bind, hp]
  · cases H

end Haybuild
