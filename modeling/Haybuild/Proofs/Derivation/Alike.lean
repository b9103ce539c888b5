import Haybuild.Proofs.Derivation.DebugMode
import Haybuild.Proofs.Derivation.Room
import Haybuild.Proofs.Host
import Haybuild.Proofs.Record

/-!
# Ending alike on a host

Two derivations end alike on a host if they hand the same commands to its shell and come to the same
end, up to a relation between errors (`Host.EndAlike`). Those that ask the same questions do
(`Derivation.Agree.endAlike`), and what goes on with the value of one derivation ends alike as soon
as it does for the values that this one can have there (`Host.EndAlike.bind`). A derivation that
asks what another one asks until it stops has no other value than that one and hands the shell no
other commands (`Derivation.Outlasts.derive_eq_ok`, `Derivation.Outlasts.calls_prefix`).
-/

namespace Haybuild

variable {α β σ : Type}

/-- Two outcomes on a host are the same fault, the same value, or two errors that `r` relates, and
they leave the same state. -/
inductive Host.Outcome.Alike (r : Derivation.Error → Derivation.Error → Prop) :
    Except Fault (Except Derivation.Error α) × σ → Except Fault (Except Derivation.Error α) × σ →
      Prop
  | fault (fault : Fault) (s : σ) : Alike r (.error fault, s) (.error fault, s)
  | value (a : α) (s : σ) : Alike r (.ok (.ok a), s) (.ok (.ok a), s)
  | error {e e' : Derivation.Error} (s : σ) : r e e' →
      Alike r (.ok (.error e), s) (.ok (.error e'), s)

/-- From this state of the host on, the two derivations hand the same to the shell and end alike. -/
structure Host.EndAlike (h : Host σ) (r : Derivation.Error → Derivation.Error → Prop)
    (d d' : Derivation α) (s : σ) : Prop where
  calls : h.calls d s = h.calls d' s
  outcome : Outcome.Alike r (h.derive d s) (h.derive d' s)

variable {h : Host σ} {r : Derivation.Error → Derivation.Error → Prop} {s s' : σ}
  {d d' : Derivation α} {a : α}

theorem Host.EndAlike.bind {f f' : α → Derivation β} (H : h.EndAlike r d d' s)
    (hf : ∀ a s', h.derive d s = (.ok (.ok a), s') → h.EndAlike r (f a) (f' a) s') :
    h.EndAlike r (d.bind f) (d'.bind f') s := by
  obtain ⟨hcalls, houtcome⟩ := H
  constructor
  · rw [calls_bind, calls_bind, hcalls]
    generalize hd : h.derive d s = x at houtcome ⊢
    generalize h.derive d' s = x' at houtcome ⊢
    cases houtcome with
    | fault | error => rfl
    | value a s' => exact congrArg _ (hf a s' hd).calls
  · rw [derive_bind, derive_bind]
    generalize hd : h.derive d s = x at houtcome ⊢
    generalize h.derive d' s = x' at houtcome ⊢
    cases houtcome with
    | fault fault s' => exact .fault fault s'
    | value a s' => exact (hf a s' hd).outcome
    | error s' he => exact .error s' he

namespace Derivation

/-- Derivations that ask the same questions end alike on every host. That they hand the same to the
shell is seen on the host with a record, where they leave the same state. -/
theorem Agree.endAlike (H : Agree r d d') (h : Host σ) (s : σ) : h.EndAlike r d d' s := by
  constructor
  · have hrecord : (h.recorded.derive d (s, [])).2 = (h.recorded.derive d' (s, [])).2 := by
      rcases H.onHost h.recorded (s, []) with
        ⟨_, _, hd, hd'⟩ | ⟨_, _, hd, hd'⟩ | ⟨_, _, _, -, hd, hd'⟩ <;> rw [hd, hd']
    rw [Host.derive_recorded, Host.derive_recorded] at hrecord
    exact congrArg Prod.snd hrecord
  · rcases H.onHost h s with
      ⟨fault, s', hd, hd'⟩ | ⟨a, s', hd, hd'⟩ | ⟨e, e', s', he, hd, hd'⟩
    · rw [hd, hd']
      exact .fault fault s'
    · rw [hd, hd']
      exact .value a s'
    · rw [hd, hd']
      exact .error s' he

namespace Outlasts

variable {stops : Error → Prop}

theorem derive_eq_ok (H : Outlasts stops r d d') (hd : h.derive d s = (.ok (.ok a), s')) :
    h.derive d' s = (.ok (.ok a), s') := by
  induction H generalizing s with
  | stopped d' he => cases hd
  | done a => exact hd
  | failed he => cases hd
  | shell command _ ih =>
    rw [Host.derive] at hd ⊢
    generalize h.ask standardShell [] command s = asked at hd ⊢
    rcases asked with ⟨fault | answer, s₁⟩
    · cases hd
    · exact ih answer hd
  | wildcard pattern _ ih =>
    rw [Host.derive] at hd ⊢
    split
    · next hnull =>
      rw [if_pos hnull] at hd
      cases hd
    · next hnull =>
      rw [if_neg hnull] at hd
      exact ih _ hd

/-- Until it stops, the first derivation hands the shell what the second one does. -/
theorem calls_prefix (H : Outlasts stops r d d') (h : Host σ) (s : σ) :
    h.calls d s <+: h.calls d' s := by
  induction H generalizing s with
  | stopped d' he => exact List.nil_prefix
  | done a => exact List.prefix_rfl
  | failed he => exact List.prefix_rfl
  | shell command _ ih =>
    rw [Host.calls, Host.calls, List.prefix_append_right_inj]
    rcases h.ask standardShell [] command s with ⟨fault | answer, s₁⟩
    · exact List.prefix_rfl
    · exact ih answer s₁
  | wildcard pattern _ ih =>
    rw [Host.calls, Host.calls]
    split
    · exact List.prefix_rfl
    · exact ih _ s

end Outlasts

end Derivation

end Haybuild
