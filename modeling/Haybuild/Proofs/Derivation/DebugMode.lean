import Haybuild.Host
import Haybuild.Proofs.Derivation.Congruence

/-!
# Derivations in debug mode

The debug mode of a derivation goes nowhere but into its errors. So a text that is derived in two
modes asks the same questions in both, and ends with one value or with two errors that differ in
their mode alone (`agree_derive`). On a host, where questions are answered by the state of the host,
both derivations then leave the same state (`Derivation.Agree.onHost`).
-/

namespace Haybuild

variable {α β σ : Type}

namespace Derivation

/-- The two errors are those of one fault, told in the two modes or both in the same one. -/
structure Error.InModes (debug debug' : Bool) (e e' : Error) : Prop where
  fault : e.fault = e'.fault
  reference : e.reference = e'.reference
  trace : e.trace = e'.trace
  debug : e.debug = debug ∧ e'.debug = debug' ∨ e.debug = e'.debug

namespace Error.InModes

variable {debug debug' : Bool} {e e' : Error}

theorem of_fault (fault : Fault) (reference : Text) (trace : List Text) :
    InModes debug debug' ⟨fault, reference, trace, debug⟩ ⟨fault, reference, trace, debug'⟩ :=
  ⟨rfl, rfl, rfl, .inl ⟨rfl, rfl⟩⟩

theorem refl (e : Error) : InModes debug debug' e e :=
  ⟨rfl, rfl, rfl, .inr rfl⟩

theorem eq (H : InModes debug debug e e') : e = e' := by
  obtain ⟨fault, reference, trace, mode⟩ := e
  obtain ⟨fault', reference', trace', mode'⟩ := e'
  obtain ⟨hfault, hreference, htrace, hmode⟩ := H
  dsimp only at hfault hreference htrace hmode
  subst hfault hreference htrace
  have hmode : mode = mode' := by
    rcases hmode with ⟨h, h'⟩ | h
    · rw [h, h']
    · exact h
  rw [hmode]

/-- In debug mode the message goes on where the other one ends. -/
theorem message_prefix (H : InModes true false e e') : e'.message <+: e.message := by
  have hfault : e'.fault.message = e.fault.message := by rw [H.fault]
  rcases H.debug with ⟨-, h'⟩ | h
  · have hquiet : e'.message = e'.fault.message := by simp [message, h']
    rw [hquiet, hfault, message]
    split
    · rw [List.append_assoc]
      exact List.prefix_append _ _
    · exact List.prefix_rfl
  · have hsame : e'.message = e.message := by
      rw [message, message, hfault, ← h, H.trace]
    exact hsame ▸ List.prefix_rfl

end Error.InModes

/-- The two derivations ask the same questions, and wherever the answers lead them they end with the
same value or with errors that `r` relates. -/
inductive Agree (r : Error → Error → Prop) : Derivation α → Derivation α → Prop
  | done (a : α) : Agree r (done a) (done a)
  | failed {e e' : Error} : r e e' → Agree r (failed e) (failed e')
  | shell (command : Text) {next next' : ShellAnswer → Derivation α} :
      (∀ answer, Agree r (next answer) (next' answer)) →
      Agree r (shell command next) (shell command next')
  | wildcard (pattern : Text) {next next' : List Text → Derivation α} :
      (∀ paths, Agree r (next paths) (next' paths)) →
      Agree r (wildcard pattern next) (wildcard pattern next')

namespace Agree

variable {r : Error → Error → Prop} {d d' : Derivation α}

theorem refl (hr : ∀ e, r e e) (d : Derivation α) : Agree r d d := by
  induction d with
  | done a => exact .done a
  | failed e => exact .failed (hr e)
  | shell command next ih => exact .shell command ih
  | wildcard pattern next ih => exact .wildcard pattern ih

theorem bind {f f' : α → Derivation β} (H : Agree r d d') (hf : ∀ a, Agree r (f a) (f' a)) :
    Agree r (d.bind f) (d'.bind f') := by
  induction H with
  | done a => exact hf a
  | failed h => exact .failed h
  | shell command _ ih => exact .shell command ih
  | wildcard pattern _ ih => exact .wildcard pattern ih

theorem congruence (hr : ∀ e, r e e) : Congruence (Agree r) where
  refl := refl hr
  bind := bind
  shell command := .shell command

/-- On a host both derivations end alike and leave the same state. -/
theorem onHost (H : Agree r d d') (h : Host σ) (s : σ) :
    (∃ fault s', h.derive d s = (.error fault, s') ∧ h.derive d' s = (.error fault, s')) ∨
    (∃ a s', h.derive d s = (.ok (.ok a), s') ∧ h.derive d' s = (.ok (.ok a), s')) ∨
    ∃ e e' s', r e e' ∧ h.derive d s = (.ok (.error e), s') ∧
      h.derive d' s = (.ok (.error e'), s') := by
  induction H generalizing s with
  | done a => exact .inr (.inl ⟨a, s, rfl, rfl⟩)
  | @failed e e' h => exact .inr (.inr ⟨e, e', s, h, rfl, rfl⟩)
  | shell command _ ih =>
    rw [Host.derive, Host.derive]
    rcases h.ask standardShell [] command s with ⟨fault | answer, s'⟩
    · exact .inl ⟨fault, s', rfl, rfl⟩
    · exact ih answer s'
  | wildcard pattern _ ih =>
    rw [Host.derive, Host.derive]
    split
    · exact .inl ⟨_, s, rfl, rfl⟩
    · exact ih _ s

end Agree

end Derivation

/-- A text derived in two modes asks the same questions in both and ends alike. -/
theorem agree_derive (vars : Variables) (debug debug' : Bool) (t : Text) :
    (derive vars debug t).Agree (Derivation.Error.InModes debug debug') (derive vars debug' t) := by
  apply (Derivation.Agree.congruence Derivation.Error.InModes.refl).expand_of_failed
  intro α fault reference inside
  exact .failed (.of_fault fault reference inside)

end Haybuild
