import Haybuild.Proofs.Derivation.Congruence

/-!
# Room for expansions

How deep expansions may go inside one another, which references stand around a text and in which
mode it is derived has no part in its value. Given more room, a text asks the same questions and
ends in the same way, up to the point where the smaller room was not enough (`outlasts_expand`). So
a value stays a value (`eval_expand_mono`, `expand_mono`), and what is derived inside a derivation
has its value on its own (`derive_of_expand`).
-/

namespace Haybuild

variable {α β : Type}

namespace Derivation

/-- The second derivation asks the same questions as the first one and ends with the same value, or
with an error that `r` relates to the first one's, but it may go on where the first one ends with an
error of which `stops` holds. -/
inductive Outlasts (stops : Error → Prop) (r : Error → Error → Prop) :
    Derivation α → Derivation α → Prop
  | stopped {e : Error} (d' : Derivation α) : stops e → Outlasts stops r (failed e) d'
  | done (a : α) : Outlasts stops r (done a) (done a)
  | failed {e e' : Error} : r e e' → Outlasts stops r (failed e) (failed e')
  | shell (command : Text) {next next' : ShellAnswer → Derivation α} :
      (∀ answer, Outlasts stops r (next answer) (next' answer)) →
      Outlasts stops r (shell command next) (shell command next')
  | wildcard (pattern : Text) {next next' : List Text → Derivation α} :
      (∀ paths, Outlasts stops r (next paths) (next' paths)) →
      Outlasts stops r (wildcard pattern next) (wildcard pattern next')

namespace Outlasts

variable {stops : Error → Prop} {r : Error → Error → Prop} {d d' : Derivation α}

theorem refl (hr : ∀ e, r e e) (d : Derivation α) : Outlasts stops r d d := by
  induction d with
  | done a => exact .done a
  | failed e => exact .failed (hr e)
  | shell command next ih => exact .shell command ih
  | wildcard pattern next ih => exact .wildcard pattern ih

theorem bind {f f' : α → Derivation β} (H : Outlasts stops r d d')
    (hf : ∀ a, Outlasts stops r (f a) (f' a)) : Outlasts stops r (d.bind f) (d'.bind f') := by
  induction H with
  | stopped d' h => exact .stopped _ h
  | done a => exact hf a
  | failed h => exact .failed h
  | shell command _ ih => exact .shell command ih
  | wildcard pattern _ ih => exact .wildcard pattern ih

theorem congruence (hr : ∀ e, r e e) : Congruence (Outlasts stops r) where
  refl := refl hr
  bind := bind
  shell command := .shell command

/-- Whatever the answers are, the first derivation stops early or both end alike. -/
theorem eval (H : Outlasts stops r d d') (answers : Answers) :
    (∃ e, stops e ∧ d.eval answers = .error e) ∨
    (∃ a, d.eval answers = .ok a ∧ d'.eval answers = .ok a) ∨
    ∃ e e', r e e' ∧ d.eval answers = .error e ∧ d'.eval answers = .error e' := by
  induction H with
  | stopped d' h => exact .inl ⟨_, h, rfl⟩
  | done a => exact .inr (.inl ⟨a, rfl, rfl⟩)
  | failed h => exact .inr (.inr ⟨_, _, h, rfl, rfl⟩)
  | shell command _ ih => exact ih _
  | wildcard pattern _ ih => exact ih _

theorem eval_eq_ok {a : α} {answers : Answers} (H : Outlasts stops r d d')
    (h : d.eval answers = .ok a) : d'.eval answers = .ok a := by
  rcases H.eval answers with ⟨e, -, h'⟩ | ⟨a', h', h''⟩ | ⟨e, e', -, h', -⟩
  · cases h.symm.trans h'
  · cases h.symm.trans h'
    exact h''
  · cases h.symm.trans h'

theorem eq_done {a : α} (H : Outlasts stops r d d') (h : d = .done a) : d' = .done a := by
  subst h
  cases H with
  | done => rfl

end Outlasts

/-- The error says that there was no room for a further expansion. -/
def Error.OutOfRoom (e : Error) : Prop :=
  ∃ reference, e.fault = .notConverged reference

/-- The two errors are those of one fault at one reference. -/
def Error.SameFault (e e' : Error) : Prop :=
  e.fault = e'.fault ∧ e.reference = e'.reference

variable {vars : Variables} {debug debug' : Bool} {depth depth' : Nat} {trace trace' : List Text}
  {ref : Reference} {t v : Text} {segs : List Segment} {answers : Answers}

theorem congruence_outlasts : Congruence (Outlasts Error.OutOfRoom Error.SameFault) :=
  Outlasts.congruence fun _ => ⟨rfl, rfl⟩

theorem outlasts_failed {fault : Fault} {reference : Text} :
    Outlasts (α := α) Error.OutOfRoom Error.SameFault (failed ⟨fault, reference, trace, debug⟩)
      (failed ⟨fault, reference, trace', debug'⟩) :=
  .failed ⟨rfl, rfl⟩

theorem outlasts_resolve (hd : depth ≤ depth') :
    Outlasts Error.OutOfRoom Error.SameFault (resolve vars debug depth trace ref)
      (resolve vars debug' depth' trace' ref) := by
  induction depth generalizing depth' trace trace' ref with
  | zero => exact .stopped _ ⟨_, rfl⟩
  | succ depth ih =>
    obtain ⟨depth', rfl⟩ := Nat.exists_eq_add_of_lt hd
    have hexpand : ∀ {trace trace'} t, Outlasts Error.OutOfRoom Error.SameFault
        (expand vars debug depth trace t) (expand vars debug' (depth + depth') trace' t) :=
      congruence_outlasts.expand (fun _ => ih (Nat.le_add_right ..)) fun _ _ => outlasts_failed
    exact congruence_outlasts.resolve (hexpand _) hexpand fun _ _ => outlasts_failed

/-- With more room, under other references and in another mode, a text asks the same questions and
ends in the same way, unless there was no room for one of its expansions. -/
theorem outlasts_expand (hd : depth ≤ depth') (t : Text) :
    Outlasts Error.OutOfRoom Error.SameFault (expand vars debug depth trace t)
      (expand vars debug' depth' trace' t) := by
  apply congruence_outlasts.expand
  · exact fun _ => outlasts_resolve hd
  · exact fun _ _ => outlasts_failed

theorem eval_expand_mono (hd : depth ≤ depth')
    (h : (expand vars debug depth trace t).eval answers = .ok v) :
    (expand vars debug' depth' trace' t).eval answers = .ok v :=
  (outlasts_expand hd t).eval_eq_ok h

/-- More room, other references around the text and another debug mode change no value. -/
theorem expand_mono (hd : depth ≤ depth') (h : expand vars debug depth trace t = .done v) :
    expand vars debug' depth' trace' t = .done v :=
  (outlasts_expand hd t).eq_done h

theorem expandSegments_mono (hd : depth ≤ depth')
    (h : expandSegments vars debug depth trace t = .done segs) :
    expandSegments vars debug' depth' trace' t = .done segs := by
  refine (congruence_outlasts.expandSegments ?_ ?_ t).eq_done h
  · exact fun _ => outlasts_resolve hd
  · exact fun _ _ => outlasts_failed

end Derivation

/-- What is derived inside a derivation has its value on its own. -/
theorem derive_of_expand {vars : Variables} {debug debug' : Bool} {depth : Nat} {trace : List Text}
    {t v : Text} (hd : depth ≤ depthLimit)
    (h : Derivation.expand vars debug depth trace t = .done v) : derive vars debug' t = .done v :=
  Derivation.expand_mono hd h

end Haybuild
