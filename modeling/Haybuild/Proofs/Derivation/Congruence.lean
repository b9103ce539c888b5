import Haybuild.Proofs.Derivation.Value

/-!
# Derivations part by part

A derivation is built from those of its parts: the arguments of a call, the branch an `if` takes,
the references of a text. A relation between derivations that is kept by asking and by going on with
a value (`Congruence`) is therefore kept by all of these, so that two derivations of one text are
related as soon as those of its references are (`Congruence.expand`), and those of a reference as
soon as those of the texts in it are and what a name stands for (`Congruence.resolve_of_named`).
Under one map of variables the texts decide that too (`Congruence.resolve`).
-/

namespace Haybuild

namespace Derivation

/-- What a name that the body of a reference derives to stands for: the value of the raw text of
that variable. -/
def named (vars : Variables) (debug : Bool) (depth : Nat) (trace : List Text) (ref : Reference)
    (name : Text) : Derivation Text :=
  match vars.get? name with
  | some raw => expand vars debug depth (trace ++ [ref.source]) raw
  | none => .failed ⟨.unknown ref.source name, ref.source, trace, debug⟩

/-- A reference is a call, or stands for what its derived body names. -/
theorem resolve_succ (vars : Variables) (debug : Bool) (depth : Nat) (trace : List Text)
    (ref : Reference) :
    resolve vars debug (depth + 1) trace ref =
      match Builtin.ofBody? ref.body with
      | some (b, args) =>
        b.call (expand vars debug depth (trace ++ [ref.source]))
          (fun fault => .failed ⟨fault, ref.source, trace ++ [ref.source], debug⟩) ref.source
          (Builtin.arguments args)
      | none => (expand vars debug depth trace ref.body).bind fun body =>
        named vars debug depth trace ref (Text.trim body) := by
  rw [resolve]
  rfl

/-- The relation holds between a derivation and itself, and is kept by asking the same of a shell
and by going on with a value in related ways. -/
structure Congruence (R : ∀ {α : Type}, Derivation α → Derivation α → Prop) : Prop where
  refl {α : Type} (d : Derivation α) : R d d
  bind {α β : Type} {d d' : Derivation α} {f f' : α → Derivation β} :
    R d d' → (∀ a, R (f a) (f' a)) → R (d.bind f) (d'.bind f')
  shell {α : Type} (command : Text) {next next' : ShellAnswer → Derivation α} :
    (∀ answer, R (next answer) (next' answer)) → R (shell command next) (shell command next')

namespace Congruence

variable {R : ∀ {α : Type}, Derivation α → Derivation α → Prop} {f f' : Text → Derivation Text}

theorem deriveAll (H : Congruence @R) (hf : ∀ t, R (f t) (f' t)) (args : List Text) :
    R (Builtin.deriveAll f args) (Builtin.deriveAll f' args) := by
  induction args with
  | nil => exact H.refl _
  | cons a args ih => exact H.bind (hf a) fun value => H.bind ih fun values => H.refl _

theorem branch (H : Congruence @R) (hf : ∀ t, R (f t) (f' t)) (args : List Text) :
    R (Builtin.branch f args) (Builtin.branch f' args) := by
  cases args with
  | nil => exact H.refl _
  | cons condition branches =>
    rw [Builtin.branch_cons, Builtin.branch_cons]
    apply H.bind (hf condition)
    intro value
    cases Builtin.chosen? (Text.blank value) branches with
    | none => exact H.refl _
    | some a => exact hf a

theorem call (H : Congruence @R) (hf : ∀ t, R (f t) (f' t)) {fail fail' : Fault → Derivation Text}
    (hfail : ∀ fault, R (fail fault) (fail' fault)) (b : Builtin) (reference : Text)
    (args : List Text) : R (b.call f fail reference args) (b.call f' fail' reference args) := by
  cases hn : b.arity? with
  | some n =>
    rw [Builtin.call_of_arity? hn, Builtin.call_of_arity? hn]
    split
    · exact hfail _
    · exact H.bind (H.deriveAll hf _) fun values => H.refl _
  | none =>
    rcases Builtin.eq_of_arity?_eq_none hn with rfl | rfl
    · exact H.branch hf args
    · apply H.bind (hf _)
      intro command
      apply H.shell
      intro answer
      split
      · exact H.refl _
      · exact hfail _

theorem segments (H : Congruence @R) {resolve resolve' : Reference → Derivation Text}
    (hresolve : ∀ ref, R (resolve ref) (resolve' ref))
    {fail fail' : Fault → Text → Derivation (List Segment)}
    (hfail : ∀ fault written, R (fail fault written) (fail' fault written)) (ps : List Piece) :
    R (segments resolve fail ps) (segments resolve' fail' ps) := by
  induction ps with
  | nil => exact H.refl _
  | cons p ps ih =>
    cases p with
    | literal c | pair => exact H.bind ih fun rest => H.refl _
    | reference ref => exact H.bind (hresolve ref) fun value => H.bind ih fun rest => H.refl _
    | unterminated b rest => exact hfail _ _

variable {vars vars' : Variables} {debug debug' : Bool} {depth depth' : Nat}
  {trace trace' : List Text} {ref : Reference}

theorem expandSegments (H : Congruence @R)
    (hresolve : ∀ ref,
      R (resolve vars debug depth trace ref) (resolve vars' debug' depth' trace' ref))
    (hfail : ∀ fault written, R (α := List Segment) (failed ⟨fault, written, trace, debug⟩)
      (failed ⟨fault, written, trace', debug'⟩)) (t : Text) :
    R (expandSegments vars debug depth trace t) (expandSegments vars' debug' depth' trace' t) :=
  H.segments hresolve hfail (pieces t)

/-- Two derivations of a text are related if those of references are, and errors at one place. -/
theorem expand (H : Congruence @R)
    (hresolve : ∀ ref,
      R (resolve vars debug depth trace ref) (resolve vars' debug' depth' trace' ref))
    (hfail : ∀ fault written, R (α := List Segment) (failed ⟨fault, written, trace, debug⟩)
      (failed ⟨fault, written, trace', debug'⟩)) (t : Text) :
    R (expand vars debug depth trace t) (expand vars' debug' depth' trace' t) :=
  H.bind (H.expandSegments hresolve hfail t) fun _ => H.refl _

/-- Two derivations of a reference are related if those of texts are, around the reference and
inside it, and what a name in it stands for. -/
theorem resolve_of_named (H : Congruence @R)
    (hbody : R (Derivation.expand vars debug depth trace ref.body)
      (Derivation.expand vars' debug' depth' trace' ref.body))
    (hinside : ∀ t, R (Derivation.expand vars debug depth (trace ++ [ref.source]) t)
      (Derivation.expand vars' debug' depth' (trace' ++ [ref.source]) t))
    (hfail : ∀ fault, R (α := Text) (failed ⟨fault, ref.source, trace ++ [ref.source], debug⟩)
      (failed ⟨fault, ref.source, trace' ++ [ref.source], debug'⟩))
    (hnamed : ∀ name, R (named vars debug depth trace ref name)
      (named vars' debug' depth' trace' ref name)) :
    R (resolve vars debug (depth + 1) trace ref)
      (resolve vars' debug' (depth' + 1) trace' ref) := by
  rw [resolve_succ, resolve_succ]
  split
  · next b args hb => exact H.call hinside hfail b _ _
  · exact H.bind hbody fun body => hnamed _

/-- The same under one map of variables, where a name stands for the same raw text. -/
theorem resolve (H : Congruence @R)
    (hbody : R (Derivation.expand vars debug depth trace ref.body)
      (Derivation.expand vars debug' depth' trace' ref.body))
    (hinside : ∀ t, R (Derivation.expand vars debug depth (trace ++ [ref.source]) t)
      (Derivation.expand vars debug' depth' (trace' ++ [ref.source]) t))
    (hfail : ∀ fault inside, R (α := Text) (failed ⟨fault, ref.source, trace ++ inside, debug⟩)
      (failed ⟨fault, ref.source, trace' ++ inside, debug'⟩)) :
    R (resolve vars debug (depth + 1) trace ref) (resolve vars debug' (depth' + 1) trace' ref) := by
  apply H.resolve_of_named hbody hinside fun fault => hfail fault [ref.source]
  intro name
  rw [named, named]
  split
  · exact hinside _
  · simpa using hfail (.unknown ref.source name) []

/-- With the same room, two derivations of a reference are related as soon as errors are, told of
one place under the references `trace` and `trace'`. -/
theorem resolve_of_failed (H : Congruence @R)
    (hfail : ∀ {α : Type} fault reference inside,
      R (α := α) (failed ⟨fault, reference, trace ++ inside, debug⟩)
        (failed ⟨fault, reference, trace' ++ inside, debug'⟩)) (inside : List Text)
    (ref : Reference) :
    R (Derivation.resolve vars debug depth (trace ++ inside) ref)
      (Derivation.resolve vars debug' depth (trace' ++ inside) ref) := by
  induction depth generalizing inside ref with
  | zero => exact hfail _ _ inside
  | succ depth ih =>
    have hexpand : ∀ inside t, R (Derivation.expand vars debug depth (trace ++ inside) t)
        (Derivation.expand vars debug' depth (trace' ++ inside) t) := fun inside =>
      H.expand (ih inside) fun fault written => hfail fault written inside
    apply H.resolve (hexpand inside _)
    · intro t
      rw [List.append_assoc, List.append_assoc]
      exact hexpand _ t
    · intro fault further
      rw [List.append_assoc, List.append_assoc]
      exact hfail fault _ _

/-- The same for a text. -/
theorem expand_of_failed (H : Congruence @R)
    (hfail : ∀ {α : Type} fault reference inside,
      R (α := α) (failed ⟨fault, reference, trace ++ inside, debug⟩)
        (failed ⟨fault, reference, trace' ++ inside, debug'⟩)) (t : Text) :
    R (Derivation.expand vars debug depth trace t)
      (Derivation.expand vars debug' depth trace' t) := by
  have hempty : ∀ {α : Type} fault reference, R (α := α)
      (failed ⟨fault, reference, trace, debug⟩) (failed ⟨fault, reference, trace', debug'⟩) := by
    intro α fault reference
    simpa using hfail fault reference []
  apply H.expand
  · intro ref
    simpa using H.resolve_of_failed hfail [] ref
  · exact hempty

end Congruence

end Derivation

end Haybuild
