import Haybuild.Proofs.Derivation.Alike
import Haybuild.Proofs.Derivation.Argument
import Haybuild.Proofs.Derivation.Splitting
import Haybuild.Proofs.Execution
import Haybuild.Proofs.Text.Words

/-!
# The branches of a conditional

To derive a conditional is to derive its condition and then one of its branches, and nothing else
(`expand_conditional`). So the branch that is not chosen does not matter: with another text in its
place the shell is handed the same commands, and the value is the same, or the same error is raised,
which in debug mode quotes the conditional (`unchosen_branch_idle`).
-/

namespace Haybuild

variable {β σ : Type} {vars : Variables} {debug : Bool} {depth : Nat} {trace : List Text}
  {c t e e' : Text}

/-- A call of `if` with a condition and two branches. -/
def conditional (c t e : Text) : Reference :=
  ⟨.round, Builtin.cond.name ++ ' ' :: c ++ ',' :: t ++ ',' :: e⟩

example : (conditional "$(A)" "b" "c,d").source = "$(if $(A),b,c,d)".toList := rfl

/-! ## The derivation of a conditional -/

namespace Derivation

theorem expand_cons_of_ne {a : Char} (ha : a ≠ '$') (t : Text) :
    expand vars debug depth trace (a :: t) =
      (expand vars debug depth trace t).bind fun v => .done (a :: v) := by
  rw [expand, expand, expandSegments, expandSegments, expandWith, expandWith, pieces_cons_of_ne ha,
    segments]
  simp only [bind_eq, pure_eq, bind_assoc, done_bind]
  rfl

/-- The blanks in front of a text have no part in whether its value is blank. -/
theorem expand_trimLeft (f : Bool → Derivation β) (t : Text) :
    ((expand vars debug depth trace (Text.trimLeft t)).bind fun v => f (Text.blank v)) =
      (expand vars debug depth trace t).bind fun v => f (Text.blank v) := by
  induction t with
  | nil => rfl
  | cons a t ih =>
    cases ha : Text.isBlank a with
    | false => rw [Text.trimLeft, List.dropWhile_cons_of_neg (by simp [ha])]
    | true =>
      have hdollar : a ≠ '$' := by
        rintro rfl
        cases ha
      have hblank : ∀ v, Text.blank (a :: v) = Text.blank v := fun v => by simp [Text.blank, ha]
      have htrim : Text.trimLeft (a :: t) = Text.trimLeft t := List.dropWhile_cons_of_pos ha
      rw [htrim, ih, expand_cons_of_ne hdollar, bind_assoc]
      simp only [done_bind, hblank]

theorem pieces_conditional (hc : AllBalanced c) (ht : AllBalanced t) (he : AllBalanced e) :
    pieces (conditional c t e).source = [.reference (conditional c t e)] := by
  have hbody : AllBalanced (conditional c t e).body := by
    have hname : AllBalanced (Builtin.cond.name ++ [' ']) := by decide
    have hcomma : AllBalanced [','] := by decide
    have hbranches := hcomma.append (ht.append (hcomma.append he))
    simpa [conditional] using (hname.append hc).append hbranches
  exact Bracket.Balanced.pieces_source (hbody _)

/-- To derive a conditional is to derive its condition and then the branch that this chooses. -/
theorem expand_conditional (hc : IsArgument c) (ht : IsArgument t) (he : AllBalanced e) :
    let inside := expand vars debug depth (trace ++ [(conditional c t e).source])
    expand vars debug (depth + 1) trace (conditional c t e).source =
      (inside c).bind fun v => inside (if Text.blank v then e else t) := by
  intro inside
  have hbody : (conditional c t e).body =
      Builtin.cond.name ++ ' ' :: (c ++ ',' :: (t ++ ',' :: e)) := by
    simp [conditional]
  have hargs : Builtin.arguments (Text.trimLeft (c ++ ',' :: (t ++ ',' :: e))) =
      Text.trimLeft c :: t :: Builtin.arguments e := by
    rw [Text.trimLeft_append_cons (by decide), hc.trimLeft.arguments_append, ht.arguments_append]
  have hchosen : ∀ blank, Builtin.chosen? blank (t :: Builtin.arguments e) =
      some (if blank then e else t) := by
    rintro (_ | _)
    · rfl
    · exact congrArg some (Builtin.join_arguments e)
  rw [expand_reference (pieces_conditional hc.balanced ht.balanced he), resolve_succ, hbody,
    Builtin.ofBody?_name]
  dsimp only
  rw [hargs, Builtin.call, Builtin.branch_cons]
  simp only [hchosen, Option.map_some, Option.getD_some]
  exact expand_trimLeft (fun blank => inside (if blank then e else t)) c

/-! ## The conditional around an error -/

/-- The two errors are of one fault at one reference. Where `w` is the outermost reference around
the first error, `w'` may be that around the second one, and is quoted in its place. -/
structure Error.Requoted (w w' : Text) (x x' : Error) : Prop where
  fault : x.fault = x'.fault
  reference : x.reference = x'.reference
  trace : x.trace = x'.trace ∨ ∃ inside, x.trace = w :: inside ∧ x'.trace = w' :: inside
  message : x.message = x'.message ∨ ∃ before after,
    x.message = before ++ w ++ after ∧ x'.message = before ++ w' ++ after

namespace Error.Requoted

variable {w w' : Text}

theorem refl (x : Error) : Requoted w w' x x :=
  ⟨rfl, rfl, .inl rfl, .inl rfl⟩

theorem of_fault (fault : Fault) (reference : Text) (inside : List Text) (debug : Bool) :
    Requoted w w' ⟨fault, reference, w :: inside, debug⟩
      ⟨fault, reference, w' :: inside, debug⟩ := by
  refine ⟨rfl, rfl, .inr ⟨inside, rfl, rfl⟩, ?_⟩
  cases debug with
  | false => exact .inl rfl
  | true =>
    obtain ⟨after, hafter⟩ := Text.exists_join_cons " -> " inside
    have htold : ∀ u, Error.message ⟨fault, reference, u :: inside, true⟩ =
        fault.message ++ "\n  while deriving " ++ u ++ after := fun u => by
      rw [List.append_assoc, ← hafter]
      rfl
    exact .inr ⟨_, after, htold w, htold w'⟩

end Error.Requoted

/-- Inside the one or the other reference a text asks the same questions and ends alike. -/
theorem agree_inside (w w' t : Text) :
    Agree (Error.Requoted w w') (expand vars debug depth [w] t)
      (expand vars debug depth [w'] t) := by
  apply (Agree.congruence Error.Requoted.refl).expand_of_failed
  intro α fault reference inside
  exact .failed (.of_fault fault reference inside debug)

end Derivation

/-- On the host, from this state on, the two references end alike, but for a message that quotes the
one or the other. -/
def Reference.DerivesAs (ref ref' : Reference) (vars : Variables) (debug : Bool) (h : Host σ)
    (s : σ) : Prop :=
  h.EndAlike (Derivation.Error.Requoted ref.source ref'.source) (derive vars debug ref.source)
    (derive vars debug ref'.source) s

variable {h : Host σ} {s s' : σ} {v t' : Text}

theorem derive_conditional (vars : Variables) (debug : Bool) (hc : IsArgument c)
    (ht : IsArgument t) (he : AllBalanced e) :
    let inside := Derivation.expand vars debug (depthLimit - 1) [(conditional c t e).source]
    derive vars debug (conditional c t e).source =
      (inside c).bind fun v => inside (if Text.blank v then e else t) :=
  Derivation.expand_conditional hc ht he

/-- Two conditionals that choose one text end alike. -/
theorem conditional_derivesAs (hc : IsArgument c) (ht : IsArgument t) (ht' : IsArgument t')
    (he : AllBalanced e) (he' : AllBalanced e')
    (hv : h.derive (derive vars debug c) s = (.ok (.ok v), s'))
    (hchosen : (if Text.blank v then e else t) = if Text.blank v then e' else t') :
    (conditional c t e).DerivesAs (conditional c t' e') vars debug h s := by
  rw [Reference.DerivesAs, derive_conditional vars debug hc ht he,
    derive_conditional vars debug hc ht' he']
  apply ((Derivation.agree_inside _ _ c).endAlike h s).bind
  intro a s₁ ha
  -- with less room the condition can have no other value than by itself
  have hvalue : h.derive (derive vars debug c) s = (.ok (.ok a), s₁) :=
    (Derivation.outlasts_expand (Nat.sub_le depthLimit 1) c).derive_eq_ok ha
  cases hvalue.symm.trans hv
  rw [hchosen]
  exact (Derivation.agree_inside _ _ _).endAlike h _

/-- The shell is handed what the condition hands it by itself, and then the chosen branch. -/
theorem calls_conditional (hc : IsArgument c) (ht : IsArgument t) (he : AllBalanced e)
    (hv : h.derive (derive vars debug c) s = (.ok (.ok v), s')) :
    h.calls (derive vars debug (conditional c t e).source) s <+:
      h.calls (derive vars debug c) s ++
        h.calls (derive vars debug (if Text.blank v then e else t)) s' := by
  have hroom := Nat.sub_le depthLimit 1
  have hcalls := h.calls_bind (derive vars debug c)
    (fun v => derive vars debug (if Text.blank v then e else t)) s
  rw [hv] at hcalls
  rw [derive_conditional vars debug hc ht he, ← hcalls]
  apply Derivation.Outlasts.calls_prefix
  apply (Derivation.outlasts_expand hroom c).bind
  exact fun v => Derivation.outlasts_expand hroom _

/-- The branch of a conditional that is not chosen does not matter. A condition whose value is not
blank chooses the first branch, and one with a blank value all that is behind the second comma. -/
theorem unchosen_branch_idle (vars : Variables) (debug : Bool) (hc : IsArgument c)
    (ht : IsArgument t) (he : AllBalanced e) :
    (let inside := Derivation.expand vars debug (depthLimit - 1) [(conditional c t e).source]
    derive vars debug (conditional c t e).source =
      (inside c).bind fun v => inside (if Text.blank v then e else t)) ∧
    ∀ {σ : Type} (h : Host σ) (s s' : σ) (v : Text),
      h.derive (derive vars debug c) s = (.ok (.ok v), s') →
        h.calls (derive vars debug (conditional c t e).source) s <+:
          h.calls (derive vars debug c) s ++
            h.calls (derive vars debug (if Text.blank v then e else t)) s' ∧
        (Text.blank v = false → ∀ e', AllBalanced e' →
          (conditional c t e).DerivesAs (conditional c t e') vars debug h s) ∧
        (Text.blank v = true → ∀ t', IsArgument t' →
          (conditional c t e).DerivesAs (conditional c t' e) vars debug h s) := by
  refine ⟨derive_conditional vars debug hc ht he, fun h s s' v hv => ?_⟩
  refine ⟨calls_conditional hc ht he hv, ?_, ?_⟩
  · intro hblank e' he'
    apply conditional_derivesAs hc ht ht he he' hv
    rw [hblank]
    rfl
  · intro hblank t' ht'
    apply conditional_derivesAs hc ht ht' he he hv
    rw [hblank]
    rfl

/-- A variable that conditions can be made of. -/
def fastMode : Variables :=
  NameMap.ofPairs [("MODE", "fast")]

/-- On a host where every command fails, the branch that is not chosen runs none. -/
theorem unchosen_branch_idle_fastMode :
    let h := Host.answering fun _ => 1
    let chosen := conditional " $(MODE)" "cc $(addprefix -O,2)" "$(shell rm a),{b,c},$(NOPE)"
    let otherwise := conditional "$(filter slow,$(MODE))" "$(shell rm a)" "b,$(MODE)"
    h.calls (derive fastMode true chosen.source) () = [] ∧
      chosen.DerivesAs (conditional " $(MODE)" "cc $(addprefix -O,2)" "") fastMode true h () ∧
      otherwise.DerivesAs (conditional "$(filter slow,$(MODE))" "" "b,$(MODE)") fastMode true h
        () := by
  intro h chosen otherwise
  have hfast : h.derive (derive fastMode true " $(MODE)") () = (.ok (.ok " fast".toList), ()) := by
    decide +kernel
  have hslow : h.derive (derive fastMode true "$(filter slow,$(MODE))") () =
      (.ok (.ok []), ()) := by
    decide +kernel
  have hcalls : h.calls (derive fastMode true " $(MODE)") () ++
      h.calls (derive fastMode true "cc $(addprefix -O,2)") () = [] := by
    decide +kernel
  have hshapes : (IsArgument " $(MODE)" ∧ IsArgument "cc $(addprefix -O,2)" ∧
      AllBalanced "$(shell rm a),{b,c},$(NOPE)") ∧
      IsArgument "$(filter slow,$(MODE))" ∧ IsArgument "$(shell rm a)" ∧
        AllBalanced "b,$(MODE)" := by
    decide +kernel
  obtain ⟨⟨hc, ht, he⟩, hc', ht', he'⟩ := hshapes
  obtain ⟨hhanded, hchosen, -⟩ :=
    (unchosen_branch_idle fastMode true hc ht he).2 h () () " fast" hfast
  obtain ⟨-, -, hotherwise⟩ := (unchosen_branch_idle fastMode true hc' ht' he').2 h () () [] hslow
  refine ⟨?_, hchosen (by decide) [] (by decide), hotherwise (by decide) [] (by decide)⟩
  exact List.prefix_nil.1 (hcalls ▸ hhanded)

end Haybuild
