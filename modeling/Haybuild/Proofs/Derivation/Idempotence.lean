import Haybuild.Proofs.Derivation.Call
import Haybuild.Proofs.Derivation.Feed

/-!
# Deriving a value again

A value in which a reference starts is not the value of itself. There are two ways in which one can
come about, though no reference is left in the parts it is made of: a dollar at the end of a value
meets a character that takes it (`Seam`), or a call puts a dollar and such a character together
(`Forges`). If no text behind a value has such a seam or call, the value is settled
(`settled_of_derive`), and deriving it again under any variables gives it back.
-/

namespace Haybuild

variable {vars : Variables} {debug debug' : Bool} {depth : Nat} {trace : List Text}
  {ref : Reference} {b : Builtin} {t u v : Text} {segs : List Segment}

/-- In the text the value of a reference ends with a lone dollar, and what follows it takes that
dollar. -/
def Seam (vars : Variables) (t : Text) : Prop :=
  ∃ before ref value after c,
    Derivation.expandSegments vars false depthLimit [] t =
        .done (before ++ ⟨.reference ref, value⟩ :: after) ∧
      EndsLone value ∧ (Segment.valueOf after).head? = some c ∧ takesDollar c

/-- In the text a call puts parts of settled values together to a value in which a reference starts:
there is a lone dollar among the parts, or the call writes one part before every character. -/
def Forges (vars : Variables) (t : Text) : Prop :=
  ∃ ref b args n values v,
    .reference ref ∈ pieces t ∧ Builtin.ofBody? ref.body = some (b, args) ∧ b.arity? = some n ∧
      List.Forall₂ (Derives vars) (Builtin.soakUp n (Builtin.arguments args)) values ∧
      (∀ a ∈ values, Settled a) ∧ b.Glues ∧ ((∃ a ∈ values, ¬Paired a) ∨ b.Spreads values) ∧
      b.apply values = .done v ∧ ¬Settled v

/-- A reference can start in the value of the text, for one of the texts behind it joins a dollar
and a bracket that were apart. -/
def Flawed (vars : Variables) (t : Text) : Prop :=
  ∃ u, Feeds vars u t ∧ (Seam vars u ∨ Forges vars u)

theorem Flawed.raw {name raw : Text} (href : .reference ref ∈ pieces t)
    (hbody : Builtin.ofBody? ref.body = none) (hname : Derives vars ref.body name)
    (hraw : vars.get? (Text.trim name) = some raw) (H : Flawed vars raw) : Flawed vars t := by
  obtain ⟨u, hu, hflaw⟩ := H
  exact ⟨u, .raw href hbody hname hraw hu, hflaw⟩

theorem Flawed.argument {args a : Text} (href : .reference ref ∈ pieces t)
    (hbody : Builtin.ofBody? ref.body = some (b, args))
    (htakes : b.Takes vars (Builtin.arguments args) a) (H : Flawed vars a) : Flawed vars t := by
  obtain ⟨u, hu, hflaw⟩ := H
  exact ⟨u, .argument href hbody htakes hu, hflaw⟩

/-! ## Seams -/

/-- A dollar that stands alone in the text is followed by a character that does not take it. -/
theorem head_valueOf_of_lone {before after : List Segment} {value : Text} {c : Char}
    (hsegs : Derivation.expandSegments vars debug depth trace t =
      .done (before ++ ⟨.literal '$', value⟩ :: after))
    (hc : (Segment.valueOf after).head? = some c) : takesDollar c = false := by
  obtain ⟨hpieces, hfills⟩ := Derivation.expandSegments_eq_done_iff.1 hsegs
  rw [List.map_append, List.map_cons] at hpieces
  have hlone := (pieces_eq_append hpieces.symm).2.symm
  rcases pieces_eq_lone_cons hlone with ⟨-, hnil⟩ | ⟨d, r, hd, -, hafter⟩
  · rw [List.map_eq_nil_iff.1 hnil] at hc
    cases hc
  · obtain ⟨⟨_, x⟩, rest, rfl, rfl, -⟩ := List.map_eq_cons_iff.1 hafter
    have hx : x = [d] := hfills ⟨.literal d, x⟩ (by simp)
    rw [hx] at hc
    cases hc
    exact hd

/-- Settled values make a settled value if there is no seam between them. -/
theorem settled_valueOf (hsegs : Derivation.expandSegments vars false depthLimit [] t = .done segs)
    (hsettled : ∀ s ∈ segs, Settled s.value) (hseam : ¬Seam vars t) :
    Settled (Segment.valueOf segs) := by
  -- from the end of the text to its start, with the segments before in view
  suffices H : ∀ after before, segs = before ++ after → Settled (Segment.valueOf after) from
    H segs [] rfl
  intro after
  induction after with
  | nil => exact fun _ _ => tame_nil
  | cons s after ih =>
    intro before hsplit
    obtain ⟨p, value⟩ := s
    have hvalue : Settled value := hsettled ⟨p, value⟩ (by simp [hsplit])
    have hfill := (Derivation.expandSegments_eq_done_iff.1 hsegs).2 ⟨p, value⟩ (by simp [hsplit])
    refine hvalue.append (ih (before ++ [⟨p, value⟩]) (by simp [hsplit])) fun hends c hc => ?_
    rw [hsplit] at hsegs
    cases p with
    | literal d =>
      obtain rfl : value = [d] := hfill
      by_cases hd : d = '$'
      · subst hd
        exact head_valueOf_of_lone hsegs hc
      · rw [endsLone_cons_of_ne hd, EndsLone, pieces_nil] at hends
        cases hends
    | pair =>
      obtain rfl : value = ['$', '$'] := hfill
      rw [endsLone_pair, EndsLone, pieces_nil] at hends
      cases hends
    | reference ref =>
      by_contra htakes
      exact hseam ⟨before, ref, value, after, c, hsegs, hends, hc, by simpa using htakes⟩
    | unterminated => exact hfill.elim

/-! ## Calls and references -/

/-- What a call makes of settled arguments is settled, or the text that holds the call forges. -/
theorem settled_of_apply {args : Text} {n : Nat} {values : List Text}
    (href : .reference ref ∈ pieces t) (hbody : Builtin.ofBody? ref.body = some (b, args))
    (hn : b.arity? = some n)
    (hvalues : List.Forall₂ (Derives vars) (Builtin.soakUp n (Builtin.arguments args)) values)
    (hsettled : ∀ a ∈ values, Settled a) (happly : b.apply values = .done v) :
    Settled v ∨ Forges vars t := by
  by_cases hglues : b.Glues
  · by_cases hsafe : (∀ a ∈ values, Paired a) ∧ ¬b.Spreads values
    · exact .inl (Builtin.paired_of_apply hglues hsafe.2 hsafe.1 happly).settled
    · by_cases hv : Settled v
      · exact .inl hv
      · refine .inr ⟨ref, b, args, n, values, v, href, hbody, hn, hvalues, hsettled, hglues, ?_,
          happly, hv⟩
        by_contra hno
        push Not at hno
        exact hsafe ⟨hno.1, hno.2⟩
  · exact .inl (Builtin.tame_of_apply hglues hsettled happly)

/-- A value is settled if those of its references are, unless the text is flawed. -/
theorem settled_of_expand_of_resolve (hd : depth ≤ depthLimit)
    (hres : ∀ ref value, .reference ref ∈ pieces t →
      Derivation.resolve vars debug depth trace ref = .done value → Settled value ∨ Flawed vars t)
    (h : Derivation.expand vars debug depth trace t = .done v) : Settled v ∨ Flawed vars t := by
  by_cases hflaw : Flawed vars t
  · exact .inr hflaw
  · obtain ⟨segs, hsegs, rfl⟩ := Derivation.expand_eq_done_iff.1 h
    obtain ⟨hpieces, hfills⟩ := Derivation.expandSegments_eq_done_iff.1 hsegs
    refine .inl (settled_valueOf (Derivation.expandSegments_mono hd hsegs) (fun s hs => ?_)
      fun hseam => hflaw ⟨t, .refl, .inl hseam⟩)
    have hfill := hfills s hs
    obtain ⟨p, value⟩ := s
    cases p with
    | literal c =>
      obtain rfl : value = [c] := hfill
      by_cases hc : c = '$'
      · subst hc
        exact tame_dollar.2 rfl
      · exact tame_of_notMem (by simpa using Ne.symm hc)
    | pair =>
      obtain rfl : value = ['$', '$'] := hfill
      exact tame_pair.2 tame_nil
    | reference ref =>
      have href : .reference ref ∈ pieces t := hpieces ▸ List.mem_map_of_mem hs
      exact (hres ref value href hfill).resolve_right hflaw
    | unterminated => exact hfill.elim

/-- The value of a reference is settled, or the text that holds the reference is flawed. -/
theorem settled_of_resolve (hd : depth ≤ depthLimit) (href : .reference ref ∈ pieces t)
    (h : Derivation.resolve vars debug depth trace ref = .done v) :
    Settled v ∨ Flawed vars t := by
  induction depth generalizing trace ref t v with
  | zero => simp [Derivation.resolve] at h
  | succ depth ih =>
    have hd' : depth ≤ depthLimit := Nat.le_of_succ_le hd
    have hexpand : ∀ {trace a value}, Derivation.expand vars debug depth trace a = .done value →
        Settled value ∨ Flawed vars a :=
      settled_of_expand_of_resolve hd' fun ref value => ih hd'
    rcases Derivation.resolve_eq_done_iff.1 h with
      ⟨b, args, hbody, hcall⟩ | ⟨hbody, name, raw, hname, hraw, hv⟩
    · rcases Builtin.call_eq_done_iff.1 hcall with
        ⟨rfl, hbranch⟩ | ⟨n, values, hn, -, hvalues, happly⟩
      · rcases Builtin.branch_eq_done_iff.1 hbranch with
          ⟨-, rfl⟩ | ⟨condition, branches, value, hargs, hvalue, ⟨a, hchosen, ha⟩ | ⟨-, rfl⟩⟩
        · exact .inl tame_nil
        · exact (hexpand ha).imp_right
            (.argument href hbody (.branch hargs (derives_of_expand hd' hvalue) hchosen))
        · exact .inl tame_nil
      · by_cases hflaw : Flawed vars t
        · exact .inr hflaw
        have hsettled : ∀ value ∈ values, Settled value := fun value hvalue => by
          obtain ⟨a, ha, hav⟩ := exists_of_forall₂_of_mem hvalues hvalue
          exact (hexpand hav).resolve_right fun H =>
            hflaw (.argument href hbody (.argument hn ha) H)
        exact (settled_of_apply href hbody hn (hvalues.imp fun _ _ => derives_of_expand hd')
          hsettled happly).imp_right fun H => ⟨t, .refl, .inr H⟩
    · exact (hexpand hv).imp_right (.raw href hbody (derives_of_expand hd' hname) hraw)

/-- A value is settled, or the text is flawed. -/
theorem settled_of_derive (h : derive vars debug t = .done v) : Settled v ∨ Flawed vars t :=
  settled_of_expand_of_resolve (Nat.le_refl _) (fun _ _ => settled_of_resolve (Nat.le_refl _)) h

/-- Deriving a value again, under whatever variables, gives it back, unless one of the texts behind
the value puts a dollar and a bracket together that were apart. -/
theorem derive_again (h : derive vars debug t = .done v) :
    (∀ vars' debug', derive vars' debug' v = .done v) ∨
      ∃ u, Feeds vars u t ∧ (Seam vars u ∨ Forges vars u) :=
  (settled_of_derive h).imp_left fun H _ _ => derive_of_settled _ _ H

/-- The variable `A` holds a dollar. -/
def dollarVariable : Variables := NameMap.ofPairs [("A", "$")]

/-- The dollar that `$(A)` stands for meets a bracket, and they start a reference to `A`. -/
theorem derive_again_dollarVariable :
    derive dollarVariable false "$(A)(A)" = .done "$(A)" ∧
      ∃ u, Feeds dollarVariable u "$(A)(A)" ∧
        (Seam dollarVariable u ∨ Forges dollarVariable u) := by
  have hfirst : derive dollarVariable false "$(A)(A)" = .done "$(A)" := by decide +kernel
  have hagain : derive dollarVariable false "$(A)" = .done "$" := by decide +kernel
  refine ⟨hfirst, (derive_again hfirst).resolve_left fun h => ?_⟩
  have hsame := hagain.symm.trans (h dollarVariable false)
  exact absurd (Derivation.done.inj hsame) (by decide)

/-- Deriving is not idempotent. -/
theorem derive_again_ne :
    derive dollarVariable false "$(A)(A)" = .done "$(A)" ∧
      derive dollarVariable false "$(A)" ≠ .done "$(A)" := by
  decide +kernel

end Haybuild
