import Haybuild.Proofs.Derivation.Feed
import Haybuild.Proofs.Derivation.Settled
import Haybuild.Proofs.NameMap

/-!
# The escape discipline

In a proper text every dollar is one of a pair or starts a reference that is closed. If a line and
the raw texts of the variables are proper and no call is made for its value, the value is made of
the pieces written in these texts, each reference giving way to the pieces of the raw text that it
names (`Stands`). So each of its dollars is one of a pair that was written, and the value is
unescaped piece by piece (`derive_escaped`).
-/

namespace Haybuild

variable {vars : Variables} {debug : Bool} {depth : Nat} {trace : List Text} {ref : Reference}
  {s t v value : Text} {p : Piece} {ps qs ws xs : List Piece} {segs : List Segment}

namespace Piece

/-- The piece is no dollar that stands alone and no reference that is left open. -/
def Proper : Piece → Prop
  | literal c => c ≠ '$'
  | pair | reference _ => True
  | unterminated _ _ => False

instance : DecidablePred Proper
  | literal c => inferInstanceAs (Decidable (c ≠ '$'))
  | pair | reference _ => isTrue trivial
  | unterminated _ _ => isFalse id

/-- The piece is no reference that makes a call. -/
def CallFree : Piece → Prop
  | reference ref => Builtin.ofBody? ref.body = none
  | _ => True

instance : DecidablePred CallFree
  | reference ref => inferInstanceAs (Decidable (Builtin.ofBody? ref.body = none))
  | literal _ | pair | unterminated _ _ => isTrue trivial

end Piece

/-- Every dollar of the text starts a pair or a reference that is closed. -/
def Proper (t : Text) : Prop :=
  ∀ p ∈ pieces t, p.Proper

/-- No text behind the value of the text makes a call. -/
def CallFree (vars : Variables) (t : Text) : Prop :=
  ∀ u, Feeds vars u t → ∀ p ∈ pieces u, p.CallFree

theorem CallFree.raw {name raw : Text} (H : CallFree vars t) (href : .reference ref ∈ pieces t)
    (hname : Derives vars ref.body name) (hraw : vars.get? (Text.trim name) = some raw) :
    CallFree vars raw :=
  fun u hu => H u (.raw href (H t .refl _ href) hname hraw hu)

/-- Where neither the line nor any raw text makes a call, none is made. -/
theorem callFree_of_forall (ht : ∀ p ∈ pieces t, p.CallFree)
    (hvars : ∀ e ∈ vars.entries, ∀ p ∈ pieces e.2, p.CallFree) : CallFree vars t := by
  intro u hu
  induction hu with
  | refl => exact ht
  | raw href hbody hname hraw _ ih => exact ih (hvars _ (NameMap.get?_eq_some_iff.1 hraw))
  | argument href hbody => exact absurd ((ht _ href).symm.trans hbody) (by simp)

/-! ## What stands for a reference -/

/-- The second row of pieces is the first one with each reference replaced by what stands for the
pieces of the raw text that it names. -/
inductive Stands (vars : Variables) : List Piece → List Piece → Prop
  | nil : Stands vars [] []
  | keep {p : Piece} {ps ws : List Piece} :
      ¬p.Opens → Stands vars ps ws → Stands vars (p :: ps) (p :: ws)
  | fill {ref : Reference} {name raw : Text} {xs ps ws : List Piece} :
      Derives vars ref.body name → vars.get? (Text.trim name) = some raw →
      Stands vars (pieces raw) xs → Stands vars ps ws →
      Stands vars (.reference ref :: ps) (xs ++ ws)

theorem Stands.append (H : Stands vars ps ws) (H' : Stands vars qs xs) :
    Stands vars (ps ++ qs) (ws ++ xs) := by
  induction H with
  | nil => exact H'
  | keep hp _ ih => exact .keep hp ih
  | fill hname hraw hfill _ _ ih =>
    rw [List.append_assoc]
    exact .fill hname hraw hfill ih

/-- The text is written with paired pieces that stand for the given ones. -/
def WrittenAs (vars : Variables) (ps : List Piece) (v : Text) : Prop :=
  ∃ ws, Stands vars ps ws ∧ (∀ p ∈ ws, p.Tame false) ∧ ws.flatMap Piece.source = v

theorem WrittenAs.append (H : WrittenAs vars ps s) (H' : WrittenAs vars qs t) :
    WrittenAs vars (ps ++ qs) (s ++ t) := by
  obtain ⟨ws, hws, hpaired, rfl⟩ := H
  obtain ⟨xs, hxs, hpaired', rfl⟩ := H'
  exact ⟨ws ++ xs, hws.append hxs, List.forall_mem_append.2 ⟨hpaired, hpaired'⟩,
    List.flatMap_append⟩

/-- A text written with paired pieces has these pieces. -/
theorem pieces_flatMap_source (h : ∀ p ∈ ps, p.Tame false) :
    pieces (ps.flatMap Piece.source) = ps := by
  induction ps with
  | nil => exact pieces_nil
  | cons p ps ih =>
    obtain ⟨hp, hps⟩ := List.forall_mem_cons.1 h
    rw [List.flatMap_cons]
    cases p with
    | literal c =>
      have hc : c ≠ '$' := by simpa [Piece.Tame] using hp
      exact (pieces_cons_of_ne hc _).trans (congrArg _ (ih hps))
    | pair => exact (pieces_pair _).trans (congrArg _ (ih hps))
    | reference | unterminated => exact hp.elim

theorem WrittenAs.paired (H : WrittenAs vars ps v) : Paired v := by
  obtain ⟨ws, -, hpaired, rfl⟩ := H
  rwa [Paired, Tame, pieces_flatMap_source hpaired]

/-! ## Values of proper texts -/

theorem writtenAs_valueOf (h : ∀ s ∈ segs, WrittenAs vars [s.piece] s.value) :
    WrittenAs vars (segs.map Segment.piece) (Segment.valueOf segs) := by
  induction segs with
  | nil => exact ⟨[], .nil, by simp, rfl⟩
  | cons s segs ih =>
    obtain ⟨hs, hsegs⟩ := List.forall_mem_cons.1 h
    exact hs.append (ih hsegs)

/-- What stands for a piece of a proper text, if it is known what stands for a reference. -/
theorem writtenAs_of_fills {resolve : Reference → Derivation Text} {s : Segment}
    (hproper : s.piece.Proper)
    (hres : ∀ ref, s.piece = .reference ref → resolve ref = .done s.value →
      WrittenAs vars [.reference ref] s.value)
    (h : Derivation.Fills resolve s) : WrittenAs vars [s.piece] s.value := by
  obtain ⟨p, value⟩ := s
  cases p with
  | literal c =>
    obtain rfl : value = [c] := h
    exact ⟨[.literal c], .keep id .nil, by simpa [Piece.Tame, Piece.Proper] using hproper, rfl⟩
  | pair =>
    obtain rfl : value = ['$', '$'] := h
    exact ⟨[.pair], .keep id .nil, by simp [Piece.Tame], rfl⟩
  | reference ref => exact hres ref rfl h
  | unterminated => exact h.elim

/-- The value of a reference is written with the pieces that stand for it. -/
theorem writtenAs_of_resolve (hd : depth ≤ depthLimit)
    (hvars : ∀ name raw, vars.get? name = some raw → Proper raw) (hcalls : CallFree vars t)
    (href : .reference ref ∈ pieces t)
    (h : Derivation.resolve vars debug depth trace ref = .done value) :
    WrittenAs vars [.reference ref] value := by
  induction depth generalizing trace ref t value with
  | zero => simp [Derivation.resolve] at h
  | succ depth ih =>
    have hd' : depth ≤ depthLimit := Nat.le_of_succ_le hd
    have hbody := hcalls t .refl _ href
    rcases Derivation.resolve_eq_done_iff.1 h with
      ⟨b, args, hcall, -⟩ | ⟨-, name, raw, hname, hraw, hv⟩
    · exact absurd (Eq.trans (Eq.symm hbody) hcall) (by simp)
    · have hname := derives_of_expand hd' hname
      obtain ⟨segs, hsegs, rfl⟩ := Derivation.expand_eq_done_iff.1 hv
      obtain ⟨hpieces, hfills⟩ := Derivation.expandSegments_eq_done_iff.1 hsegs
      have hmem : ∀ s ∈ segs, s.piece ∈ pieces raw := fun s hs =>
        hpieces ▸ List.mem_map_of_mem hs
      have hwritten := writtenAs_valueOf fun s hs =>
        writtenAs_of_fills (hvars _ _ hraw _ (hmem s hs))
          (fun ref' hp => ih hd' (hcalls.raw href hname hraw) (hp ▸ hmem s hs)) (hfills s hs)
      rw [hpieces] at hwritten
      obtain ⟨ws, hws, hpaired, hv⟩ := hwritten
      exact ⟨ws ++ [], .fill hname hraw hws .nil, by simpa using hpaired, by simpa using hv⟩

/-- A piece on its own has the value it has in its text. -/
theorem derive_source {s : Segment} (h : s.piece ∈ pieces t)
    (hfill : Derivation.Fills (Derivation.resolve vars debug depthLimit []) s) :
    derive vars debug s.piece.source = .done s.value := by
  have hsegs : Derivation.expandSegments vars debug depthLimit [] s.piece.source = .done [s] :=
    Derivation.expandSegments_eq_done_iff.2
      ⟨by rw [pieces_source h, List.map_singleton], by simpa using hfill⟩
  exact Derivation.expand_eq_done_iff.2 ⟨[s], hsegs, by simp [Segment.valueOf]⟩

/-- Unescaping respects the boundary behind a paired text. -/
theorem unescapeDollars_append (hs : Paired s) (ht : Paired t) :
    unescapeDollars (s ++ t) = unescapeDollars s ++ unescapeDollars t := by
  rw [unescapeDollars_of_settled (hs.append ht).settled, unescapeDollars_of_settled hs.settled,
    unescapeDollars_of_settled ht.settled,
    pieces_append hs.not_opens fun h => absurd h hs.not_endsLone, List.flatMap_append]

theorem unescapeDollars_valueOf (h : ∀ s ∈ segs, Paired s.value) :
    Paired (Segment.valueOf segs) ∧
      unescapeDollars (Segment.valueOf segs) =
        (segs.map Segment.value).flatMap unescapeDollars := by
  induction segs with
  | nil => exact ⟨tame_nil, rfl⟩
  | cons s segs ih =>
    obtain ⟨hs, hsegs⟩ := List.forall_mem_cons.1 h
    obtain ⟨hpaired, hunescape⟩ := ih hsegs
    refine ⟨Paired.append hs hpaired, ?_⟩
    calc unescapeDollars (s.value ++ Segment.valueOf segs)
        = unescapeDollars s.value ++ unescapeDollars (Segment.valueOf segs) :=
          unescapeDollars_append hs hpaired
      _ = ((s :: segs).map Segment.value).flatMap unescapeDollars := by
          rw [hunescape, List.map_cons, List.flatMap_cons]

/-- If the line and the raw texts are proper and no call is made, the value consists of characters
other than the dollar and of pairs of dollars that were written in these texts. It derives to itself
under any variables. Unescaping it unescapes the values of the pieces of the line one by one, and
gives one dollar for each pair that was written. -/
theorem derive_escaped (ht : Proper t)
    (hvars : ∀ name raw, vars.get? name = some raw → Proper raw) (hcalls : CallFree vars t)
    (h : derive vars debug t = .done v) :
    (∀ vars' debug', derive vars' debug' v = .done v) ∧
      (∃ values,
        List.Forall₂ (fun p value => derive vars debug p.source = .done value) (pieces t) values ∧
          v = values.flatten ∧ unescapeDollars v = values.flatMap unescapeDollars) ∧
      ∃ written, Stands vars (pieces t) written ∧
        (∀ p ∈ written, p = .pair ∨ ∃ c, c ≠ '$' ∧ p = .literal c) ∧
          v = written.flatMap Piece.source ∧ unescapeDollars v = written.flatMap Piece.said := by
  obtain ⟨segs, hsegs, rfl⟩ := Derivation.expand_eq_done_iff.1 h
  obtain ⟨hpieces, hfills⟩ := Derivation.expandSegments_eq_done_iff.1 hsegs
  have hmem : ∀ s ∈ segs, s.piece ∈ pieces t := fun s hs => hpieces ▸ List.mem_map_of_mem hs
  have hwritten : ∀ s ∈ segs, WrittenAs vars [s.piece] s.value := fun s hs =>
    writtenAs_of_fills (ht _ (hmem s hs))
      (fun ref hp => writtenAs_of_resolve (Nat.le_refl _) hvars hcalls (hp ▸ hmem s hs))
      (hfills s hs)
  have hall : WrittenAs vars (pieces t) (Segment.valueOf segs) :=
    hpieces ▸ writtenAs_valueOf hwritten
  have hpaired := hall.paired
  refine ⟨fun vars' debug' => derive_of_settled vars' debug' hpaired.settled,
    ⟨segs.map Segment.value, ?_, rfl,
      (unescapeDollars_valueOf fun s hs => (hwritten s hs).paired).2⟩, ?_⟩
  · rw [← hpieces, List.forall₂_map_left_iff, List.forall₂_map_right_iff, List.forall₂_same]
    exact fun s hs => derive_source (hmem s hs) (hfills s hs)
  · obtain ⟨ws, hws, htame, hv⟩ := hall
    have hpiecesv : pieces (Segment.valueOf segs) = ws := hv ▸ pieces_flatMap_source htame
    refine ⟨ws, hws, ?_, hv.symm, ?_⟩
    · rw [← hpiecesv]
      exact paired_iff.1 hpaired
    · rw [unescapeDollars_of_settled hpaired.settled, hpiecesv]

/-- The price of an order, with the dollars of the currency escaped. -/
def orderVariables : Variables :=
  NameMap.ofPairs [("ITEM", "tea"), ("PRICE", "$$5"), ("ORDER", "$(ITEM) at ${PRICE}")]

theorem derive_escaped_order :
    derive orderVariables false "$(ORDER), $$1 more" = .done "tea at $$5, $$1 more" ∧
      ∀ vars debug, derive vars debug "tea at $$5, $$1 more" = .done "tea at $$5, $$1 more" := by
  have h : derive orderVariables false "$(ORDER), $$1 more" = .done "tea at $$5, $$1 more" := by
    decide +kernel
  have ht : Proper "$(ORDER), $$1 more" := by
    unfold Proper
    decide +kernel
  have hvars : ∀ e ∈ orderVariables.entries, ∀ p ∈ pieces e.2, p.Proper ∧ p.CallFree := by
    decide +kernel
  have hcalls : CallFree orderVariables "$(ORDER), $$1 more" :=
    callFree_of_forall (by decide +kernel) fun e he p hp => (hvars e he p hp).2
  have hraw : ∀ name raw, orderVariables.get? name = some raw → Proper raw :=
    fun name raw hget p hp => (hvars _ (NameMap.get?_eq_some_iff.1 hget) p hp).1
  exact ⟨h, (derive_escaped ht hraw hcalls h).1⟩

end Haybuild
