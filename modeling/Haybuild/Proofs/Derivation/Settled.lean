import Haybuild.Derivation.Expand
import Haybuild.Proofs.Derivation.Piece

/-!
# Settled texts

A text in which no reference starts is settled: it derives to itself, under any variables
(`derive_of_settled`). It is paired if, moreover, every dollar is one of a pair. Both are cases of
`Tame`, which is kept where a text is cut at a character other than the dollar (`Tame.cut`) and
where texts are put together so that no dollar is taken across the seam (`Tame.append`). Of three
paired texts, two and their concatenation, each follows from the other two.
-/

namespace Haybuild

variable {lone : Bool} {c : Char} {s t : Text} {p : Piece} {ps : List Piece}

namespace Piece

/-- No reference starts with the piece, and it is a dollar that stands alone only if `lone` allows
that. -/
def Tame (lone : Bool) : Piece → Prop
  | literal c => c = '$' → lone = true
  | pair => True
  | reference _ | unterminated _ _ => False

theorem Tame.not_opens (H : p.Tame lone) : ¬p.Opens := by
  cases p with
  | literal | pair => exact id
  | reference | unterminated => exact H.elim

theorem Tame.mono (H : p.Tame lone) : p.Tame true := by
  cases p with
  | literal | pair => simp [Tame]
  | reference | unterminated => exact H.elim

/-- What a shell reads for a piece: a pair of dollars stands for one. -/
def said : Piece → Text
  | pair => ['$']
  | p => p.source

end Piece

/-- No reference starts in the text, and a dollar stands alone only if `lone` allows that. -/
def Tame (lone : Bool) (t : Text) : Prop :=
  ∀ p ∈ pieces t, p.Tame lone

/-- No reference starts in the text. -/
abbrev Settled : Text → Prop := Tame true

/-- Every dollar of the text is one of a pair. -/
abbrev Paired : Text → Prop := Tame false

theorem Tame.settled (H : Tame lone t) : Settled t := fun p hp => (H p hp).mono

theorem Tame.not_opens (H : Tame lone t) : ∀ p ∈ pieces t, ¬p.Opens :=
  fun p hp => (H p hp).not_opens

theorem paired_iff : Paired t ↔ ∀ p ∈ pieces t, p = .pair ∨ ∃ c, c ≠ '$' ∧ p = .literal c := by
  refine forall₂_congr fun p _ => ?_
  cases p <;> simp [Piece.Tame]

/-! ## The front of a text -/

theorem tame_nil : Tame lone [] := by
  simp [Tame]

theorem tame_cons_of_ne (hc : c ≠ '$') : Tame lone (c :: t) ↔ Tame lone t := by
  simp [Tame, pieces_cons_of_ne hc, Piece.Tame, hc]

theorem tame_dollar : Tame lone ['$'] ↔ lone = true := by
  simp [Tame, pieces_dollar, Piece.Tame]

theorem tame_pair : Tame lone ('$' :: '$' :: t) ↔ Tame lone t := by
  simp [Tame, pieces_pair, Piece.Tame]

theorem tame_lone (hc : takesDollar c = false) :
    Tame lone ('$' :: c :: t) ↔ lone = true ∧ Tame lone (c :: t) := by
  simp [Tame, pieces_lone hc, Piece.Tame]

theorem not_tame_opener {b : Bracket} (hb : Bracket.ofOpener? c = some b) :
    ¬Tame lone ('$' :: c :: t) := by
  obtain ⟨p, ps, hp, hopens⟩ := pieces_opener hb t
  exact fun H => H.not_opens p (hp ▸ List.mem_cons_self) hopens

theorem tame_append_of_notMem (hs : '$' ∉ s) : Tame lone (s ++ t) ↔ Tame lone t := by
  induction s with
  | nil => rfl
  | cons c s ih =>
    obtain ⟨hc, hs⟩ := List.ne_and_not_mem_of_not_mem_cons hs
    rw [List.cons_append, tame_cons_of_ne hc.symm, ih hs]

theorem tame_of_notMem (h : '$' ∉ t) : Tame lone t := by
  simpa using (tame_append_of_notMem h).2 tame_nil

/-! ## Cutting and putting together -/

theorem Tame.append (hs : Tame lone s) (ht : Tame lone t)
    (hseam : EndsLone s → ∀ c, t.head? = some c → takesDollar c = false) : Tame lone (s ++ t) := by
  intro p hp
  rw [pieces_append hs.not_opens hseam] at hp
  exact (List.mem_append.1 hp).elim (hs p) (ht p)

/-- A character that takes no dollar can stand between two texts. -/
theorem Tame.glue (hs : Tame lone s) (ht : Tame lone t) (hc : takesDollar c = false) :
    Tame lone (s ++ c :: t) :=
  hs.append ((tame_cons_of_ne (ne_dollar_of_takesDollar hc)).2 ht) fun _ d hd => by
    cases hd
    exact hc

/-- A text can be cut at a character other than the dollar. -/
theorem Tame.cut (H : Tame lone (s ++ c :: t)) (hc : c ≠ '$') : Tame lone s ∧ Tame lone t := by
  induction s using dollarInduction with
  | nil => exact ⟨tame_nil, (tame_cons_of_ne hc).1 H⟩
  | plain d s hd ih =>
    rw [List.cons_append, tame_cons_of_ne hd] at H
    rw [tame_cons_of_ne hd]
    exact ih H
  | dollar =>
    cases htakes : takesDollar c with
    | false =>
      obtain ⟨hlone, H⟩ := (tame_lone htakes).1 H
      exact ⟨tame_dollar.2 hlone, (tame_cons_of_ne hc).1 H⟩
    | true =>
      obtain ⟨b, hb⟩ : ∃ b, Bracket.ofOpener? c = some b := by
        simpa [takesDollar, hc, Option.isSome_iff_exists] using htakes
      exact absurd H (not_tame_opener hb)
  | pair s ih =>
    rw [List.cons_append, List.cons_append, tame_pair] at H
    rw [tame_pair]
    exact ih H
  | lone d s hd ih =>
    rw [List.cons_append, List.cons_append, tame_lone hd] at H
    rw [tame_lone hd]
    obtain ⟨hs, ht⟩ := ih H.2
    exact ⟨⟨H.1, hs⟩, ht⟩
  | opener b d s hb => exact absurd H (not_tame_opener hb)

theorem Paired.not_endsLone (H : Paired t) : ¬EndsLone t := fun h =>
  absurd (H _ (List.mem_of_getLast? h) rfl) (by decide)

theorem Paired.append (hs : Paired s) (ht : Paired t) : Paired (s ++ t) :=
  Tame.append hs ht fun h => absurd h hs.not_endsLone

theorem Paired.of_append_right (H : Paired (s ++ t)) (hs : Paired s) : Paired t := by
  intro p hp
  refine H p ?_
  rw [pieces_append hs.not_opens fun h => absurd h hs.not_endsLone]
  exact List.mem_append_right _ hp

/-- One more dollar before a paired text is not one of a pair. -/
theorem Paired.not_dollar_cons (H : Paired t) : ¬Paired ('$' :: t) := by
  induction t using dollarInduction with
  | nil => simp [tame_dollar]
  | plain c t hc ih =>
    cases htakes : takesDollar c with
    | false => simp [tame_lone htakes]
    | true =>
      obtain ⟨b, hb⟩ : ∃ b, Bracket.ofOpener? c = some b := by
        simpa [takesDollar, hc, Option.isSome_iff_exists] using htakes
      exact not_tame_opener hb
  | dollar => simp [tame_dollar] at H
  | pair t ih => exact fun h => ih (tame_pair.1 H) (tame_pair.1 h)
  | lone c t hc ih => simp [tame_lone hc] at H
  | opener b c t hb => exact absurd H (not_tame_opener hb)

theorem Paired.of_append_left (H : Paired (s ++ t)) (ht : Paired t) : Paired s := by
  induction s using dollarInduction with
  | nil => exact tame_nil
  | plain c s hc ih => exact (tame_cons_of_ne hc).2 (ih ((tame_cons_of_ne hc).1 H))
  | dollar => exact absurd H ht.not_dollar_cons
  | pair s ih => exact tame_pair.2 (ih (tame_pair.1 H))
  | lone c s hc ih => simp [tame_lone hc] at H
  | opener b c s hb => exact absurd H (not_tame_opener hb)

/-! ## Deriving and unescaping -/

theorem Derivation.segments_of_not_opens (resolve : Reference → Derivation Text)
    (fail : Fault → Text → Derivation (List Segment)) (h : ∀ p ∈ ps, ¬p.Opens) :
    segments resolve fail ps = .done (ps.map fun p => ⟨p, p.source⟩) := by
  induction ps with
  | nil => rfl
  | cons p ps ih =>
    obtain ⟨hp, hps⟩ := List.forall_mem_cons.1 h
    cases p with
    | literal | pair =>
      rw [segments, ih hps]
      rfl
    | reference | unterminated => exact absurd trivial hp

/-- A settled text needs no room to be its own value. -/
theorem Derivation.expand_of_settled (vars : Variables) (debug : Bool) (depth : Nat)
    (trace : List Text) (H : Settled t) : expand vars debug depth trace t = .done t := by
  rw [expand, expandSegments, expandWith, segments_of_not_opens _ _ H.not_opens]
  simp [Segment.valueOf, List.flatMap_map, flatMap_source_pieces]

/-- A settled text derives to itself. -/
theorem derive_of_settled (vars : Variables) (debug : Bool) (H : Settled t) :
    derive vars debug t = .done t :=
  Derivation.expand_of_settled vars debug depthLimit [] H

/-- A text without dollars derives to itself. -/
theorem derive_of_not_mem (vars : Variables) (debug : Bool) (h : '$' ∉ t) :
    derive vars debug t = .done t :=
  derive_of_settled vars debug (tame_of_notMem h)

theorem unescapeDollars_cons {d : Char} (h : c ≠ '$' ∨ d ≠ '$') (t : Text) :
    unescapeDollars (c :: d :: t) = c :: unescapeDollars (d :: t) := by
  rw [unescapeDollars]
  rintro _ rfl ⟨⟩
  simp at h

/-- A settled text is unescaped piece by piece. -/
theorem unescapeDollars_of_settled (H : Settled t) :
    unescapeDollars t = (pieces t).flatMap Piece.said := by
  induction t using dollarInduction with
  | nil => simp [unescapeDollars]
  | plain c t hc ih =>
    rw [pieces_cons_of_ne hc, List.flatMap_cons, ← ih ((tame_cons_of_ne hc).1 H)]
    cases t with
    | nil => simp [unescapeDollars, Piece.said, Piece.source]
    | cons d t => exact unescapeDollars_cons (.inl hc) t
  | dollar =>
    rw [pieces_dollar]
    rfl
  | pair t ih =>
    rw [pieces_pair, List.flatMap_cons, ← ih (tame_pair.1 H)]
    rfl
  | lone c t hc ih =>
    rw [pieces_lone hc, List.flatMap_cons, ← ih ((tame_lone hc).1 H).2]
    exact unescapeDollars_cons (.inr (ne_dollar_of_takesDollar hc)) t
  | opener b c t hb => exact absurd H (not_tame_opener hb)

theorem unescapeDollars_of_not_mem (h : '$' ∉ t) : unescapeDollars t = t := by
  induction t with
  | nil => rfl
  | cons c r ih =>
    obtain ⟨hc, hr⟩ := List.ne_and_not_mem_of_not_mem_cons h
    rw [unescapeDollars, ih hr]
    rintro _ rfl
    exact absurd rfl hc

end Haybuild
