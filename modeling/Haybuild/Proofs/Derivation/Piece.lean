import Haybuild.Derivation.Piece

/-!
# Laws of pieces

How the front of a text decides its first piece, and from that what the pieces of a longer text are.
A text can be cut between two pieces: what comes before the cut has the pieces before it
(`pieces_flatMap_of_append`), what follows has the pieces that follow (`pieces_eq_append`), and the
text of a piece has that one piece (`pieces_source`). Two texts put together have the pieces of both
(`pieces_append`) if no reference starts in the first one and no dollar at its end meets a character
that takes it.
-/

namespace Haybuild

variable {c : Char} {s t : Text} {p : Piece} {ps : List Piece}

/-- A dollar before this character does not stand alone: it makes a pair or starts a reference. -/
def takesDollar (c : Char) : Bool :=
  c = '$' || (Bracket.ofOpener? c).isSome

/-- The last piece of the text is a dollar that stands alone. -/
def EndsLone (t : Text) : Prop :=
  (pieces t).getLast? = some (.literal '$')

/-- A reference starts with the piece, closed or not. -/
def Piece.Opens : Piece → Prop
  | literal _ | pair => False
  | reference _ | unterminated _ _ => True

namespace Bracket

theorem ne_dollar_of_ofOpener? {b : Bracket} (h : ofOpener? c = some b) : c ≠ '$' := by
  rintro rfl
  cases h

theorem ofOpener?_opener (b : Bracket) : ofOpener? b.opener = some b := by
  cases b <;> rfl

/-- What follows the closer of a bracket has no part in finding it. -/
theorem close?_append {b : Bracket} {level : Nat} {u v : Text} (w : Text)
    (h : b.close? level t = some (u, v)) :
    b.close? level (u ++ b.closer :: w) = some (u, w) := by
  induction t generalizing level u with
  | nil => simp [close?] at h
  | cons d r ih =>
    simp only [close?] at h
    split at h
    · next hd =>
      cases level with
      | zero =>
        cases h
        simp [close?]
      | succ level =>
        obtain ⟨⟨u', v'⟩, hu, he⟩ := Option.map_eq_some_iff.1 h
        cases he
        simp [close?, hd, ih hu]
    · next hd =>
      obtain ⟨⟨u', v'⟩, hu, he⟩ := Option.map_eq_some_iff.1 h
      cases he
      simp [close?, hd, ih hu]

end Bracket

/-! ## The front of a text -/

theorem pieces_pair (t : Text) : pieces ('$' :: '$' :: t) = .pair :: pieces t := by
  rw [pieces_cons]
  rfl

theorem pieces_cons_of_ne (hc : c ≠ '$') (t : Text) : pieces (c :: t) = .literal c :: pieces t := by
  rw [pieces_cons, Piece.first, if_neg hc]

theorem pieces_dollar : pieces ['$'] = [.literal '$'] := by
  rw [pieces_cons]
  exact congrArg _ pieces_nil

/-- A dollar that nothing behind it takes stands alone. -/
theorem Piece.first_lone (ht : ∀ c, t.head? = some c → takesDollar c = false) :
    Piece.first '$' t = (.literal '$', t) := by
  rw [Piece.first, if_pos rfl]
  cases t with
  | nil => rfl
  | cons c t =>
    have hc := ht c rfl
    simp only [takesDollar, Bool.or_eq_false_iff, decide_eq_false_iff_not,
      Option.isSome_eq_false_iff, Option.isNone_iff_eq_none] at hc
    simp [Piece.afterDollar, hc]

theorem pieces_lone (hc : takesDollar c = false) (t : Text) :
    pieces ('$' :: c :: t) = .literal '$' :: pieces (c :: t) := by
  have hhead : ∀ d, (c :: t).head? = some d → takesDollar d = false := by simpa using hc
  rw [pieces_cons, Piece.first_lone hhead]

/-- A bracket behind a dollar starts a reference. -/
theorem pieces_opener {b : Bracket} (hc : Bracket.ofOpener? c = some b) (t : Text) :
    ∃ p ps, pieces ('$' :: c :: t) = p :: ps ∧ p.Opens := by
  rw [pieces_cons]
  refine ⟨_, _, rfl, ?_⟩
  simp only [Piece.first, Piece.afterDollar, if_neg (Bracket.ne_dollar_of_ofOpener? hc), hc,
    if_true]
  split <;> trivial

theorem ne_dollar_of_takesDollar (hc : takesDollar c = false) : c ≠ '$' := by
  rintro rfl
  cases hc

/-- Texts by what stands at their front: nothing, a character other than the dollar, a dollar at the
end, two dollars, a dollar that stands alone before a character, or a dollar before a bracket. -/
@[elab_as_elim]
theorem dollarInduction {motive : Text → Prop} (nil : motive [])
    (plain : ∀ c t, c ≠ '$' → motive t → motive (c :: t)) (dollar : motive ['$'])
    (pair : ∀ t, motive t → motive ('$' :: '$' :: t))
    (lone : ∀ c t, takesDollar c = false → motive (c :: t) → motive ('$' :: c :: t))
    (opener : ∀ b c t, Bracket.ofOpener? c = some b → motive ('$' :: c :: t)) : ∀ t, motive t
  | [] => nil
  | [c] => if hc : c = '$' then hc ▸ dollar else plain c [] hc nil
  | c :: d :: t =>
    have ih := dollarInduction nil plain dollar pair lone opener t
    have ih' := dollarInduction nil plain dollar pair lone opener (d :: t)
    if hc : c = '$' then
      if hd : d = '$' then hc ▸ hd ▸ pair t ih
      else
        match hb : Bracket.ofOpener? d with
        | some b => hc ▸ opener b d t hb
        | none => hc ▸ lone d t (by simp [takesDollar, hd, hb]) ih'
    else plain c (d :: t) hc ih'

/-! ## Cutting between pieces -/

theorem pieces_eq_append {qs : List Piece} (h : pieces t = ps ++ qs) :
    t = ps.flatMap Piece.source ++ qs.flatMap Piece.source ∧
      qs = pieces (qs.flatMap Piece.source) := by
  refine ⟨by rw [← List.flatMap_append, ← h, flatMap_source_pieces], ?_⟩
  induction ps generalizing t with
  | nil =>
    rw [List.nil_append] at h
    rw [← h, flatMap_source_pieces]
  | cons p ps ih =>
    cases t with
    | nil => simp at h
    | cons c t =>
      rw [pieces_cons, List.cons_append] at h
      exact ih (List.cons.inj h).2

/-- Behind a dollar that stands alone there is nothing, or a character that does not take it. -/
theorem pieces_eq_lone_cons (h : pieces t = .literal '$' :: ps) :
    t = ['$'] ∧ ps = [] ∨
      ∃ c r, takesDollar c = false ∧ t = '$' :: c :: r ∧ ps = .literal c :: pieces r := by
  induction t using dollarInduction with
  | nil => simp at h
  | plain c t hc =>
    rw [pieces_cons_of_ne hc] at h
    cases h
    exact absurd rfl hc
  | dollar =>
    rw [pieces_dollar] at h
    cases h
    exact .inl ⟨rfl, rfl⟩
  | pair t =>
    rw [pieces_pair] at h
    cases h
  | lone c t hc =>
    rw [pieces_lone hc, pieces_cons_of_ne (ne_dollar_of_takesDollar hc)] at h
    cases h
    exact .inr ⟨c, t, hc, rfl, rfl⟩
  | opener b c t hb =>
    obtain ⟨p, qs, hp, hopens⟩ := pieces_opener hb t
    rw [hp] at h
    cases h
    exact hopens.elim

/-- A reference that is closed is one piece, whatever is behind it. -/
theorem pieces_closed {b : Bracket} {body rest : Text} (hclose : b.close? 0 t = some (body, rest))
    (u : Text) :
    pieces ((Piece.reference ⟨b, body⟩).source ++ u) = .reference ⟨b, body⟩ :: pieces u := by
  have hopener := Bracket.ofOpener?_opener b
  have hbody := Bracket.close?_append u hclose
  simp only [Piece.source, Reference.source, List.cons_append, List.append_assoc, List.nil_append]
  rw [pieces_cons]
  simp [Piece.first, Piece.afterDollar, hopener, Bracket.ne_dollar_of_ofOpener? hopener, hbody]

theorem pieces_unclosed {b : Bracket} (hclose : b.close? 0 t = none) :
    pieces (Piece.unterminated b t).source = [.unterminated b t] := by
  have hopener := Bracket.ofOpener?_opener b
  rw [Piece.source, pieces_cons]
  simp [Piece.first, Piece.afterDollar, hopener, Bracket.ne_dollar_of_ofOpener? hopener, hclose]

/-- The first piece of a text does not depend on how much of the text is behind it. -/
theorem pieces_first_append {r u : Text} (hu : u <+: (Piece.first c r).2) :
    pieces ((Piece.first c r).1.source ++ u) = (Piece.first c r).1 :: pieces u := by
  by_cases hc : c = '$'
  · subst hc
    rw [Piece.first, if_pos rfl] at hu ⊢
    cases r with
    | nil =>
      obtain rfl := List.prefix_nil.1 hu
      rw [pieces_nil]
      exact pieces_dollar
    | cons d r =>
      simp only [Piece.afterDollar] at hu ⊢
      split at hu
      · next hd =>
        rw [if_pos hd]
        exact pieces_pair u
      · next hd =>
        rw [if_neg hd]
        cases hb : Bracket.ofOpener? d with
        | none =>
          rw [hb] at hu
          cases u with
          | nil =>
            rw [pieces_nil]
            exact pieces_dollar
          | cons e u =>
            obtain rfl := (List.cons_prefix_cons.1 hu).1
            exact pieces_lone (by simp [takesDollar, hd, hb]) u
        | some b =>
          rw [hb] at hu
          dsimp only at hu ⊢
          cases hclose : b.close? 0 r with
          | some s => exact pieces_closed hclose u
          | none =>
            rw [hclose] at hu
            obtain rfl := List.prefix_nil.1 hu
            rw [List.append_nil, pieces_nil]
            exact pieces_unclosed hclose
  · rw [Piece.first, if_neg hc]
    exact pieces_cons_of_ne hc u

/-- The front of a text, up to a cut between two pieces, has the pieces before the cut. -/
theorem pieces_flatMap_of_append {qs : List Piece} (h : pieces t = ps ++ qs) :
    pieces (ps.flatMap Piece.source) = ps := by
  induction ps generalizing t with
  | nil => exact pieces_nil
  | cons p ps ih =>
    cases t with
    | nil => simp at h
    | cons c t =>
      rw [pieces_cons, List.cons_append] at h
      obtain ⟨rfl, hrest⟩ := List.cons.inj h
      have hfront : ps.flatMap Piece.source <+: (Piece.first c t).2 := by
        rw [(pieces_eq_append hrest).1]
        exact List.prefix_append _ _
      rw [List.flatMap_cons, pieces_first_append hfront, ih hrest]

/-- The text of a piece has that one piece. -/
theorem pieces_source (h : p ∈ pieces t) : pieces p.source = [p] := by
  fun_induction pieces t with
  | case1 => simp at h
  | case2 c r _ ih =>
    rcases List.mem_cons.1 h with rfl | h
    · simpa using pieces_first_append (u := []) List.nil_prefix
    · exact ih h

/-! ## Putting texts together -/

theorem endsLone_cons_of_ne (hc : c ≠ '$') (t : Text) : EndsLone (c :: t) ↔ EndsLone t := by
  rw [EndsLone, EndsLone, pieces_cons_of_ne hc, List.getLast?_cons]
  cases (pieces t).getLast? <;> simp [hc]

theorem endsLone_pair (t : Text) : EndsLone ('$' :: '$' :: t) ↔ EndsLone t := by
  rw [EndsLone, EndsLone, pieces_pair, List.getLast?_cons]
  cases (pieces t).getLast? <;> simp

theorem endsLone_dollar : EndsLone ['$'] := by
  rw [EndsLone, pieces_dollar]
  rfl

theorem endsLone_lone (hc : takesDollar c = false) (t : Text) :
    EndsLone ('$' :: c :: t) ↔ EndsLone (c :: t) := by
  rw [EndsLone, EndsLone, pieces_lone hc, pieces_cons_of_ne (ne_dollar_of_takesDollar hc)]
  simp

/-- Texts put together have the pieces of both where no reference starts in the first one and no
dollar is taken across the seam. -/
theorem pieces_append (hs : ∀ p ∈ pieces s, ¬p.Opens)
    (hseam : EndsLone s → ∀ c, t.head? = some c → takesDollar c = false) :
    pieces (s ++ t) = pieces s ++ pieces t := by
  induction s using dollarInduction with
  | nil => simp
  | plain c s hc ih =>
    rw [pieces_cons_of_ne hc, endsLone_cons_of_ne hc] at *
    rw [List.cons_append, pieces_cons_of_ne hc, ih (fun p hp => hs p (.tail _ hp)) hseam,
      List.cons_append]
  | dollar =>
    rw [pieces_dollar]
    cases t with
    | nil => simp [pieces_dollar]
    | cons c t => exact pieces_lone (hseam endsLone_dollar c rfl) t
  | pair s ih =>
    rw [pieces_pair, endsLone_pair] at *
    rw [List.cons_append, List.cons_append, pieces_pair, ih (fun p hp => hs p (.tail _ hp)) hseam,
      List.cons_append]
  | lone c s hc ih =>
    rw [pieces_lone hc, endsLone_lone hc] at *
    rw [List.cons_append, List.cons_append, pieces_lone hc, ← List.cons_append,
      ih (fun p hp => hs p (.tail _ hp)) hseam, List.cons_append]
  | opener b c s hb =>
    obtain ⟨p, qs, hp, hopens⟩ := pieces_opener hb s
    exact absurd hopens (hs p (hp ▸ List.mem_cons_self))

end Haybuild
