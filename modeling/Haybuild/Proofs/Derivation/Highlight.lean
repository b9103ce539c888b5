import Haybuild.Derivation.Highlight
import Haybuild.Proofs.Console.Style
import Haybuild.Proofs.Derivation.Named
import Haybuild.Proofs.Derivation.Piecewise

/-!
# What highlighting shows

The highlighter scans a value and knows no more of the text than the spans. It still finds the
pieces of the text: at each of its steps it stands between two segments, so what a reference filled
in is green as a whole, the pairs that it dims are those of the text, and no part of the text looks
like a reference that is left (`highlight_of_deriveSpans`). Whatever the spans are, styles are all
that it adds (`plain_highlight`).
-/

namespace Haybuild

/-- A segment as it is highlighted: a pair is dim, the value of a reference is green, and any other
character is bare. -/
def Segment.dressed (s : Segment) : Text :=
  match s.piece with
  | .literal c => [c]
  | .pair => Style.pair.dress ['$', '$']
  | .reference _ => if s.value = [] then [] else Style.filled.dress s.value
  | .unterminated _ _ => []

namespace Highlight

variable {spans before after : List Span} {span : Span} {offset stop : Nat} {c : Char}
  {r t u w : Text} {segs : List Segment}

/-! ## One step -/

theorem endAt?_eq_none (h : ∀ span ∈ spans, span.start ≠ offset) : endAt? spans offset = none := by
  simp only [endAt?, Option.map_eq_none_iff, List.find?_eq_none, List.mem_reverse]
  intro span hspan
  simp [h span hspan]

/-- Of the spans that start at an offset the last one counts. -/
theorem endAt?_append (h : offset < stop) (hafter : ∀ span ∈ after, span.start ≠ offset) :
    endAt? (before ++ ⟨offset, stop⟩ :: after) offset = some stop := by
  have hnone : after.reverse.find? (fun span =>
      span.start = (offset : Int) && span.start < span.stop) = none := by
    simp only [List.find?_eq_none, List.mem_reverse]
    intro span hspan
    simp [hafter span hspan]
  simp only [endAt?, List.reverse_append, List.reverse_cons, List.find?_append, hnone]
  simp [h]

theorem lt_of_endAt?_eq_some (h : endAt? spans offset = some stop) : offset < stop := by
  obtain ⟨span, hspan, rfl⟩ := Option.map_eq_some_iff.1 h
  have hfound := List.find?_some hspan
  simp only [Bool.and_eq_true, decide_eq_true_eq] at hfound
  omega

theorem dressFrom_of_first {step : Step} (h : first spans offset c r = step) :
    dressFrom spans offset (c :: r) = step.shown ++ dressFrom spans step.offset step.rest := by
  rw [dressFrom, h]

theorem first_filled (h : endAt? spans offset = some (offset + (c :: w).length)) (u : Text) :
    first spans offset c (w ++ u) =
      ⟨Style.filled.dress (c :: w), offset + (c :: w).length, u⟩ := by
  simp [first, h]

theorem first_pair (h : endAt? spans offset = none) (u : Text) :
    first spans offset '$' ('$' :: u) = ⟨Style.pair.dress ['$', '$'], offset + 2, u⟩ := by
  rw [first, h]
  rfl

theorem first_literal (h : endAt? spans offset = none)
    (hfirst : Piece.first c u = (.literal c, u)) :
    first spans offset c u = ⟨[c], offset + 1, u⟩ := by
  rw [first, h, hfirst]

/-! ## From segment to segment -/

/-- The character of a literal piece is the first piece of the value that is left, too. -/
theorem first_valueOf (hpieces : .literal c :: segs.map Segment.piece = pieces t)
    (hsegs : ∀ s ∈ segs, s.Faithful) :
    Piece.first c (Segment.valueOf segs) = (.literal c, Segment.valueOf segs) := by
  by_cases hc : c = '$'
  · subst hc
    apply Piece.first_lone
    intro d hd
    rcases pieces_eq_lone_cons hpieces.symm with ⟨-, hnil⟩ | ⟨e, u, he, -, hnext⟩
    · rw [List.map_eq_nil_iff.1 hnil] at hd
      cases hd
    · obtain ⟨⟨p, v⟩, rest, rfl, rfl, -⟩ := List.map_eq_cons_iff.1 hnext
      have hv : v = [e] := hsegs _ List.mem_cons_self
      rw [Segment.valueOf_cons, hv] at hd
      cases hd
      exact he
  · rw [Piece.first, if_neg hc]

theorem start_ne_of_mem_spansFrom {n : Nat} (hn : 0 < n)
    (h : span ∈ Segment.spansFrom ((offset + n : Nat) : Int) segs) : span.start ≠ offset := by
  have := (Segment.bounds_of_mem_spansFrom h).1
  omega

theorem endAt?_append_spansFrom {n : Nat} (hn : 0 < n)
    (hbefore : ∀ span ∈ before, span.start < (offset : Int)) (segs : List Segment) :
    endAt? (before ++ Segment.spansFrom ((offset + n : Nat) : Int) segs) offset = none := by
  refine endAt?_eq_none fun span hspan => ?_
  rcases List.mem_append.1 hspan with h | h
  · exact Int.ne_of_lt (hbefore span h)
  · exact start_ne_of_mem_spansFrom hn h

/-- At a segment the highlighter shows its piece and goes on behind its value. The spans before the
offset have no part in this. -/
theorem dressFrom_segment {s : Segment} (hs : s.Faithful)
    (hliteral : ∀ c, s.piece = .literal c →
      Piece.first c (Segment.valueOf segs) = (.literal c, Segment.valueOf segs))
    (hbefore : ∀ span ∈ before, span.start < (offset : Int)) :
    dressFrom (before ++ Segment.spansFrom offset (s :: segs)) offset
        (Segment.valueOf (s :: segs)) =
      s.dressed ++ dressFrom (before ++ Segment.spansFrom offset (s :: segs))
        (offset + s.value.length) (Segment.valueOf segs) := by
  obtain ⟨p, value⟩ := s
  have hnext : (offset : Int) + value.length = (offset + value.length : Nat) := by simp
  rw [Segment.spansFrom_cons, hnext]
  cases p with
  | literal c =>
    obtain rfl : value = [c] := hs
    have hnone := endAt?_append_spansFrom Nat.one_pos hbefore segs
    exact dressFrom_of_first (first_literal hnone (hliteral c rfl))
  | pair =>
    obtain rfl : value = ['$', '$'] := hs
    have hnone := endAt?_append_spansFrom Nat.two_pos hbefore segs
    exact dressFrom_of_first (first_pair hnone _)
  | reference ref =>
    cases value with
    | nil => rfl
    | cons c w =>
      have hpos : 0 < (c :: w).length := Nat.succ_pos _
      have hend : endAt? (before ++ ⟨offset, (offset + (c :: w).length : Nat)⟩ ::
          Segment.spansFrom ((offset + (c :: w).length : Nat) : Int) segs) offset = some _ :=
        endAt?_append (Nat.lt_add_of_pos_right hpos) fun _ => start_ne_of_mem_spansFrom hpos
      rw [if_pos (show Segment.Filled ⟨.reference ref, c :: w⟩ from List.cons_ne_nil c w)]
      exact dressFrom_of_first (first_filled hend _)
  | unterminated => exact hs.elim

/-- Between two segments the highlighter is in step with the pieces of the text. -/
theorem dressFrom_valueOf (hpieces : segs.map Segment.piece = pieces t)
    (hsegs : ∀ s ∈ segs, s.Faithful) (before : List Span) (offset : Nat)
    (hbefore : ∀ span ∈ before, span.start < (offset : Int)) :
    dressFrom (before ++ Segment.spansFrom offset segs) offset (Segment.valueOf segs) =
      segs.flatMap Segment.dressed := by
  induction segs generalizing t before offset with
  | nil => rw [Segment.valueOf_nil, dressFrom, List.flatMap_nil]
  | cons s segs ih =>
    obtain ⟨hs, hrest⟩ := List.forall_mem_cons.1 hsegs
    have hcut : pieces t = [s.piece] ++ segs.map Segment.piece := hpieces.symm
    have hnext : (offset : Int) + s.value.length = (offset + s.value.length : Nat) := by simp
    rw [dressFrom_segment hs ?_ hbefore, List.flatMap_cons, Segment.spansFrom_cons, hnext,
      ← List.append_assoc]
    · -- the span of the segment starts before the segments that are left
      refine congrArg _ (ih (pieces_eq_append hcut).2 hrest _ _ fun span hspan => ?_)
      rcases List.mem_append.1 hspan with h | h
      · have := hbefore span h
        omega
      · split at h
        · next hfilled =>
          rw [List.mem_singleton.1 h]
          exact Int.ofNat_lt.2 (Nat.lt_add_of_pos_right hfilled.length_pos)
        · cases h
    · intro c hc
      rw [List.map_cons, hc] at hpieces
      exact first_valueOf hpieces hrest

/-! ## What is left without the styles -/

/-- What one step shows is a front of the text, in a style or bare. -/
theorem plain_shown_first (h : Style.escape ∉ c :: r) (spans : List Span) (offset : Nat) :
    ∃ front, c :: r = front ++ (first spans offset c r).rest ∧
      ∀ u, Style.plain ((first spans offset c r).shown ++ u) = front ++ Style.plain u := by
  rw [first]
  split
  · next stop hstop =>
    have hlt := lt_of_endAt?_eq_some hstop
    obtain ⟨n, hn⟩ : ∃ n, stop - offset = n + 1 := ⟨stop - offset - 1, by omega⟩
    rw [hn]
    exact ⟨(c :: r).take (n + 1), (List.take_append_drop (n + 1) (c :: r)).symm,
      Style.plain_dress_append Style.filled fun hmem => h (List.mem_of_mem_take hmem)⟩
  · have hsource := Piece.source_first c r
    have hfront : Style.escape ∉ (Piece.first c r).1.source := fun hmem =>
      h (hsource ▸ List.mem_append_left _ hmem)
    split
    · next hp =>
      rw [hp] at hsource hfront
      exact ⟨_, hsource.symm, Style.plain_dress_append Style.pair hfront⟩
    · next hp =>
      rw [hp] at hsource hfront
      exact ⟨_, hsource.symm, Style.plain_dress_append Style.leftover hfront⟩
    · have hc : Style.escape ∉ [c] := fun hmem => h (List.mem_singleton.1 hmem ▸ List.mem_cons_self)
      exact ⟨[c], rfl, Style.plain_append_of_notMem hc⟩

theorem reads_plain_dressFrom (h : Style.escape ∉ t) (spans : List Span) (offset : Nat) :
    Style.Reads Style.plain (dressFrom spans offset t) t := by
  intro u
  fun_induction dressFrom spans offset t with
  | case1 => rfl
  | case2 offset c r _ step ih =>
    obtain ⟨front, hfront, hplain⟩ := plain_shown_first h spans offset
    have hrest : Style.escape ∉ step.rest := fun hmem =>
      h (hfront ▸ List.mem_append_right front hmem)
    rw [List.append_assoc, hplain, ih hrest, ← List.append_assoc]
    exact congrArg (· ++ _) hfront.symm

theorem plain_dressFrom (h : Style.escape ∉ t) (spans : List Span) (offset : Nat) :
    Style.plain (dressFrom spans offset t) = t :=
  (reads_plain_dressFrom h spans offset).eq rfl

end Highlight

/-- A value that a text has is shown piece by piece: each pair is dim, the value of each reference
is green as a whole, and any other character is bare. No part of it looks like a reference that is
left. -/
theorem highlight_of_deriveSpans {vars : Variables} {debug : Bool} {t v : Text}
    {answers : Derivation.Answers} {spans : List Span}
    (h : (deriveSpans vars debug t).eval answers = .ok (v, spans)) :
    ∃ segs : List Segment, segs.map Segment.piece = pieces t ∧
      (∀ s ∈ segs, (derive vars debug s.piece.source).eval answers = .ok s.value) ∧
      v = Segment.valueOf segs ∧ highlight v spans = segs.flatMap Segment.dressed := by
  obtain ⟨segs, hpieces, hsegs, rfl, rfl⟩ := exists_segments_of_deriveSpans h
  exact ⟨segs, hpieces, fun s hs => (hsegs s hs).1, rfl,
    Highlight.dressFrom_valueOf hpieces (fun s hs => (hsegs s hs).2) [] 0 nofun⟩

/-- A price that starts with a dollar and looks like a reference, and a note that is empty. -/
def priceVariables : Variables :=
  NameMap.ofPairs [("PRICE", "$$(cost)"), ("NOTE", "")]

/-- The pair before the price is dim, and the price, which starts with a pair, is green as a whole.
The dollar before the dash stands alone. -/
theorem highlight_of_deriveSpans_prices :
    (deriveSpans priceVariables false "$$$(PRICE)$(NOTE)$-$(shell date)").eval noon =
        .ok ("$$$$(cost)$-noon", [⟨2, 10⟩, ⟨12, 16⟩]) ∧
      ∃ segs : List Segment,
        segs.map Segment.piece = pieces "$$$(PRICE)$(NOTE)$-$(shell date)" ∧
        (∀ s ∈ segs, (derive priceVariables false s.piece.source).eval noon = .ok s.value) ∧
        "$$$$(cost)$-noon" = Segment.valueOf segs ∧
        highlight "$$$$(cost)$-noon" [⟨2, 10⟩, ⟨12, 16⟩] = segs.flatMap Segment.dressed := by
  have hspans : (deriveSpans priceVariables false "$$$(PRICE)$(NOTE)$-$(shell date)").eval noon =
      .ok ("$$$$(cost)$-noon", [⟨2, 10⟩, ⟨12, 16⟩]) := by
    decide +kernel
  exact ⟨hspans, highlight_of_deriveSpans hspans⟩

/-- Without its escape sequences a highlighted value is the value, for any spans. -/
theorem plain_highlight {v : Text} (h : Style.escape ∉ v) (spans : List Span) :
    Style.plain (highlight v spans) = v :=
  Highlight.plain_dressFrom h spans 0

/-- The spans overlap, are reversed, start before the value and end behind it, cut through a pair
and through a reference, and two of them start at the same place. -/
theorem plain_highlight_of_wild_spans :
    Style.escape ∉ ("a$$b$(c)" : Text) ∧
      Style.plain (highlight "a$$b$(c)" [⟨2, 3⟩, ⟨2, 7⟩, ⟨6, 90⟩, ⟨5, 1⟩, ⟨-2, 4⟩, ⟨7, 5000⟩]) =
        "a$$b$(c)" := by
  have hplain : Style.escape ∉ ("a$$b$(c)" : Text) := by decide
  exact ⟨hplain, plain_highlight hplain _⟩

end Haybuild
