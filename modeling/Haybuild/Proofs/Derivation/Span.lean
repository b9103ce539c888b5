import Haybuild.Derivation.Expand
import Mathlib.Data.List.Basic

/-!
# The spans of a value

The spans of a value are the places of the references that are not empty (`Segment.mem_spansFrom`).
They follow one another without overlap and stay within the value, and what is left of the value
when they are deleted are its pairs and other characters (`Segment.placed_spansFrom`).
-/

namespace Haybuild

/-- What a piece has in a value by itself; a reference has nothing. -/
def Piece.bare : Piece → Text
  | literal c => [c]
  | pair => ['$', '$']
  | reference _ | unterminated _ _ => []

namespace Span

variable {spans spans' : List Span} {i : Nat} {s t : Text}

/-- The offset lies in the span. -/
def Covers (span : Span) (i : Nat) : Prop :=
  span.start ≤ i ∧ (i : Int) < span.stop

instance (span : Span) (i : Nat) : Decidable (span.Covers i) :=
  inferInstanceAs (Decidable (_ ∧ _))

theorem covers_mk {start stop : Nat} :
    Span.Covers ⟨start, stop⟩ i ↔ start ≤ i ∧ i < stop := by
  simp [Covers]

/-- What is left when the spans are deleted from a text that starts at an offset. -/
def deleteFrom (spans : List Span) : Nat → Text → Text
  | _, [] => []
  | i, c :: t =>
    if ∃ span ∈ spans, span.Covers i then deleteFrom spans (i + 1) t
    else c :: deleteFrom spans (i + 1) t

/-- What is left of a text when the spans are deleted. -/
def delete (spans : List Span) (t : Text) : Text :=
  deleteFrom spans 0 t

theorem deleteFrom_append (spans : List Span) (i : Nat) (s t : Text) :
    deleteFrom spans i (s ++ t) = deleteFrom spans i s ++ deleteFrom spans (i + s.length) t := by
  induction s generalizing i with
  | nil => rfl
  | cons c s ih =>
    have hnext : i + 1 + s.length = i + (c :: s).length := by
      rw [List.length_cons]
      omega
    simp only [List.cons_append, deleteFrom, ih, hnext]
    split <;> rfl

theorem deleteFrom_congr
    (h : ∀ j, i ≤ j → ((∃ span ∈ spans, span.Covers j) ↔ ∃ span ∈ spans', span.Covers j)) :
    deleteFrom spans i t = deleteFrom spans' i t := by
  induction t generalizing i with
  | nil => rfl
  | cons c t ih =>
    simp only [deleteFrom, h i (Nat.le_refl i), ih fun j hj => h j (Nat.le_of_succ_le hj)]

/-- Where every offset is covered nothing is left. -/
theorem deleteFrom_of_covered
    (h : ∀ j, i ≤ j → j < i + t.length → ∃ span ∈ spans, span.Covers j) :
    deleteFrom spans i t = [] := by
  induction t generalizing i with
  | nil => rfl
  | cons c t ih =>
    rw [List.length_cons] at h
    rw [deleteFrom, if_pos (h i (Nat.le_refl i) (by omega))]
    exact ih fun j hj hlt => h j (by omega) (by omega)

/-- Where no offset is covered all is left. -/
theorem deleteFrom_of_not_covered
    (h : ∀ j < i + t.length, ¬∃ span ∈ spans, span.Covers j) : deleteFrom spans i t = t := by
  induction t generalizing i with
  | nil => rfl
  | cons c t ih =>
    rw [List.length_cons] at h
    rw [deleteFrom, if_neg (h i (by omega)), ih fun j hj => h j (by omega)]

end Span

namespace Segment

variable {segs : List Segment} {span : Span} {offset : Int}

/-- The segment is that of a reference whose value is not empty. -/
def Filled (s : Segment) : Prop :=
  match s.piece with
  | .reference _ => s.value ≠ []
  | _ => False

instance : DecidablePred Filled := fun s =>
  match hs : s.piece with
  | .reference _ => decidable_of_iff (s.value ≠ []) (by simp [Filled, hs])
  | .literal _ | .pair | .unterminated _ _ => isFalse (by simp [Filled, hs])

/-- A pair and a character stand for themselves, and every bracket is closed. -/
def Faithful (s : Segment) : Prop :=
  match s.piece with
  | .reference _ => True
  | .unterminated _ _ => False
  | p => s.value = p.bare

@[simp] theorem valueOf_nil : valueOf [] = [] := rfl

@[simp] theorem valueOf_cons (s : Segment) (segs : List Segment) :
    valueOf (s :: segs) = s.value ++ valueOf segs := rfl

theorem spansFrom_cons (offset : Int) (s : Segment) (segs : List Segment) :
    spansFrom offset (s :: segs) =
      (if s.Filled then [⟨offset, offset + s.value.length⟩] else []) ++
        spansFrom (offset + s.value.length) segs := by
  obtain ⟨p, value⟩ := s
  cases p with
  | reference ref =>
    by_cases hvalue : value = [] <;> simp [spansFrom, Filled, hvalue]
  | literal | pair | unterminated => simp [spansFrom, Filled]

/-- The spans are the places of the references that are not empty. -/
theorem mem_spansFrom : span ∈ spansFrom offset segs ↔
    ∃ before s after, segs = before ++ s :: after ∧ s.Filled ∧
      span = ⟨offset + (valueOf before).length,
        offset + (valueOf before).length + s.value.length⟩ := by
  induction segs generalizing offset with
  | nil => simp [spansFrom]
  | cons s segs ih =>
    rw [spansFrom_cons, List.mem_append, ih]
    constructor
    · rintro (hspan | ⟨before, s', after, rfl, hfilled, rfl⟩)
      · split at hspan
        · next hfilled =>
          exact ⟨[], s, segs, rfl, hfilled, by simpa using hspan⟩
        · cases hspan
      · refine ⟨s :: before, s', after, rfl, hfilled, ?_⟩
        simp [Int.add_assoc]
    · rintro ⟨before, s', after, hsplit, hfilled, rfl⟩
      cases before with
      | nil =>
        obtain ⟨rfl, rfl⟩ := List.cons.inj hsplit
        exact .inl (by simp [hfilled])
      | cons s'' before =>
        obtain ⟨rfl, rfl⟩ := List.cons.inj hsplit
        exact .inr ⟨before, s', after, rfl, hfilled, by simp [Int.add_assoc]⟩

theorem Filled.length_pos {s : Segment} (H : s.Filled) : 0 < s.value.length := by
  rw [Filled] at H
  split at H
  · exact List.length_pos_iff.2 H
  · exact H.elim

theorem bounds_of_mem_spansFrom (h : span ∈ spansFrom offset segs) :
    offset ≤ span.start ∧ span.start < span.stop ∧
      span.stop ≤ offset + (valueOf segs).length := by
  obtain ⟨before, s, after, rfl, hfilled, rfl⟩ := mem_spansFrom.1 h
  have hpos := hfilled.length_pos
  simp only [valueOf, List.flatMap_append, List.flatMap_cons, List.length_append] at hpos ⊢
  omega

theorem pairwise_spansFrom (offset : Int) (segs : List Segment) :
    (spansFrom offset segs).Pairwise fun a b => a.stop ≤ b.start := by
  induction segs generalizing offset with
  | nil => exact .nil
  | cons s segs ih =>
    rw [spansFrom_cons]
    split
    · exact List.pairwise_cons.2 ⟨fun b hb => (bounds_of_mem_spansFrom hb).1, ih _⟩
    · exact ih _

theorem Faithful.eq_bare {s : Segment} (H : s.Faithful) (hfilled : ¬s.Filled) :
    s.value = s.piece.bare := by
  obtain ⟨p, value⟩ := s
  cases p with
  | literal | pair => exact H
  | reference ref => simpa [Filled, Piece.bare] using hfilled
  | unterminated => exact H.elim

theorem Filled.bare_eq {s : Segment} (H : s.Filled) : s.piece.bare = [] := by
  rw [Filled] at H
  split at H
  · next hs => rw [hs, Piece.bare]
  · exact H.elim

/-- Deleting the spans leaves the pairs and the characters of the pieces. -/
theorem deleteFrom_spansFrom (hsegs : ∀ s ∈ segs, s.Faithful) (i : Nat) :
    Span.deleteFrom (spansFrom i segs) i (valueOf segs) = segs.flatMap fun s => s.piece.bare := by
  induction segs generalizing i with
  | nil => rfl
  | cons s segs ih =>
    obtain ⟨hs, hsegs⟩ := List.forall_mem_cons.1 hsegs
    have hnext : (i : Int) + s.value.length = (i + s.value.length : Nat) := by simp
    rw [valueOf_cons, Span.deleteFrom_append, spansFrom_cons, List.flatMap_cons, hnext]
    by_cases hfilled : s.Filled
    · -- the span of the reference covers its value and nothing behind it
      rw [if_pos hfilled, hfilled.bare_eq, ← ih hsegs, Span.deleteFrom_of_covered]
      · refine congrArg _ (Span.deleteFrom_congr fun j hj => ?_)
        have hbehind : ¬Span.Covers ⟨i, (i + s.value.length : Nat)⟩ j := fun h =>
          absurd (Span.covers_mk.1 h).2 (Nat.not_lt.2 hj)
        simp only [List.cons_append, List.nil_append, List.exists_mem_cons_iff, hbehind, false_or]
      · intro j hle hlt
        exact ⟨_, List.mem_append_left _ List.mem_cons_self, Span.covers_mk.2 ⟨hle, hlt⟩⟩
    · -- the spans that are left start behind the value
      rw [if_neg hfilled, ← hs.eq_bare hfilled, ← ih hsegs, List.nil_append,
        Span.deleteFrom_of_not_covered]
      rintro j hj ⟨span, hspan, hcovers⟩
      have hstart := (bounds_of_mem_spansFrom hspan).1
      have := hcovers.1
      omega

/-- The spans are, in order, the places that the references which are not empty have in the value of
the segments. -/
structure Placed (segs : List Segment) (spans : List Span) : Prop where
  /-- Each of these references has its place, and there is no other span. -/
  mem_iff : ∀ span, span ∈ spans ↔ ∃ before s after, segs = before ++ s :: after ∧ s.Filled ∧
    span = ⟨(valueOf before).length, (valueOf before).length + s.value.length⟩
  /-- A span ends before the next one starts. -/
  disjoint : spans.Pairwise fun a b => a.stop ≤ b.start
  bounds : ∀ span ∈ spans, 0 ≤ span.start ∧ span.start < span.stop ∧
    span.stop ≤ (valueOf segs).length
  /-- What is outside of the spans are the pairs and the other characters. -/
  outside : Span.delete spans (valueOf segs) = segs.flatMap fun s => s.piece.bare

theorem placed_spansFrom (hsegs : ∀ s ∈ segs, s.Faithful) : Placed segs (spansFrom 0 segs) where
  mem_iff span := by
    rw [mem_spansFrom]
    simp only [Int.zero_add]
  disjoint := pairwise_spansFrom 0 segs
  bounds span hspan := by simpa using bounds_of_mem_spansFrom hspan
  outside := deleteFrom_spansFrom hsegs 0

end Segment

end Haybuild
