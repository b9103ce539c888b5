import Haybuild.Proofs.Text.Find
import Haybuild.Text.Quoting
import Mathlib.Algebra.Group.Nat.Even

/-!
# Pieces between separators outside quotes

A place is outside quotes if an even number of quotes stands before it, and a text is cut at the
separators there (`SeparatesAt`). The pieces are the maximal runs of places between them
(`MaximalRun`), from left to right. Two maximal runs that share a place are one
(`MaximalRun.eq_of_covers`), so what the reading of a text must keep is that it gives such runs, in
order, and misses no place (`RunsFrom`).
-/

namespace Haybuild.Text

variable {sep quote c : Char} {s t u piece : Text} {i n : Nat} {p q : Slice} {ps rest : List Slice}

/-- A separator stands at the place, outside quotes. -/
def SeparatesAt (sep quote : Char) (t : Text) (i : Nat) : Prop :=
  t[i]? = some sep ∧ Even ((t.take i).count quote)

instance (sep quote : Char) (t : Text) : DecidablePred (SeparatesAt sep quote t) := fun i =>
  inferInstanceAs (Decidable (t[i]? = some sep ∧ Even ((t.take i).count quote)))

namespace Slice

/-- The place behind a slice. -/
def stop (p : Slice) : Nat :=
  p.offset + p.text.length

/-- The place is one of the slice's. -/
def Covers (p : Slice) (i : Nat) : Prop :=
  p.offset ≤ i ∧ i < p.stop

end Slice

/-- The slice is not empty, holds no separator outside quotes, and cannot be made longer. -/
structure MaximalRun (sep quote : Char) (t : Text) (p : Slice) : Prop where
  ne_nil : p.text ≠ []
  stands : p.text.StandsAt t p.offset
  unbroken : ∀ i, p.Covers i → ¬SeparatesAt sep quote t i
  start : p.offset = 0 ∨ SeparatesAt sep quote t (p.offset - 1)
  stop : p.stop = t.length ∨ SeparatesAt sep quote t p.stop

/-! ## Maximal runs -/

theorem StandsAt.length_le (H : u.StandsAt t i) (hne : u ≠ []) : i + u.length ≤ t.length := by
  have hlength := List.IsPrefix.length_le H
  have hlt := H.lt_length hne
  rw [List.length_drop] at hlength
  omega

namespace MaximalRun

theorem offset_le (H : MaximalRun sep quote t p) (H' : MaximalRun sep quote t q)
    (hp : p.Covers i) (hq : q.Covers i) : p.offset ≤ q.offset := by
  by_contra hlt
  rcases H.start with hzero | hseparates
  · omega
  · refine H'.unbroken (p.offset - 1) ⟨by omega, ?_⟩ hseparates
    have hp' := hp.1
    have hq' := hq.2
    omega

theorem stop_le (H : MaximalRun sep quote t p) (H' : MaximalRun sep quote t q)
    (hp : p.Covers i) (hq : q.Covers i) : p.stop ≤ q.stop := by
  by_contra hlt
  rcases H'.stop with hlength | hseparates
  · have hle : p.stop ≤ t.length := H.stands.length_le H.ne_nil
    omega
  · refine H.unbroken q.stop ⟨?_, by omega⟩ hseparates
    have hp' := hp.1
    have hq' := hq.2
    omega

/-- Two maximal runs with a place in common are the same. -/
theorem eq_of_covers (H : MaximalRun sep quote t p) (H' : MaximalRun sep quote t q)
    (hp : p.Covers i) (hq : q.Covers i) : p = q := by
  have hoffset : p.offset = q.offset :=
    Nat.le_antisymm (H.offset_le H' hp hq) (H'.offset_le H hq hp)
  have hstop : p.stop = q.stop := Nat.le_antisymm (H.stop_le H' hp hq) (H'.stop_le H hq hp)
  have hlength : p.text.length = q.text.length := by
    rw [Slice.stop, Slice.stop] at hstop
    omega
  have hstands : p.text <+: t.drop q.offset := hoffset ▸ H.stands
  have htext : p.text = q.text :=
    (List.prefix_of_prefix_length_le hstands H'.stands hlength.le).eq_of_length hlength
  cases p
  cases q
  cases hoffset
  cases htext
  rfl

theorem covers_offset (H : MaximalRun sep quote t p) : p.Covers p.offset := by
  have hlength : 0 < p.text.length := List.length_pos_iff.2 H.ne_nil
  exact ⟨le_rfl, Nat.lt_add_of_pos_right hlength⟩

end MaximalRun

/-! ## Reading the pieces -/

/-- The slices are the maximal runs of the text from a place on, from left to right. -/
structure RunsFrom (sep quote : Char) (t : Text) (n : Nat) (ps : List Slice) : Prop where
  maximal : ∀ p ∈ ps, MaximalRun sep quote t p
  le_offset : ∀ p ∈ ps, n ≤ p.offset
  ordered : ps.Pairwise fun p q => p.stop < q.offset
  covered : ∀ i, n ≤ i → i < t.length → ¬SeparatesAt sep quote t i → ∃ p ∈ ps, p.Covers i

/-- Read from a place on, the text holds the rest of a piece and the maximal runs behind it. -/
structure ReadsFrom (sep quote : Char) (t : Text) (n : Nat) (piece : Text) (rest : List Slice) :
    Prop where
  stands : piece.StandsAt t n
  unbroken : ∀ i, n ≤ i → i < n + piece.length → ¬SeparatesAt sep quote t i
  stop : n + piece.length = t.length ∨ SeparatesAt sep quote t (n + piece.length)
  runs : RunsFrom sep quote t (n + piece.length + 1) rest

namespace ReadsFrom

theorem nil : ReadsFrom sep quote t t.length [] [] where
  stands := List.nil_prefix
  unbroken i hi hi' := by
    rw [List.length_nil] at hi'
    omega
  stop := .inl rfl
  runs := ⟨nofun, nofun, .nil, fun i hi hi' => absurd hi' (by omega)⟩

/-- A character that is no separator outside quotes belongs to the piece. -/
theorem cons (hc : t[n]? = some c) (hn : ¬SeparatesAt sep quote t n)
    (H : ReadsFrom sep quote t (n + 1) piece rest) :
    ReadsFrom sep quote t n (c :: piece) rest := by
  have hlength : n + (c :: piece).length = n + 1 + piece.length := by
    rw [List.length_cons]
    omega
  refine ⟨?_, ?_, ?_, ?_⟩
  · obtain ⟨hlt, rfl⟩ := List.getElem?_eq_some_iff.1 hc
    rw [StandsAt, List.drop_eq_getElem_cons hlt]
    exact List.cons_prefix_cons.2 ⟨rfl, H.stands⟩
  · intro i hi hi'
    by_cases hin : i = n
    · rwa [hin]
    · apply H.unbroken i
      · omega
      · omega
  · rw [hlength]
    exact H.stop
  · rw [hlength]
    exact H.runs

/-- A piece that starts where no run goes on is a run, unless it is empty. -/
theorem runsFrom (H : ReadsFrom sep quote t n piece rest)
    (hstart : n = 0 ∨ SeparatesAt sep quote t (n - 1)) :
    RunsFrom sep quote t n (Slice.unlessEmpty n piece ++ rest) := by
  have hbehind : ∀ i, n + piece.length ≤ i → i < t.length → ¬SeparatesAt sep quote t i →
      n + piece.length + 1 ≤ i := by
    intro i hi hi' hseparates
    by_contra hlt
    obtain rfl : i = n + piece.length := by omega
    rcases H.stop with hlength | hstop
    · omega
    · exact hseparates hstop
  rw [Slice.unlessEmpty]
  split
  · next hempty =>
    subst hempty
    rw [List.nil_append]
    refine ⟨H.runs.maximal, ?_, H.runs.ordered, ?_⟩
    · intro p hp
      have hle := H.runs.le_offset p hp
      omega
    · intro i hi hi' hseparates
      exact H.runs.covered i (hbehind i hi hi' hseparates) hi' hseparates
  · next hne =>
    have hrun : MaximalRun sep quote t ⟨n, piece⟩ :=
      ⟨hne, H.stands, fun i hi => H.unbroken i hi.1 hi.2, hstart, H.stop⟩
    refine ⟨List.forall_mem_cons.2 ⟨hrun, H.runs.maximal⟩, ?_, ?_, ?_⟩
    · refine List.forall_mem_cons.2 ⟨le_rfl, fun p hp => ?_⟩
      have hle := H.runs.le_offset p hp
      omega
    · exact List.pairwise_cons.2 ⟨H.runs.le_offset, H.runs.ordered⟩
    · intro i hi hi' hseparates
      by_cases hlt : i < n + piece.length
      · exact ⟨⟨n, piece⟩, List.mem_cons_self, hi, hlt⟩
      · obtain ⟨p, hp, hcovers⟩ :=
          H.runs.covered i (hbehind i (by omega) hi' hseparates) hi' hseparates
        exact ⟨p, List.mem_cons_of_mem _ hp, hcovers⟩

/-- A separator outside quotes ends the piece, and the next one starts behind it. -/
theorem separator (hn : SeparatesAt sep quote t n)
    (H : ReadsFrom sep quote t (n + 1) piece rest) :
    ReadsFrom sep quote t n [] (Slice.unlessEmpty (n + 1) piece ++ rest) where
  stands := List.nil_prefix
  unbroken i hi hi' := by
    rw [List.length_nil] at hi'
    omega
  stop := .inr hn
  runs := H.runsFrom (.inr hn)

end ReadsFrom

theorem separatesAt_length :
    SeparatesAt sep quote (u ++ c :: s) u.length ↔ c = sep ∧ Even (u.count quote) := by
  rw [SeparatesAt, List.take_left, List.getElem?_append_right le_rfl, Nat.sub_self,
    List.getElem?_cons_zero, Option.some_inj]

/-- What is read behind a text `u`, if a quote is open there just when `u` has an odd number of
them. -/
theorem readsFrom_splitBalancedFrom (hne : sep ≠ quote) {inside : Bool} (u s : Text)
    (hinside : inside = false ↔ Even (u.count quote)) :
    ReadsFrom sep quote (u ++ s) u.length
      (splitBalancedFrom [sep] [quote] inside u.length s).1
      (splitBalancedFrom [sep] [quote] inside u.length s).2 := by
  induction s generalizing u inside with
  | nil =>
    rw [List.append_nil]
    exact .nil
  | cons c s ih =>
    have hc : (u ++ c :: s)[u.length]? = some c := by simp
    have happend : u ++ [c] ++ s = u ++ c :: s := by simp
    have hlength : (u ++ [c]).length = u.length + 1 := by simp
    rw [splitBalancedFrom]
    split
    · next hquote =>
      obtain rfl : c = quote := List.singleton_inj.1 hquote
      have hcount : (!inside) = false ↔ Even ((u ++ [c]).count c) := by
        rw [List.count_append, List.count_singleton_self, Nat.even_add_one, ← hinside,
          Bool.not_eq_false', Bool.not_eq_false]
      have H := ih (u ++ [c]) hcount
      rw [happend, hlength] at H
      refine H.cons hc fun hseparates => ?_
      exact hne (separatesAt_length.1 hseparates).1.symm
    · next hquote =>
      have hcount : inside = false ↔ Even ((u ++ [c]).count quote) := by
        rw [List.count_append, List.count_singleton, hinside]
        simp [show c ≠ quote from fun h => hquote (congrArg (fun d => [d]) h)]
      have H := ih (u ++ [c]) hcount
      rw [happend, hlength] at H
      split
      · next hsep =>
        obtain ⟨rfl, rfl⟩ : c = sep ∧ inside = false := by simpa using hsep
        exact H.separator (separatesAt_length.2 ⟨rfl, hinside.1 rfl⟩)
      · next hsep =>
        refine H.cons hc fun hseparates => hsep ?_
        obtain ⟨rfl, heven⟩ := separatesAt_length.1 hseparates
        simpa using hinside.2 heven

theorem runsFrom_splitBalanced (hne : sep ≠ quote) (t : Text) :
    RunsFrom sep quote t 0 (splitBalanced [sep] [quote] t) := by
  have hinside : false = false ↔ Even (([] : Text).count quote) := by simp
  exact (readsFrom_splitBalancedFrom hne [] t hinside).runsFrom (.inl rfl)

theorem exists_covers (hne : sep ≠ quote) (hi : i < t.length)
    (hseparates : ¬SeparatesAt sep quote t i) :
    ∃ p ∈ splitBalanced [sep] [quote] t, p.Covers i :=
  (runsFrom_splitBalanced hne t).covered i (Nat.zero_le i) hi hseparates

/-- The pieces are all the maximal runs. -/
theorem mem_splitBalanced_iff (hne : sep ≠ quote) :
    p ∈ splitBalanced [sep] [quote] t ↔ MaximalRun sep quote t p := by
  constructor
  · exact (runsFrom_splitBalanced hne t).maximal p
  · intro H
    obtain ⟨q, hq, hcovers⟩ := exists_covers hne (H.stands.lt_length H.ne_nil)
      (H.unbroken p.offset H.covers_offset)
    have hrun := (runsFrom_splitBalanced hne t).maximal q hq
    rwa [H.eq_of_covers hrun H.covers_offset hcovers]

/-- No place behind an unclosed quote is outside quotes. -/
theorem not_separatesAt_of_unclosed (hs : Even (s.count quote)) (hu : quote ∉ u)
    (hi : s.length < i) : ¬SeparatesAt sep quote (s ++ quote :: u) i := by
  rintro ⟨-, heven⟩
  obtain ⟨k, rfl⟩ : ∃ k, i = s.length + (k + 1) := ⟨i - (s.length + 1), by omega⟩
  have hcount : (u.take k).count quote = 0 :=
    List.count_eq_zero.2 fun h => hu (List.mem_of_mem_take h)
  rw [List.take_length_add_append, List.take_succ_cons, List.count_append, List.count_cons_self,
    hcount, Nat.even_add] at heven
  exact absurd (heven.1 hs) (by decide)

/-- The pieces of a text are its maximal runs without separators outside quotes, from left to right,
and each place that is no such separator is in exactly one of them. Behind a quote that is not
closed, all is in one piece. -/
theorem splitBalanced_exact (hne : sep ≠ quote) (t : Text) :
    (∀ p, p ∈ splitBalanced [sep] [quote] t ↔ MaximalRun sep quote t p) ∧
      (splitBalanced [sep] [quote] t).Pairwise (fun p q => p.stop < q.offset) ∧
      (∀ i < t.length, ¬SeparatesAt sep quote t i →
        ∃! p, p ∈ splitBalanced [sep] [quote] t ∧ p.Covers i) ∧
      ∀ s u, t = s ++ quote :: u → Even (s.count quote) → quote ∉ u →
        ∃ p ∈ splitBalanced [sep] [quote] t, p.Covers s.length ∧ p.stop = t.length := by
  refine ⟨fun p => mem_splitBalanced_iff hne, (runsFrom_splitBalanced hne t).ordered, ?_, ?_⟩
  · intro i hi hseparates
    obtain ⟨p, hp, hcovers⟩ := exists_covers hne hi hseparates
    refine ⟨p, ⟨hp, hcovers⟩, ?_⟩
    rintro q ⟨hq, hcovers'⟩
    rw [mem_splitBalanced_iff hne] at hp hq
    exact hq.eq_of_covers hp hcovers' hcovers
  · rintro s u rfl hs hu
    have hquote : ¬SeparatesAt sep quote (s ++ quote :: u) s.length := fun h =>
      hne (separatesAt_length.1 h).1.symm
    obtain ⟨p, hp, hcovers⟩ := exists_covers hne (by simp) hquote
    have hstop := ((mem_splitBalanced_iff hne).1 hp).stop
    exact ⟨p, hp, hcovers, hstop.resolve_right (not_separatesAt_of_unclosed hs hu hcovers.2)⟩

/-- Separators at the front, in a row and inside of quotes, and a quote that is not closed. -/
def looseText : Text := " include  'a b'c 'd  e"

theorem splitBalanced_exact_looseText :
    ' ' ≠ '\'' ∧
      splitBalanced [' '] ['\''] looseText =
        [⟨1, "include"⟩, ⟨10, "'a b'c"⟩, ⟨17, "'d  e"⟩] ∧
      MaximalRun ' ' '\'' looseText ⟨10, "'a b'c"⟩ ∧
      (12 < looseText.length ∧ ¬SeparatesAt ' ' '\'' looseText 12 ∧
        ∃! p, p ∈ splitBalanced [' '] ['\''] looseText ∧ p.Covers 12) ∧
      (looseText = " include  'a b'c ".toList ++ '\'' :: "d  e".toList ∧
        Even (" include  'a b'c ".toList.count '\'') ∧ '\'' ∉ "d  e".toList ∧
        ∃ p ∈ splitBalanced [' '] ['\''] looseText, p.Covers 17 ∧ p.stop = 22) := by
  have hne : ' ' ≠ '\'' := by decide
  have hpieces : splitBalanced [' '] ['\''] looseText =
      [⟨1, "include"⟩, ⟨10, "'a b'c"⟩, ⟨17, "'d  e"⟩] := by decide
  have hplace : 12 < looseText.length := by decide
  have hseparates : ¬SeparatesAt ' ' '\'' looseText 12 := by decide
  have htext : looseText = " include  'a b'c ".toList ++ '\'' :: "d  e".toList := by decide
  have heven : Even (" include  'a b'c ".toList.count '\'') := by decide
  have hopen : '\'' ∉ "d  e".toList := by decide
  obtain ⟨hruns, -, hcovered, hunclosed⟩ := splitBalanced_exact hne looseText
  refine ⟨hne, hpieces, (hruns _).1 ?_, ⟨hplace, hseparates, hcovered 12 hplace hseparates⟩,
    htext, heven, hopen, hunclosed _ _ htext heven hopen⟩
  rw [hpieces]
  exact List.mem_cons_of_mem _ List.mem_cons_self

end Haybuild.Text
