import Haybuild.Proofs.Derivation.Argument

/-!
# Where a bracket is closed

A bracket that stands at an offset of a text is closed at the first offset up to which as many
brackets of its kind are closed as opened. `Bracket.ClosedAt` says this by counting, without the
search, and `Bracket.closerAt?_exact` says that the search finds this offset if there is one, and
cuts the text there.
-/

namespace Haybuild.Bracket

variable {b : Bracket} {start stop m : Nat} {t : Text}

/-- The bracket that stands at `start` is closed at `stop`: a closer stands there, from the bracket
up to it as many are closed as opened, and up to each place before it fewer are. -/
structure ClosedAt (b : Bracket) (t : Text) (start stop : Nat) : Prop where
  le : start ≤ stop
  closer : t[stop]? = some b.closer
  count : (t.extract start (stop + 1)).count b.opener = (t.extract start (stop + 1)).count b.closer
  before : ∀ i, start < i → i ≤ stop →
    (t.extract start i).count b.closer < (t.extract start i).count b.opener

/-- The offset at which the search finds the closer of the bracket that stands at `start`. -/
def closerAt? (b : Bracket) (t : Text) (start : Nat) : Option Nat :=
  (b.close? 0 (t.drop (start + 1))).map fun s => start + 1 + s.1.length

/-! ## What is behind the bracket -/

theorem extract_of_opener (hstart : t[start]? = some b.opener) (m : Nat) :
    t.extract start (start + 1 + m) = b.opener :: (t.drop (start + 1)).take m := by
  obtain ⟨hlt, hget⟩ := List.getElem?_eq_some_iff.1 hstart
  have hlength : start + 1 + m - start = m + 1 := by omega
  rw [List.extract, List.drop_eq_getElem_cons hlt, hget, hlength, List.take_succ_cons]

theorem count_opener_extract (hstart : t[start]? = some b.opener) (m : Nat) :
    (t.extract start (start + 1 + m)).count b.opener =
      ((t.drop (start + 1)).take m).count b.opener + 1 := by
  rw [extract_of_opener hstart, List.count_cons_self]

theorem count_closer_extract (hstart : t[start]? = some b.opener) (m : Nat) :
    (t.extract start (start + 1 + m)).count b.closer =
      ((t.drop (start + 1)).take m).count b.closer := by
  rw [extract_of_opener hstart, List.count_cons_of_ne b.opener_ne_closer]

/-- The front of a text up to and with a closer has one closer more. -/
theorem count_take_succ (hcloser : t[m]? = some b.closer) :
    (t.take (m + 1)).count b.opener = (t.take m).count b.opener ∧
      (t.take (m + 1)).count b.closer = (t.take m).count b.closer + 1 := by
  obtain ⟨hm, hget⟩ := List.getElem?_eq_some_iff.1 hcloser
  rw [List.take_succ_eq_append_getElem hm, hget, List.count_append, List.count_append,
    List.count_singleton_self, List.count_singleton, beq_eq_false_iff_ne.2 b.opener_ne_closer.symm]
  exact ⟨rfl, rfl⟩

/-- A front is balanced if as many brackets are closed as opened in it, and up to no place in it
more are. -/
theorem balanced_take_iff :
    b.Balanced (t.take m) ↔ (t.take m).count b.closer = (t.take m).count b.opener ∧
      ∀ k ≤ m, (t.take k).count b.closer ≤ (t.take k).count b.opener := by
  constructor
  · intro H
    refine ⟨H.count, ?_⟩
    intro k hk
    exact H.front _ (List.take_prefix_take_left hk)
  · rintro ⟨hcount, hfront⟩
    refine ⟨hcount, ?_⟩
    intro s hs
    have hlength : s.length ≤ m := Nat.le_trans hs.length_le (List.length_take_le m t)
    rw [List.prefix_iff_eq_take.1 (hs.trans (List.take_prefix m t))]
    exact hfront s.length hlength

/-- Up to and with a closer as many brackets are closed as opened, the one at `start` included, if
this is so of what stands between the two. -/
theorem count_extract_eq_iff (hstart : t[start]? = some b.opener)
    (hcloser : (t.drop (start + 1))[m]? = some b.closer) :
    (t.extract start (start + 1 + m + 1)).count b.opener =
        (t.extract start (start + 1 + m + 1)).count b.closer ↔
      ((t.drop (start + 1)).take m).count b.closer =
        ((t.drop (start + 1)).take m).count b.opener := by
  obtain ⟨hopeners, hclosers⟩ := count_take_succ hcloser
  rw [Nat.add_assoc, count_opener_extract hstart, count_closer_extract hstart, hopeners, hclosers]
  omega

/-- Up to a place behind the bracket at `start` fewer brackets are closed than opened, that one
included, if no more are in what stands between the two. -/
theorem count_extract_lt_iff (hstart : t[start]? = some b.opener) (m : Nat) :
    (t.extract start (start + 1 + m)).count b.closer <
        (t.extract start (start + 1 + m)).count b.opener ↔
      ((t.drop (start + 1)).take m).count b.closer ≤
        ((t.drop (start + 1)).take m).count b.opener := by
  rw [count_opener_extract hstart, count_closer_extract hstart, Nat.lt_succ_iff]

/-- The bracket at `start` is closed where a closer follows a balanced part of what is behind it. -/
theorem closedAt_iff (hstart : t[start]? = some b.opener) :
    b.ClosedAt t start (start + 1 + m) ↔
      (t.drop (start + 1))[m]? = some b.closer ∧ b.Balanced ((t.drop (start + 1)).take m) := by
  rw [balanced_take_iff]
  constructor
  · intro H
    have hcloser : (t.drop (start + 1))[m]? = some b.closer := by
      rw [List.getElem?_drop]
      exact H.closer
    refine ⟨hcloser, (count_extract_eq_iff hstart hcloser).1 H.count, ?_⟩
    intro k hk
    exact (count_extract_lt_iff hstart k).1 (H.before _ (by omega) (by omega))
  · rintro ⟨hcloser, hcount, hfront⟩
    refine ⟨by omega, ?_, (count_extract_eq_iff hstart hcloser).2 hcount, ?_⟩
    · rw [← List.getElem?_drop]
      exact hcloser
    · intro i hi hle
      obtain ⟨k, rfl⟩ : ∃ k, i = start + 1 + k := ⟨i - (start + 1), by omega⟩
      exact (count_extract_lt_iff hstart k).2 (hfront k (by omega))

theorem ClosedAt.lt (H : b.ClosedAt t start stop) (hstart : t[start]? = some b.opener) :
    start < stop := by
  apply Nat.lt_of_le_of_ne H.le
  intro h
  have hcloser := H.closer
  rw [← h, hstart] at hcloser
  exact b.opener_ne_closer (Option.some.inj hcloser)

/-! ## What the search finds -/

theorem closerAt?_eq_some_iff (hstart : t[start]? = some b.opener) :
    b.closerAt? t start = some stop ↔ b.ClosedAt t start stop := by
  rw [closerAt?, Option.map_eq_some_iff]
  constructor
  · rintro ⟨⟨u, v⟩, hclose, rfl⟩
    obtain ⟨hdrop, hu⟩ := close?_eq_some_iff.1 hclose
    rw [closedAt_iff hstart, hdrop, List.take_left]
    exact ⟨by simp, hu⟩
  · intro H
    obtain ⟨m, rfl⟩ : ∃ m, stop = start + 1 + m :=
      ⟨stop - (start + 1), by have := H.lt hstart; omega⟩
    obtain ⟨hcloser, hbalanced⟩ := (closedAt_iff hstart).1 H
    obtain ⟨hm, hget⟩ := List.getElem?_eq_some_iff.1 hcloser
    refine ⟨(_, (t.drop (start + 1)).drop (m + 1)), close?_eq_some_iff.2 ⟨?_, hbalanced⟩, ?_⟩
    · rw [← hget, ← List.drop_eq_getElem_cons hm, List.take_append_drop]
    · rw [List.length_take_of_le (Nat.le_of_lt hm)]

/-- What is found of a bracket is cut from the text at its closer. -/
theorem close?_eq_map_closerAt? (b : Bracket) (t : Text) (start : Nat) :
    b.close? 0 (t.drop (start + 1)) =
      (b.closerAt? t start).map fun stop => (t.extract (start + 1) stop, t.drop (stop + 1)) := by
  rw [closerAt?]
  cases hclose : b.close? 0 (t.drop (start + 1)) with
  | none => rfl
  | some s =>
    have hdrop := eq_of_close? hclose
    have hbody : t.extract (start + 1) (start + 1 + s.1.length) = s.1 := by
      rw [List.extract, hdrop, Nat.add_sub_cancel_left, List.take_left]
    have hrest : t.drop (start + 1 + s.1.length + 1) = s.2 := by
      rw [Nat.add_assoc, ← List.drop_drop, hdrop, List.drop_append]
      simp
    rw [Option.map_some, Option.map_some, hbody, hrest]

/-- The bracket that stands at an offset is closed at the one offset where as many of its kind are
closed as opened from there on and before which fewer are. The search finds this offset, and cuts
the text at it, and finds none if and only if there is none. So a bracket before a balanced text is
closed right behind it, whatever follows. -/
theorem closerAt?_exact (hstart : t[start]? = some b.opener) :
    (∀ stop, b.closerAt? t start = some stop ↔ b.ClosedAt t start stop) ∧
    (b.closerAt? t start = none ↔ ¬∃ stop, b.ClosedAt t start stop) ∧
    b.close? 0 (t.drop (start + 1)) =
      (b.closerAt? t start).map (fun stop => (t.extract (start + 1) stop, t.drop (stop + 1))) ∧
    ∀ x rest, b.Balanced x → t.drop (start + 1) = x ++ b.closer :: rest →
      b.closerAt? t start = some (start + 1 + x.length) := by
  refine ⟨fun stop => closerAt?_eq_some_iff hstart, ?_, close?_eq_map_closerAt? b t start, ?_⟩
  · simp only [Option.eq_none_iff_forall_ne_some, ne_eq, closerAt?_eq_some_iff hstart, not_exists]
  · intro x rest hx hdrop
    rw [closerAt?, hdrop, hx.close?_eq]
    rfl

/-- In `$(a(b)c{)d` the first bracket is closed at the second closer of its kind. The curly bracket
has no part in that, and is not closed. -/
theorem closerAt?_exact_otherKind :
    let t : Text := "$(a(b)c\x7b)d"
    Bracket.round.ClosedAt t 1 8 ∧ Bracket.round.closerAt? t 1 = some 8 ∧
      ¬∃ stop, Bracket.curly.ClosedAt t 7 stop := by
  intro t
  have hopener : t[1]? = some Bracket.round.opener := rfl
  have hopener' : t[7]? = some Bracket.curly.opener := rfl
  obtain ⟨hround, -, -, hbalanced⟩ := closerAt?_exact hopener
  obtain ⟨-, hcurly, -⟩ := closerAt?_exact hopener'
  have hstop : Bracket.round.closerAt? t 1 = some 8 :=
    hbalanced "a(b)c\x7b".toList ['d'] (by decide) rfl
  exact ⟨(hround 8).1 hstop, hstop, hcurly.1 rfl⟩

end Haybuild.Bracket
