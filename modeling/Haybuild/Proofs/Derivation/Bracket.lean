import Haybuild.Derivation.Piece
import Mathlib.Data.List.Basic

/-!
# Balanced brackets

A bracket is closed by the first closer of its kind that leaves none of its kind open. So the
search for it succeeds if and only if the text goes on with a balanced part and a closer, and these
are what it finds (`Bracket.close?_eq_some_iff`). What the text holds of the other kind has no part
in this.
-/

namespace Haybuild.Bracket

variable {b : Bracket} {level : Nat} {c : Char} {t u v : Text}

/-- The text closes every bracket that it opens and `level` brackets that are open before it, and
never one that is not open. -/
structure Closes (b : Bracket) (level : Nat) (t : Text) : Prop where
  count : t.count b.closer = t.count b.opener + level
  front : ∀ s, s <+: t → s.count b.closer ≤ s.count b.opener + level

/-- Brackets of the kind are opened and closed in pairs. -/
abbrev Balanced (b : Bracket) (t : Text) : Prop := b.Closes 0 t

theorem opener_ne_closer (b : Bracket) : b.opener ≠ b.closer := by
  cases b <;> decide

/-! ## The front of a text -/

theorem closes_nil : b.Closes level [] ↔ level = 0 := by
  refine ⟨fun H => by simpa using H.count.symm, ?_⟩
  rintro rfl
  exact ⟨rfl, fun s hs => by simp [List.prefix_nil.1 hs]⟩

/-- A character that changes the number of open brackets from `level` to `level'` can stand before a
text that closes `level'` brackets. -/
theorem closes_cons {level' : Nat} (hc : [c].count b.closer + level' = [c].count b.opener + level) :
    b.Closes level (c :: t) ↔ b.Closes level' t := by
  have hcount : ∀ s x, ([c] ++ s).count x = [c].count x + s.count x := fun _ _ => List.count_append
  simp only [List.singleton_append] at hcount
  constructor
  · intro H
    refine ⟨?_, fun s hs => ?_⟩
    · have h := H.count
      rw [hcount t, hcount t] at h
      omega
    · have h := H.front (c :: s) (List.cons_prefix_cons.2 ⟨rfl, hs⟩)
      rw [hcount s, hcount s] at h
      omega
  · intro H
    refine ⟨?_, fun s hs => ?_⟩
    · have h := H.count
      rw [hcount t, hcount t]
      omega
    · rcases List.prefix_cons_iff.1 hs with rfl | ⟨r, rfl, hr⟩
      · exact Nat.zero_le _
      · have h := H.front r hr
        rw [hcount r, hcount r]
        omega

theorem closes_closer : b.Closes (level + 1) (b.closer :: t) ↔ b.Closes level t :=
  closes_cons (by simp [b.opener_ne_closer.symm]; omega)

theorem not_closes_closer : ¬b.Closes 0 (b.closer :: t) := fun H => by
  have h := H.front [b.closer] (List.cons_prefix_cons.2 ⟨rfl, List.nil_prefix⟩)
  simp [b.opener_ne_closer.symm] at h

theorem closes_of_ne (hc : c ≠ b.closer) :
    b.Closes level (c :: t) ↔ b.Closes (if c = b.opener then level + 1 else level) t := by
  apply closes_cons
  by_cases ho : c = b.opener
  · simp [ho, b.opener_ne_closer]
    omega
  · simp [ho, hc]

/-! ## Balanced texts -/

theorem balanced_of_notMem (hopener : b.opener ∉ t) (hcloser : b.closer ∉ t) : b.Balanced t where
  count := by rw [List.count_eq_zero.2 hopener, List.count_eq_zero.2 hcloser]
  front s hs := by
    rw [List.count_eq_zero.2 fun h => hcloser (hs.subset h)]
    exact Nat.zero_le _

/-- In front of a text, a balanced one changes nothing about the brackets that the text closes. -/
theorem Balanced.closes_append (H : b.Balanced u) :
    b.Closes level (u ++ v) ↔ b.Closes level v := by
  have hu := H.count
  constructor
  · intro H'
    refine ⟨?_, fun s hs => ?_⟩
    · have h := H'.count
      rw [List.count_append, List.count_append] at h
      omega
    · have h := H'.front (u ++ s) ((List.prefix_append_right_inj u).2 hs)
      rw [List.count_append, List.count_append] at h
      omega
  · intro H'
    refine ⟨?_, fun s hs => ?_⟩
    · have h := H'.count
      rw [List.count_append, List.count_append]
      omega
    · rcases List.prefix_or_prefix_of_prefix hs (List.prefix_append u v) with h | ⟨r, rfl⟩
      · have h := H.front s h
        omega
      · have h := H'.front r ((List.prefix_append_right_inj u).1 hs)
        rw [List.count_append, List.count_append]
        omega

/-! ## The closer of a bracket -/

/-- The closer that is found has a part before it that closes all other brackets, and is the only
such closer. -/
theorem close?_eq_some_iff :
    b.close? level t = some (u, v) ↔ t = u ++ b.closer :: v ∧ b.Closes level u := by
  induction t generalizing level u v with
  | nil => simp [close?]
  | cons c r ih =>
    -- a part that is not empty starts with `c`, and the rest of it is found in `r`
    have hmap : ∀ level', (c = b.closer → level ≠ 0) →
        (∀ w, b.Closes level (c :: w) ↔ b.Closes level' w) →
        ((b.close? level' r).map (fun s => (c :: s.1, s.2)) = some (u, v) ↔
          c :: r = u ++ b.closer :: v ∧ b.Closes level u) := by
      intro level' hc hcloses
      cases u with
      | nil =>
        simp only [Option.map_eq_some_iff, Prod.mk.injEq, reduceCtorEq, false_and, and_false,
          exists_false, List.nil_append, List.cons.injEq, closes_nil, false_iff]
        exact fun h => hc h.1.1 h.2
      | cons d w =>
        simp only [Option.map_eq_some_iff, Prod.exists, Prod.mk.injEq, List.cons.injEq, ih,
          List.cons_append]
        constructor
        · rintro ⟨_, _, ⟨rfl, H⟩, ⟨rfl, rfl⟩, rfl⟩
          exact ⟨⟨rfl, rfl⟩, (hcloses _).2 H⟩
        · rintro ⟨⟨rfl, rfl⟩, H⟩
          exact ⟨w, v, ⟨rfl, (hcloses _).1 H⟩, ⟨rfl, rfl⟩, rfl⟩
    simp only [close?]
    split
    · next hc =>
      subst hc
      cases level with
      | zero =>
        cases u with
        | nil => simp [closes_nil]
        | cons d w =>
          simp only [Option.some.injEq, Prod.mk.injEq, reduceCtorEq, false_and, List.cons_append,
            List.cons.injEq, false_iff, not_and, and_imp]
          rintro rfl -
          exact not_closes_closer
      | succ level => exact hmap level (fun _ => Nat.succ_ne_zero _) fun _ => closes_closer
    · next hc => exact hmap _ (fun h => absurd h hc) fun _ => closes_of_ne hc

/-- A bracket opened before a balanced part is closed right behind it, whatever follows. -/
theorem Balanced.close?_eq (H : b.Balanced u) (v : Text) :
    b.close? 0 (u ++ b.closer :: v) = some (u, v) :=
  close?_eq_some_iff.2 ⟨rfl, H⟩

/-- A bracket is not closed if and only if no balanced part of the text is followed by a closer. -/
theorem close?_eq_none_iff :
    b.close? level t = none ↔ ∀ u v, t = u ++ b.closer :: v → ¬b.Closes level u := by
  simp only [Option.eq_none_iff_forall_ne_some, ne_eq, Prod.forall, close?_eq_some_iff, not_and]

end Haybuild.Bracket
