import Haybuild.Proofs.Text.Escaped
import Haybuild.Text.Lines

/-!
# Lines put together

Behind a text whose last line is at its end, a text has the lines that it has by itself
(`lines_append`). So a line can be put behind any text (`lines_terminated_append`), and lines that
hold no terminator come back from the text that they make (`lines_join`). Unifying the line ends of
a text changes none of its lines (`lines_unifyNewlines`).
-/

namespace Haybuild.Text

variable {c : Char} {s t : Text} {ls : List Text}

/-- The text holds no character at which a line ends. -/
def OneLine (t : Text) : Prop :=
  ∀ c ∈ t, isTerminator c = false

/-- The last line of the text, if there is one, is at its end. -/
def EndsLine (t : Text) : Prop :=
  t.getLast?.all isTerminator = true

instance : DecidablePred OneLine := fun t =>
  decidable_of_iff (t.any isTerminator = false) (by simp [OneLine])

instance : DecidablePred EndsLine := fun t =>
  inferInstanceAs (Decidable (t.getLast?.all isTerminator = true))

/-- The text with a line feed behind its last line, unless that line is at its end already. -/
def terminated (t : Text) : Text :=
  if EndsLine t then t else t ++ ['\n']

/-! ## The front of a text -/

theorem lines_of_ne_nil (h : t ≠ []) : lines t = (linesFrom t).1 :: (linesFrom t).2 :=
  if_neg h

theorem lines_ne_nil (h : t ≠ []) : lines t ≠ [] := by
  rw [lines_of_ne_nil h]
  exact List.cons_ne_nil _ _

theorem lines_feeds (t : Text) : lines ('\r' :: '\n' :: t) = [] :: lines t := by
  rw [lines_of_ne_nil (List.cons_ne_nil _ _), linesFrom]
  rfl

/-- A character that is not the first of a carriage return and a line feed is read by itself. -/
theorem linesFrom_cons (h : c = '\r' → t.head? ≠ some '\n') :
    linesFrom (c :: t) =
      if isTerminator c then ([], lines t) else (c :: (linesFrom t).1, (linesFrom t).2) := by
  rw [linesFrom]
  · rfl
  · rintro r rfl rfl
    exact absurd rfl (h rfl)

theorem lines_terminator (hc : isTerminator c = true) (h : c = '\r' → t.head? ≠ some '\n') :
    lines (c :: t) = [] :: lines t := by
  rw [lines_of_ne_nil (List.cons_ne_nil _ _), linesFrom_cons h, if_pos hc]

theorem ne_return_of_not_isTerminator (hc : isTerminator c = false) : c ≠ '\r' := by
  rintro rfl
  cases hc

theorem lines_singleton (hc : isTerminator c = false) : lines [c] = [[c]] := by
  rw [lines_of_ne_nil (List.cons_ne_nil _ _),
    linesFrom_cons fun h => absurd h (ne_return_of_not_isTerminator hc), hc]
  rfl

theorem lines_cons (hc : isTerminator c = false) (ht : t ≠ []) :
    lines (c :: t) = (lines t).modifyHead (c :: ·) := by
  rw [lines_of_ne_nil (List.cons_ne_nil _ _),
    linesFrom_cons fun h => absurd h (ne_return_of_not_isTerminator hc), hc, lines_of_ne_nil ht]
  rfl

/-- Texts by what stands at their front: nothing, a carriage return and a line feed, or another
character. -/
@[elab_as_elim]
theorem linesInduction {motive : Text → Prop} (nil : motive [])
    (feeds : ∀ t, motive t → motive ('\r' :: '\n' :: t))
    (cons : ∀ c t, (c = '\r' → t.head? ≠ some '\n') → motive t → motive (c :: t)) :
    ∀ t, motive t
  | [] => nil
  | [c] => cons c [] (fun _ => nofun) nil
  | c :: d :: t =>
    have ih := linesInduction nil feeds cons t
    have ih' := linesInduction nil feeds cons (d :: t)
    if h : c = '\r' ∧ d = '\n' then h.1 ▸ h.2 ▸ feeds t ih
    else cons c (d :: t) (fun hc hd => h ⟨hc, Option.some.inj hd⟩) ih'

/-! ## Unified line ends -/

theorem unifyNewlines_cons (h : c = '\r' → t.head? ≠ some '\n') :
    unifyNewlines (c :: t) = (if c = '\r' then '\n' else c) :: unifyNewlines t := by
  rw [unifyNewlines]
  rintro r rfl rfl
  exact absurd rfl (h rfl)

theorem unifyNewlines_ne_nil (h : t ≠ []) : unifyNewlines t ≠ [] := by
  induction t using linesInduction with
  | nil => exact absurd rfl h
  | feeds t => exact List.cons_ne_nil _ _
  | cons c t hc =>
    rw [unifyNewlines_cons hc]
    exact List.cons_ne_nil _ _

/-- Line ends that were unified end the same lines. -/
theorem lines_unifyNewlines (t : Text) : lines (unifyNewlines t) = lines t := by
  have hfeed : ∀ t, lines ('\n' :: t) = [] :: lines t := fun t =>
    lines_terminator (by decide) fun h => absurd h (by decide)
  induction t using linesInduction with
  | nil => rfl
  | feeds t ih =>
    rw [lines_feeds, ← ih]
    exact hfeed _
  | cons c t hc ih =>
    rw [unifyNewlines_cons hc]
    by_cases hreturn : c = '\r'
    · subst hreturn
      rw [if_pos rfl, hfeed, ih, lines_terminator (by decide) hc]
    · rw [if_neg hreturn]
      have hc' : c = '\r' → (unifyNewlines t).head? ≠ some '\n' := fun h => absurd h hreturn
      cases hend : isTerminator c with
      | true => rw [lines_terminator hend hc', lines_terminator hend hc, ih]
      | false =>
        by_cases ht : t = []
        · rw [ht]
          rfl
        · rw [lines_cons hend (unifyNewlines_ne_nil ht), lines_cons hend ht, ih]

/-! ## Texts one behind the other -/

theorem endsLine_nil : EndsLine [] := rfl

theorem endsLine_cons (h : t ≠ []) : EndsLine (c :: t) ↔ EndsLine t := by
  rw [EndsLine, EndsLine, List.getLast?_cons_of_ne_nil h]

/-- Behind a text whose last line is at its end, a text has the lines it has by itself. -/
theorem lines_append (hs : EndsLine s) (ht : t.head? ≠ some '\n') :
    lines (s ++ t) = lines s ++ lines t := by
  induction s using linesInduction with
  | nil => rfl
  | feeds s ih =>
    -- with nothing behind the pair, the line feed of the pair ends the last line
    have hs' : EndsLine s := by
      cases s with
      | nil => exact endsLine_nil
      | cons d s => exact hs
    rw [List.cons_append, List.cons_append, lines_feeds, lines_feeds, ih hs', List.cons_append]
  | cons c s hc ih =>
    cases s with
    | nil =>
      have hend : isTerminator c = true := hs
      rw [List.singleton_append, lines_terminator hend fun _ => ht, lines_terminator hend hc]
      rfl
    | cons d s =>
      rw [endsLine_cons (List.cons_ne_nil d s)] at hs
      obtain ⟨line, rest, hlines⟩ :=
        List.exists_cons_of_ne_nil (lines_ne_nil (List.cons_ne_nil d s))
      rw [List.cons_append]
      cases hend : isTerminator c with
      | true =>
        rw [lines_terminator hend hc, lines_terminator hend (t := d :: s ++ t) hc, ih hs,
          List.cons_append]
      | false =>
        have hne : d :: s ++ t ≠ [] := List.cons_ne_nil d (s ++ t)
        rw [lines_cons hend (List.cons_ne_nil d s), lines_cons hend hne, ih hs, hlines]
        rfl

/-- A line feed at the end of a text only ends its last line. -/
theorem lines_append_feed (hs : ¬EndsLine s) : lines (s ++ ['\n']) = lines s := by
  induction s using linesInduction with
  | nil => exact absurd endsLine_nil hs
  | feeds s ih =>
    have hs' : ¬EndsLine s := by
      cases s with
      | nil => exact absurd (show EndsLine ['\r', '\n'] by decide) hs
      | cons d s => exact hs
    rw [List.cons_append, List.cons_append, lines_feeds, lines_feeds, ih hs']
  | cons c s hc ih =>
    cases s with
    | nil =>
      have hend : isTerminator c = false := by simpa [EndsLine] using hs
      rw [List.singleton_append, lines_cons hend (List.cons_ne_nil _ _), lines_singleton hend]
      rfl
    | cons d s =>
      rw [endsLine_cons (List.cons_ne_nil d s)] at hs
      have hne : d :: s ++ ['\n'] ≠ [] := List.cons_ne_nil d (s ++ ['\n'])
      rw [List.cons_append]
      cases hend : isTerminator c with
      | true =>
        rw [lines_terminator hend hc, lines_terminator hend (t := d :: s ++ ['\n']) hc, ih hs]
      | false => rw [lines_cons hend (List.cons_ne_nil d s), lines_cons hend hne, ih hs]

theorem lines_terminated_append (s : Text) (ht : t.head? ≠ some '\n') :
    lines (terminated s ++ t) = lines s ++ lines t := by
  rw [terminated]
  split
  · next hs => exact lines_append hs ht
  · next hs =>
    have hend : EndsLine (s ++ ['\n']) := by simp [EndsLine, isTerminator]
    rw [lines_append hend ht, lines_append_feed hs]

/-! ## Single lines -/

theorem OneLine.append (hs : OneLine s) (ht : OneLine t) : OneLine (s ++ t) :=
  List.forall_mem_append.2 ⟨hs, ht⟩

theorem OneLine.cons (hc : isTerminator c = false) (ht : OneLine t) : OneLine (c :: t) :=
  List.forall_mem_cons.2 ⟨hc, ht⟩

theorem OneLine.replaceAll {new : Text} (ht : OneLine t) (hnew : OneLine new) (c : Char) :
    OneLine (replaceAll [c] new t) := by
  rw [replaceAll_singleton]
  intro d hd
  obtain ⟨e, he, hd⟩ := List.mem_flatMap.1 hd
  split at hd
  · exact hnew d hd
  · exact List.mem_singleton.1 hd ▸ ht e he

theorem OneLine.head_ne (H : OneLine t) : t.head? ≠ some '\n' := fun h =>
  absurd (H _ (List.mem_of_mem_head? h)) (by decide)

theorem OneLine.lines_eq (H : OneLine t) (hne : t ≠ []) : lines t = [t] := by
  induction t with
  | nil => exact absurd rfl hne
  | cons c t ih =>
    obtain ⟨hc, ht⟩ := List.forall_mem_cons.1 H
    cases t with
    | nil => exact lines_singleton hc
    | cons d t =>
      rw [lines_cons hc (List.cons_ne_nil d t), ih ht (List.cons_ne_nil d t)]
      rfl

theorem OneLine.terminated_append (H : OneLine t) (hne : t ≠ []) (s : Text) :
    terminated (s ++ t) = s ++ t ++ ['\n'] := by
  refine if_neg fun h => ?_
  rw [EndsLine, List.getLast?_append_of_ne_nil _ hne] at h
  obtain ⟨c, hc⟩ := Option.isSome_iff_exists.1 (List.getLast?_isSome.2 hne)
  rw [hc, Option.all_some, H c (List.mem_of_getLast? hc)] at h
  cases h

theorem OneLine.terminated_eq (H : OneLine t) (hne : t ≠ []) : terminated t = t ++ ['\n'] :=
  H.terminated_append hne []

/-- Lines without terminators of their own come back from the text that they make. -/
theorem lines_join (hls : ∀ l ∈ ls, OneLine l ∧ l ≠ []) : lines (join ['\n'] ls) = ls := by
  induction ls with
  | nil => rfl
  | cons l ls ih =>
    obtain ⟨⟨hl, hne⟩, hls⟩ := List.forall_mem_cons.1 hls
    cases ls with
    | nil => exact hl.lines_eq hne
    | cons l' ls =>
      obtain ⟨⟨hl', hne'⟩, -⟩ := List.forall_mem_cons.1 hls
      have hhead : (join ['\n'] (l' :: ls)).head? ≠ some '\n' := by
        obtain ⟨c, r, rfl⟩ := List.exists_cons_of_ne_nil hne'
        cases ls with
        | nil | cons => exact hl'.head_ne
      rw [join_cons_cons, ← hl.terminated_eq hne, lines_terminated_append l hhead, hl.lines_eq hne,
        ih hls]
      rfl

end Haybuild.Text
