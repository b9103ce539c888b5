import Haybuild.Console
import Haybuild.Proofs.Console.Style
import Haybuild.Proofs.Text.Comment

/-!
# Blocks of lines

What the console writes as one block are lines, each with a line feed behind it
(`unlines_concat_nil`). Without its escape sequences a block is the same whether it was written with
colour or without it (`plain_block`).
-/

namespace Haybuild.Console

open Style (Reads plain)

variable {c : Console} {s t : Text} {ts ls : List Text}

/-- The text is a single line and holds no escape character. -/
def PlainLine (t : Text) : Prop :=
  ∀ c ∈ t, c ≠ Style.escape ∧ Text.isTerminator c = false

-- the one of lists, by name: that of a finite type would go through every character
instance : DecidablePred PlainLine :=
  List.decidableBAll fun c => c ≠ Style.escape ∧ Text.isTerminator c = false

namespace PlainLine

theorem notMem (H : PlainLine t) : Style.escape ∉ t := fun h => (H _ h).1 rfl

theorem oneLine (H : PlainLine t) : Text.OneLine t := fun c hc => (H c hc).2

theorem subset (H : PlainLine t) (h : s ⊆ t) : PlainLine s := fun c hc => H c (h hc)

theorem append (Hs : PlainLine s) (Ht : PlainLine t) : PlainLine (s ++ t) :=
  List.forall_mem_append.2 ⟨Hs, Ht⟩

theorem nil : PlainLine [] := nofun

theorem join (Hs : PlainLine s) (Hts : ∀ t ∈ ts, PlainLine t) : PlainLine (Text.join s ts) := by
  induction ts with
  | nil => nofun
  | cons t ts ih =>
    obtain ⟨ht, hts⟩ := List.forall_mem_cons.1 Hts
    cases ts with
    | nil => exact ht
    | cons u ts => exact (ht.append Hs).append (ih hts)

end PlainLine

/-! ## Lines with their line feeds -/

theorem flatMap_feed (hls : ls ≠ []) :
    ls.flatMap (· ++ ['\n']) = Text.join ['\n'] ls ++ ['\n'] := by
  induction ls with
  | nil => exact absurd rfl hls
  | cons l ls ih =>
    cases ls with
    | nil => simp
    | cons l' ls =>
      rw [List.flatMap_cons, ih (List.cons_ne_nil l' ls), Text.join_cons_cons]
      simp only [List.append_assoc]

theorem escape_notMem_flatMap (hls : ∀ l ∈ ls, PlainLine l) :
    Style.escape ∉ ls.flatMap (· ++ ['\n']) := by
  intro h
  obtain ⟨l, hl, hescape⟩ := List.mem_flatMap.1 h
  rcases List.mem_append.1 hescape with hescape | hescape
  · exact (hls l hl).notMem hescape
  · exact absurd hescape (by decide)

/-- A block whose last line is empty. -/
theorem unlines_concat_nil (ls : List Text) :
    unlines (ls ++ [[]]) ++ ['\n'] = ls.flatMap (· ++ ['\n']) ++ ['\n'] := by
  have hne : ls ++ [[]] ≠ [] := List.append_ne_nil_of_right_ne_nil ls (List.cons_ne_nil _ _)
  have hblock : unlines (ls ++ [[]]) ++ ['\n'] = (ls ++ [[]]).flatMap (· ++ ['\n']) :=
    (flatMap_feed hne).symm
  rw [hblock, List.flatMap_append, List.flatMap_singleton, List.nil_append]

/-- Without its escape sequences a block is the same with colour and without it. -/
theorem plain_block (H : Reads plain (t ++ ['\n']) s) (hs : Style.escape ∉ s) :
    plain (c.block t) = s := by
  have hplain : plain (t ++ ['\n']) = s := H.eq rfl
  rw [block]
  split
  · exact hplain
  · rw [hplain]
    exact (Style.reads_plain hs).eq rfl

end Haybuild.Console
