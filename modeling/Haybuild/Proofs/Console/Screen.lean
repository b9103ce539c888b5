import Haybuild.Proofs.Console.Style
import Haybuild.Proofs.Text.Integer

/-!
# What a terminal shows

A terminal reads a text from left to right with a pen: an escape sequence that ends with `m` adds an
attribute to the pen or, if its parameter is zero, takes all of them away, and a character is shown
with the attributes that the pen has there (`cells`). The characters that are shown are the plain
text (`map_char_cells`). What is dressed in a style is shown in that style, and the pen is clean
behind it (`reads_cells_dress`).
-/

namespace Haybuild.Style

variable {s t : Text} {style : Style} {pen : List Text} {code : Nat}

/-- A character as it is shown: with the attributes of a pen, each by its parameter. -/
structure Cell where
  char : Char
  pen : List Text
  deriving Repr, DecidableEq

/-- The pen after an escape sequence, which is given without its escape character. -/
def penAfter (pen : List Text) (body : Text) : List Text :=
  let parameter := (body.drop 1).dropLast
  if body.getLast? ≠ some 'm' then pen
  else if parameter = [] ∨ parameter = ['0'] then []
  else pen ++ [parameter]

/-- What is shown of a text behind `skip` characters of an escape sequence that was met already. -/
def cellsFrom : Nat → List Text → Text → List Cell
  | _, _, [] => []
  | skip + 1, pen, _ :: r => cellsFrom skip pen r
  | 0, pen, c :: r =>
    if c = escape then
      match sequenceLength? r with
      | some n => cellsFrom n (penAfter pen (r.take n)) r
      | none => ⟨c, pen⟩ :: cellsFrom 0 pen r
    else ⟨c, pen⟩ :: cellsFrom 0 pen r

/-- What is shown of a text that is written with a clean pen. -/
def cells (t : Text) : List Cell :=
  cellsFrom 0 [] t

/-- The attributes of a style. -/
def attributes (s : Style) : List Text :=
  (s.colour.toList ++ (if s.bold then [1] else []) ++ if s.dim then [2] else []).map Text.ofNat

/-- The characters of a text that are shown with exactly the attributes of a style. -/
def shownIn (s : Style) (t : Text) : Text :=
  ((cells t).filter fun cell => cell.pen = s.attributes).map Cell.char

/-- Characters that are all shown with one pen. -/
def drawn (pen : List Text) (t : Text) : List Cell :=
  t.map fun c => ⟨c, pen⟩

@[simp] theorem map_char_drawn (pen : List Text) (t : Text) : (drawn pen t).map Cell.char = t := by
  simp [drawn, Function.comp_def]

@[simp] theorem filter_drawn (pen pen' : List Text) (t : Text) :
    (drawn pen t).filter (fun cell => cell.pen = pen') =
      if pen = pen' then drawn pen t else [] := by
  split <;> simp_all [drawn]

/-! ## Escape sequences -/

theorem map_char_cellsFrom (skip : Nat) (pen : List Text) (t : Text) :
    (cellsFrom skip pen t).map Cell.char = plainFrom skip t := by
  fun_induction cellsFrom skip pen t with
  | case1 => simp [plainFrom]
  | case2 => simp [plainFrom, *]
  | case3 => simp [plainFrom, *]
  | case4 => simp [plainFrom, *]
  | case5 => simp [plainFrom, *]

theorem map_char_cells (t : Text) : (cells t).map Cell.char = plain t :=
  map_char_cellsFrom 0 [] t

/-- The characters that are shown are the plain text of a part, too. -/
theorem Reads.plain {r : List Cell} (H : Reads cells t r) : Reads plain t (r.map Cell.char) := by
  intro u
  rw [← map_char_cells, H, List.map_append, map_char_cells]

theorem cellsFrom_length_append (s : Text) (pen : List Text) (t : Text) :
    cellsFrom s.length pen (s ++ t) = cellsFrom 0 pen t := by
  induction s with
  | nil => rfl
  | cons c s ih => exact ih

theorem cellsFrom_sequence_append (code : Nat) (pen : List Text) (t : Text) :
    cellsFrom 0 pen (sequence code ++ t) = cellsFrom 0 (penAfter pen (sequenceBody code)) t := by
  rw [sequence_eq, List.cons_append, cellsFrom, if_pos rfl, sequenceLength?_sequenceBody_append]
  dsimp only
  rw [List.take_left, cellsFrom_length_append]

theorem penAfter_zero (pen : List Text) : penAfter pen (sequenceBody 0) = [] := rfl

theorem penAfter_of_ne_zero (hcode : code ≠ 0) (pen : List Text) :
    penAfter pen (sequenceBody code) = pen ++ [Text.ofNat code] := by
  have hparameter : ((sequenceBody code).drop 1).dropLast = Text.ofNat code := by
    simp [sequenceBody]
  have hlast : (sequenceBody code).getLast? = some 'm' := by
    rw [sequenceBody, ← List.cons_append, List.getLast?_concat]
  have hother : ¬(Text.ofNat code = [] ∨ Text.ofNat code = ['0']) := by
    rintro (h | h)
    · exact Text.ofNat_ne_nil code h
    · exact hcode (Text.ofNat_injective h)
  rw [penAfter, hparameter, if_neg (by simp [hlast]), if_neg hother]

/-! ## Bare and dressed texts -/

theorem cellsFrom_append_of_notMem (ht : escape ∉ t) (pen : List Text) (u : Text) :
    cellsFrom 0 pen (t ++ u) = drawn pen t ++ cellsFrom 0 pen u := by
  induction t with
  | nil => rfl
  | cons c t ih =>
    obtain ⟨hc, ht⟩ := List.ne_and_not_mem_of_not_mem_cons ht
    rw [List.cons_append, cellsFrom, if_neg hc.symm, ih ht]
    rfl

theorem reads_cells (ht : escape ∉ t) : Reads cells t (drawn [] t) :=
  cellsFrom_append_of_notMem ht []

theorem reads_cells_dress (hcolour : style.colour ≠ some 0) (ht : escape ∉ t) :
    Reads cells (style.dress t) (drawn style.attributes t) := by
  intro u
  obtain ⟨colour, bold, dim⟩ := style
  cases colour with
  | none =>
    cases bold <;> cases dim <;>
      simp [cells, dress, attributes, cellsFrom_sequence_append, cellsFrom_append_of_notMem ht,
        penAfter_zero, penAfter_of_ne_zero]
  | some code =>
    have hcode : code ≠ 0 := fun h => hcolour (congrArg some h)
    cases bold <;> cases dim <;>
      simp [cells, dress, attributes, cellsFrom_sequence_append, cellsFrom_append_of_notMem ht,
        penAfter_zero, penAfter_of_ne_zero, hcode]

end Haybuild.Style
