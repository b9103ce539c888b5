import Haybuild.Shell.Script

/-!
# Braces in words

In the extended dialect a word with alternatives in braces, `a{b,c}d`, or with a range, `{1..9}`,
stands for several words. `Word.alternatives` gives them in order. Braces without a comma or a range
stand for themselves.
-/

namespace Haybuild

namespace Shell

namespace Word

/-- A word in pieces: characters that may be braces, and parts that may not. -/
inductive Cell where
  | char (c : Char)
  | part (p : Part)

/-- The pieces of a word. -/
def cells (w : Word) : List Cell :=
  w.flatMap fun
    | .text false t => t.map .char
    | p => [.part p]

/-- The word that pieces make. -/
def ofCells : List Cell → Word
  | [] => []
  | .part p :: r => p :: ofCells r
  | .char c :: r =>
    match ofCells r with
    | .text false t :: w => .text false (c :: t) :: w
    | w => .text false [c] :: w

/-- The pieces up to the comma or brace that ends an alternative, whether it was a comma, and the
pieces after it. -/
def splitAlternative? : Nat → List Cell → List Cell → Option (List Cell × Bool × List Cell)
  | _, _, [] => none
  | depth, done, .char c :: r =>
    if c = '\x7b' then splitAlternative? (depth + 1) (.char c :: done) r
    else if c = '\x7d' then
      match depth with
      | 0 => some (done.reverse, false, r)
      | d + 1 => splitAlternative? d (.char c :: done) r
    else if c = ',' && depth = 0 then some (done.reverse, true, r)
    else splitAlternative? depth (.char c :: done) r
  | depth, done, p :: r => splitAlternative? depth (p :: done) r

/-- The alternatives up to the closing brace, and the pieces after it. -/
def splitGroup? : Nat → List Cell → Option (List (List Cell) × List Cell)
  | 0, _ => none
  | n + 1, cs =>
    match splitAlternative? 0 [] cs with
    | none => none
    | some (one, false, rest) => some ([one], rest)
    | some (one, true, rest) => (splitGroup? n rest).map fun g => (one :: g.1, g.2)

/-- The number that a sign and digits stand for. -/
def signed? (t : Raw) : Option Int :=
  match t with
  | '-' :: r => (Raw.nat? r).map fun n => -(n : Int)
  | r => (Raw.nat? r).map fun n => (n : Int)

/-- The numbers from one to another in steps. -/
def stepped (first last : Int) (step : Nat) : List Int :=
  let step := if step = 0 then 1 else step
  (List.range ((last - first).natAbs / step + 1)).map fun (i : Nat) =>
    if first ≤ last then first + (i : Int) * step else first - (i : Int) * step

/-- Cuts a text at two dots in a row. -/
def cutDots : Raw → Raw × List Raw
  | [] => ([], [])
  | '.' :: '.' :: r =>
    let (part, rest) := cutDots r
    ([], part :: rest)
  | c :: r =>
    let (part, rest) := cutDots r
    (c :: part, rest)

/-- The texts of a range of numbers or letters. Numbers with a leading zero are padded. -/
def range? (t : Raw) : Option (List Raw) :=
  let (first, rest) := cutDots t
  let ends? : Option (Raw × Nat) := match rest with
    | [last] => some (last, 1)
    | [last, step] => (signed? step).map fun s => (last, s.natAbs)
    | _ => none
  match ends? with
  | none => none
  | some (last, step) =>
    match signed? first, signed? last with
    | some a, some b =>
      let padded (t : Raw) : Bool := 1 < t.length && (t.head? = some '0' || "-0".toList.isPrefixOf t)
      let width := if padded first || padded last then max first.length last.length else 0
      some <| (stepped a b step).map fun n =>
        let digits := Text.ofNat n.natAbs
        if n < 0 then '-' :: Raw.padLeft '0' (width - 1) digits else Raw.padLeft '0' width digits
    | _, _ =>
      match first, last with
      | [a], [b] =>
        if a.isAlpha && b.isAlpha then
          some ((stepped a.toNat b.toNat step).map fun n => [Char.ofNat n.toNat])
        else none
      | _, _ => none

/-- The characters of pieces none of which is a part. -/
def bareCells? : List Cell → Option Raw
  | [] => some []
  | .char c :: r => (bareCells? r).map (c :: ·)
  | .part _ :: _ => none

/-- The rows of pieces that a row with braces stands for. -/
def expandCells : Nat → List Cell → List (List Cell)
  | 0, cs => [cs]
  | _ + 1, [] => [[]]
  | n + 1, .char c :: r =>
    let plain (_ : Unit) : List (List Cell) := (expandCells n r).map (.char c :: ·)
    if c ≠ '\x7b' then plain ()
    else
      match splitGroup? (r.length + 1) r with
      | none => plain ()
      | some ([one], rest) =>
        match (bareCells? one).bind range? with
        | some texts =>
          let ends := expandCells n rest
          texts.flatMap fun t => ends.map fun e => t.map .char ++ e
        | none => plain ()
      | some (alternatives, rest) =>
        let ends := expandCells n rest
        alternatives.flatMap fun a => (expandCells n a).flatMap fun x => ends.map (x ++ ·)
  | n + 1, p :: r => (expandCells n r).map (p :: ·)

/-- The words that a word with braces stands for. -/
def alternatives (w : Word) : List Word :=
  let cs := cells w
  let hasBrace := cs.any fun
    | .char c => c = '\x7b'
    | .part _ => false
  if hasBrace then (expandCells (cs.length + 1) cs).map ofCells else [w]

end Word

end Shell

end Haybuild
