import Haybuild.Proofs.Derivation.Argument
import Haybuild.Proofs.Derivation.Congruence
import Haybuild.Proofs.Derivation.Value

/-!
# The commas between arguments

A call cuts the text of its arguments at the commas before which as many brackets are closed as
opened, of both kinds together; stray closers count too, and take the number below zero. Nothing is
lost by it: the arguments stand between the cuts (`Builtin.joints_arguments`), and put together with
commas from one on, they are the text behind the cut before it (`Builtin.join_drop_arguments`). So a
call that puts its last arguments together again derives the rest of its text as it is written
(`Builtin.arguments_exact`).
-/

namespace Haybuild

variable {c : Char} {s t : Text} {parts args : List Text} {i k n : Nat}

/-! ## Where parts are joined -/

namespace Text

/-- The offsets of the characters between parts that are joined with one character. -/
def joints : List Text → List Nat
  | [] => []
  | [_] => []
  | t :: u :: r => t.length :: (joints (u :: r)).map (· + (t.length + 1))

theorem joints_cons_head (c : Char) (t : Text) (r : List Text) :
    joints ((c :: t) :: r) = (joints (t :: r)).map (· + 1) := by
  cases r with
  | nil => rfl
  | cons u r =>
    rw [joints, joints, List.map_cons, List.map_map]
    refine congrArg _ (List.map_congr_left ?_)
    intro i _
    simp only [List.length_cons, Function.comp_apply]
    omega

theorem length_joints (h : parts ≠ []) : (joints parts).length + 1 = parts.length := by
  induction parts with
  | nil => exact absurd rfl h
  | cons t r ih =>
    cases r with
    | nil => rfl
    | cons u r =>
      rw [joints, List.length_cons, List.length_map, ih (List.cons_ne_nil u r)]
      rfl

/-- Joined from one part on, the parts are what stands behind the character before that part. -/
theorem join_drop_succ (h : (joints parts)[k]? = some i) :
    join [c] (parts.drop (k + 1)) = (join [c] parts).drop (i + 1) := by
  induction parts generalizing k i with
  | nil => simp [joints] at h
  | cons t r ih =>
    cases r with
    | nil => simp [joints] at h
    | cons u r =>
      rw [joints] at h
      have hfront : (join [c] (t :: u :: r)).drop (t.length + 1) = join [c] (u :: r) := by
        have hlength : t.length + 1 = (t ++ [c]).length := by simp
        rw [join_cons_cons, hlength, List.drop_left]
      cases k with
      | zero =>
        obtain rfl : t.length = i := by simpa using h
        exact hfront.symm
      | succ k =>
        rw [List.getElem?_cons_succ, List.getElem?_map, Option.map_eq_some_iff] at h
        obtain ⟨j, hj, rfl⟩ := h
        have hoffset : j + (t.length + 1) + 1 = (t.length + 1) + (j + 1) := by omega
        rw [List.drop_succ_cons, ih hj, ← hfront, List.drop_drop, hoffset]

end Text

namespace Builtin

/-! ## Where arguments are cut -/

/-- A comma stands at the offset, and before it as many brackets are closed as opened, of both kinds
together. -/
def CutsAt (t : Text) (i : Nat) : Prop :=
  t[i]? = some ',' ∧ excess (t.take i) = 0

instance (t : Text) : DecidablePred (CutsAt t) := fun i =>
  inferInstanceAs (Decidable (t[i]? = some ',' ∧ excess (t.take i) = 0))

/-- The offsets at which the text of arguments is cut. -/
def cuts (t : Text) : List Nat :=
  (List.range t.length).filter (CutsAt t)

/-- What stands behind so many cuts; all of the text, behind none. -/
def behind (t : Text) : Nat → Text
  | 0 => t
  | k + 1 => ((cuts t)[k]?).elim [] fun i => t.drop (i + 1)

/-- Behind the first character, a text that starts inside `level` brackets is cut where the rest of
it is. -/
theorem filter_range_succ (level : Int) (c : Char) (t : Text) :
    (List.range (c :: t).length).filter
        (fun i => (c :: t)[i]? = some ',' ∧ level + excess ((c :: t).take i) = 0) =
      (if c = ',' ∧ level = 0 then [0] else []) ++
        ((List.range t.length).filter fun i =>
          t[i]? = some ',' ∧ level + excess [c] + excess (t.take i) = 0).map (· + 1) := by
  have hrest : ∀ i, ((c :: t)[i + 1]? = some ',' ∧ level + excess ((c :: t).take (i + 1)) = 0) ↔
      t[i]? = some ',' ∧ level + excess [c] + excess (t.take i) = 0 := by
    intro i
    rw [List.getElem?_cons_succ, List.take_succ_cons, excess_cons, ← Int.add_assoc]
  rw [List.length_cons, List.range_succ_eq_map, List.filter_cons, List.filter_map]
  simp only [Function.comp_def, Nat.succ_eq_add_one, hrest]
  by_cases hc : c = ',' ∧ level = 0
  · simp [hc]
  · simp [hc]

theorem joints_argumentsFrom (level : Int) (t : Text) :
    Text.joints ((argumentsFrom level t).1 :: (argumentsFrom level t).2) =
      (List.range t.length).filter fun i =>
        t[i]? = some ',' ∧ level + excess (t.take i) = 0 := by
  induction t generalizing level with
  | nil => rfl
  | cons c t ih =>
    rw [filter_range_succ, argumentsFrom_cons, ← ih]
    split
    · next hc =>
      obtain ⟨rfl, rfl⟩ := hc
      rfl
    · exact Text.joints_cons_head ..

/-- The arguments stand between the commas at which their text is cut. -/
theorem joints_arguments (t : Text) : Text.joints (arguments t) = cuts t := by
  rw [arguments, joints_argumentsFrom, cuts]
  apply List.filter_congr
  intro i _
  rw [decide_eq_decide, CutsAt, Int.zero_add]

theorem length_arguments (t : Text) : (arguments t).length = (cuts t).length + 1 := by
  rw [← joints_arguments, Text.length_joints (arguments_ne_nil t)]

/-- Put together from one on, the arguments are what stands behind the cut before it. -/
theorem join_drop_arguments (hk : k < (arguments t).length) :
    Text.join "," ((arguments t).drop k) = behind t k := by
  cases k with
  | zero => exact join_arguments t
  | succ k =>
    have hlt : k < (cuts t).length := by
      rw [length_arguments] at hk
      omega
    have hcut : (Text.joints (arguments t))[k]? = some (cuts t)[k] := by
      rw [joints_arguments, List.getElem?_eq_getElem hlt]
    have hjoin := join_arguments t
    have hrest := Text.join_drop_succ (c := ',') hcut
    rw [behind, List.getElem?_eq_getElem hlt]
    change Text.join [','] (arguments t) = t at hjoin
    rw [hjoin] at hrest
    exact hrest

/-! ## What a call derives -/

/-- A call with arguments enough takes the last of them together with all that are too many. -/
theorem soakUp_eq (hn : 0 < n) (h : n ≤ args.length) :
    soakUp n args = args.take (n - 1) ++ [Text.join "," (args.drop (n - 1))] := by
  fun_induction soakUp n args with
  | case1 => exact absurd hn (Nat.lt_irrefl 0)
  | case2 => exact absurd (Nat.lt_of_lt_of_le hn h) (Nat.lt_irrefl 0)
  | case3 => rfl
  | case4 n a args ih =>
    rw [ih (Nat.succ_pos n) (Nat.le_of_succ_le_succ h)]
    rfl

end Builtin

namespace Derivation

variable {vars : Variables} {debug : Bool} {depth : Nat} {trace : List Text} {ref : Reference}
  {b : Builtin}

theorem resolve_of_arity? (hbody : Builtin.ofBody? ref.body = some (b, t))
    (hn : b.arity? = some n) (h : n ≤ (Builtin.arguments t).length) :
    resolve vars debug (depth + 1) trace ref =
      (Builtin.deriveAll (expand vars debug depth (trace ++ [ref.source]))
        ((Builtin.arguments t).take (n - 1) ++ [Builtin.behind t (n - 1)])).bind b.apply := by
  have hpos : 0 < n := by
    cases b <;> cases hn <;> decide
  have hlt : n - 1 < (Builtin.arguments t).length := by omega
  rw [resolve_succ, hbody]
  dsimp only
  rw [Builtin.call_of_arity? hn, if_neg (Nat.not_lt.2 h), Builtin.soakUp_eq hpos h,
    Builtin.join_drop_arguments hlt]

theorem resolve_shell (hbody : Builtin.ofBody? ref.body = some (.shell, t)) :
    resolve vars debug (depth + 1) trace ref =
      (expand vars debug depth (trace ++ [ref.source]) t).bind fun command =>
        .shell (unescapeDollars command) fun answer =>
          if answer.code = 0 then .done (Builtin.shellOutput answer.output)
          else .failed ⟨.shellFailed ref.source answer.code
              (Text.lines (Text.trim answer.errors)).getLast?,
            ref.source, trace ++ [ref.source], debug⟩ := by
  rw [resolve_succ, hbody]
  dsimp only
  rw [Builtin.call, Builtin.join_arguments]
  rfl

theorem resolve_cond (hbody : Builtin.ofBody? ref.body = some (.cond, t)) :
    let inside := expand vars debug depth (trace ++ [ref.source])
    let args := Builtin.arguments t
    resolve vars debug (depth + 1) trace ref =
      (inside (args.headD [])).bind fun value =>
        if Text.blank value then
          if 2 < args.length then inside (Builtin.behind t 2) else .done []
        else (args[1]?).elim (.done []) inside := by
  intro inside args
  rw [resolve_succ, hbody]
  dsimp only
  have hbehind : 2 < args.length → Text.join "," (args.drop 2) = Builtin.behind t 2 :=
    Builtin.join_drop_arguments
  obtain ⟨condition, branches, hargs⟩ : ∃ condition branches, args = condition :: branches :=
    List.exists_cons_of_ne_nil (Builtin.arguments_ne_nil t)
  rw [hargs] at hbehind ⊢
  change Builtin.call .cond inside _ _ args = _
  rw [hargs, Builtin.call, Builtin.branch_cons]
  refine congrArg ((inside condition).bind ·) (funext fun value => ?_)
  rcases branches with - | ⟨chosen, - | ⟨otherwise, rest⟩⟩
  · cases Text.blank value <;> rfl
  · cases Text.blank value <;> rfl
  · rw [← hbehind (by simp)]
    cases Text.blank value <;> rfl

end Derivation

/-- Put together with commas, the arguments are the text that they were cut from, and the cuts are
the commas before which as many brackets are closed as opened, of both kinds together. So a call of
fixed arity with pieces enough derives one piece for each argument but the last, and for the last
one all that stands behind the cut before it. `shell` derives the whole text, and `if`, besides its
condition, the piece behind it or all that stands behind the second cut. -/
theorem arguments_exact (t : Text) :
    Text.join "," (Builtin.arguments t) = t ∧
    Text.joints (Builtin.arguments t) = Builtin.cuts t ∧
    ∀ (vars : Variables) (debug : Bool) (depth : Nat) (trace : List Text) (ref : Reference)
      (b : Builtin), Builtin.ofBody? ref.body = some (b, t) →
      let inside := Derivation.expand vars debug depth (trace ++ [ref.source])
      let args := Builtin.arguments t
      (∀ n, b.arity? = some n → n ≤ args.length →
        Derivation.resolve vars debug (depth + 1) trace ref =
          (Builtin.deriveAll inside (args.take (n - 1) ++ [Builtin.behind t (n - 1)])).bind
            b.apply) ∧
      (b = .shell → Derivation.resolve vars debug (depth + 1) trace ref =
        (inside t).bind fun command => .shell (unescapeDollars command) fun answer =>
          if answer.code = 0 then .done (Builtin.shellOutput answer.output)
          else .failed ⟨.shellFailed ref.source answer.code
              (Text.lines (Text.trim answer.errors)).getLast?,
            ref.source, trace ++ [ref.source], debug⟩) ∧
      (b = .cond → Derivation.resolve vars debug (depth + 1) trace ref =
        (inside (args.headD [])).bind fun value =>
          if Text.blank value then
            if 2 < args.length then inside (Builtin.behind t 2) else .done []
          else (args[1]?).elim (.done []) inside) := by
  refine ⟨Builtin.join_arguments t, Builtin.joints_arguments t, ?_⟩
  intro vars debug depth trace ref b hbody inside args
  refine ⟨?_, ?_, ?_⟩
  · intro n hn h
    exact Derivation.resolve_of_arity? hbody hn h
  · rintro rfl
    exact Derivation.resolve_shell hbody
  · rintro rfl
    exact Derivation.resolve_cond hbody

/-- In `$(addsuffix },{,x,y)` the first comma stands behind a stray closer and cuts nothing. The
second comma ends the first argument, and the last comma belongs to the second one. -/
theorem arguments_exact_strayCloser :
    let t : Text := "\x7d,\x7b,x,y"
    Text.join "," (Builtin.arguments t) = t ∧ Builtin.cuts t = [3, 5] ∧
      Derivation.resolve .empty false 2 [] ⟨.round, "addsuffix ".toList ++ t⟩ =
        .done "x,y\x7d,\x7b".toList := by
  intro t
  obtain ⟨hjoin, -, hcall⟩ := arguments_exact t
  have hbody : Builtin.ofBody? ("addsuffix ".toList ++ t) = some (.addsuffix, t) := by decide
  have hvalue := (hcall .empty false 1 [] ⟨.round, _⟩ .addsuffix hbody).1 2 rfl (by decide)
  refine ⟨hjoin, by decide, hvalue.trans ?_⟩
  decide +kernel

end Haybuild
