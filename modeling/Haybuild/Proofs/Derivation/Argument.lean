import Haybuild.Derivation.Builtin
import Haybuild.Proofs.Derivation.Bracket
import Mathlib.Data.List.TakeWhile

/-!
# The arguments of a call

The arguments of a call are separated by those commas before which as many brackets are closed as
opened, of both kinds together (`Builtin.argumentsFrom_cons`). Put together with commas, they are
the text that they were cut from (`Builtin.join_arguments`). Where the brackets of each kind are
balanced and no comma stands outside them, a text is an argument on its own (`IsArgument`): with a
comma behind it, it is the first one, whatever follows (`IsArgument.arguments_append`).
-/

namespace Haybuild

variable {b : Builtin} {level : Int} {c : Char} {s t u v : Text}

/-! ## Open brackets -/

/-- How many brackets of the kind a text opens and does not close. It is below zero for a text that
closes more than it opens. -/
def Bracket.excess (b : Bracket) (t : Text) : Int :=
  t.count b.opener - t.count b.closer

/-- How many brackets a text opens and does not close, of both kinds together. -/
def excess (t : Text) : Int :=
  Bracket.round.excess t + Bracket.curly.excess t

theorem Bracket.excess_append (b : Bracket) (s t : Text) :
    b.excess (s ++ t) = b.excess s + b.excess t := by
  simp only [excess, List.count_append]
  omega

theorem excess_append (s t : Text) : excess (s ++ t) = excess s + excess t := by
  simp only [excess, Bracket.excess_append]
  omega

@[simp] theorem excess_nil : excess [] = 0 := rfl

theorem excess_cons (c : Char) (t : Text) : excess (c :: t) = excess [c] + excess t :=
  excess_append [c] t

theorem excess_singleton (c : Char) :
    excess [c] = if c = '(' ∨ c = '\x7b' then 1 else if c = ')' ∨ c = '\x7d' then -1 else 0 := by
  split
  · next h => rcases h with rfl | rfl <;> decide
  · next hopener =>
    split
    · next h => rcases h with rfl | rfl <;> decide
    · next hcloser =>
      rw [not_or] at hopener hcloser
      simp [excess, Bracket.excess, Bracket.opener, Bracket.closer, hopener, hcloser]

/-- The brackets of each kind are balanced. -/
def AllBalanced (t : Text) : Prop :=
  ∀ b : Bracket, b.Balanced t

namespace AllBalanced

theorem of_blank (h : ∀ c ∈ t, Text.isBlank c) : AllBalanced t := by
  intro b
  apply Bracket.balanced_of_notMem
  · exact fun hb => absurd (h _ hb) (by cases b <;> decide)
  · exact fun hb => absurd (h _ hb) (by cases b <;> decide)

theorem append_iff (H : AllBalanced s) : AllBalanced (s ++ t) ↔ AllBalanced t :=
  forall_congr' fun b => (H b).closes_append

theorem append (hs : AllBalanced s) (ht : AllBalanced t) : AllBalanced (s ++ t) :=
  hs.append_iff.2 ht

theorem excess_eq (H : AllBalanced t) : excess t = 0 := by
  have hround := (H .round).count
  have hcurly := (H .curly).count
  simp only [excess, Bracket.excess]
  omega

/-- At the front of a balanced text neither kind is closed more often than opened. So if the two
kinds are as often closed as opened together, each of them is. -/
theorem of_prefix (H : AllBalanced t) (hu : u <+: t) (hexcess : excess u = 0) : AllBalanced u := by
  have hround := (H .round).front u hu
  have hcurly := (H .curly).front u hu
  simp only [excess, Bracket.excess] at hexcess
  intro b
  refine ⟨?_, fun s hs => (H b).front s (hs.trans hu)⟩
  cases b <;> omega

end AllBalanced

/-! ## The commas that separate -/

namespace Builtin

/-- A comma outside brackets ends an argument, and every other character is a part of one. -/
theorem argumentsFrom_cons (level : Int) (c : Char) (r : Text) :
    argumentsFrom level (c :: r) =
      if c = ',' ∧ level = 0 then ([], arguments r)
      else
        (c :: (argumentsFrom (level + excess [c]) r).1,
          (argumentsFrom (level + excess [c]) r).2) := by
  rw [argumentsFrom, excess_singleton]
  by_cases hopener : c = '(' ∨ c = '\x7b'
  · rcases hopener with rfl | rfl <;> simp
  by_cases hcloser : c = ')' ∨ c = '\x7d'
  · rcases hcloser with rfl | rfl <;> simp [Int.sub_eq_add_neg]
  by_cases hcomma : c = ',' ∧ level = 0
  · obtain ⟨rfl, rfl⟩ := hcomma
    rfl
  · simp [hopener, hcloser, hcomma]

theorem join_argumentsFrom (level : Int) (t : Text) :
    Text.join "," ((argumentsFrom level t).1 :: (argumentsFrom level t).2) = t := by
  induction t generalizing level with
  | nil => rfl
  | cons c t ih =>
    rw [argumentsFrom_cons]
    split
    · next hcomma =>
      obtain ⟨rfl, -⟩ := hcomma
      rw [arguments, Text.join_cons_cons, ih]
      rfl
    · rw [Text.join_cons_head, ih]

/-- Put together with commas, the arguments are the text that they were cut from. -/
theorem join_arguments (t : Text) : Text.join "," (arguments t) = t :=
  join_argumentsFrom 0 t

theorem argumentsFrom_append (hlevel : level + excess t = 0) (r : Text) :
    argumentsFrom level (t ++ ',' :: r) =
      ((argumentsFrom level t).1, (argumentsFrom level t).2 ++ arguments r) := by
  induction t generalizing level with
  | nil =>
    rw [excess_nil, Int.add_zero] at hlevel
    rw [List.nil_append, argumentsFrom_cons, if_pos ⟨rfl, hlevel⟩]
    rfl
  | cons c t ih =>
    rw [excess_cons, ← Int.add_assoc] at hlevel
    rw [List.cons_append, argumentsFrom_cons, argumentsFrom_cons]
    split
    · next hcomma =>
      obtain ⟨rfl, rfl⟩ := hcomma
      have hrest : (0 : Int) + excess t = 0 := hlevel
      rw [arguments, ih hrest]
      rfl
    · rw [ih hlevel]

/-- A comma before which as many brackets are closed as opened separates arguments. -/
theorem arguments_append (h : excess t = 0) (r : Text) :
    arguments (t ++ ',' :: r) = arguments t ++ arguments r := by
  rw [arguments, argumentsFrom_append (by rw [h]; rfl)]
  rfl

/-- Without such a comma there is one argument. -/
theorem argumentsFrom_eq (hcomma : ∀ u v, t = u ++ ',' :: v → level + excess u ≠ 0) :
    argumentsFrom level t = (t, []) := by
  induction t generalizing level with
  | nil => rfl
  | cons c t ih =>
    have hc : ¬(c = ',' ∧ level = 0) := by
      rintro ⟨rfl, rfl⟩
      exact hcomma [] t rfl rfl
    have htail : ∀ u v, t = u ++ ',' :: v → level + excess [c] + excess u ≠ 0 := by
      rintro u v rfl
      rw [Int.add_assoc, ← excess_cons]
      exact hcomma (c :: u) v rfl
    rw [argumentsFrom_cons, if_neg hc, ih htail]

theorem arguments_ne_nil (t : Text) : arguments t ≠ [] :=
  List.cons_ne_nil _ _

/-- A builtin is called by its name, a blank and the text of the arguments. -/
theorem ofBody?_name (b : Builtin) (t : Text) :
    ofBody? (b.name ++ ' ' :: t) = some (b, Text.trimLeft t) := by
  have hname : b.name.all isNameChar ∧ ofName? b.name = some b := by
    cases b <;> decide +kernel
  have hchars := List.all_eq_true.1 hname.1
  have htake : (b.name ++ ' ' :: t).takeWhile isNameChar = b.name := by
    rw [List.takeWhile_append_of_pos hchars, List.takeWhile_cons_of_neg (by decide),
      List.append_nil]
  have hdrop : (b.name ++ ' ' :: t).dropWhile isNameChar = ' ' :: t := by
    rw [List.dropWhile_append_of_pos hchars, List.dropWhile_cons_of_neg (by decide)]
  rw [ofBody?, htake, hdrop]
  dsimp only
  rw [if_pos (by decide), hname.2]
  rfl

end Builtin

/-- The brackets of each kind are balanced, and no comma stands outside them. -/
structure IsArgument (t : Text) : Prop where
  balanced : AllBalanced t
  comma : ∀ u v, t = u ++ ',' :: v → ¬AllBalanced u

namespace IsArgument

theorem arguments_eq (H : IsArgument t) : Builtin.arguments t = [t] := by
  have hcomma : ∀ u v, t = u ++ ',' :: v → 0 + excess u ≠ 0 := by
    intro u v ht hexcess
    rw [Int.zero_add] at hexcess
    exact H.comma u v ht (H.balanced.of_prefix (ht ▸ List.prefix_append u _) hexcess)
  rw [Builtin.arguments, Builtin.argumentsFrom_eq hcomma]

/-- With a comma behind it, it is the first argument. -/
theorem arguments_append (H : IsArgument t) (r : Text) :
    Builtin.arguments (t ++ ',' :: r) = t :: Builtin.arguments r := by
  rw [Builtin.arguments_append H.balanced.excess_eq, H.arguments_eq]
  rfl

/-- What is balanced can be taken away at the front. -/
theorem of_append (H : IsArgument (s ++ t)) (hs : AllBalanced s) : IsArgument t where
  balanced := hs.append_iff.1 H.balanced
  comma u v ht hu := H.comma (s ++ u) v (by rw [ht, List.append_assoc]) (hs.append hu)

theorem trimLeft (H : IsArgument t) : IsArgument (Text.trimLeft t) := by
  have hfront : t.takeWhile Text.isBlank ++ Text.trimLeft t = t := List.takeWhile_append_dropWhile
  rw [← hfront] at H
  exact H.of_append (.of_blank fun _ hc => List.mem_takeWhile_imp hc)

end IsArgument

theorem isArgument_iff : IsArgument t ↔ AllBalanced t ∧ Builtin.arguments t = [t] := by
  refine ⟨fun H => ⟨H.balanced, H.arguments_eq⟩, ?_⟩
  rintro ⟨hbalanced, hone⟩
  refine ⟨hbalanced, ?_⟩
  rintro u v rfl hu
  rw [Builtin.arguments_append hu.excess_eq, List.append_eq_singleton_iff] at hone
  rcases hone with ⟨h, -⟩ | ⟨-, h⟩
  · exact Builtin.arguments_ne_nil u h
  · exact Builtin.arguments_ne_nil v h

instance (b : Bracket) (t : Text) : Decidable (b.Balanced t) :=
  decidable_of_iff (b.close? 0 (t ++ [b.closer]) = some (t, [])) <| by
    simp [Bracket.close?_eq_some_iff]

instance (t : Text) : Decidable (AllBalanced t) :=
  decidable_of_iff (Bracket.round.Balanced t ∧ Bracket.curly.Balanced t)
    ⟨fun H b => by cases b; exacts [H.1, H.2], fun H => ⟨H _, H _⟩⟩

instance (t : Text) : Decidable (IsArgument t) :=
  decidable_of_iff _ isArgument_iff.symm

end Haybuild
