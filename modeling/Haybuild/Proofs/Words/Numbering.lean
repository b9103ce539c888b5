import Haybuild.Derivation.Builtin
import Haybuild.Proofs.Text.Integer
import Mathlib.Algebra.Group.Nat.Defs
import Mathlib.Data.List.GetD

/-!
# Words by number and in order

The calls on the words of a text are consistent: `word` finds the word that a number stands for
(`Numbered`), and `words`, `firstword`, `lastword` and `strip` say what it finds. `sort` depends
only on which words there are. One limit comes in: a numeral of too many digits is not read, so no
word is found by it, and the call fails (`wordCalls_exact`).
-/

namespace Haybuild.Words

open Text

variable {ws : List Text} {i : Int} {numeral t u v w : Text}

/-- The word that a number, counted from one, stands for: the empty text if no word has it. -/
inductive Numbered (ws : List Text) : Int → Text → Prop
  | within {before after : List Text} {w : Text} : ws = before ++ w :: after →
      Numbered ws (before.length + 1) w
  | outside {i : Int} : i < 1 ∨ ws.length < i → Numbered ws i []

theorem numbered_getD (ws : List Text) (k : Nat) : Numbered ws (k + 1) (ws.getD k []) := by
  by_cases hk : k < ws.length
  · have hcut : ws = ws.take k ++ ws[k] :: ws.drop (k + 1) := by
      rw [← List.drop_eq_getElem_cons hk, List.take_append_drop]
    have hlength : (ws.take k).length = k := List.length_take_of_le (Nat.le_of_lt hk)
    have hnumbered := Numbered.within hcut
    rwa [hlength, ← List.getD_eq_getElem ws [] hk] at hnumbered
  · rw [List.getD_eq_default ws [] (Nat.le_of_not_lt hk)]
    exact .outside (.inr (by omega))

theorem nth_succ (k : Nat) (t : Text) : nth (k + 1) t = (words t).getD k [] := by
  have hindex : ((k : Int) + 1 - 1).toNat = k := by omega
  rw [nth, if_pos (by omega), hindex]

theorem nth_length (t : Text) : nth (words t).length t = (words t).getLastD [] := by
  rcases List.eq_nil_or_concat (words t) with hnil | ⟨ws, w, hlast⟩
  · rw [hnil]
    rfl
  · rw [hlast, List.length_concat, Int.natCast_succ, nth_succ, hlast]
    simp

theorem numbered_nth (i : Int) (t : Text) : Numbered (words t) i (nth i t) := by
  by_cases hi : 0 < i
  · obtain ⟨k, rfl⟩ : ∃ k : Nat, i = k + 1 := ⟨(i - 1).toNat, by omega⟩
    rw [nth_succ]
    exact numbered_getD (words t) k
  · rw [nth, if_neg hi]
    exact .outside (.inl (by omega))

/-! ## The call for a number -/

/-- The error of a call that is given something other than a number. -/
def refusal (numeral : Text) : Derivation.Error :=
  ⟨.notANumber numeral, "word", [], false⟩

theorem apply_word (hnumeral : Numeral i numeral) (hu : ∀ c ∈ u, isBlank c)
    (hv : ∀ c ∈ v, isBlank c) (t : Text) : Builtin.word.apply [u ++ numeral ++ v, t] =
      if numeral.countP Char.isDigit ≤ digitLimit then .done (nth i t)
      else .failed (refusal numeral) := by
  rw [Builtin.apply, hnumeral.isWord.trim_append hu hv, hnumeral.readInt?_eq]
  by_cases hdigits : numeral.countP Char.isDigit ≤ digitLimit
  · rw [if_pos hdigits, if_pos hdigits]
    rfl
  · rw [if_neg hdigits, if_neg hdigits]
    rfl

theorem apply_word_ofNat {n : Nat} (hn : (ofNat n).length ≤ digitLimit) (t : Text) :
    Builtin.word.apply [ofNat n, t] = .done (nth n t) := by
  have hdigits : (ofNat n).countP Char.isDigit ≤ digitLimit :=
    Nat.le_trans List.countP_le_length hn
  have happly := apply_word (numeral_ofNat n) (List.forall_mem_nil _) (List.forall_mem_nil _) t
  rwa [List.nil_append, List.append_nil, if_pos hdigits] at happly

theorem length_ofNat_mono {m n : Nat} (h : m ≤ n) : (ofNat m).length ≤ (ofNat n).length := by
  have hpos : 0 < (ofNat n).length := List.length_pos_of_ne_nil (ofNat_ne_nil n)
  have hlt : n < 10 ^ (ofNat n).length :=
    (Nat.length_toDigits_le_iff (by decide) hpos).1 (Nat.le_refl _)
  exact (Nat.length_toDigits_le_iff (by decide) hpos).2 (Nat.lt_of_le_of_lt h hlt)

theorem words_sort (t : Text) :
    words (join " " (sortDistinct (words t))) = sortDistinct (words t) :=
  words_join fun _ hw => isWord_of_mem_words (mem_sortDistinct.1 hw)

/-- The calls on the words of a text. `words` counts them, in decimal; `word` finds for each integer
in decimal, blanks around it or not, the word of this number, and nothing if no word has it; only an
integer with more digits than can be read is refused. `firstword` is `word` for one. If their count
is within the limit of digits, `lastword` is `word` for it, and `strip` joins what `word` finds for
one to the count. `sort` gives each of the words once, in strictly ascending order, and the same for
any text with these words. -/
theorem wordCalls_exact (t : Text) :
    Builtin.words.apply [t] = .done (ofNat (words t).length) ∧
      (∀ i numeral u v, Numeral i numeral → (∀ c ∈ u ++ v, isBlank c) →
        let call := Builtin.word.apply [u ++ numeral ++ v, t]
        (numeral.countP Char.isDigit ≤ digitLimit → ∃ w, call = .done w ∧ Numbered (words t) i w) ∧
          (digitLimit < numeral.countP Char.isDigit → call = .failed (refusal numeral))) ∧
      Builtin.firstword.apply [t] = Builtin.word.apply ["1", t] ∧
      ((ofNat (words t).length).length ≤ digitLimit →
        (Builtin.lastword.apply [t] = do
          let count ← Builtin.words.apply [t]
          Builtin.word.apply [count, t]) ∧
        ∃ ws : List Text, ws.length = (words t).length ∧
          (∀ k w, ws[k]? = some w → Builtin.word.apply [ofNat (k + 1), t] = .done w) ∧
          Builtin.strip.apply [t] = .done (join " " ws)) ∧
      ∃ s, Builtin.sort.apply [t] = .done s ∧ s = join " " (words s) ∧
        (words s).Pairwise (· < ·) ∧ (∀ w, w ∈ words s ↔ w ∈ words t) ∧
        ∀ t', (∀ w, w ∈ words t' ↔ w ∈ words t) → Builtin.sort.apply [t'] = .done s := by
  refine ⟨rfl, fun i numeral u v hnumeral hblank => ?_, ?_, fun hlimit => ⟨?_, ?_⟩, ?_⟩
  · obtain ⟨hu, hv⟩ := List.forall_mem_append.1 hblank
    dsimp only
    rw [apply_word hnumeral hu hv]
    constructor
    · intro hdigits
      exact ⟨nth i t, if_pos hdigits, numbered_nth i t⟩
    · intro hdigits
      exact if_neg (Nat.not_le_of_lt hdigits)
  · have hone : Builtin.word.apply [ofNat 1, t] = .done ((words t).getD 0 []) :=
      nth_succ 0 t ▸ apply_word_ofNat (by decide) t
    have hfirst : (words t).headD [] = (words t).getD 0 [] := by cases words t <;> rfl
    exact (congrArg Derivation.done hfirst).trans hone.symm
  · have hlast : Builtin.word.apply [ofNat (words t).length, t] = .done ((words t).getLastD []) :=
      nth_length t ▸ apply_word_ofNat hlimit t
    have hcount : Builtin.words.apply [t] = .done (ofNat (words t).length) := rfl
    rw [hcount, Derivation.bind_eq, Derivation.done_bind, hlast]
    rfl
  · refine ⟨words t, rfl, fun k w hw => ?_, rfl⟩
    obtain ⟨hk, rfl⟩ := List.getElem?_eq_some_iff.1 hw
    have hdigits := Nat.le_trans (length_ofNat_mono hk) hlimit
    rw [apply_word_ofNat hdigits, Int.natCast_succ, nth_succ, List.getD_eq_getElem _ _ hk]
  · refine ⟨join " " (sortDistinct (words t)), rfl, ?_, ?_, fun w => ?_, fun t' ht' => ?_⟩
    · rw [words_sort]
    · rw [words_sort]
      exact pairwise_sortDistinct (words t)
    · rw [words_sort, mem_sortDistinct]
    · rw [← sortDistinct_congr ht']
      rfl

/-- Four words, two of them the same. -/
def fruits : Text := " fig  date\tapple\u00a0fig "

theorem mem_words_fruits (w : Text) : w ∈ words "date fig fig apple" ↔ w ∈ words fruits := by
  have hperm : (words "date fig fig apple").Perm (words fruits) := by decide
  exact hperm.mem_iff

/-- The second of the words, its number written with a sign and a zero between blanks, and a zero
among too many others, which stands for no number. -/
theorem wordCalls_exact_fruits :
    (Numeral 2 "+02" ∧ (∀ c ∈ ("\n" ++ " " : Text), isBlank c) ∧
      ("+02" : Text).countP Char.isDigit ≤ digitLimit ∧
      Builtin.word.apply ["\n" ++ "+02" ++ " ", fruits] = .done "date" ∧
      Numbered (words fruits) 2 "date") ∧
    (Numeral 0 (padded digitLimit 0) ∧ digitLimit < (padded digitLimit 0).countP Char.isDigit ∧
      Builtin.word.apply [[] ++ padded digitLimit 0 ++ [], fruits] =
        .failed (refusal (padded digitLimit 0))) ∧
    ((ofNat (words fruits).length).length ≤ digitLimit ∧
      Builtin.lastword.apply [fruits] = do
        let count ← Builtin.words.apply [fruits]
        Builtin.word.apply [count, fruits]) ∧
    (∀ w, w ∈ words "date fig fig apple" ↔ w ∈ words fruits) ∧
      Builtin.sort.apply ["date fig fig apple"] = .done "apple date fig" := by
  obtain ⟨-, hword, -, hlast, s, hs, -, -, -, hsort⟩ := wordCalls_exact fruits
  have htwo : Numeral 2 "+02" := .plus 1 2
  have hblank : ∀ c ∈ ("\n" ++ " " : Text), isBlank c := List.all_eq_true.1 (by decide)
  have hdigits : ("+02" : Text).countP Char.isDigit ≤ digitLimit := by decide
  obtain ⟨w, hw, hnumbered⟩ := (hword 2 "+02" "\n" " " htwo hblank).1 hdigits
  have hdate : Builtin.word.apply ["\n" ++ "+02" ++ " ", fruits] = .done "date" := rfl
  obtain rfl : w = "date" := Derivation.done.inj (hw.symm.trans hdate)
  have hzero : Numeral 0 (padded digitLimit 0) := .unsigned digitLimit 0
  have hlong : digitLimit < (padded digitLimit 0).countP Char.isDigit := by
    rw [countP_isDigit_padded, padded, List.length_append, List.length_replicate]
    exact Nat.lt_add_of_pos_right (List.length_pos_of_ne_nil (ofNat_ne_nil 0))
  have hrefused := (hword 0 (padded digitLimit 0) [] [] hzero (List.forall_mem_nil _)).2 hlong
  have hfew : (ofNat (words fruits).length).length ≤ digitLimit := by decide
  have hsorted : sortDistinct (words fruits) =
      ["apple".toList, "date".toList, "fig".toList] := by decide
  have hvalue : Builtin.sort.apply [fruits] = .done "apple date fig" :=
    congrArg (fun ws => Derivation.done (join " " ws)) hsorted
  obtain rfl : s = "apple date fig" := Derivation.done.inj (hs.symm.trans hvalue)
  exact ⟨⟨htwo, hblank, hdigits, hw, hnumbered⟩, ⟨hzero, hlong, hrefused⟩,
    ⟨hfew, (hlast hfew).1⟩, mem_words_fruits, hsort _ mem_words_fruits⟩

/-- The least number with too many digits is greater than the number of words, but the call for it
has no value. -/
theorem word_fails_of_power :
    ((words "a").length : Int) < (10 ^ digitLimit : Nat) ∧
      Numeral (10 ^ digitLimit : Nat) (ofNat (10 ^ digitLimit)) ∧
      Builtin.word.apply [ofNat (10 ^ digitLimit), "a"] =
        .failed (refusal (ofNat (10 ^ digitLimit))) := by
  have hnumeral := numeral_ofNat (10 ^ digitLimit)
  have hdigits : ¬(ofNat (10 ^ digitLimit)).countP Char.isDigit ≤ digitLimit := by
    rw [List.countP_eq_length.2 fun _ => isDigit_of_mem_ofNat, ofNat,
      Nat.length_toDigits_le_iff (by decide) (by decide)]
    exact Nat.lt_irrefl _
  have happly := apply_word hnumeral (List.forall_mem_nil _) (List.forall_mem_nil _) "a"
  rw [if_neg hdigits, List.nil_append, List.append_nil] at happly
  refine ⟨?_, hnumeral, happly⟩
  have hone : (words "a").length = 1 := by decide
  rw [hone]
  exact Int.ofNat_lt.2 (Nat.one_lt_pow (by decide) (by decide))

end Haybuild.Words
