import Haybuild.Proofs.Text.Words
import Haybuild.Text.Integer

/-!
# Reading numerals

Decimal digits are read as the number that they write in base ten, unless they are too many
(`readNat?_of_digits`). So a numeral of an integer, with or without zeros in front and with or
without the sign that it may have (`Numeral`), is read as that integer if its digits are within the
limit, and not at all otherwise (`Numeral.readInt?_eq`).
-/

namespace Haybuild.Text

variable {c : Char} {t u v : Text} {i : Int} {n : Nat}

/-! ## Digits -/

theorem digit?_of_isDigit (hc : c.isDigit = true) : digit? c = some (c.toNat - '0'.toNat) := by
  obtain ⟨hlow, hhigh⟩ := Char.isDigit_iff_toNat.1 hc
  have hrange : 0x30 ≤ c.toNat ∧ c.toNat < 0x30 + 10 := ⟨hlow, Nat.lt_succ_of_le hhigh⟩
  rw [digit?, zeros, List.find?_cons_of_pos (by simpa using hrange)]
  rfl

theorem readDigits_of_digits (ht : ∀ c ∈ t, c.isDigit = true) (value count : Nat) :
    readDigits value count t = some (Nat.ofDigitChars 10 t value, count + t.length) := by
  induction t generalizing value count with
  | nil => rfl
  | cons c t ih =>
    obtain ⟨hc, ht⟩ := List.forall_mem_cons.1 ht
    have hunderscore : c ≠ '_' := by
      rintro rfl
      exact absurd hc (by decide)
    rw [readDigits, digit?_of_isDigit hc, Nat.ofDigitChars_cons, List.length_cons]
    · dsimp only
      rw [ih ht, Nat.add_assoc, Nat.add_comm 1]
    · exact fun _ _ h => absurd h hunderscore

theorem readNat?_of_digits (hne : t ≠ []) (ht : ∀ c ∈ t, c.isDigit = true) :
    readNat? t = if t.length ≤ digitLimit then some (Nat.ofDigitChars 10 t 0) else none := by
  cases t with
  | nil => exact absurd rfl hne
  | cons c t =>
    obtain ⟨hc, ht⟩ := List.forall_mem_cons.1 ht
    have hlength : 1 + t.length = (c :: t).length := Nat.add_comm ..
    simp [readNat?, digit?_of_isDigit hc, readDigits_of_digits ht, hlength, Nat.ofDigitChars_cons]

theorem isDigit_of_mem_ofNat (hc : c ∈ ofNat n) : c.isDigit = true :=
  Nat.isDigit_of_mem_toDigits (by decide) (by decide) hc

theorem ofNat_ne_nil (n : Nat) : ofNat n ≠ [] := Nat.toDigits_ne_nil

theorem ofNat_injective {m n : Nat} (h : ofNat m = ofNat n) : m = n := by
  have hvalue := congrArg (Nat.ofDigitChars 10 · 0) h
  simpa only [ofNat, Nat.ofDigitChars_ten_toDigits] using hvalue

/-! ## Numerals -/

/-- The digits of a number behind zeros. -/
def padded (zeros n : Nat) : Text :=
  List.replicate zeros '0' ++ ofNat n

/-- The text writes the integer in decimal digits: perhaps with zeros in front of them, and with a
sign, which only a negative integer needs. -/
inductive Numeral : Int → Text → Prop
  | unsigned (zeros n : Nat) : Numeral n (padded zeros n)
  | plus (zeros n : Nat) : Numeral n ('+' :: padded zeros n)
  | minus (zeros n : Nat) : Numeral (-n) ('-' :: padded zeros n)

theorem numeral_ofNat (n : Nat) : Numeral n (ofNat n) := .unsigned 0 n

/-- The decimal form of an integer is one of its numerals. -/
theorem numeral_ofInt (i : Int) : Numeral i (ofInt i) := by
  cases i with
  | ofNat n => exact numeral_ofNat n
  | negSucc n => exact .minus 0 (n + 1)

theorem isDigit_of_mem_padded {zeros : Nat} (hc : c ∈ padded zeros n) : c.isDigit = true := by
  rcases List.mem_append.1 hc with hc | hc
  · rw [List.eq_of_mem_replicate hc]
    decide
  · exact isDigit_of_mem_ofNat hc

theorem padded_ne_nil (zeros n : Nat) : padded zeros n ≠ [] :=
  List.append_ne_nil_of_right_ne_nil _ (ofNat_ne_nil n)

theorem countP_isDigit_padded (zeros n : Nat) :
    (padded zeros n).countP Char.isDigit = (padded zeros n).length :=
  List.countP_eq_length.2 fun _ => isDigit_of_mem_padded

theorem readNat?_padded (zeros n : Nat) :
    readNat? (padded zeros n) = if (padded zeros n).length ≤ digitLimit then some n else none := by
  rw [readNat?_of_digits (padded_ne_nil zeros n) fun _ => isDigit_of_mem_padded, padded,
    Nat.ofDigitChars_append, Nat.ofDigitChars_replicate_zero, Nat.mul_zero, ofNat,
    Nat.ofDigitChars_ten_toDigits]

theorem Numeral.readSigned?_eq (H : Numeral i t) :
    readSigned? t = if t.countP Char.isDigit ≤ digitLimit then some i else none := by
  cases H with
  | unsigned zeros n =>
    rw [readSigned?, readNat?_padded, countP_isDigit_padded]
    · split <;> rfl
    all_goals
      rintro r hr
      have hdigit := isDigit_of_mem_padded (hr ▸ List.mem_cons_self : _ ∈ padded zeros n)
      exact absurd hdigit (by decide)
  | plus zeros n | minus zeros n =>
    rw [readSigned?, readNat?_padded, List.countP_cons_of_neg (by decide), countP_isDigit_padded]
    split <;> rfl

theorem not_isBlank_of_isDigit (hc : c.isDigit = true) : ¬isBlank c := by
  have hlow : 48 ≤ c.toNat := (Char.isDigit_iff_toNat.1 hc).1
  have hhigh : c.toNat ≤ 57 := (Char.isDigit_iff_toNat.1 hc).2
  simp only [isBlank, Bool.or_eq_true, Bool.and_eq_true, decide_eq_true_eq, beq_iff_eq]
  omega

theorem isWord_padded (zeros n : Nat) : IsWord (padded zeros n) :=
  ⟨padded_ne_nil zeros n, fun _ hc => not_isBlank_of_isDigit (isDigit_of_mem_padded hc)⟩

theorem Numeral.isWord (H : Numeral i t) : IsWord t := by
  cases H with
  | unsigned zeros n => exact isWord_padded zeros n
  | plus zeros n | minus zeros n =>
    refine ⟨List.cons_ne_nil _ _, List.forall_mem_cons.2 ⟨by decide, ?_⟩⟩
    exact (isWord_padded zeros n).not_blank

/-- There is nothing around a numeral to be trimmed. -/
theorem Numeral.readInt?_eq (H : Numeral i t) :
    readInt? t = if t.countP Char.isDigit ≤ digitLimit then some i else none := by
  have hspace : ∀ c ∈ t, ¬isNumeralSpace c = true := fun c hc => by
    simp [isNumeralSpace, H.isWord.not_blank c hc]
  have hleft : t.dropWhile isNumeralSpace = t :=
    List.dropWhile_eq_self_iff.2 fun hlt => hspace _ (List.getElem_mem hlt)
  have hright : t.rdropWhile isNumeralSpace = t :=
    List.rdropWhile_eq_self_iff.2 fun hne => hspace _ (List.getLast_mem hne)
  have hread : readInt? t = readSigned? (t.dropWhile isNumeralSpace |>.rdropWhile isNumeralSpace) :=
    rfl
  rw [hread, hleft, hright, H.readSigned?_eq]

end Haybuild.Text
