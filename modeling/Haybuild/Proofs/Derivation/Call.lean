import Haybuild.Derivation.Builtin
import Haybuild.Proofs.Derivation.Case
import Haybuild.Proofs.Derivation.Value
import Haybuild.Proofs.Text.Words
import Haybuild.Proofs.Words.Suffix
import Haybuild.Proofs.Words.Pattern

/-!
# Calls on tame texts

Most calls choose, cut and order what is in their arguments, so that from tame arguments they make a
tame value (`Builtin.tame_of_apply`). Five calls put parts of their arguments together without a
blank between them. From paired arguments they too make a paired value, unless they put one before
every character (`Builtin.paired_of_apply`).
-/

namespace Haybuild

variable {lone : Bool} {c : Char} {s t u v w : Text} {ws : List Text}

/-! ## Words -/

theorem Tame.between (H : Tame lone (u ++ t ++ v)) (hu : ∀ c, u.getLast? = some c → c ≠ '$')
    (hv : ∀ c, v.head? = some c → c ≠ '$') : Tame lone t := by
  have hut : Tame lone (u ++ t) := by
    cases v with
    | nil => simpa using H
    | cons c v => exact (H.cut (hv c rfl)).1
  rcases List.eq_nil_or_concat u with rfl | ⟨u, c, rfl⟩
  · exact hut
  · rw [List.concat_eq_append, List.append_assoc] at hut
    exact (hut.cut (hu c (by simp))).2

theorem ne_dollar_of_isBlank (hc : Text.isBlank c) : c ≠ '$' := by
  rintro rfl
  exact absurd hc (by decide)

theorem Tame.of_mem_words (H : Tame lone t) (hw : w ∈ Text.words t) : Tame lone w := by
  obtain ⟨u, v, rfl, hu, hv⟩ := Text.exists_of_mem_words hw
  exact H.between (fun c hc => ne_dollar_of_isBlank (hu c hc))
    fun c hc => ne_dollar_of_isBlank (hv c hc)

theorem Tame.trim (H : Tame lone t) : Tame lone (Text.trim t) := by
  obtain ⟨u, v, ht, hu, hv⟩ := Text.exists_eq_trim t
  rw [ht] at H
  exact H.between (fun c hc => ne_dollar_of_isBlank (hu c (List.mem_of_getLast? hc)))
    fun c hc => ne_dollar_of_isBlank (hv c (List.mem_of_head? hc))

/-- A space can stand between tame texts. -/
theorem Tame.join (H : ∀ w ∈ ws, Tame lone w) : Tame lone (Text.join " " ws) := by
  induction ws with
  | nil => exact tame_nil
  | cons w ws ih =>
    obtain ⟨hw, hws⟩ := List.forall_mem_cons.1 H
    cases ws with
    | nil => exact hw
    | cons x ws =>
      rw [Text.join_cons_cons, List.append_assoc]
      exact hw.glue (ih hws) (by decide)

/-- What is made of each word of a tame text makes a tame text if each is made tame. -/
theorem Tame.join_map {f : Text → Text} (H : Tame lone t)
    (hf : ∀ w, Tame lone w → Tame lone (f w)) : Tame lone (Text.join " " ((Text.words t).map f)) :=
  Tame.join <| List.forall_mem_map.2 fun w hw => hf w (H.of_mem_words hw)

theorem Tame.squeeze (H : Tame lone t) : Tame lone (Text.squeeze t) :=
  Tame.join fun _ => H.of_mem_words

theorem Tame.headD_words (H : Tame lone t) : Tame lone ((Text.words t).headD []) := by
  cases h : Text.words t with
  | nil => exact tame_nil
  | cons w ws =>
    refine H.of_mem_words ?_
    rw [h]
    exact List.mem_cons_self

theorem Tame.getLastD_words (H : Tame lone t) : Tame lone ((Text.words t).getLastD []) := by
  rw [List.getLastD_eq_getLast?]
  cases h : (Text.words t).getLast? with
  | none => exact tame_nil
  | some w => exact H.of_mem_words (List.mem_of_getLast? h)

namespace Words

theorem tame_filter (patterns : Text) (keep : Bool) (H : Tame lone t) :
    Tame lone (filter patterns t keep) :=
  Tame.join fun _ hw => H.of_mem_words (List.mem_of_mem_filter hw)

theorem tame_nth (i : Int) (H : Tame lone t) : Tame lone (nth i t) := by
  rw [nth]
  split
  · rw [List.getD_eq_getElem?_getD]
    cases h : (Text.words t)[(i - 1).toNat]? with
    | none => exact tame_nil
    | some w => exact H.of_mem_words (List.mem_of_getElem? h)
  · exact tame_nil

theorem tame_directory (H : Tame lone w) : Tame lone (directory w) := by
  rcases directory_eq w with h | h | ⟨name, rest, h, hw⟩
  · rw [h]
    exact tame_of_notMem (by decide)
  · exact tame_of_notMem fun hd => absurd (h _ hd) (by decide)
  · rw [hw] at H
    rw [h]
    exact (H.cut (by decide)).1.glue tame_nil (by decide)

theorem tame_afterSlash (H : Tame lone w) : Tame lone (afterSlash w) := by
  have hw := upToSlash_append_afterSlash w
  rcases upToSlash_cases w with ⟨-, hnil⟩ | ⟨u, hu⟩
  · rw [hnil, List.nil_append] at hw
    rwa [hw]
  · rw [hu, List.append_assoc] at hw
    rw [← hw] at H
    exact (H.cut (by decide)).2

theorem tame_splitSuffix (H : Tame lone w) :
    Tame lone (splitSuffix w).1 ∧ Tame lone (splitSuffix w).2 := by
  obtain ⟨hw, h | ⟨r, hr⟩⟩ := splitSuffix_spec w
  · rw [h, List.append_nil] at hw
    rw [h, ← hw]
    exact ⟨H, tame_nil⟩
  · rw [hw, hr] at H
    obtain ⟨hfront, hback⟩ := H.cut (by decide)
    rw [hr]
    exact ⟨hfront, (tame_cons_of_ne (by decide)).2 hback⟩

theorem tame_suffixes (H : Tame lone t) : Tame lone (suffixes t) := by
  refine Tame.join fun w hw => ?_
  obtain ⟨x, hx, rfl⟩ := List.mem_map.1 (List.mem_of_mem_filter hw)
  exact (tame_splitSuffix (H.of_mem_words hx)).2

/-! ## Putting parts together -/

theorem Matches.paired_stem {pattern stem : Text} (H : Matches pattern w stem)
    (hpattern : Paired pattern) (hw : Paired w) : Paired stem := by
  cases H with
  | plain hmark => exact tame_nil
  | marked hfront =>
    obtain ⟨hfront, hback⟩ := hpattern.cut (by decide)
    rw [List.append_assoc] at hw
    exact (hw.of_append_right hfront).of_append_left hback

theorem paired_fillStem {replacement stem : Text} (hreplacement : Paired replacement)
    (hstem : Paired stem) : Paired (fillStem replacement stem) := by
  rw [fillStem]
  split
  · exact hreplacement
  · next front back hmark =>
    obtain ⟨-, rfl⟩ := Text.splitAt?_eq_some_iff.1 hmark
    obtain ⟨hfront, hback⟩ := hreplacement.cut (by decide)
    exact Paired.append (Paired.append hfront hstem) hback

theorem paired_substitutePattern {pattern replacement : Text} (hpattern : Paired pattern)
    (hreplacement : Paired replacement) (H : Paired t) :
    Paired (substitutePattern pattern replacement t) := by
  refine Tame.join_map H fun w hw => ?_
  split
  · exact hw
  · next stem hstem =>
    have hstem := (stem?_eq_some_iff.1 hstem).paired_stem hpattern.trim hw
    exact paired_fillStem hreplacement.trim hstem

theorem paired_addFront {front : Text} (hfront : Paired front) (H : Paired t) :
    Paired (addFront front t) :=
  Tame.join_map H fun _ hw => Paired.append hfront.trim hw

theorem paired_addBack {back : Text} (hback : Paired back) (H : Paired t) :
    Paired (addBack back t) :=
  Tame.join_map H fun _ hw => Paired.append hw hback.trim

theorem forall_mem_pairUp {p : Text → Prop} (happend : ∀ a b, p a → p b → p (a ++ b)) :
    ∀ {as bs : List Text}, (∀ a ∈ as, p a) → (∀ b ∈ bs, p b) → ∀ w ∈ pairUp as bs, p w
  | [], _, _, hbs => hbs
  | _ :: _, [], has, _ => has
  | _ :: _, _ :: _, has, hbs => by
    rw [List.forall_mem_cons] at has hbs
    exact List.forall_mem_cons.2
      ⟨happend _ _ has.1 hbs.1, forall_mem_pairUp happend has.2 hbs.2⟩

theorem paired_pairWords (hs : Paired s) (ht : Paired t) : Paired (pairWords s t) :=
  Tame.join <| forall_mem_pairUp (fun _ _ => Paired.append) (fun _ => hs.of_mem_words)
    fun _ => ht.of_mem_words

end Words

/-! ## Replacing -/

theorem Paired.exists_pair (H : Paired ('$' :: t)) : ∃ r, t = '$' :: r ∧ Paired r := by
  cases t with
  | nil => exact absurd (tame_dollar.1 H) (by decide)
  | cons c r =>
    by_cases hc : c = '$'
    · subst hc
      exact ⟨r, rfl, tame_pair.1 H⟩
    · exact absurd (tame_dollar.1 (H.cut (s := ['$']) hc).1) (by decide)

/-- In paired texts a text that starts at the second dollar of a pair also starts at the first. -/
theorem Paired.prefix_pair {old r : Text} (hold : Paired old) (hr : Paired r)
    (h : old <+: '$' :: r) : old <+: '$' :: '$' :: r := by
  induction old using dollarInduction generalizing r with
  | nil => exact List.nil_prefix
  | plain c old hc =>
    rw [List.cons_prefix_cons] at h
    exact absurd h.1 hc
  | dollar => exact absurd (tame_dollar.1 hold) (by decide)
  | pair old ih =>
    obtain ⟨rest, rfl⟩ := (List.cons_prefix_cons.1 h).2
    rw [List.cons_append] at h hr ⊢
    obtain ⟨r, hrest, hr⟩ := hr.exists_pair
    rw [hrest] at h ⊢
    simp only [List.cons_prefix_cons, true_and] at h ⊢
    exact ih (tame_pair.1 hold) hr h
  | lone c old hc => simp [tame_lone hc] at hold
  | opener b c old hb => exact absurd hold (not_tame_opener hb)

theorem Text.replaceFrom_append {old : Text} (hne : old ≠ []) (new rest : Text) :
    replaceFrom old new 0 (old ++ rest) = new ++ replaceFrom old new 0 rest := by
  obtain ⟨c, r, rfl⟩ := List.exists_cons_of_ne_nil hne
  have hprefix : (c :: r).isPrefixOf (c :: (r ++ rest)) := by
    rw [List.isPrefixOf_iff_prefix]
    exact List.prefix_append (c :: r) rest
  rw [List.cons_append, replaceFrom, if_pos hprefix, replaceFrom_eq_drop, List.length_cons,
    Nat.add_sub_cancel, List.drop_left]

theorem Text.replaceFrom_cons {old r : Text} (h : ¬old <+: c :: r) (new : Text) :
    replaceFrom old new 0 (c :: r) = c :: replaceFrom old new 0 r := by
  rw [replaceFrom, if_neg]
  rwa [List.isPrefixOf_iff_prefix]

theorem paired_replaceFrom {old new : Text} (hne : old ≠ []) (hold : Paired old)
    (hnew : Paired new) (H : Paired t) : Paired (Text.replaceFrom old new 0 t) := by
  induction h : t.length using Nat.strongRecOn generalizing t with
  | ind n ih =>
    by_cases hprefix : old <+: t
    · obtain ⟨rest, rfl⟩ := hprefix
      have hlength := List.length_pos_of_ne_nil hne
      rw [List.length_append] at h
      rw [Text.replaceFrom_append hne]
      exact Paired.append hnew (ih _ (by omega) (H.of_append_right hold) rfl)
    induction t using dollarInduction with
    | nil => exact tame_nil
    | plain c r hc =>
      rw [List.length_cons] at h
      rw [Text.replaceFrom_cons hprefix]
      exact (tame_cons_of_ne hc).2 (ih _ (by omega) ((tame_cons_of_ne hc).1 H) rfl)
    | dollar => exact absurd (tame_dollar.1 H) (by decide)
    | pair r =>
      have hr := tame_pair.1 H
      simp only [List.length_cons] at h
      rw [Text.replaceFrom_cons hprefix,
        Text.replaceFrom_cons fun hsecond => hprefix (hold.prefix_pair hr hsecond)]
      exact tame_pair.2 (ih _ (by omega) hr rfl)
    | lone c r hc => simp [tame_lone hc] at H
    | opener b c r hb => exact absurd H (not_tame_opener hb)

/-! ## Calls -/

namespace Builtin

variable {b : Builtin} {values : List Text}

/-- The call puts parts of its arguments together without a blank between them. -/
def Glues : Builtin → Prop
  | subst | patsubst | addprefix | addsuffix | join => True
  | _ => False

/-- The call writes a text before every character. -/
def Spreads (b : Builtin) (values : List Text) : Prop :=
  b = .subst ∧ values.head? = some []

theorem wildcardAll_eq_done {ps : List Text} {paths : List Text}
    (h : wildcardAll ps = .done paths) : paths = [] := by
  cases ps with
  | nil =>
    cases h
    rfl
  | cons p ps => cases h

/-- A call that glues nothing together makes a tame value of tame arguments. -/
theorem tame_of_apply (hb : ¬b.Glues) (hvalues : ∀ t ∈ values, Tame lone t)
    (h : b.apply values = .done v) : Tame lone v := by
  fun_cases apply b values with
  | case1 | case2 | case17 | case18 | case19 => exact absurd trivial hb
  | case3 t =>
    cases h
    exact (hvalues t (by simp)).squeeze
  | case4 needle t =>
    cases h
    split
    · exact hvalues needle (by simp)
    · exact tame_nil
  | case5 patterns t | case6 patterns t =>
    cases h
    exact Words.tame_filter _ _ (hvalues t (by simp))
  | case7 t =>
    cases h
    exact Tame.join fun w hw => (hvalues t (by simp)).of_mem_words (Text.mem_sortDistinct.1 hw)
  | case8 n t i hi =>
    rw [apply, hi] at h
    cases h
    exact Words.tame_nth i (hvalues t (by simp))
  | case9 n t hn =>
    rw [apply, hn] at h
    cases h
  | case10 t =>
    cases h
    exact tame_of_notMem fun hd =>
      absurd (Nat.isDigit_of_mem_toDigits (by decide) (by decide) hd) (by decide)
  | case11 t =>
    cases h
    exact (hvalues t (by simp)).headD_words
  | case12 t =>
    cases h
    exact (hvalues t (by simp)).getLastD_words
  | case13 t =>
    cases h
    exact (hvalues t (by simp)).join_map fun w hw => Words.tame_directory hw
  | case14 t =>
    cases h
    exact (hvalues t (by simp)).join_map fun w hw => Words.tame_afterSlash hw
  | case15 t =>
    cases h
    exact Words.tame_suffixes (hvalues t (by simp))
  | case16 t =>
    cases h
    exact (hvalues t (by simp)).join_map fun w hw => (Words.tame_splitSuffix hw).1
  | case20 patterns =>
    obtain ⟨paths, hpaths, hv⟩ := Derivation.bind_eq_done_iff.1 h
    cases wildcardAll_eq_done hpaths
    cases hv
    exact tame_nil
  | case21 t =>
    cases h
    exact (hvalues t (by simp)).upper
  | case22 t =>
    cases h
    exact (hvalues t (by simp)).lower
  | case23 =>
    rw [apply] at h
    · cases h
      exact tame_nil
    all_goals assumption

/-- A call that puts parts of paired arguments together makes a paired value, unless it writes one
of them before every character of another. -/
theorem paired_of_apply (hb : b.Glues) (hspreads : ¬b.Spreads values)
    (hvalues : ∀ t ∈ values, Paired t) (h : b.apply values = .done v) : Paired v := by
  fun_cases apply b values with
  | case1 old new t =>
    cases h
    have hne : old ≠ [] := by
      rintro rfl
      exact hspreads ⟨rfl, rfl⟩
    rw [Text.replaceAll, if_neg hne]
    exact paired_replaceFrom hne (hvalues old (by simp)) (hvalues new (by simp))
      (hvalues t (by simp))
  | case2 pattern replacement t =>
    cases h
    exact Words.paired_substitutePattern (hvalues pattern (by simp)) (hvalues replacement (by simp))
      (hvalues t (by simp))
  | case17 front t =>
    cases h
    exact Words.paired_addFront (hvalues front (by simp)) (hvalues t (by simp))
  | case18 back t =>
    cases h
    exact Words.paired_addBack (hvalues back (by simp)) (hvalues t (by simp))
  | case19 s t =>
    cases h
    exact Words.paired_pairWords (hvalues s (by simp)) (hvalues t (by simp))
  | case23 =>
    rw [apply] at h
    · cases h
      exact tame_nil
    all_goals assumption
  | _ => exact hb.elim

end Builtin

end Haybuild
