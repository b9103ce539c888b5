import Haybuild.Path
import Mathlib.Data.List.Basic

/-!
# Laws of paths

A path and the form in which it is shown have the same components and the same slashes in front
(`components_display`, `root_display`). So they have the same absolute form
(`absolute_display`), and a file can be told by either.
-/

namespace Haybuild

variable {c : Char} {p q t : Text}

namespace Text

theorem cut_cons (c d : Char) (t : Text) :
    cut c (d :: t) = if d = c then [] :: cut c t else (cut c t).modifyHead (d :: ·) := by
  simp only [cut, List.foldr_cons]
  by_cases h : d = c <;> simp [h]

theorem cut_eq_splitOn (c : Char) (t : Text) : cut c t = t.splitOn c := by
  induction t with
  | nil => rfl
  | cons d t ih => simp only [cut_cons, List.splitOn_cons_eq_if_modifyHead, ih, beq_iff_eq]

theorem cut_append (c : Char) (s t : Text) : cut c (s ++ c :: t) = cut c s ++ cut c t := by
  simp only [cut_eq_splitOn, List.splitOn_append_cons_self]

theorem cut_ne_nil (c : Char) (t : Text) : cut c t ≠ [] := by
  rw [cut_eq_splitOn]
  exact List.splitOn_ne_nil c t

theorem notMem_of_mem_cut {w : Text} (h : w ∈ cut c t) : c ∉ w := by
  induction t generalizing w with
  | nil =>
    have hw : w = [] := by simpa [cut] using h
    simp [hw]
  | cons d t ih =>
    rw [cut_cons] at h
    split at h
    · rcases List.mem_cons.1 h with rfl | h
      · simp
      · exact ih h
    · next hd =>
      obtain ⟨part, rest, hcut⟩ := List.exists_cons_of_ne_nil (cut_ne_nil c t)
      rw [hcut] at h ih
      rcases List.mem_cons.1 h with rfl | h
      · have hpart : c ∉ part := ih List.mem_cons_self
        simp [hpart, Ne.symm hd]
      · exact ih (List.mem_cons_of_mem _ h)

end Text

namespace Path

/-- The text says something as a component of a path. -/
structure Says (c : Text) : Prop where
  ne_nil : c ≠ []
  ne_dot : c ≠ ['.']
  slash : '/' ∉ c

theorem says_of_mem_components {c : Text} (h : c ∈ components p) : Says c := by
  obtain ⟨hcut, hc⟩ := List.mem_filter.1 h
  have hc : c ≠ [] ∧ c ≠ ['.'] := by simpa using hc
  exact ⟨hc.1, hc.2, Text.notMem_of_mem_cut hcut⟩

theorem components_append (p q : Text) :
    components (p ++ '/' :: q) = components p ++ components q := by
  rw [components, Text.cut_append, List.filter_append]
  rfl

@[simp] theorem components_slash (p : Text) : components ('/' :: p) = components p :=
  components_append [] p

theorem components_of_says {c : Text} (H : Says c) : components c = [c] := by
  have hcut : Text.cut '/' c = [c] := by
    rw [Text.cut_eq_splitOn, List.splitOn_eq_singleton H.slash]
  rw [components, hcut, List.filter_cons_of_pos (by simp [H.ne_nil, H.ne_dot]), List.filter_nil]

theorem components_join {cs : List Text} (H : ∀ c ∈ cs, Says c) :
    components (Text.join "/" cs) = cs := by
  induction cs with
  | nil => rfl
  | cons c cs ih =>
    obtain ⟨hc, hcs⟩ := List.forall_mem_cons.1 H
    cases cs with
    | nil => exact components_of_says hc
    | cons d cs =>
      have happend : Text.join "/" (c :: d :: cs) = c ++ '/' :: Text.join "/" (d :: cs) := by
        rw [Text.join_cons_cons, List.append_assoc]
        rfl
      rw [happend, components_append, components_of_says hc, ih hcs]
      rfl

theorem head_join_ne {cs : List Text} (H : ∀ c ∈ cs, Says c) :
    (Text.join "/" cs).head? ≠ some '/' := by
  have hhead : ∀ (c r : Text), Says c → (c ++ r).head? ≠ some '/' := by
    intro c r hc hslash
    obtain ⟨d, c, rfl⟩ := List.exists_cons_of_ne_nil hc.ne_nil
    obtain rfl : d = '/' := by simpa using hslash
    exact hc.slash List.mem_cons_self
  rcases cs with - | ⟨c, - | ⟨d, cs⟩⟩
  · simp [Text.join]
  · have hc := hhead c [] (H c List.mem_cons_self)
    rwa [List.append_nil] at hc
  · rw [Text.join_cons_cons, List.append_assoc]
    exact hhead c _ (H c List.mem_cons_self)

/-! ## The slashes in front -/

theorem takeWhile_slash_of_head_ne (h : p.head? ≠ some '/') : p.takeWhile (· = '/') = [] := by
  cases p with
  | nil => rfl
  | cons c p =>
    have hc : ¬c = '/' := by simpa using h
    rw [List.takeWhile_cons_of_neg (by simpa using hc)]

theorem root_of_head_ne (h : p.head? ≠ some '/') : root p = [] := by
  rw [root, takeWhile_slash_of_head_ne h]

theorem root_cases (p : Text) : root p = [] ∨ root p = ['/'] ∨ root p = ['/', '/'] := by
  rw [root]
  split <;> simp

theorem root_ne_nil (h : p.head? = some '/') : root p ≠ [] := by
  obtain ⟨r, rfl⟩ : ∃ r, p = '/' :: r := by
    cases p with
    | nil => cases h
    | cons c r =>
      cases h
      exact ⟨r, rfl⟩
  have htake : ('/' :: r).takeWhile (· = '/') = '/' :: r.takeWhile (· = '/') := by simp
  rw [root, htake]
  split <;> simp_all

/-- Slashes in front of what starts with none. -/
theorem root_append (h : q.head? ≠ some '/') : root (root p ++ q) = root p := by
  have htake := takeWhile_slash_of_head_ne h
  rcases root_cases p with hr | hr | hr <;> rw [hr]
  · exact root_of_head_ne h
  · simp [root, htake]
  · simp [root, htake]

theorem components_root_append (p q : Text) : components (root p ++ q) = components q := by
  rcases root_cases p with hr | hr | hr <;> rw [hr] <;> simp

/-- The text that shows a path, before an empty one is shown as a dot. -/
def shown (p : Text) : Text :=
  root p ++ Text.join "/" (components p)

theorem display_eq (p : Text) : display p = if shown p = [] then ['.'] else shown p := by
  rw [display, ← shown]
  cases shown p <;> simp

theorem components_shown (p : Text) : components (shown p) = components p := by
  rw [shown, components_root_append, components_join fun _ => says_of_mem_components]

theorem components_display (p : Text) : components (display p) = components p := by
  rw [display_eq, ← components_shown p]
  split
  · next h =>
    rw [h]
    rfl
  · rfl

theorem root_display (p : Text) : root (display p) = root p := by
  have hshown : root (shown p) = root p :=
    root_append (head_join_ne fun _ => says_of_mem_components)
  rw [display_eq]
  split
  · next h =>
    rw [← hshown, h]
    rfl
  · exact hshown

theorem head_display_iff (p : Text) : (display p).head? = some '/' ↔ p.head? = some '/' := by
  by_cases h : p.head? = some '/'
  · have hroot := root_display p ▸ root_ne_nil h
    refine iff_of_true (by_contra fun hne => hroot (root_of_head_ne hne)) h
  · refine iff_of_false (fun hdisplay => ?_) h
    exact root_ne_nil hdisplay ((root_display p).trans (root_of_head_ne h))

/-! ## Absolute forms -/

/-- What stands before a relative path in its absolute form. -/
def base (directory : Text) : Text :=
  if directory = [] || directory.getLast? = some '/' then directory else directory ++ ['/']

theorem within_eq (directory : Text) (h : p.head? ≠ some '/') :
    within directory p = base directory ++ p := by
  rw [within, if_neg h, base]
  split <;> simp

theorem base_cases (directory : Text) :
    base directory = [] ∨ ∃ d, base directory = d ++ ['/'] := by
  rw [base]
  split
  · next h =>
    rcases List.eq_nil_or_concat directory with rfl | ⟨d, c, rfl⟩
    · exact .inl rfl
    · obtain rfl : c = '/' := by simpa using h
      exact .inr ⟨d, List.concat_eq_append⟩
  · exact .inr ⟨directory, rfl⟩

theorem components_base_append (directory p : Text) :
    components (base directory ++ p) = components (base directory) ++ components p := by
  rcases base_cases directory with h | ⟨d, h⟩
  · rw [h]
    rfl
  · have hd : components (d ++ ['/']) = components d := by
      rw [components_append]
      exact List.append_nil _
    rw [h, hd, List.append_assoc]
    exact components_append d p

/-- The slashes in front do not depend on what starts with none. -/
theorem root_append_congr (s : Text) (hp : p.head? ≠ some '/') (hq : q.head? ≠ some '/') :
    root (s ++ p) = root (s ++ q) := by
  rw [root, root, List.takeWhile_append, List.takeWhile_append, takeWhile_slash_of_head_ne hp,
    takeWhile_slash_of_head_ne hq]

/-- The form in which a path is shown leads to the same file. -/
theorem absolute_display (directory p : Text) :
    absolute directory (display p) = absolute directory p := by
  by_cases hp : p.head? = some '/'
  · have hdisplay : within directory (display p) = display p := by
      rw [within, if_pos ((head_display_iff p).2 hp)]
    have hwithin : within directory p = p := by rw [within, if_pos hp]
    rw [absolute, absolute, hdisplay, hwithin, root_display, components_display]
  · have hdisplay : (display p).head? ≠ some '/' := fun h => hp ((head_display_iff p).1 h)
    rw [absolute, absolute, within_eq directory hdisplay, within_eq directory hp,
      root_append_congr _ hdisplay hp, components_base_append, components_base_append,
      components_display]

end Path

end Haybuild
