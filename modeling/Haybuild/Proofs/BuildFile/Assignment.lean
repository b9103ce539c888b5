import Haybuild.Proofs.BuildFile.Section
import Haybuild.Proofs.BuildFile.Sequence
import Haybuild.Proofs.NameMap
import Haybuild.Proofs.Text.Parts
import Haybuild.Proofs.Text.Words

/-!
# Chains of assignments

A chain `a = b = value` gives the names in each side but the last the text of the side behind it.
The sides are visited from right to left: a name that stands in several of them keeps the text
behind the first one, but is put among the variables when the last one is visited. So a chain sets
pairs of names and texts one after the other (`bindings`, `assignSides_reverse`), the last pair of a
name comes from the first side that holds it (`lookup_bindings`), and the line of a chain does
nothing else (`chain_assigns`).
-/

namespace Haybuild

namespace Variables

theorem assign_eq (v : Variables) (names : List Text) (value : Text) :
    v.assign names value = v.setAll (names.map (·, value)) := by
  rw [NameMap.setAll, List.foldl_map]
  rfl

theorem namesFrom_escape (inside : Bool) (t : Text) :
    namesFrom inside (Text.escape '=' t) = namesFrom inside t := by
  induction t generalizing inside with
  | nil => rfl
  | cons c t ih =>
    by_cases hc : c = '='
    · have hslash : ∀ inside r, namesFrom inside ('\\' :: r) = ([], (namesFrom false r).2) := by
        intro inside r
        cases inside <;> rfl
      have hmark : ∀ inside r, namesFrom inside ('=' :: r) = ([], (namesFrom false r).2) := by
        intro inside r
        cases inside <;> rfl
      rw [hc, Text.escape_cons_self, hslash, hmark, hmark, ih]
    · rw [Text.escape_cons_of_ne hc, namesFrom, namesFrom, ih, ih]

/-- A backslash ends a name as the mark behind it does. -/
theorem namesIn_escape (t : Text) : namesIn (Text.escape '=' t) = namesIn t :=
  congrArg Prod.snd (namesFrom_escape false t)

end Variables

namespace BuildFile

open Variables (namesIn)

variable {σ : Type} {h : Host σ} {readFile : Text → Loading σ → Outcome σ} {number i : Nat}
  {st : Loading σ} {source name : Text} {sides : List Text}

/-! ## What a chain assigns -/

/-- The pairs that the sides of a chain assign, in the order in which they are assigned: the sides
from right to left, and the names of a side from left to right. -/
def bindings : List Text → List (Text × Text)
  | side :: value :: r =>
    bindings (value :: r) ++ (namesIn side).map (·, Text.trim (Text.replaceAll "\\=" "=" value))
  | _ => []

theorem bindings_cons_cons (side value : Text) (r : List Text) :
    bindings (side :: value :: r) = bindings (value :: r) ++
      (namesIn side).map (·, Text.trim (Text.replaceAll "\\=" "=" value)) := rfl

/-- The last step of a chain is that of its first side. -/
theorem assignSides_concat (v : Variables) (parts : List Text) (value names : Text) :
    Context.assignSides v (parts ++ [value] ++ [names]) =
      (Context.assignSides v (parts ++ [value])).assign (namesIn names) (Text.trim value) := by
  induction parts generalizing v with
  | nil => rfl
  | cons part parts ih =>
    cases parts with
    | nil => rfl
    | cons part' parts => exact ih _

theorem namesIn_unescaped {side : Text} (hside : Text.findUnescaped ['='] side = none) :
    namesIn (Text.replaceAll "\\=" "=" side) = namesIn side := by
  have hescape : Text.escape '=' (Text.replaceAll "\\=" "=" side) = side :=
    Text.escape_replaceAll (by decide) hside
  rw [← Variables.namesIn_escape, hescape]

theorem assignSides_reverse (hsides : ∀ side ∈ sides, Text.findUnescaped ['='] side = none)
    (v : Variables) :
    Context.assignSides v (sides.map (Text.replaceAll "\\=" "=")).reverse =
      v.setAll (bindings sides) := by
  induction sides with
  | nil => rfl
  | cons side sides ih =>
    obtain ⟨hside, hsides⟩ := List.forall_mem_cons.1 hsides
    cases sides with
    | nil => rfl
    | cons value sides =>
      have ih := ih hsides
      rw [List.map_cons, List.reverse_cons] at ih
      rw [List.map_cons, List.map_cons, List.reverse_cons, List.reverse_cons, assignSides_concat,
        ih, namesIn_unescaped hside, Variables.assign_eq, ← NameMap.setAll_append,
        bindings_cons_cons]

theorem map_fst_bindings (sides : List Text) :
    (bindings sides).map Prod.fst = sides.dropLast.reverse.flatMap namesIn := by
  induction sides with
  | nil => rfl
  | cons side sides ih =>
    cases sides with
    | nil => rfl
    | cons value sides =>
      rw [bindings_cons_cons, List.dropLast_cons_of_ne_nil (List.cons_ne_nil value sides),
        List.reverse_cons, List.flatMap_append, List.map_append, ih]
      simp [Function.comp_def]

theorem lookup_map_const (names : List Text) (value name : Text) :
    (names.map (·, value)).lookup name = if name ∈ names then some value else none := by
  induction names with
  | nil => rfl
  | cons n names ih =>
    rw [List.map_cons, List.lookup_cons, ih]
    by_cases hn : name = n
    · simp [hn]
    · rw [beq_eq_false_iff_ne.2 hn]
      simp [hn]

theorem lookup_bindings_cons (side value : Text) (r : List Text) (name : Text) :
    (bindings (side :: value :: r)).reverse.lookup name =
      if name ∈ namesIn side then some (Text.trim (Text.replaceAll "\\=" "=" value))
      else (bindings (value :: r)).reverse.lookup name := by
  rw [bindings_cons_cons, List.reverse_append, List.lookup_append, ← List.map_reverse,
    lookup_map_const]
  simp only [List.mem_reverse]
  split
  · rw [Option.some_or]
  · rw [Option.none_or]

/-- A name is bound by the first side that it stands in. -/
theorem lookup_bindings (hi : i + 1 < sides.length) (hname : name ∈ namesIn sides[i])
    (hfirst : ∀ side ∈ sides.take i, name ∉ namesIn side) :
    (bindings sides).reverse.lookup name =
      some (Text.trim (Text.replaceAll "\\=" "=" sides[i + 1])) := by
  induction i generalizing sides with
  | zero =>
    match sides, hi with
    | side :: value :: r, _ =>
      have hside : name ∈ namesIn side := hname
      rw [lookup_bindings_cons, if_pos hside]
      rfl
  | succ i ih =>
    match sides, hi with
    | side :: value :: r, hi =>
      rw [List.take_succ_cons, List.forall_mem_cons] at hfirst
      rw [lookup_bindings_cons, if_neg hfirst.1]
      exact ih (Nat.lt_of_succ_lt_succ hi) hname hfirst.2

theorem lookup_bindings_eq_none (hname : ∀ side ∈ sides.dropLast, name ∉ namesIn side) :
    (bindings sides).reverse.lookup name = none := by
  rw [List.lookup_eq_none_iff]
  intro p hp
  have hfst : p.1 ∈ (bindings sides).map Prod.fst := List.mem_map_of_mem (List.mem_reverse.1 hp)
  rw [map_fst_bindings] at hfst
  obtain ⟨side, hside, hp⟩ := List.mem_flatMap.1 hfst
  rw [bne_iff_ne]
  rintro rfl
  exact hname side (List.mem_reverse.1 hside) hp

/-! ## The line of a chain -/

/-- A line with a mark that counts is not blank. -/
theorem blank_eq_false_of_assignment
    (hassign : (Text.findUnescaped "=" (contentOf source)).isSome) : Text.blank source = false := by
  have hmark : '=' ∈ contentOf source := by
    by_contra hmark
    have hnone : Text.findUnescaped "=" (contentOf source) = none :=
      Text.findUnescaped_of_notMem hmark
    rw [hnone] at hassign
    cases hassign
  obtain ⟨u, v, hcontent, -⟩ := Text.exists_eq_trim (Line.ofText source).content
  have hdrop : '=' ∈ source.drop (Line.ofText source).split := by
    rw [← Line.content_ofText, hcontent]
    exact List.mem_append_left v (List.mem_append_right u hmark)
  rw [Text.blank, List.all_eq_false]
  exact ⟨'=', List.mem_of_mem_drop hdrop, by decide⟩

theorem isSome_findUnescaped_of_partedAt (H : Text.PartedAt '=' (contentOf source) sides)
    (hlength : 2 ≤ sides.length) : (Text.findUnescaped "=" (contentOf source)).isSome := by
  rw [Option.isSome_iff_ne_none]
  intro hnone
  have hone : (Text.splitUnescaped ['='] (contentOf source)).length = 1 :=
    (Text.findUnescaped_eq_none_iff (by decide) _).1 hnone
  rw [H.splitUnescaped_eq (by decide), List.length_map] at hone
  omega

theorem processLine_chain (htab : source.head? ≠ some '\t')
    (H : Text.PartedAt '=' (contentOf source) sides) (hlength : 2 ≤ sides.length) :
    processLine h readFile source number st =
      (st.closed.withContext
        { st.closed.context with vars := st.context.vars.setAll (bindings sides) }, none) := by
  have hassign := isSome_findUnescaped_of_partedAt H hlength
  have hsplit : Text.splitUnescaped "=" (contentOf source) =
      sides.map (Text.replaceAll "\\=" "=") := H.splitUnescaped_eq (by decide)
  rw [processLine_heading (blank_eq_false_of_assignment hassign) htab, if_pos hassign,
    Context.assignLine, hsplit, assignSides_reverse H.findUnescaped_eq]
  rfl

/-- Reading the line of a chain binds each name in a side but the last to the text of the side
behind the first one that holds the name. New names go behind the old ones in the order in which the
sides are visited. Nothing else changes, except that no recipe is open. -/
theorem chain_assigns (htab : source.head? ≠ some '\t')
    (H : Text.PartedAt '=' (contentOf source) sides) (hlength : 2 ≤ sides.length) (h : Host σ)
    (readFile : Text → Loading σ → Outcome σ) (number : Nat) (st : Loading σ) :
    ∃ vars : Variables,
      processLine h readFile source number st =
        ({ st with context := { st.context with vars, openRecipe := none, skipping := false } },
          none) ∧
      (∀ (i : Nat) (hi : i + 1 < sides.length) (name : Text), name ∈ namesIn sides[i] →
        (∀ side ∈ sides.take i, name ∉ namesIn side) →
        vars.get? name = some (Text.trim (Text.replaceAll "\\=" "=" sides[i + 1]))) ∧
      (∀ name, (∀ side ∈ sides.dropLast, name ∉ namesIn side) →
        vars.get? name = st.context.vars.get? name) ∧
      vars.names = st.context.vars.names ++
        ((sides.dropLast.reverse.flatMap namesIn).filter
          (· ∉ st.context.vars.names)).eraseDups := by
  refine ⟨st.context.vars.setAll (bindings sides), processLine_chain htab H hlength, ?_, ?_, ?_⟩
  · intro i hi name hname hfirst
    rw [NameMap.get?_setAll, lookup_bindings hi hname hfirst, Option.some_or]
  · intro name hname
    rw [NameMap.get?_setAll, lookup_bindings_eq_none hname, Option.none_or]
  · rw [NameMap.names_setAll, map_fst_bindings]

/-- A state with variables and an open recipe. -/
def halfwayState : Loading Unit where
  context :=
    { vars := NameMap.ofPairs [("B", "old"), ("D", "kept")]
      recipes := [⟨["all"], [], []⟩]
      openRecipe := some 0 }
  host := ()
  reports := []

/-- A chain behind a marker, with names that stand in two sides, an escaped equality sign between
names, and a value that starts with one. -/
def chainLine : Text := " -A B\\=C 9z = E B A= \\= v \\"

def chainSides : List Text := ["A B\\=C 9z ", " E B A", " \\= v \\"]

theorem chain_assigns_chainLine :
    chainLine.head? ≠ some '\t' ∧ Text.PartedAt '=' (contentOf chainLine) chainSides ∧
      2 ≤ chainSides.length ∧
      ∃ vars : Variables,
        processLine bareHost (processFile bareHost 0) chainLine 3 halfwayState =
          ({ halfwayState with context := { halfwayState.context with
              vars, openRecipe := none, skipping := false } }, none) ∧
        vars.get? "B" = some "E B A" ∧ vars.get? "E" = some "= v \\" ∧
        vars.get? "D" = some "kept" ∧ vars.names = ["B", "D", "E", "A", "C", "z"] := by
  have htab : chainLine.head? ≠ some '\t' := by decide
  have H : Text.PartedAt '=' (contentOf chainLine) chainSides := by decide +kernel
  have hlength : 2 ≤ chainSides.length := by decide
  obtain ⟨vars, hline, hbound, hkept, hnames⟩ :=
    chain_assigns htab H hlength bareHost (processFile bareHost 0) 3 halfwayState
  refine ⟨htab, H, hlength, vars, hline, ?_, ?_, ?_, ?_⟩
  · exact (hbound 0 (by decide) "B" (by decide) (by decide)).trans (by decide +kernel)
  · exact (hbound 1 (by decide) "E" (by decide) (by decide)).trans (by decide +kernel)
  · exact (hkept "D" (by decide)).trans (by decide +kernel)
  · exact hnames.trans (by decide +kernel)

end BuildFile

end Haybuild
