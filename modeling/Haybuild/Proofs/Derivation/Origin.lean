import Haybuild.Proofs.Derivation.Argument
import Haybuild.Proofs.Derivation.Call
import Haybuild.Proofs.Derivation.Congruence
import Haybuild.Proofs.Host
import Mathlib.Data.List.Infix

/-!
# Where the reference of an error is written

A derivation takes the line and the raw texts of variables apart: into pieces, bodies of references
and arguments of calls, which are put together again where a call has more of them than it needs.
So every text that is derived on the way is a part of the line or of a raw text (`WrittenIn`), and
so is the reference that an error names, unless the error is that of a call of `word`, which gives
its own name in place of the reference (`errors_name_references`).
-/

namespace Haybuild

variable {α β σ : Type}

/-! ## Arguments -/

theorem Text.join_append (sep : Text) {ts us : List Text} (hts : ts ≠ []) (hus : us ≠ []) :
    join sep (ts ++ us) = join sep ts ++ sep ++ join sep us := by
  induction ts with
  | nil => exact absurd rfl hts
  | cons t ts ih =>
    cases ts with
    | nil =>
      obtain ⟨u, us, rfl⟩ := List.exists_cons_of_ne_nil hus
      rfl
    | cons t' ts =>
      rw [List.cons_append, List.cons_append, join_cons_cons, join_cons_cons, ← List.cons_append,
        ih (List.cons_ne_nil _ _)]
      simp only [List.append_assoc]

/-- Neighbours put together are a part of the whole row put together. -/
theorem Text.join_infix_join (sep : Text) {ts us : List Text} (h : ts <:+: us) :
    join sep ts <:+: join sep us := by
  obtain ⟨before, after, rfl⟩ := h
  by_cases hts : ts = []
  · rw [hts]
    exact List.nil_infix
  have hfront : join sep ts <:+: join sep (before ++ ts) := by
    by_cases hbefore : before = []
    · rw [hbefore]
      exact List.infix_rfl
    · rw [join_append sep hbefore hts]
      exact (List.suffix_append _ _).isInfix
  by_cases hafter : after = []
  · rwa [hafter, List.append_nil]
  · rw [join_append sep (by simp [hts]) hafter, List.append_assoc]
    exact hfront.trans (List.prefix_append _ _).isInfix

namespace Builtin

variable {b : Builtin} {args as : List Text} {a body t : Text}

theorem exists_infix_of_mem (h : a ∈ args) : ∃ as, as <:+: args ∧ a = Text.join "," as :=
  ⟨[a], (List.singleton_infix_iff a args).2 h, rfl⟩

/-- What is derived for an argument is put together from neighbours. -/
theorem exists_infix_of_mem_soakUp {n : Nat} (h : a ∈ soakUp n args) :
    ∃ as, as <:+: args ∧ a = Text.join "," as := by
  fun_induction soakUp n args with
  | case1 args => exact exists_infix_of_mem h
  | case2 => cases h
  | case3 args => exact ⟨args, List.infix_rfl, List.mem_singleton.1 h⟩
  | case4 n first args ih =>
    rcases List.mem_cons.1 h with rfl | h
    · exact exists_infix_of_mem List.mem_cons_self
    · obtain ⟨as, has, rfl⟩ := ih h
      exact ⟨as, has.trans (List.suffix_cons first args).isInfix, rfl⟩

theorem exists_infix_of_chosen? {blank : Bool} (h : chosen? blank args = some a) :
    ∃ as, as <:+: args ∧ a = Text.join "," as := by
  cases blank with
  | false => exact exists_infix_of_mem (List.mem_of_mem_head? h)
  | true =>
    rcases args with - | ⟨first, - | ⟨otherwise, rest⟩⟩
    · cases h
    · cases h
    · cases h
      exact ⟨otherwise :: rest, (List.suffix_cons first _).isInfix, rfl⟩

/-- The arguments of a call stand at the end of its body. -/
theorem suffix_of_ofBody? (h : ofBody? body = some (b, t)) : t <:+ body := by
  have hrest : body.dropWhile isNameChar <:+ body := List.dropWhile_suffix _
  rw [ofBody?] at h
  split at h
  · cases h
  · next c r hdrop =>
    split at h
    · obtain ⟨b', -, hcall⟩ := Option.map_eq_some_iff.1 h
      cases hcall
      exact (List.dropWhile_suffix _).trans (hdrop ▸ hrest)
    · cases h

end Builtin

/-! ## Errors -/

namespace Derivation

variable {p : Error → Prop} {d : Derivation α}

/-- Whatever the answers are, if the derivation fails, then with an error that satisfies `p`. -/
def FailsOnly (p : Error → Prop) : Derivation α → Prop
  | done _ => True
  | failed e => p e
  | shell _ next => ∀ answer, (next answer).FailsOnly p
  | wildcard _ next => ∀ paths, (next paths).FailsOnly p

namespace FailsOnly

theorem bind {f : α → Derivation β} (H : d.FailsOnly p) (hf : ∀ a, (f a).FailsOnly p) :
    (d.bind f).FailsOnly p := by
  induction d with
  | done a => exact hf a
  | failed e => exact H
  | shell command next ih => exact fun answer => ih answer (H answer)
  | wildcard pattern next ih => exact fun paths => ih paths (H paths)

theorem of_eval {answers : Answers} {e : Error} (H : d.FailsOnly p)
    (h : d.eval answers = .error e) : p e := by
  induction d with
  | done a => cases h
  | failed e' =>
    cases h
    exact H
  | shell command next ih => exact ih _ (H _) h
  | wildcard pattern next ih => exact ih _ (H _) h

/-- The errors that a derivation raises on a host are among those that it can end with. -/
theorem of_derive {h : Host σ} {s s' : σ} {e : Error} (H : d.FailsOnly p)
    (hd : h.derive d s = (.ok (.error e), s')) : p e := by
  induction d generalizing s with
  | done a => cases hd
  | failed e' =>
    cases hd
    exact H
  | shell command next ih =>
    rw [Host.derive] at hd
    split at hd
    · cases hd
    · exact ih _ (H _) hd
  | wildcard pattern next ih =>
    rw [Host.derive] at hd
    split at hd
    · cases hd
    · exact ih _ (H _) hd

end FailsOnly

theorem failsOnly_deriveAll {f : Text → Derivation Text} {args : List Text}
    (hf : ∀ a ∈ args, (f a).FailsOnly p) : (Builtin.deriveAll f args).FailsOnly p := by
  induction args with
  | nil => trivial
  | cons a args ih =>
    obtain ⟨ha, hargs⟩ := List.forall_mem_cons.1 hf
    exact ha.bind fun _ => (ih hargs).bind fun _ => trivial

theorem failsOnly_wildcardAll (ps : List Text) : (Builtin.wildcardAll ps).FailsOnly p := by
  induction ps with
  | nil => trivial
  | cons pattern ps ih => exact fun _ => ih.bind fun _ => trivial

/-- No call fails on arguments that have values but that of `word`, for a number that is none. -/
theorem failsOnly_apply {b : Builtin} (values : List Text)
    (hword : b = .word → ∀ n, p ⟨.notANumber n, "word", [], false⟩) :
    (b.apply values).FailsOnly p := by
  fun_cases Builtin.apply b values with
  | case9 n t hn => exact hword rfl _
  | case20 patterns => exact (failsOnly_wildcardAll _).bind fun _ => trivial
  | _ => trivial

/-- A call fails as the arguments do that it derives, by itself, or as `word` does. -/
theorem failsOnly_call {b : Builtin} {f : Text → Derivation Text} {fail : Fault → Derivation Text}
    {reference : Text} {args : List Text}
    (hf : ∀ as, as <:+: args → (f (Text.join "," as)).FailsOnly p)
    (hfail : ∀ fault, (∀ n, fault ≠ .notANumber n) → (fail fault).FailsOnly p)
    (hword : b = .word → ∀ n, p ⟨.notANumber n, "word", [], false⟩) :
    (b.call f fail reference args).FailsOnly p := by
  cases hn : b.arity? with
  | some n =>
    rw [Builtin.call_of_arity? hn]
    split
    · exact hfail _ (by simp)
    · refine FailsOnly.bind (failsOnly_deriveAll fun a ha => ?_) fun values =>
        failsOnly_apply values hword
      obtain ⟨as, has, rfl⟩ := Builtin.exists_infix_of_mem_soakUp ha
      exact hf as has
  | none =>
    rcases Builtin.eq_of_arity?_eq_none hn with rfl | rfl
    · cases args with
      | nil => trivial
      | cons condition branches =>
        rw [Builtin.call, Builtin.branch_cons]
        refine FailsOnly.bind (hf [condition] (List.prefix_append [condition] branches).isInfix)
          fun value => ?_
        cases hchosen : Builtin.chosen? (Text.blank value) branches with
        | none => trivial
        | some a =>
          obtain ⟨as, has, rfl⟩ := Builtin.exists_infix_of_chosen? hchosen
          exact hf as (has.trans (List.suffix_cons condition branches).isInfix)
    · refine FailsOnly.bind (hf args List.infix_rfl) fun command answer => ?_
      dsimp only
      split
      · trivial
      · exact hfail _ (by simp)

theorem failsOnly_segments {resolve : Reference → Derivation Text}
    {fail : Fault → Text → Derivation (List Segment)} {ps : List Piece}
    (hresolve : ∀ ref, .reference ref ∈ ps → (resolve ref).FailsOnly p)
    (hfail : ∀ b rest, .unterminated b rest ∈ ps →
      (fail (.unterminated (Piece.unterminated b rest).source)
        (Piece.unterminated b rest).source).FailsOnly p) :
    (segments resolve fail ps).FailsOnly p := by
  induction ps with
  | nil => trivial
  | cons piece ps ih =>
    have hrest := ih (fun ref href => hresolve ref (.tail _ href))
      fun b rest hopen => hfail b rest (.tail _ hopen)
    cases piece with
    | literal c | pair => exact hrest.bind fun _ => trivial
    | reference ref =>
      exact (hresolve ref List.mem_cons_self).bind fun _ => hrest.bind fun _ => trivial
    | unterminated b rest => exact hfail b rest List.mem_cons_self

end Derivation

/-! ## What is written -/

variable {vars : Variables} {debug : Bool} {depth : Nat} {trace : List Text} {t u v : Text}
  {e : Derivation.Error}

/-- The text `u` is a part of the line `t` or of the raw text of a variable. -/
def WrittenIn (vars : Variables) (t u : Text) : Prop :=
  u <:+: t ∨ ∃ name raw, vars.get? name = some raw ∧ u <:+: raw

theorem WrittenIn.part (H : WrittenIn vars t u) (h : v <:+: u) : WrittenIn vars t v := by
  rcases H with H | ⟨name, raw, hraw, H⟩
  · exact .inl (h.trans H)
  · exact .inr ⟨name, raw, hraw, h.trans H⟩

theorem WrittenIn.piece {p : Piece} (H : WrittenIn vars t u) (hp : p ∈ pieces u) :
    WrittenIn vars t p.source := by
  refine H.part ?_
  obtain ⟨before, after, hcut⟩ := List.append_of_mem hp
  have hu := flatMap_source_pieces u
  rw [hcut, List.flatMap_append, List.flatMap_cons, ← List.append_assoc] at hu
  exact ⟨_, _, hu⟩

theorem WrittenIn.body {ref : Reference} (H : WrittenIn vars t ref.source) :
    WrittenIn vars t ref.body :=
  H.part ⟨['$', ref.bracket.opener], [ref.bracket.closer], by simp [Reference.source]⟩

namespace Derivation.Error

/-- The error names a reference, closed or not, that is written in the line or in a raw text. -/
structure NamesReference (vars : Variables) (t : Text) (e : Error) : Prop where
  opens : ∃ b : Bracket, ['$', b.opener] <+: e.reference
  written : WrittenIn vars t e.reference

/-- The error is that of a written call of `word`, which it names in place of the reference. -/
structure NamesWord (vars : Variables) (t : Text) (e : Error) : Prop where
  eq : ∃ n, e = ⟨.notANumber n, "word", [], false⟩
  call : ∃ ref args, WrittenIn vars t (Reference.source ref) ∧
    Builtin.ofBody? ref.body = some (.word, args)

/-- The error names a reference, or is that of a call of `word`. -/
def Names (vars : Variables) (t : Text) (e : Error) : Prop :=
  (e.NamesReference vars t ∧ ∀ n, e.fault ≠ .notANumber n) ∨ e.NamesWord vars t

end Derivation.Error

namespace Derivation

theorem opens_source (ref : Reference) : ∃ b : Bracket, ['$', b.opener] <+: ref.source :=
  ⟨ref.bracket, ⟨ref.body ++ [ref.bracket.closer], rfl⟩⟩

theorem names_of_written {fault : Fault} {ref : Reference} (H : WrittenIn vars t ref.source)
    (hfault : ∀ n, fault ≠ .notANumber n) :
    Error.Names vars t ⟨fault, ref.source, trace, debug⟩ :=
  .inl ⟨⟨opens_source ref, H⟩, hfault⟩

/-- A text fails as its references do, or at a bracket that is not closed. -/
theorem failsOnly_expand
    (hresolve : ∀ ref, WrittenIn vars t (Reference.source ref) →
      (resolve vars debug depth trace ref).FailsOnly (Error.Names vars t))
    (H : WrittenIn vars t u) :
    (expand vars debug depth trace u).FailsOnly (Error.Names vars t) := by
  refine FailsOnly.bind (failsOnly_segments ?_ ?_) fun _ => trivial
  · exact fun ref href => hresolve ref (H.piece href)
  · intro b rest hopen
    exact .inl ⟨⟨⟨b, ⟨rest, rfl⟩⟩, H.piece hopen⟩, by simp⟩

/-- A reference that is written somewhere fails with an error that names what is written. -/
theorem failsOnly_resolve {ref : Reference} (H : WrittenIn vars t ref.source) :
    (resolve vars debug depth trace ref).FailsOnly (Error.Names vars t) := by
  induction depth generalizing trace ref with
  | zero => exact names_of_written H (by simp)
  | succ depth ih =>
    have hexpand : ∀ {trace u}, WrittenIn vars t u →
        (expand vars debug depth trace u).FailsOnly (Error.Names vars t) :=
      failsOnly_expand fun ref href => ih href
    rw [resolve_succ]
    split
    · next b args hbody =>
      have hargs : WrittenIn vars t args := H.body.part (Builtin.suffix_of_ofBody? hbody).isInfix
      refine failsOnly_call (fun as has => hexpand (hargs.part ?_)) ?_ ?_
      · rw [← Builtin.join_arguments args]
        exact Text.join_infix_join _ has
      · exact fun fault hfault => names_of_written H hfault
      · rintro rfl n
        exact .inr ⟨⟨n, rfl⟩, ref, args, H, hbody⟩
    · refine (hexpand H.body).bind fun body => ?_
      rw [named]
      split
      · next raw hraw => exact hexpand (.inr ⟨_, raw, hraw, List.infix_rfl⟩)
      · exact names_of_written H (by simp)

theorem failsOnly_derive (vars : Variables) (debug : Bool) (t : Text) :
    (derive vars debug t).FailsOnly (Error.Names vars t) :=
  failsOnly_expand (fun _ => failsOnly_resolve) (.inl List.infix_rfl)

namespace Error

theorem NamesWord.not_namesReference (H : e.NamesWord vars t) : ¬e.NamesReference vars t := by
  rintro ⟨⟨b, hb⟩, -⟩
  obtain ⟨n, rfl⟩ := H.eq
  cases (List.cons_prefix_cons.1 hb).1

/-- The fault decides whether an error names a reference. -/
theorem Names.spec (H : e.Names vars t) :
    (e.NamesReference vars t ↔ ∀ n, e.fault ≠ .notANumber n) ∧
      ∀ n, e.fault = .notANumber n → e.NamesWord vars t := by
  rcases H with ⟨href, hfault⟩ | hword
  · exact ⟨⟨fun _ => hfault, fun _ => href⟩, fun n hn => absurd hn (hfault n)⟩
  · obtain ⟨n, hn⟩ := hword.eq
    refine ⟨⟨fun href => absurd href hword.not_namesReference, fun hfault => ?_⟩, fun _ _ => hword⟩
    exact absurd (congrArg Error.fault hn) (hfault n)

end Error

end Derivation

/-- An error of a derivation names a reference that is written in the line or in the raw text of a
variable, if and only if it is not about the number of a word. Such an error comes from a call of
`word` that is written there, and names the call by its name. -/
theorem errors_name_references (vars : Variables) (debug : Bool) (t : Text) :
    (∀ answers e, (derive vars debug t).eval answers = .error e →
      (e.NamesReference vars t ↔ ∀ n, e.fault ≠ .notANumber n) ∧
        ∀ n, e.fault = .notANumber n → e.NamesWord vars t) ∧
    ∀ {σ : Type} (h : Host σ) (s s' : σ) (e : Derivation.Error),
      h.derive (derive vars debug t) s = (.ok (.error e), s') →
        (e.NamesReference vars t ↔ ∀ n, e.fault ≠ .notANumber n) ∧
          ∀ n, e.fault = .notANumber n → e.NamesWord vars t := by
  have H := Derivation.failsOnly_derive vars debug t
  exact ⟨fun answers e he => (H.of_eval he).spec, fun h s s' e he => (H.of_derive he).spec⟩

/-- No command prints anything, and no pattern names a path. -/
def silence : Derivation.Answers := ⟨fun _ => ⟨0, [], []⟩, fun _ => []⟩

/-- A call with a comma more than it needs, and behind that comma a reference to no variable. -/
def warmFood : Variables :=
  NameMap.ofPairs [("FOOD", "$(addprefix warm-,pie,cake ${NOPE})")]

theorem errors_name_references_warmFood : ∃ e : Derivation.Error,
    (derive warmFood true "eat $(FOOD)").eval silence = .error e ∧ e.reference = "${NOPE}" ∧
      e.NamesReference warmFood "eat $(FOOD)" := by
  have hfails : (derive warmFood true "eat $(FOOD)").eval silence = .error
      ⟨.unknown "${NOPE}" "NOPE", "${NOPE}",
        ["$(FOOD)", "$(addprefix warm-,pie,cake ${NOPE})"], true⟩ := by
    decide +kernel
  have hspec := (errors_name_references warmFood true "eat $(FOOD)").1 _ _ hfails
  exact ⟨_, hfails, rfl, hspec.1.2 (by simp)⟩

/-- The error of a word number that is none. -/
def wordError : Derivation.Error := ⟨.notANumber "x", "word", [], false⟩

/-- What this error names in place of a reference does not start as one. -/
theorem word_names_no_reference :
    (derive .empty false "$(word x,a)").eval silence = .error wordError ∧
      ¬∃ b : Bracket, ['$', b.opener] <+: wordError.reference := by
  refine ⟨by decide +kernel, ?_⟩
  rintro ⟨b, hb⟩
  cases (List.cons_prefix_cons.1 hb).1

end Haybuild
