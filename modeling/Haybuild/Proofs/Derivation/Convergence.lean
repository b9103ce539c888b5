import Haybuild.Proofs.Derivation.Named

/-!
# The limit of nested expansions

In a simple text every dollar is one of a pair or starts a reference to a name. Where all texts are
simple, what can go wrong is read off the references alone: a text has a value within some room if
the chains of references that start in it are no longer than the room and every name in them is
defined (`exists_expand_iff`). Its value is then the text with every reference replaced by what the
references in its raw text are replaced by, and so on (`Substituted`). For the line that is derived
the room is `depthLimit` (`derive_simple_iff`).
-/

namespace Haybuild

open Variables (IsName)

variable {vars : Variables} {debug : Bool} {depth : Nat} {trace : List Text} {ref : Reference}
  {t raw name v w : Text} {ps : List Piece} {names before between after : List Text}

/-! ## Chains of references -/

namespace Piece

/-- The piece is no dollar that stands alone, and a reference only if it is one to a name. -/
def Simple : Piece → Prop
  | literal c => c ≠ '$'
  | pair => True
  | reference ref => IsName ref.body
  | unterminated _ _ => False

instance : DecidablePred Simple
  | literal c => inferInstanceAs (Decidable (c ≠ '$'))
  | pair => isTrue trivial
  | reference ref => inferInstanceAs (Decidable (IsName ref.body))
  | unterminated _ _ => isFalse id

end Piece

/-- Every dollar of the text is one of a pair or starts a reference to a name. -/
def Simple (t : Text) : Prop :=
  ∀ p ∈ pieces t, p.Simple

instance : DecidablePred Simple := fun t =>
  inferInstanceAs (Decidable (∀ p ∈ pieces t, p.Simple))

/-- The names of references inside one another: the first reference stands in the text, and each
further one in the raw text of the variable before it. -/
inductive ReferenceChain (vars : Variables) : Text → List Text → Prop
  | single {t : Text} {ref : Reference} :
      .reference ref ∈ pieces t → ReferenceChain vars t [ref.body]
  | cons {t raw : Text} {ref : Reference} {names : List Text} :
      .reference ref ∈ pieces t → vars.get? ref.body = some raw → ReferenceChain vars raw names →
      ReferenceChain vars t (ref.body :: names)

/-- The text names the variable, or a variable whose raw text reaches it. -/
def Reaches (vars : Variables) (t name : Text) : Prop :=
  ∃ names, ReferenceChain vars t names ∧ name ∈ names

namespace ReferenceChain

theorem ne_nil (H : ReferenceChain vars t names) : names ≠ [] := by
  cases H <;> exact List.cons_ne_nil _ _

/-- What holds of all chains of a text, by the references in it. -/
theorem forall_iff {p : List Text → Prop} :
    (∀ names, ReferenceChain vars t names → p names) ↔
      ∀ ref, .reference ref ∈ pieces t → p [ref.body] ∧
        ∀ raw, vars.get? ref.body = some raw →
          ∀ names, ReferenceChain vars raw names → p (ref.body :: names) := by
  constructor
  · intro h ref href
    exact ⟨h _ (.single href), fun raw hraw names H => h _ (.cons href hraw H)⟩
  · intro h names H
    cases H with
    | single href => exact (h _ href).1
    | cons href hraw H => exact (h _ href).2 _ hraw _ H

/-- The first name of a chain is one that the text names. -/
theorem head (H : ReferenceChain vars t (name :: after)) : ReferenceChain vars t [name] := by
  cases H with
  | single href | cons href => exact .single href

/-- A chain goes on in the raw text of its first name. -/
theorem tail (H : ReferenceChain vars t (name :: after)) (hafter : after ≠ []) :
    ∃ raw, vars.get? name = some raw ∧ ReferenceChain vars raw after := by
  cases H with
  | single => exact absurd rfl hafter
  | cons _ hraw H => exact ⟨_, hraw, H⟩

theorem push (H : ReferenceChain vars t [name]) (hraw : vars.get? name = some raw)
    (Hraw : ReferenceChain vars raw after) : ReferenceChain vars t (name :: after) := by
  cases H with
  | single href | cons href => exact .cons href hraw Hraw

/-- A chain goes on in the raw text of each of its names. -/
theorem from_raw (H : ReferenceChain vars t (before ++ name :: after)) (hafter : after ≠ []) :
    ∃ raw, vars.get? name = some raw ∧ ReferenceChain vars raw after := by
  induction before generalizing t with
  | nil => exact H.tail hafter
  | cons name' before ih =>
    obtain ⟨raw, -, H⟩ := H.tail (by simp)
    exact ih H

/-- Up to one of its names, a chain can go on with any chain in the raw text of that name. -/
theorem reroute (H : ReferenceChain vars t (before ++ name :: after))
    (hraw : vars.get? name = some raw) (Hraw : ReferenceChain vars raw names) :
    ReferenceChain vars t (before ++ name :: names) := by
  induction before generalizing t with
  | nil => exact H.head.push hraw Hraw
  | cons name' before ih =>
    obtain ⟨raw', hraw', H'⟩ := H.tail (by simp)
    exact H.head.push hraw' (ih H')

/-- Around a cycle there are chains of any length. -/
theorem exists_le_length (H : ReferenceChain vars t (before ++ name :: (between ++ [name])))
    (n : Nat) : ∃ names, ReferenceChain vars t names ∧ n ≤ names.length := by
  obtain ⟨raw, hraw, Hraw⟩ := H.from_raw (by simp)
  have hround : ∃ names, ReferenceChain vars raw names ∧ n ≤ names.length := by
    induction n with
    | zero => exact ⟨_, Hraw, Nat.zero_le _⟩
    | succ n ih =>
      obtain ⟨names, Hnames, hle⟩ := ih
      refine ⟨between ++ name :: names, Hraw.reroute hraw Hnames, ?_⟩
      rw [List.length_append, List.length_cons]
      omega
  obtain ⟨names, Hnames, hle⟩ := hround
  refine ⟨before ++ name :: names, H.reroute hraw Hnames, ?_⟩
  rw [List.length_append, List.length_cons]
  omega

end ReferenceChain

/-! ## Substitution -/

/-- The text is what remains of the pieces when every reference gives way to what remains of the raw
text that it names. -/
inductive Substituted (vars : Variables) : List Piece → Text → Prop
  | nil : Substituted vars [] []
  | keep {p : Piece} {ps : List Piece} {v : Text} :
      ¬p.Opens → Substituted vars ps v → Substituted vars (p :: ps) (p.source ++ v)
  | fill {ref : Reference} {ps : List Piece} {raw w v : Text} :
      vars.get? ref.body = some raw → Substituted vars (pieces raw) w → Substituted vars ps v →
      Substituted vars (.reference ref :: ps) (w ++ v)

/-- Substitution has one result. -/
theorem Substituted.unique (H : Substituted vars ps v) (H' : Substituted vars ps w) : v = w := by
  induction H generalizing w with
  | nil =>
    cases H'
    rfl
  | keep hp _ ih =>
    cases H' with
    | keep _ H' => rw [ih H']
    | fill => exact absurd trivial hp
  | fill hraw _ _ ihraw ih =>
    cases H' with
    | keep hp => exact absurd trivial hp
    | fill hraw' Hraw' H' =>
      cases hraw.symm.trans hraw'
      rw [ihraw Hraw', ih H']

/-! ## Values of simple texts -/

namespace Derivation

/-- Simple pieces have values if the references among them have. -/
theorem exists_fills {resolve : Reference → Derivation Text} (hps : ∀ p ∈ ps, p.Simple)
    (hresolve : ∀ ref, .reference ref ∈ ps → ∃ v, resolve ref = .done v) :
    ∃ segs : List Segment, segs.map Segment.piece = ps ∧ ∀ s ∈ segs, Fills resolve s := by
  induction ps with
  | nil => exact ⟨[], rfl, by simp⟩
  | cons p ps ih =>
    obtain ⟨hp, hps⟩ := List.forall_mem_cons.1 hps
    obtain ⟨segs, rfl, hfills⟩ := ih hps fun ref href => hresolve ref (.tail _ href)
    have hvalue : ∃ value, Fills resolve ⟨p, value⟩ := by
      cases p with
      | literal c => exact ⟨[c], rfl⟩
      | pair => exact ⟨['$', '$'], rfl⟩
      | reference ref => exact hresolve ref List.mem_cons_self
      | unterminated => exact hp.elim
    obtain ⟨value, hvalue⟩ := hvalue
    exact ⟨⟨p, value⟩ :: segs, rfl, List.forall_mem_cons.2 ⟨hvalue, hfills⟩⟩

/-- A simple text has a value if each of its references has one. -/
theorem exists_expand_iff_resolve (ht : Simple t) :
    (∃ v, expand vars debug depth trace t = .done v) ↔
      ∀ ref, .reference ref ∈ pieces t → ∃ v, resolve vars debug depth trace ref = .done v := by
  constructor
  · rintro ⟨v, hv⟩ ref href
    obtain ⟨segs, hsegs, -⟩ := expand_eq_done_iff.1 hv
    obtain ⟨hpieces, hfills⟩ := expandSegments_eq_done_iff.1 hsegs
    obtain ⟨⟨_, value⟩, hs, rfl⟩ := List.mem_map.1 (hpieces ▸ href)
    exact ⟨value, hfills _ hs⟩
  · intro hresolve
    obtain ⟨segs, hsegs⟩ := exists_fills ht hresolve
    exact ⟨_, expand_eq_done_iff.2 ⟨segs, expandSegments_eq_done_iff.2 hsegs, rfl⟩⟩

/-- Where all texts are simple, a text has a value within a room if the chains of references that
start in it are no longer than the room and all their names are defined. -/
theorem exists_expand_iff (hvars : ∀ e ∈ vars.entries, Simple e.2) (ht : Simple t) :
    (∃ v, expand vars debug depth trace t = .done v) ↔
      ∀ names, ReferenceChain vars t names →
        names.length ≤ depth ∧ ∀ name ∈ names, name ∈ vars.names := by
  induction depth generalizing t trace with
  | zero =>
    rw [exists_expand_iff_resolve ht, ReferenceChain.forall_iff]
    refine forall₂_congr fun ref href => ?_
    simp [resolve]
  | succ depth ih =>
    rw [exists_expand_iff_resolve ht, ReferenceChain.forall_iff]
    refine forall₂_congr fun ref href => ?_
    have hname : IsName ref.body := ht _ href
    rw [resolve_of_isName hname, List.forall_mem_singleton, NameMap.mem_names]
    cases hraw : vars.get? ref.body with
    | none => simp
    | some raw =>
      have hsimple : Simple raw := hvars _ (NameMap.get?_eq_some_iff.1 hraw)
      have hmem : ref.body ∈ vars.names := NameMap.mem_names.2 (by simp [hraw])
      simp [ih hsimple, hmem]

/-- Pieces of simple texts are derived without a question if their references are, and then end with
what is substituted for them. -/
theorem segments_simple {resolve : Reference → Derivation Text} {e : Fault → Text → Error}
    (hps : ∀ p ∈ ps, p.Simple)
    (hresolve : ∀ ref, .reference ref ∈ ps →
      (∃ raw w, vars.get? ref.body = some raw ∧ Substituted vars (pieces raw) w ∧
        resolve ref = .done w) ∨ ∃ e', resolve ref = .failed e') :
    (∃ segs, segments resolve (fun fault written => .failed (e fault written)) ps = .done segs ∧
      Substituted vars ps (Segment.valueOf segs)) ∨
      ∃ e', segments resolve (fun fault written => .failed (e fault written)) ps = .failed e' := by
  induction ps with
  | nil => exact .inl ⟨[], rfl, .nil⟩
  | cons p ps ih =>
    obtain ⟨hp, hps⟩ := List.forall_mem_cons.1 hps
    have ih := ih hps fun ref href => hresolve ref (.tail _ href)
    cases p with
    | literal c | pair =>
      rcases ih with ⟨segs, hsegs, hvalue⟩ | ⟨e', he⟩
      · exact .inl ⟨_, by rw [segments, hsegs]; rfl, .keep id hvalue⟩
      · exact .inr ⟨e', by rw [segments, he]; rfl⟩
    | reference ref =>
      rcases hresolve ref List.mem_cons_self with ⟨raw, w, hraw, hw, hres⟩ | ⟨e', he⟩
      · rcases ih with ⟨segs, hsegs, hvalue⟩ | ⟨e', he⟩
        · exact .inl ⟨⟨.reference ref, w⟩ :: segs, by rw [segments, hres, hsegs]; rfl,
            .fill hraw hw hvalue⟩
        · exact .inr ⟨e', by rw [segments, hres, he]; rfl⟩
      · exact .inr ⟨e', by rw [segments, he]; rfl⟩
    | unterminated => exact hp.elim

theorem expand_simple_of_resolve (ht : Simple t)
    (hresolve : ∀ ref, .reference ref ∈ pieces t →
      (∃ raw w, vars.get? ref.body = some raw ∧ Substituted vars (pieces raw) w ∧
        resolve vars debug depth trace ref = .done w) ∨
      ∃ e, resolve vars debug depth trace ref = .failed e) :
    (∃ v, expand vars debug depth trace t = .done v ∧ Substituted vars (pieces t) v) ∨
      ∃ e, expand vars debug depth trace t = .failed e := by
  rw [expand, expandSegments, expandWith]
  rcases segments_simple ht hresolve with ⟨segs, hsegs, hvalue⟩ | ⟨e, he⟩
  · exact .inl ⟨_, by rw [hsegs]; rfl, hvalue⟩
  · exact .inr ⟨e, by rw [he]; rfl⟩

/-- Where all texts are simple, expanding one asks nothing. It ends with the text in which every
reference is substituted, or it fails. -/
theorem expand_simple (hvars : ∀ e ∈ vars.entries, Simple e.2) (ht : Simple t) :
    (∃ v, expand vars debug depth trace t = .done v ∧ Substituted vars (pieces t) v) ∨
      ∃ e, expand vars debug depth trace t = .failed e := by
  induction depth generalizing t trace with
  | zero => exact expand_simple_of_resolve ht fun ref _ => .inr ⟨_, rfl⟩
  | succ depth ih =>
    refine expand_simple_of_resolve ht fun ref href => ?_
    have hname : IsName ref.body := ht _ href
    rw [resolve_of_isName hname]
    cases hraw : vars.get? ref.body with
    | none => exact .inr ⟨_, rfl⟩
    | some raw =>
      have hsimple : Simple raw := hvars _ (NameMap.get?_eq_some_iff.1 hraw)
      rcases ih hsimple with ⟨w, hw, hvalue⟩ | he
      · exact .inl ⟨raw, w, rfl, hvalue, hw⟩
      · exact .inr he

end Derivation

/-- Where the line and all raw texts are simple, the line has a value exactly if every name that it
reaches is defined and no chain of references that starts in it is longer than the limit. The value
is then the line with every reference substituted; otherwise deriving the line fails, and it always
does where a chain comes back to one of its names. -/
theorem derive_simple_iff (hvars : ∀ e ∈ vars.entries, Simple e.2) (ht : Simple t) :
    ((∃ v, derive vars debug t = .done v) ↔
      (∀ name, Reaches vars t name → name ∈ vars.names) ∧
        ∀ names, ReferenceChain vars t names → names.length ≤ depthLimit) ∧
    (∀ v, derive vars debug t = .done v → Substituted vars (pieces t) v) ∧
    ((¬∃ v, derive vars debug t = .done v) → ∃ e, derive vars debug t = .failed e) ∧
    ∀ before name between, ReferenceChain vars t (before ++ name :: (between ++ [name])) →
      ∃ e, derive vars debug t = .failed e := by
  have hvalue : (∃ v, derive vars debug t = .done v ∧ Substituted vars (pieces t) v) ∨
      ∃ e, derive vars debug t = .failed e := Derivation.expand_simple hvars ht
  have hiff : (∃ v, derive vars debug t = .done v) ↔
      (∀ name, Reaches vars t name → name ∈ vars.names) ∧
        ∀ names, ReferenceChain vars t names → names.length ≤ depthLimit := by
    rw [derive, Derivation.exists_expand_iff hvars ht]
    constructor
    · intro h
      refine ⟨?_, fun names H => (h names H).1⟩
      rintro name ⟨names, H, hmem⟩
      exact (h names H).2 name hmem
    · rintro ⟨hdefined, hlimit⟩ names H
      exact ⟨hlimit names H, fun name hmem => hdefined name ⟨names, H, hmem⟩⟩
  have hfails : (¬∃ v, derive vars debug t = .done v) → ∃ e, derive vars debug t = .failed e := by
    intro hnone
    rcases hvalue with ⟨v, hv, -⟩ | he
    · exact absurd ⟨v, hv⟩ hnone
    · exact he
  refine ⟨hiff, fun v hv => ?_, hfails, fun before name between H => hfails fun hv => ?_⟩
  · rcases hvalue with ⟨v', hv', hsubst⟩ | ⟨e, he⟩
    · cases hv.symm.trans hv'
      exact hsubst
    · cases hv.symm.trans he
  · obtain ⟨names, Hnames, hle⟩ := H.exists_le_length (depthLimit + 1)
    have hlimit := (hiff.1 hv).2 names Hnames
    omega

/-- Two variables that stand for each other. -/
def henAndEgg : Variables :=
  NameMap.ofPairs [("HEN", "from ${EGG}"), ("EGG", "$$1 by $(HEN)")]

theorem derive_simple_iff_hen_and_egg :
    (∀ e ∈ henAndEgg.entries, Simple e.2) ∧ Simple "an $(EGG)" ∧
      ∃ e, derive henAndEgg false "an $(EGG)" = .failed e := by
  have hvars : ∀ e ∈ henAndEgg.entries, Simple e.2 := by decide +kernel
  have hline : Simple "an $(EGG)" := by decide +kernel
  refine ⟨hvars, hline, (derive_simple_iff hvars hline).2.2.2 [] "EGG" ["HEN"] ?_⟩
  have hegg : .reference ⟨.round, "EGG"⟩ ∈ pieces "an $(EGG)" := by decide +kernel
  have hhen : .reference ⟨.round, "HEN"⟩ ∈ pieces "$$1 by $(HEN)" := by decide +kernel
  have hegg' : .reference ⟨.curly, "EGG"⟩ ∈ pieces "from ${EGG}" := by decide +kernel
  exact .cons hegg rfl (.cons hhen rfl (.single hegg'))

/-- So many variables, each of which stands for the next one. -/
def ladder (n : Nat) : Variables :=
  NameMap.ofPairs <| (List.range n).map fun i =>
    ("V" ++ Text.ofNat i, if i + 1 = n then "top" else "$(V" ++ Text.ofNat (i + 1) ++ ")")

-- The limit lies between 32 and 33 references inside one another.
example : derive (ladder 32) false "$(V0)" = .done "top" ∧
    (Simple "$(V0)" ∧ ∀ e ∈ (ladder 33).entries, Simple e.2) ∧
      derive (ladder 33) false "$(V0)" ≠ .done "top" := by
  decide +kernel

end Haybuild
