import Haybuild.Derivation.Expand
import Mathlib.Data.List.Forall2

/-!
# Values of derivations

What it takes for a derivation to end with a value without a question on its way: each reference of
the text has a value of its own (`expandSegments_eq_done_iff`), be it that of a call
(`Builtin.call_eq_done_iff`) or that of a variable (`resolve_eq_done_iff`). With answers for the
questions, the value of a text and its spans are read off one list of segments (`eval_derive`,
`eval_deriveSpans`).
-/

namespace Haybuild

variable {α β : Type}

theorem exists_of_forall₂_of_mem {r : α → β → Prop} {as : List α} {bs : List β} {b : β}
    (h : List.Forall₂ r as bs) (hb : b ∈ bs) : ∃ a ∈ as, r a b := by
  induction h with
  | nil => cases hb
  | cons hab _ ih =>
    rcases List.mem_cons.1 hb with rfl | hb
    · exact ⟨_, List.mem_cons_self, hab⟩
    · obtain ⟨a, ha, h⟩ := ih hb
      exact ⟨a, .tail _ ha, h⟩

/-- Whether a derivation ends with a value at once can be computed. -/
instance [DecidableEq α] (d : Derivation α) (a : α) : Decidable (d = .done a) :=
  match d with
  | .done b => decidable_of_iff (b = a) (by simp)
  | .failed _ | .shell _ _ | .wildcard _ _ => isFalse (by simp)

theorem Derivation.bind_eq_done_iff {d : Derivation α} {f : α → Derivation β} {b : β} :
    d.bind f = .done b ↔ ∃ a, d = .done a ∧ f a = .done b := by
  cases d <;> simp

theorem Derivation.ite_failed_eq_done_iff {p : Prop} [Decidable p] {e : Error} {d : Derivation α}
    {a : α} : (if p then failed e else d) = done a ↔ ¬p ∧ d = done a := by
  by_cases h : p <;> simp [h]

namespace Builtin

variable {b : Builtin} {expand expand' : Text → Derivation Text} {reference v : Text}
  {args values : List Text} {e : Derivation.Fault → Derivation.Error}

theorem deriveAll_eq_done_iff :
    deriveAll expand args = .done values ↔
      List.Forall₂ (fun a value => expand a = .done value) args values := by
  induction args generalizing values with
  | nil => simp [deriveAll, eq_comm]
  | cons a args ih =>
    simp only [deriveAll, Derivation.bind_eq, Derivation.bind_eq_done_iff, ih, Derivation.pure_eq,
      Derivation.done.injEq, List.forall₂_cons_left_iff]
    simp only [← exists_and_left, eq_comm]

/-- The branch that `if` takes for a condition whose value is blank or not. -/
def chosen? (blank : Bool) (branches : List Text) : Option Text :=
  if blank then
    match branches with
    | _ :: otherwise :: rest => some (Text.join "," (otherwise :: rest))
    | _ => none
  else branches.head?

theorem branch_cons (condition : Text) (branches : List Text) :
    branch expand (condition :: branches) = (expand condition).bind fun value =>
      ((chosen? (Text.blank value) branches).map expand).getD (.done []) := by
  refine congrArg ((expand condition).bind ·) (funext fun value => ?_)
  cases Text.blank value <;> rcases branches with - | ⟨_, - | ⟨_, _⟩⟩ <;> rfl

theorem branch_eq_done_iff :
    branch expand args = .done v ↔ args = [] ∧ v = [] ∨
      ∃ condition branches value, args = condition :: branches ∧
        expand condition = .done value ∧
        ((∃ a, chosen? (Text.blank value) branches = some a ∧ expand a = .done v) ∨
          chosen? (Text.blank value) branches = none ∧ v = []) := by
  cases args with
  | nil => simp [branch, eq_comm]
  | cons condition branches =>
    simp only [branch_cons, Derivation.bind_eq_done_iff, reduceCtorEq, false_and, false_or,
      List.cons.injEq]
    constructor
    · rintro ⟨value, hvalue, h⟩
      refine ⟨condition, branches, value, ⟨rfl, rfl⟩, hvalue, ?_⟩
      cases hc : chosen? (Text.blank value) branches with
      | none =>
        rw [hc] at h
        cases h
        exact .inr ⟨rfl, rfl⟩
      | some a =>
        rw [hc] at h
        exact .inl ⟨a, rfl, h⟩
    · rintro ⟨_, _, value, ⟨rfl, rfl⟩, hvalue, ⟨a, hc, h⟩ | ⟨hc, rfl⟩⟩
      · exact ⟨value, hvalue, by rw [hc]; exact h⟩
      · exact ⟨value, hvalue, by rw [hc]; rfl⟩

theorem call_of_arity? {n : Nat} {fail : Derivation.Fault → Derivation Text}
    (hn : b.arity? = some n) :
    b.call expand fail reference args =
      if args.length < n then fail (.tooFewArguments reference n args.length)
      else (deriveAll expand (soakUp n args)).bind b.apply := by
  cases b <;> cases hn <;> rfl

theorem eq_of_arity?_eq_none (hb : b.arity? = none) : b = .cond ∨ b = .shell := by
  cases b <;> simp [arity?] at hb ⊢

/-- A call has a value if it is an `if` whose condition and branch have one, or a call of fixed
arity that has arguments enough, all with values. -/
theorem call_eq_done_iff :
    b.call expand (fun fault => .failed (e fault)) reference args = .done v ↔
      b = .cond ∧ branch expand args = .done v ∨
      ∃ n values, b.arity? = some n ∧ n ≤ args.length ∧
        List.Forall₂ (fun a value => expand a = .done value) (soakUp n args) values ∧
        b.apply values = .done v := by
  cases hn : b.arity? with
  | none =>
    rcases eq_of_arity?_eq_none hn with rfl | rfl
    · simp [call]
    · simp [call, Derivation.bind_eq_done_iff]
  | some n =>
    have hcond : b ≠ .cond := by
      rintro rfl
      cases hn
    rw [call_of_arity? hn, Derivation.ite_failed_eq_done_iff, Derivation.bind_eq_done_iff]
    simp [hcond, deriveAll_eq_done_iff]

end Builtin

namespace Derivation

variable {vars : Variables} {debug : Bool} {depth : Nat} {trace : List Text} {ref : Reference}
  {t v : Text} {segs : List Segment}

/-- The segment holds the value of its piece, where `resolve` gives the values of references. -/
def Fills (resolve : Reference → Derivation Text) (s : Segment) : Prop :=
  match s.piece with
  | .literal c => s.value = [c]
  | .pair => s.value = ['$', '$']
  | .reference ref => resolve ref = .done s.value
  | .unterminated _ _ => False

theorem segments_eq_done_iff {resolve : Reference → Derivation Text} {e : Fault → Text → Error}
    {ps : List Piece} :
    segments resolve (fun fault written => .failed (e fault written)) ps = .done segs ↔
      segs.map Segment.piece = ps ∧ ∀ s ∈ segs, Fills resolve s := by
  induction ps generalizing segs with
  | nil =>
    rw [segments]
    cases segs <;> simp
  | cons p ps ih =>
    have hcons : ∀ value, (∃ rest, (rest.map Segment.piece = ps ∧ ∀ s ∈ rest, Fills resolve s) ∧
        ⟨p, value⟩ :: rest = segs) ∧ Fills resolve ⟨p, value⟩ →
        segs.map Segment.piece = p :: ps ∧ ∀ s ∈ segs, Fills resolve s := by
      rintro value ⟨⟨rest, ⟨rfl, hrest⟩, rfl⟩, hp⟩
      exact ⟨rfl, List.forall_mem_cons.2 ⟨hp, hrest⟩⟩
    have huncons : segs.map Segment.piece = p :: ps ∧ (∀ s ∈ segs, Fills resolve s) →
        ∃ value, (∃ rest, (rest.map Segment.piece = ps ∧ ∀ s ∈ rest, Fills resolve s) ∧
          ⟨p, value⟩ :: rest = segs) ∧ Fills resolve ⟨p, value⟩ := by
      rintro ⟨hmap, hfills⟩
      obtain ⟨⟨_, value⟩, rest, rfl, rfl, rfl⟩ := List.map_eq_cons_iff.1 hmap
      obtain ⟨hp, hrest⟩ := List.forall_mem_cons.1 hfills
      exact ⟨value, ⟨rest, ⟨rfl, hrest⟩, rfl⟩, hp⟩
    cases p with
    | literal c | pair =>
      simp only [segments, bind_eq, bind_eq_done_iff, ih, pure_eq, done.injEq]
      constructor
      · exact fun h => hcons _ ⟨h, rfl⟩
      · intro h
        obtain ⟨value, hrest, hvalue⟩ := huncons h
        cases (hvalue : value = _)
        exact hrest
    | reference ref =>
      simp only [segments, bind_eq, bind_eq_done_iff, ih, pure_eq, done.injEq]
      constructor
      · rintro ⟨value, hvalue, hrest⟩
        exact hcons value ⟨hrest, hvalue⟩
      · intro h
        obtain ⟨value, hrest, hvalue⟩ := huncons h
        exact ⟨value, hvalue, hrest⟩
    | unterminated b rest =>
      simp only [segments, reduceCtorEq, false_iff]
      intro h
      obtain ⟨value, -, hvalue⟩ := huncons h
      exact hvalue

/-- A text has a value if its pieces have one each. -/
theorem expandSegments_eq_done_iff :
    expandSegments vars debug depth trace t = .done segs ↔
      segs.map Segment.piece = pieces t ∧ ∀ s ∈ segs, Fills (resolve vars debug depth trace) s :=
  segments_eq_done_iff

theorem expand_eq_done_iff :
    expand vars debug depth trace t = .done v ↔
      ∃ segs, expandSegments vars debug depth trace t = .done segs ∧ Segment.valueOf segs = v := by
  simp [expand, bind_eq_done_iff]

/-- Where a reference is one piece, its text is expanded by resolving it. -/
theorem expand_reference (h : pieces ref.source = [.reference ref]) :
    expand vars debug depth trace ref.source = resolve vars debug depth trace ref := by
  rw [expand, expandSegments, expandWith, h, segments, segments]
  simp [bind_assoc, Segment.valueOf]

/-- A reference has a value if it is a call that has one, or its derived body names a variable whose
raw text has one. -/
theorem resolve_eq_done_iff :
    resolve vars debug (depth + 1) trace ref = .done v ↔
      (∃ b args, Builtin.ofBody? ref.body = some (b, args) ∧
        b.call (expand vars debug depth (trace ++ [ref.source]))
          (fun fault => .failed ⟨fault, ref.source, trace ++ [ref.source], debug⟩) ref.source
          (Builtin.arguments args) = .done v) ∨
      Builtin.ofBody? ref.body = none ∧ ∃ body raw,
        expand vars debug depth trace ref.body = .done body ∧
        vars.get? (Text.trim body) = some raw ∧
        expand vars debug depth (trace ++ [ref.source]) raw = .done v := by
  rw [resolve]
  cases hb : Builtin.ofBody? ref.body with
  | some call =>
    obtain ⟨b, args⟩ := call
    simp only [Option.some.injEq, Prod.mk.injEq, reduceCtorEq, false_and, or_false]
    constructor
    · exact fun h => ⟨b, args, ⟨rfl, rfl⟩, h⟩
    · rintro ⟨_, _, ⟨rfl, rfl⟩, h⟩
      exact h
  | none =>
    simp only [reduceCtorEq, false_and, exists_false, false_or, true_and, bind_eq, bind_eq_done_iff]
    refine exists_congr fun body => ?_
    cases vars.get? (Text.trim body) <;> simp [expand, expandSegments, bind_eq_done_iff]

end Derivation

/-! ## The outcome for given answers -/

variable {answers : Derivation.Answers} {vars : Variables} {debug : Bool} {t : Text}

theorem eval_derive : (derive vars debug t).eval answers =
    ((Derivation.expandSegments vars debug depthLimit [] t).eval answers).map
      Segment.valueOf := by
  rw [derive, Derivation.expand, Derivation.bind_eq, Derivation.eval_bind]
  cases (Derivation.expandSegments vars debug depthLimit [] t).eval answers <;> rfl

theorem eval_deriveSpans : (deriveSpans vars debug t).eval answers =
    ((Derivation.expandSegments vars debug depthLimit [] t).eval answers).map
      fun segs => (Segment.valueOf segs, Segment.spansFrom 0 segs) := by
  rw [deriveSpans, Derivation.bind_eq, Derivation.eval_bind]
  cases (Derivation.expandSegments vars debug depthLimit [] t).eval answers <;> rfl

theorem eval_deriveSpans_eq_ok_iff {v : Text} {spans : List Span} :
    (deriveSpans vars debug t).eval answers = .ok (v, spans) ↔
      ∃ segs, (Derivation.expandSegments vars debug depthLimit [] t).eval answers = .ok segs ∧
        v = Segment.valueOf segs ∧ spans = Segment.spansFrom 0 segs := by
  rw [eval_deriveSpans]
  cases (Derivation.expandSegments vars debug depthLimit [] t).eval answers <;>
    simp [Except.map, eq_comm]

/-- With and without its spans a text has the same value. -/
theorem eval_derive_of_deriveSpans {v : Text} {spans : List Span}
    (h : (deriveSpans vars debug t).eval answers = .ok (v, spans)) :
    (derive vars debug t).eval answers = .ok v := by
  obtain ⟨segs, hsegs, rfl, -⟩ := eval_deriveSpans_eq_ok_iff.1 h
  rw [eval_derive, hsegs]
  rfl

theorem eval_deriveSpans_eq_error_iff {e : Derivation.Error} :
    (deriveSpans vars debug t).eval answers = .error e ↔
      (Derivation.expandSegments vars debug depthLimit [] t).eval answers = .error e := by
  rw [eval_deriveSpans]
  cases (Derivation.expandSegments vars debug depthLimit [] t).eval answers <;> simp [Except.map]

end Haybuild
