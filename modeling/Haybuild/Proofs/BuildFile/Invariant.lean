import Haybuild.Proofs.BuildFile.Step
import Haybuild.Proofs.NameMap

/-!
# What every line keeps

Reading lines only adds: names behind the names, recipes behind the recipes, and one command at a
time to the recipe that is open, which is the last one. A file that is included keeps to that as
well, and whatever stops it, it leaves no recipe open (`keepsContext_processFile`, by induction on
how deep files may include one another). `processLine_keeps` says it of every line, read after any
other lines, failed ones among them.
-/

namespace Haybuild

theorem Variables.names_prefix_assign (v : Variables) (names : List Text) (value : Text) :
    NameMap.names v <+: NameMap.names (v.assign names value) := by
  induction names generalizing v with
  | nil => exact List.prefix_rfl
  | cons name names ih => exact (v.names_prefix_set name value).trans (ih (v.set name value))

namespace BuildFile

variable {σ : Type}

namespace Context

variable {base ctx ctx' : Context}

theorem names_prefix_assignSides (v : Variables) :
    ∀ sides : List Text, NameMap.names v <+: NameMap.names (assignSides v sides)
  | [] | [_] => List.prefix_rfl
  | _ :: names :: r =>
    (v.names_prefix_assign _ _).trans (names_prefix_assignSides _ (names :: r))

/-- No recipe is open, and shell lines are not dropped. -/
def Closed (ctx : Context) : Prop :=
  ctx.openRecipe = none ∧ ctx.skipping = false

/-- The open recipe is the last one, and none is open while shell lines are dropped. -/
structure Steady (ctx : Context) : Prop where
  open_last : ∀ i, ctx.openRecipe = some i → i + 1 = ctx.recipes.length
  not_open : ctx.skipping = true → ctx.openRecipe = none

theorem Closed.steady (H : ctx.Closed) : ctx.Steady where
  open_last i hi := by simp [H.1] at hi
  not_open _ := H.1

/-- The second context holds what the first one holds, with new names and recipes behind, and the
recipe that is open is a new one. -/
structure Extends (base ctx : Context) : Prop where
  filename : ctx.filename = base.filename
  includeStack : ctx.includeStack = base.includeStack
  names : base.vars.names <+: ctx.vars.names
  recipes : base.recipes <+: ctx.recipes
  opened : ∀ i, ctx.openRecipe = some i → base.recipes.length ≤ i

/-- What one line does: it adds new recipes or one command to the open recipe. -/
structure Advances (ctx ctx' : Context) : Prop where
  filename : ctx'.filename = ctx.filename
  includeStack : ctx'.includeStack = ctx.includeStack
  names : ctx.vars.names <+: ctx'.vars.names
  recipes : (∃ new, ctx'.recipes = ctx.recipes ++ new) ∨
    ∃ i c, ctx.openRecipe = some i ∧ ctx'.recipes = ctx.recipes.modify i (·.addCommand c)
  opened : ∀ i, ctx'.openRecipe = some i → ctx.openRecipe = some i ∨ ctx.recipes.length ≤ i

theorem Extends.of_closed (H : ctx.Closed) : ctx.Extends ctx where
  filename := rfl
  includeStack := rfl
  names := List.prefix_rfl
  recipes := List.prefix_rfl
  opened i hi := by simp [H.1] at hi

theorem Extends.trans (H : base.Extends ctx) (H' : ctx.Extends ctx') : base.Extends ctx' where
  filename := H'.filename.trans H.filename
  includeStack := H'.includeStack.trans H.includeStack
  names := H.names.trans H'.names
  recipes := H.recipes.trans H'.recipes
  opened i hi := H.recipes.length_le.trans (H'.opened i hi)

theorem Advances.refl (ctx : Context) : ctx.Advances ctx where
  filename := rfl
  includeStack := rfl
  names := List.prefix_rfl
  recipes := .inl ⟨[], (List.append_nil _).symm⟩
  opened _ := .inl

/-- A line that leaves the block of the open recipe only adds to what there was. -/
theorem Advances.of_extends (H : ctx.closeRecipe.Extends ctx') : ctx.Advances ctx' where
  filename := H.filename
  includeStack := H.includeStack
  names := H.names
  recipes := by
    obtain ⟨new, hnew⟩ := H.recipes
    exact .inl ⟨new, hnew.symm⟩
  opened i hi := .inr (H.opened i hi)

theorem Advances.addCommand {i : Nat} (hopen : ctx.openRecipe = some i) (c : Command) :
    ctx.Advances (ctx.addCommand i c) where
  filename := rfl
  includeStack := rfl
  names := List.prefix_rfl
  recipes := .inr ⟨i, c, hopen, rfl⟩
  opened _ := .inl

/-- The recipes that were there before the open one stay as they are. -/
theorem Extends.advances (H : base.Extends ctx) (H' : ctx.Advances ctx') : base.Extends ctx' where
  filename := H'.filename.trans H.filename
  includeStack := H'.includeStack.trans H.includeStack
  names := H.names.trans H'.names
  recipes := by
    rcases H'.recipes with ⟨new, hnew⟩ | ⟨i, c, hi, hmodify⟩
    · exact hnew ▸ H.recipes.trans (List.prefix_append _ _)
    · rw [hmodify, List.modify_eq_take_drop]
      exact (List.prefix_take_iff.2 ⟨H.recipes, H.opened i hi⟩).trans (List.prefix_append _ _)
  opened i hi := (H'.opened i hi).elim (H.opened i) H.recipes.length_le.trans

theorem closed_closeRecipe (ctx : Context) : ctx.closeRecipe.Closed := ⟨rfl, rfl⟩

theorem Steady.addCommand (H : ctx.Steady) (i : Nat) (c : Command) :
    (ctx.addCommand i c).Steady where
  open_last j hj := by simpa [Context.addCommand] using H.open_last j hj
  not_open := H.not_open

theorem closed_assignLine (H : ctx.Closed) (content : Text) : (ctx.assignLine content).Closed := H

theorem extends_assignLine (H : ctx.Closed) (content : Text) :
    ctx.Extends (ctx.assignLine content) :=
  { Extends.of_closed H with names := names_prefix_assignSides _ _ }

theorem extends_addRecipe (ctx : Context) (r : Recipe) : ctx.Extends (ctx.addRecipe r) where
  filename := rfl
  includeStack := rfl
  names := List.prefix_rfl
  recipes := List.prefix_append _ _
  opened _ hi := Nat.le_of_eq (Option.some.inj hi)

theorem steady_addRecipe (H : ctx.Closed) (r : Recipe) : (ctx.addRecipe r).Steady where
  open_last i hi := by
    cases hi
    simp [addRecipe]
  not_open hskip := absurd (H.2.symm.trans hskip) (by decide)

end Context

variable {h : Host σ} {readFile : Text → Loading σ → Outcome σ} {source : Text} {number : Nat}
  {st : Loading σ}

/-- Reading a file only adds to the context, and leaves no recipe open even if it is stopped. -/
def KeepsContext (readFile : Text → Loading σ → Outcome σ) : Prop :=
  ∀ path st, st.context.Closed →
    st.context.Extends (readFile path st).1.context ∧ (readFile path st).1.context.Closed

/-! ## One line -/

theorem keepsContext_includeAll (hfile : KeepsContext readFile) (h : Host σ) (r : Reading)
    (derived : Text) (pieces : List Text.Slice) (hst : st.context.Closed) :
    st.context.Extends (includeAll h readFile r derived pieces st).1.context ∧
      (includeAll h readFile r derived pieces st).1.context.Closed := by
  induction pieces generalizing st with
  | nil => exact ⟨.of_closed hst, hst⟩
  | cons piece pieces ih =>
    rw [includeAll]
    cases includeProblem? h st (Text.unquote "'" piece.text) with
    | none =>
      have hread := hfile (Text.unquote "'" piece.text) st hst
      dsimp only
      generalize readFile (Text.unquote "'" piece.text) st = out at hread ⊢
      obtain ⟨st', stop⟩ := out
      obtain ⟨hext, hclosed⟩ := hread
      cases stop with
      | none =>
        obtain ⟨hext', hclosed'⟩ := ih hclosed
        exact ⟨hext.trans hext', hclosed'⟩
      | some halt => exact ⟨hext, hclosed⟩
    | some message =>
      dsimp only [Loading.reportOrStop]
      generalize r.includeDiagnostic st.context.filename derived message piece.offset = d
      cases r.line.neglect with
      | true => exact @ih { st with reports := st.reports ++ [d] } hst
      | false => exact ⟨.of_closed hst, hst⟩

/-- A line takes a steady context to a steady one, and closes it if it stops. -/
theorem LineStep.advances (hfile : KeepsContext readFile) (H : st.context.Steady)
    {kind : LineKind} {out : Outcome σ} (hstep : LineStep h readFile source number st kind out) :
    st.context.Advances out.1.context ∧ out.1.context.Steady ∧
      (out.2.isSome → out.1.context.Closed) := by
  have hclosed := st.context.closed_closeRecipe
  have hextends := Context.Extends.of_closed hclosed
  cases hstep with
  | blank | dropped => exact ⟨.refl _, H, nofun⟩
  | command _ hopen => exact ⟨.addCommand hopen _, H.addCommand _ _, nofun⟩
  | stray _ hopen hskip => exact ⟨.refl _, H, fun _ => ⟨hopen, hskip⟩⟩
  | assignment =>
    exact ⟨.of_extends (Context.extends_assignLine hclosed _),
      (Context.closed_assignLine hclosed _).steady, nofun⟩
  | @inclusion derived s =>
    have hderived : (st.derived s).context.Closed := hclosed
    obtain ⟨hext, hclosed'⟩ := keepsContext_includeAll hfile h _ _ _ hderived
    exact ⟨.of_extends hext, hclosed'.steady, fun _ => hclosed'⟩
  | nothing => exact ⟨.of_extends hextends, hclosed.steady, nofun⟩
  | rule =>
    exact ⟨.of_extends (Context.extends_addRecipe _ _), Context.steady_addRecipe hclosed _, nofun⟩
  | neglected =>
    exact ⟨.of_extends { hextends with }, { hclosed.steady with not_open := fun _ => rfl }, nofun⟩
  | malformed | underivable | faulted =>
    exact ⟨.of_extends hextends, hclosed.steady, fun _ => hclosed⟩

/-! ## Files -/

/-- Lines read up to the first that stops add to what the file started with. -/
theorem extends_processLines (hfile : KeepsContext readFile) (h : Host σ) (lines : List Text)
    (number : Nat) {base : Context} (hbase : base.Extends st.context) (H : st.context.Steady) :
    let out := processLines h readFile number lines st
    base.Extends out.1.context ∧ (out.2.isSome → out.1.context.Closed) := by
  induction lines generalizing number st with
  | nil => exact ⟨hbase, nofun⟩
  | cons source lines ih =>
    have hline := (lineStep h readFile source number st).advances hfile H
    rw [processLines]
    generalize processLine h readFile source number st = out at hline ⊢
    obtain ⟨st', stop⟩ := out
    obtain ⟨hadvances, hsteady, hstop⟩ := hline
    cases stop with
    | none => exact ih (number + 1) (hbase.advances hadvances) hsteady
    | some halt => exact ⟨hbase.advances hadvances, hstop⟩

/-- The file that includes another one is read again as it was. -/
theorem leaveFile_keeps {outer : Context} {filename path : Text} {out : Outcome σ}
    (H : Context.Extends
        { outer with filename, includeStack := outer.includeStack ++ [path] } out.1.context ∧
      (out.2.isSome → out.1.context.Closed)) :
    outer.Extends (leaveFile outer.filename out).1.context ∧
      (leaveFile outer.filename out).1.context.Closed := by
  obtain ⟨st, stop⟩ := out
  obtain ⟨hext, hstop⟩ := H
  have hstack : st.context.includeStack.dropLast = outer.includeStack :=
    (congrArg List.dropLast hext.includeStack).trans List.dropLast_concat
  cases stop with
  | none =>
    exact ⟨⟨rfl, hstack, hext.names, hext.recipes, nofun⟩, rfl, rfl⟩
  | some halt =>
    exact ⟨⟨rfl, hstack, hext.names, hext.recipes, hext.opened⟩, hstop rfl⟩

theorem keepsContext_processFile (h : Host σ) (depth : Nat) :
    KeepsContext (processFile h depth) := by
  induction depth with
  | zero => exact fun path st hst => ⟨.of_closed hst, hst⟩
  | succ depth ih =>
    intro path st hst
    rw [processFile]
    cases h.readText st.host (Path.display path) with
    | error fault => exact ⟨.of_closed hst, hst⟩
    | ok source =>
      exact leaveFile_keeps
        (extends_processLines ih h _ _ (.of_closed hst) (Context.Closed.steady hst))

/-! ## All lines -/

/-- The state after lines, each with its number, where reading goes on after a line that stops. -/
def readThrough (h : Host σ) (readFile : Text → Loading σ → Outcome σ) (st : Loading σ)
    (lines : List (Text × Nat)) : Loading σ :=
  lines.foldl (fun st line => (processLine h readFile line.1 line.2 st).1) st

theorem readThrough_steady (hfile : KeepsContext readFile) (h : Host σ)
    (lines : List (Text × Nat)) (H : st.context.Steady) :
    let ctx := (readThrough h readFile st lines).context
    ctx.Steady ∧ ctx.filename = st.context.filename ∧
      ctx.includeStack = st.context.includeStack := by
  induction lines generalizing st with
  | nil => exact ⟨H, rfl, rfl⟩
  | cons line lines ih =>
    obtain ⟨hadvances, hsteady, -⟩ := (lineStep h readFile line.1 line.2 st).advances hfile H
    obtain ⟨hsteady', hfilename, hstack⟩ := ih hsteady
    exact ⟨hsteady', hfilename.trans hadvances.filename, hstack.trans hadvances.includeStack⟩

/-- After every line, whatever lines were read before it and whether they stopped or not, the name
of the file and the stack of included files are those of the start. The recipe that is open is the
last one, none is open while shell lines are dropped, and after a line that stops none is open and
none are dropped. The line appended new recipes, or one command to the open recipe, and kept the
names of the variables and their order. -/
theorem processLine_keeps (h : Host σ) (depth : Nat) (filename : Text) (s : σ)
    (lines : List (Text × Nat)) (source : Text) (number : Nat) :
    let before := readThrough h (processFile h depth) (.start filename s) lines
    let (after, stop) := processLine h (processFile h depth) source number before
    after.context.filename = filename ∧ after.context.includeStack = [] ∧
      (after.context.openRecipe = none ∨
        ∃ i, after.context.openRecipe = some i ∧ i + 1 = after.context.recipes.length) ∧
      (after.context.skipping = true → after.context.openRecipe = none) ∧
      (stop.isSome → after.context.openRecipe = none ∧ after.context.skipping = false) ∧
      ((∃ new, after.context.recipes = before.context.recipes ++ new) ∨
        ∃ i c, before.context.openRecipe = some i ∧
          after.context.recipes = before.context.recipes.modify i (·.addCommand c)) ∧
      before.context.vars.names <+: after.context.vars.names := by
  intro before
  have hfile := keepsContext_processFile h depth
  have hstart : (Loading.start filename s).context.Closed := ⟨rfl, rfl⟩
  obtain ⟨hsteady, hfilename, hstack⟩ := readThrough_steady hfile h lines hstart.steady
  have hline := (lineStep h (processFile h depth) source number before).advances hfile hsteady
  generalize processLine h (processFile h depth) source number before = out at hline ⊢
  obtain ⟨after, stop⟩ := out
  obtain ⟨hadvances, hsteady', hstop⟩ := hline
  refine ⟨hadvances.filename.trans hfilename, hadvances.includeStack.trans hstack, ?_,
    hsteady'.not_open, hstop, hadvances.recipes, hadvances.names⟩
  cases hopen : after.context.openRecipe with
  | none => exact .inl rfl
  | some i => exact .inr ⟨i, rfl, hsteady'.open_last i hopen⟩

end BuildFile

end Haybuild
