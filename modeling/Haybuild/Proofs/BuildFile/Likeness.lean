import Haybuild.Proofs.BuildFile.Moment
import Haybuild.Proofs.Derivation.DebugMode

/-!
# Runs that differ in what is forgotten

Two runs over lines that differ in their numbers or their markers leave states that differ in the
places and texts kept for messages. A `Blur` says what of those is forgotten, and
`Outcome.Alike` that two outcomes are the same apart from it. Lines that are twins under a blur
keep states alike (`alike_processLines`), with all the files that they include: neither the way a
line is read nor the files that are read depend on what is forgotten.

The files being read may also differ, in files that no include line asks for.
-/

namespace Haybuild

namespace BuildFile

variable {σ : Type}

/-- What is kept of the names of files, of commands and of diagnostics. -/
structure Blur where
  filename : Text → Text
  command : Command → Command
  diagnostic : Diagnostic → Diagnostic
  command_congr (c : Command) {f f' : Text} : filename f = filename f' →
    command { c with filename := f } = command { c with filename := f' }
  diagnostic_congr (d : Diagnostic) {f f' : Text} : filename f = filename f' →
    diagnostic { d with filename := f } = diagnostic { d with filename := f' }

namespace Blur

/-- What is kept of a recipe. -/
def recipe (b : Blur) (r : Recipe) : Recipe :=
  { r with commands := r.commands.map b.command }

/-- What is kept of what stops a build. -/
def halt (b : Blur) : Halt → Halt
  | .error (.diagnostic d) => .error (.diagnostic (b.diagnostic d))
  | halt => halt

end Blur

/-- What may differ between two runs: what a blur forgets, hidden files among those being read, and
the diagnostics that were reported before. -/
structure Contrast extends Blur where
  hidden : Text → Prop
  told : List Diagnostic
  told' : List Diagnostic

variable {c : Contrast}

/-- The contexts are the same apart from a contrast. -/
structure Context.Alike (c : Contrast) (ctx ctx' : Context) : Prop where
  filename : c.filename ctx.filename = c.filename ctx'.filename
  vars : ctx.vars = ctx'.vars
  recipes : ctx.recipes.map c.recipe = ctx'.recipes.map c.recipe
  openRecipe : ctx.openRecipe = ctx'.openRecipe
  skipping : ctx.skipping = ctx'.skipping
  stack : ∀ p, ¬c.hidden p → (p ∈ ctx.includeStack ↔ p ∈ ctx'.includeStack)

/-- What the states hold besides their contexts is the same apart from a contrast. -/
structure Loading.AlikeOutside (c : Contrast) (st st' : Loading σ) : Prop where
  host : st.host = st'.host
  reports : ∃ news news', st.reports = c.told ++ news ∧ st'.reports = c.told' ++ news' ∧
    news.map c.diagnostic = news'.map c.diagnostic

/-- The states are the same apart from a contrast. -/
structure Loading.Alike (c : Contrast) (st st' : Loading σ) : Prop
    extends Loading.AlikeOutside c st st' where
  context : st.context.Alike c st'.context

/-- Both runs go on in states that are the same apart from a contrast, or both are stopped by the
same, with the same reports before that. -/
inductive Outcome.Alike (c : Contrast) : Outcome σ → Outcome σ → Prop
  | read {st st' : Loading σ} : st.Alike c st' → Alike c (st, none) (st', none)
  | stopped {st st' : Loading σ} {halt halt' : Halt} : st.AlikeOutside c st' →
      c.halt halt = c.halt halt' → Alike c (st, some halt) (st', some halt')

/-- The contrast of runs that read the same files. -/
def Blur.after (b : Blur) (told told' : List Diagnostic) : Contrast :=
  { b with hidden := fun _ => False, told, told' }

namespace Context.Alike

variable {ctx ctx' : Context}

theorem refl (c : Contrast) (ctx : Context) : ctx.Alike c ctx where
  filename := rfl
  vars := rfl
  recipes := rfl
  openRecipe := rfl
  skipping := rfl
  stack _ _ := Iff.rfl

theorem closeRecipe (H : ctx.Alike c ctx') : ctx.closeRecipe.Alike c ctx'.closeRecipe :=
  { H with openRecipe := rfl, skipping := rfl }

theorem assignLine (H : ctx.Alike c ctx') (content : Text) :
    (ctx.assignLine content).Alike c (ctx'.assignLine content) :=
  { H with vars := by rw [Context.assignLine, Context.assignLine, H.vars] }

theorem addRecipe (H : ctx.Alike c ctx') (r : Recipe) :
    (ctx.addRecipe r).Alike c (ctx'.addRecipe r) where
  filename := H.filename
  vars := H.vars
  recipes := by
    rw [Context.addRecipe, Context.addRecipe, List.map_append, List.map_append, H.recipes]
  openRecipe := by
    have hlength : ctx.recipes.length = ctx'.recipes.length := by
      simpa using congrArg List.length H.recipes
    rw [Context.addRecipe, Context.addRecipe, hlength]
  skipping := H.skipping
  stack := H.stack

theorem skip (H : ctx.Alike c ctx') (skipping : Bool) :
    Context.Alike c { ctx with skipping } { ctx' with skipping } :=
  { H with skipping := rfl }

theorem map_recipe_modify (b : Blur) (i : Nat) (cmd : Command) (rs : List Recipe) :
    (rs.modify i (·.addCommand cmd)).map b.recipe =
      (rs.map b.recipe).modify i (·.addCommand (b.command cmd)) := by
  apply List.ext_getElem?
  intro j
  rw [List.getElem?_map, List.getElem?_modify, List.getElem?_modify, List.getElem?_map]
  cases rs[j]? with
  | none => rfl
  | some r =>
    by_cases hij : i = j
    · simp [hij, Blur.recipe, Recipe.addCommand]
    · simp [hij]

theorem addCommand (H : ctx.Alike c ctx') (i : Nat) {cmd cmd' : Command}
    (hcmd : c.command cmd = c.command cmd') :
    (ctx.addCommand i cmd).Alike c (ctx'.addCommand i cmd') :=
  { H with
    recipes := by
      rw [Context.addCommand, Context.addCommand, map_recipe_modify, map_recipe_modify, H.recipes,
        hcmd] }

end Context.Alike

namespace Loading.Alike

variable {st st' : Loading σ}

theorem of_reports (b : Blur) {ctx ctx' : Context} (s : σ) (told told' : List Diagnostic)
    (hctx : ctx.Alike (b.after told told') ctx') :
    Loading.Alike (b.after told told') ⟨ctx, s, told⟩ ⟨ctx', s, told'⟩ where
  context := hctx
  host := rfl
  reports := ⟨[], [], (List.append_nil told).symm, (List.append_nil told').symm, rfl⟩

theorem start (b : Blur) (filename : Text) (s : σ) :
    (Loading.start filename s).Alike (b.after [] []) (.start filename s) :=
  .of_reports b s [] [] (.refl _ _)

theorem withContext {ctx ctx' : Context} (H : st.Alike c st') (hctx : ctx.Alike c ctx') :
    (st.withContext ctx).Alike c (st'.withContext ctx') :=
  { H with context := hctx }

theorem closed (H : st.Alike c st') : st.closed.Alike c st'.closed :=
  H.withContext H.context.closeRecipe

theorem derived (H : st.Alike c st') (s : σ) : (st.derived s).Alike c (st'.derived s) where
  context := H.context.closeRecipe
  host := rfl
  reports := H.reports

theorem report (H : st.Alike c st') {d d' : Diagnostic} (hd : c.diagnostic d = c.diagnostic d') :
    Loading.Alike c { st with reports := st.reports ++ [d] }
      { st' with reports := st'.reports ++ [d'] } :=
  { H with
    reports := by
      obtain ⟨news, news', hst, hst', hnews⟩ := H.reports
      refine ⟨news ++ [d], news' ++ [d'], ?_, ?_, ?_⟩
      · rw [hst, List.append_assoc]
      · rw [hst', List.append_assoc]
      · rw [List.map_append, List.map_append, hnews, List.map_singleton, List.map_singleton, hd] }

theorem reportOrStop (H : st.Alike c st') {d d' : Diagnostic}
    (hd : c.diagnostic d = c.diagnostic d') (neglect : Bool) :
    Outcome.Alike c (st.reportOrStop d neglect) (st'.reportOrStop d' neglect) := by
  cases neglect with
  | true => exact .read (H.report hd)
  | false => exact .stopped H.toAlikeOutside (by rw [Blur.halt, Blur.halt, hd])

theorem entered (H : st.Alike c st') (h : Host σ) (path : Text) :
    (st.entered h path).Alike c (st'.entered h path) :=
  H.withContext
    { H.context with
      filename := rfl
      stack := fun p hp => by rw [List.mem_append, List.mem_append, H.context.stack p hp] }

end Loading.Alike

namespace Outcome.Alike

variable {o o' : Outcome σ}

theorem closed (H : o.Alike c o') : o.closed.Alike c o'.closed := by
  cases H with
  | read hst => exact .read hst.closed
  | stopped hst hhalt => exact .stopped ⟨hst.host, hst.reports⟩ hhalt

theorem read_left {st : Loading σ} (H : Outcome.Alike c (Outcome.closed (st, none)) o'.closed) :
    ∃ st', o' = (st', none) ∧ st.closed.Alike c st'.closed := by
  obtain ⟨st', _ | halt⟩ := o'
  · cases H with
    | read hst => exact ⟨st', rfl, hst⟩
  · cases H

theorem read_right {st' : Loading σ} (H : o.closed.Alike c (Outcome.closed (st', none))) :
    ∃ st, o = (st, none) ∧ st.closed.Alike c st'.closed := by
  obtain ⟨st, _ | halt⟩ := o
  · cases H with
    | read hst => exact ⟨st, rfl, hst⟩
  · cases H

theorem halt_eq (H : o.Alike c o') : o.2.map c.halt = o'.2.map c.halt := by
  cases H with
  | read => rfl
  | stopped _ hhalt => exact congrArg some hhalt

theorem outside (H : o.Alike c o') : o.1.AlikeOutside c o'.1 := by
  cases H with
  | read hst => exact hst.toAlikeOutside
  | stopped hst => exact hst

theorem state (H : o.Alike c o') (hread : o'.2 = none) : o.1.Alike c o'.1 := by
  cases H with
  | read hst => exact hst
  | stopped => cases hread

theorem andThen {f f' : Loading σ → Outcome σ} (H : o.Alike c o')
    (hf : ∀ st st', o = (st, none) → st.Alike c st' → (f st).Alike c (f' st')) :
    (o.andThen f).Alike c (o'.andThen f') := by
  cases H with
  | read hst => exact hf _ _ rfl hst
  | stopped hst hhalt => exact .stopped hst hhalt

end Outcome.Alike

/-! ## Lines that are twins -/

/-- The lines have one content, and what they leave in commands and diagnostics is the same apart
from what is forgotten. -/
structure Blur.Twins (b : Blur) (source : Text) (number : Nat) (source' : Text) (number' : Nat) :
    Prop where
  blank : Text.blank source = Text.blank source'
  tab : source.head? = some '\t' ↔ source'.head? = some '\t'
  neglect : (Line.ofText source).neglect = (Line.ofText source').neglect
  content : contentOf source = contentOf source'
  command {f f' : Text} : b.filename f = b.filename f' →
    b.command (commandOf f source number) = b.command (commandOf f' source' number')
  stray {f f' : Text} : b.filename f = b.filename f' →
    b.diagnostic (strayDiagnostic f source number) =
      b.diagnostic (strayDiagnostic f' source' number')
  subcall {f f' : Text} {e e' : Derivation.Error} : b.filename f = b.filename f' →
    e.InModes (Line.ofText source).debug (Line.ofText source').debug e' →
    b.diagnostic ((Reading.ofSource source number).subcallDiagnostic f e) =
      b.diagnostic ((Reading.ofSource source' number').subcallDiagnostic f' e')
  inclusion {f f' : Text} (derived message : Text) (offset : Nat) : b.filename f = b.filename f' →
    b.diagnostic ((Reading.ofSource source number).includeDiagnostic f derived message offset) =
      b.diagnostic ((Reading.ofSource source' number').includeDiagnostic f' derived message offset)
  malformed {f f' : Text} (derived : Text) (e : Rule.Fault) : b.filename f = b.filename f' →
    b.diagnostic ((Reading.ofSource source number).ruleDiagnostic f derived e) =
      b.diagnostic ((Reading.ofSource source' number').ruleDiagnostic f' derived e)

theorem Blur.Twins.refl (b : Blur) (source : Text) (number : Nat) :
    b.Twins source number source number where
  blank := rfl
  tab := Iff.rfl
  neglect := rfl
  content := rfl
  command {f _} hf := b.command_congr (commandOf f source number) hf
  stray {f _} hf := b.diagnostic_congr (strayDiagnostic f source number) hf
  subcall {f _ e _} hf he := by
    rw [← he.eq]
    exact b.diagnostic_congr ((Reading.ofSource source number).subcallDiagnostic f e) hf
  inclusion {f _} derived message offset hf :=
    b.diagnostic_congr ((Reading.ofSource source number).includeDiagnostic f derived message offset)
      hf
  malformed {f _} derived e hf :=
    b.diagnostic_congr ((Reading.ofSource source number).ruleDiagnostic f derived e) hf

/-- Lists of twins, the first of which have the given numbers. -/
inductive Blur.TwinLines (b : Blur) : Nat → List Text → Nat → List Text → Prop
  | nil {number number' : Nat} : TwinLines b number [] number' []
  | cons {source source' : Text} {number number' : Nat} {lines lines' : List Text} :
      b.Twins source number source' number' → TwinLines b (number + 1) lines (number' + 1) lines' →
      TwinLines b number (source :: lines) number' (source' :: lines')

theorem Blur.TwinLines.refl (b : Blur) (number : Nat) (lines : List Text) :
    b.TwinLines number lines number lines := by
  induction lines generalizing number with
  | nil => exact .nil
  | cons source lines ih => exact .cons (.refl b source number) (ih (number + 1))

/-- The numbers of lines are forgotten. -/
structure Blur.Unnumbered (b : Blur) : Prop where
  command (cmd : Command) (n n' : Int) :
    b.command { cmd with line := n } = b.command { cmd with line := n' }
  diagnostic (d : Diagnostic) (n n' : Int) :
    b.diagnostic { d with line := n } = b.diagnostic { d with line := n' }

namespace Blur.Unnumbered

variable {b : Blur}

theorem twins (H : b.Unnumbered) (source : Text) (number number' : Nat) :
    b.Twins source number source number' where
  blank := rfl
  tab := Iff.rfl
  neglect := rfl
  content := rfl
  command {_ f'} hf := ((Twins.refl b source number).command hf).trans
    (H.command (commandOf f' source number) number number')
  stray {_ f'} hf := ((Twins.refl b source number).stray hf).trans
    (H.diagnostic (strayDiagnostic f' source number) number number')
  subcall {_ f' _ e'} hf he := ((Twins.refl b source number).subcall hf he).trans
    (H.diagnostic ((Reading.ofSource source number).subcallDiagnostic f' e') number number')
  inclusion {_ f'} derived message offset hf :=
    ((Twins.refl b source number).inclusion derived message offset hf).trans
      (H.diagnostic ((Reading.ofSource source number).includeDiagnostic f' derived message offset)
        number number')
  malformed {_ f'} derived e hf := ((Twins.refl b source number).malformed derived e hf).trans
    (H.diagnostic ((Reading.ofSource source number).ruleDiagnostic f' derived e) number number')

theorem twinLines (H : b.Unnumbered) (number number' : Nat) (lines : List Text) :
    b.TwinLines number lines number' lines := by
  induction lines generalizing number number' with
  | nil => exact .nil
  | cons source lines ih =>
    exact .cons (H.twins source number number') (ih (number + 1) (number' + 1))

end Blur.Unnumbered

/-! ## The simulation -/

/-- No hidden file is asked for. -/
def Moment.Avoids (h : Host σ) (hidden : Text → Prop) : Moment σ → Prop
  | line .. => True
  | request path _ => ¬hidden (Path.absolute h.directory path)

/-- Files read in states that are alike leave states that are alike, if no hidden file is asked
for. -/
def LikeFiles (c : Contrast) (h : Host σ) (readFile : Text → Loading σ → Outcome σ)
    (inside : Text → Loading σ → List (Moment σ)) (readFile' : Text → Loading σ → Outcome σ) :
    Prop :=
  ∀ path st st', st.Alike c st' → (∀ m ∈ inside path st, m.Avoids h c.hidden) →
    (readFile path st).Alike c (readFile' path st')

variable {h : Host σ} {readFile readFile' : Text → Loading σ → Outcome σ}
  {inside : Text → Loading σ → List (Moment σ)} {source source' : Text} {number number' : Nat}
  {st st' : Loading σ}

theorem alike_includeOne (H : LikeFiles c h readFile inside readFile')
    (hs : c.Twins source number source' number') (hst : st.Alike c st') (derived : Text)
    (piece : Text.Slice)
    (hm : ∀ m ∈ pathMoments h inside (Text.unquote "'" piece.text) st, m.Avoids h c.hidden) :
    (includeOne h readFile (Reading.ofSource source number) derived piece st).Alike c
      (includeOne h readFile' (Reading.ofSource source' number') derived piece st') := by
  rw [includeOne, includeOne]
  rw [pathMoments] at hm
  generalize Text.unquote "'" piece.text = path at hm ⊢
  -- a file that is asked for is not hidden, so it is being read in both runs or in neither
  have hproblem : includeProblem? h st path = includeProblem? h st' path := by
    refine includeProblem?_congr hst.host fun hfile => hst.context.stack _ ?_
    rw [if_pos hfile] at hm
    exact hm _ List.mem_cons_self
  rw [← hproblem]
  cases hcase : includeProblem? h st path with
  | none =>
    obtain ⟨hfile, hnew⟩ := includeProblem?_eq_none_iff.1 hcase
    rw [if_pos hfile, if_neg hnew] at hm
    exact H path st st' hst (List.forall_mem_cons.1 hm).2
  | some message =>
    have hneglect : (Reading.ofSource source number).line.neglect =
        (Reading.ofSource source' number').line.neglect := hs.neglect
    dsimp only
    rw [hneglect]
    exact hst.reportOrStop (hs.inclusion _ _ _ hst.context.filename) _

theorem alike_includeAll (H : LikeFiles c h readFile inside readFile')
    (hs : c.Twins source number source' number') (hst : st.Alike c st') (derived : Text)
    (pieces : List Text.Slice)
    (hm : ∀ m ∈ includeMoments h readFile inside (Reading.ofSource source number) derived pieces st,
      m.Avoids h c.hidden) :
    (includeAll h readFile (Reading.ofSource source number) derived pieces st).Alike c
      (includeAll h readFile' (Reading.ofSource source' number') derived pieces st') := by
  induction pieces generalizing st st' with
  | nil => exact .read hst
  | cons piece pieces ih =>
    rw [includeMoments] at hm
    rw [includeAll_cons, includeAll_cons]
    obtain ⟨hfirst, hrest⟩ := List.forall_mem_append.1 hm
    refine (alike_includeOne H hs hst derived piece hfirst).andThen fun st st' hout hst => ?_
    rw [hout] at hrest
    exact ih hst hrest

theorem alike_shellLine (hs : c.Twins source number source' number') (hst : st.Alike c st') :
    (st.settle (st.context.shellLine (Line.ofText source) source number)).Alike c
      (st'.settle (st'.context.shellLine (Line.ofText source') source' number')) := by
  have hctx := hst.context
  cases hopen : st.context.openRecipe with
  | some i =>
    have hline : st.context.shellLine (Line.ofText source) source number =
        .ok (st.context.addCommand i (commandOf st.context.filename source number)) := by
      rw [Context.shellLine, hopen]
      rfl
    have hline' : st'.context.shellLine (Line.ofText source') source' number' =
        .ok (st'.context.addCommand i (commandOf st'.context.filename source' number')) := by
      rw [Context.shellLine, ← hctx.openRecipe, hopen]
      rfl
    rw [hline, hline']
    exact .read (hst.withContext (hctx.addCommand i (hs.command hctx.filename)))
  | none =>
    rw [Context.shellLine, Context.shellLine, ← hctx.openRecipe, hopen, ← hctx.skipping]
    cases st.context.skipping with
    | true => exact .read hst
    | false =>
      exact .stopped hst.toAlikeOutside
        (congrArg (fun d => Halt.error (.diagnostic d)) (hs.stray hctx.filename))

theorem alike_derivedLine (H : LikeFiles c h readFile inside readFile')
    (hs : c.Twins source number source' number') (hst : st.Alike c st') (derived : Text)
    (hm : isInclude derived = true → ∀ m ∈ includeMoments h readFile inside
      (Reading.ofSource source number) derived ((Text.splitBalanced " " "'" derived).drop 1) st,
      m.Avoids h c.hidden) :
    (derivedLine h readFile (Reading.ofSource source number) derived st).Alike c
      (derivedLine h readFile' (Reading.ofSource source' number') derived st') := by
  rw [derivedLine, derivedLine]
  split
  · next hinclude => exact alike_includeAll H hs hst derived _ (hm hinclude)
  · rcases Rule.parse derived with e | _ | rule
    · have hdiagnostic := hs.malformed derived e hst.context.filename
      exact .stopped hst.toAlikeOutside
        (congrArg (fun d => Halt.error (.diagnostic d)) hdiagnostic)
    · exact .read hst
    · exact .read (hst.withContext (hst.context.addRecipe _))

theorem agree_derivationOf (hs : c.Twins source number source' number') (vars : Variables) :
    (derivationOf vars source).Agree
      (Derivation.Error.InModes (Line.ofText source).debug (Line.ofText source').debug)
      (derivationOf vars source') := by
  rw [derivationOf, derivationOf, ← hs.content]
  exact agree_derive _ _ _ _

theorem alike_deriveLine (H : LikeFiles c h readFile inside readFile')
    (hs : c.Twins source number source' number') (hst : st.Alike c st')
    (hm : ∀ derived, kindOfOutcome (h.derive (derivationOf st.context.vars source) st.host).1 =
      .inclusion derived →
      ∀ m ∈ includeMoments h readFile inside (Reading.ofSource source number) derived
        ((Text.splitBalanced " " "'" derived).drop 1)
        (st.derived (h.derive (derivationOf st.context.vars source) st.host).2),
      m.Avoids h c.hidden) :
    (deriveLine h readFile (Reading.ofSource source number) st.closed).Alike c
      (deriveLine h readFile' (Reading.ofSource source' number') st'.closed) := by
  rw [deriveLine_eq, deriveLine_eq, ← hs.content, ← hst.host, ← hst.context.vars]
  rcases (agree_derivationOf hs st.context.vars).onHost h st.host with
    ⟨fault, s, hout, hout'⟩ | ⟨value, s, hout, hout'⟩ | ⟨e, e', s, he, hout, hout'⟩
  · rw [hout, hout']
    exact .stopped (hst.derived s).toAlikeOutside rfl
  · rw [hout] at hm
    rw [hout, hout']
    refine alike_derivedLine H hs (hst.derived s) _ fun hinclude => hm _ ?_
    rw [kindOfOutcome, kindOfDerived, if_pos hinclude]
  · rw [hout, hout', ← hs.neglect]
    have hdiagnostic := hs.subcall hst.context.filename he
    exact ((hst.derived s).reportOrStop hdiagnostic _).andThen fun _ _ _ hst =>
      .read (hst.withContext (hst.context.skip _))

theorem alike_processLine (H : LikeFiles c h readFile inside readFile')
    (hs : c.Twins source number source' number') (hst : st.Alike c st')
    (hm : ∀ m ∈ lineMoments h readFile inside source number st, m.Avoids h c.hidden) :
    (processLine h readFile source number st).Alike c
      (processLine h readFile' source' number' st') := by
  cases hblank : Text.blank source with
  | true =>
    rw [processLine_blank hblank, processLine_blank (hs.blank ▸ hblank)]
    exact .read hst
  | false =>
    have hblank' : Text.blank source' = false := hs.blank ▸ hblank
    by_cases htab : source.head? = some '\t'
    · rw [processLine_shell hblank htab, processLine_shell hblank' (hs.tab.1 htab)]
      exact alike_shellLine hs hst
    · have htab' : source'.head? ≠ some '\t' := fun h => htab (hs.tab.2 h)
      rw [processLine_heading hblank htab, processLine_heading hblank' htab', ← hs.content]
      rw [lineMoments, kindOf_heading hblank htab] at hm
      split
      · exact .read (hst.closed.withContext (hst.closed.context.assignLine _))
      · next hassign =>
        rw [if_neg hassign] at hm
        refine alike_deriveLine H hs hst fun derived hkind => ?_
        rw [hkind] at hm
        exact (List.forall_mem_cons.1 hm).2

theorem alike_processLines (H : LikeFiles c h readFile inside readFile') {lines lines' : List Text}
    (hlines : c.TwinLines number lines number' lines') (hst : st.Alike c st')
    (hm : ∀ m ∈ linesMoments h readFile inside number lines st, m.Avoids h c.hidden) :
    (processLines h readFile number lines st).Alike c
      (processLines h readFile' number' lines' st') := by
  induction hlines generalizing st st' with
  | nil => exact .read hst
  | cons hs _ ih =>
    rw [linesMoments] at hm
    rw [processLines_cons, processLines_cons]
    obtain ⟨hfirst, hrest⟩ := List.forall_mem_append.1 hm
    refine (alike_processLine H hs hst hfirst).andThen fun st st' hout hst => ?_
    rw [hout] at hrest
    exact ih hst hrest

/-! ## Files -/

theorem alike_leaveFile {outer outer' : Context} {o o' : Outcome σ}
    (houter : outer.Alike c outer') (H : o.Alike c o')
    (hstack : o.1.context.includeStack.dropLast = outer.includeStack)
    (hstack' : o'.1.context.includeStack.dropLast = outer'.includeStack) :
    (leaveFile outer.filename o).Alike c (leaveFile outer'.filename o') := by
  cases H with
  | read hst =>
    refine .read (hst.withContext ?_)
    refine { hst.context.closeRecipe with filename := houter.filename, stack := fun p hp => ?_ }
    exact hstack.symm ▸ hstack'.symm ▸ houter.stack p hp
  | stopped hst hhalt => exact .stopped ⟨hst.host, hst.reports⟩ hhalt

/-- Included files are the same in both runs. -/
theorem likeFiles_processFile (c : Contrast) (h : Host σ) (depth : Nat) :
    LikeFiles c h (processFile h depth) (fileMoments h depth) (processFile h depth) := by
  induction depth with
  | zero => exact fun path st st' hst hm => .stopped hst.toAlikeOutside rfl
  | succ depth ih =>
    intro path st st' hst hm
    rw [fileMoments] at hm
    rw [processFile_succ, processFile_succ, ← hst.host]
    cases hread : h.readText st.host (Path.display path) with
    | error fault => exact .stopped hst.toAlikeOutside rfl
    | ok source =>
      rw [hread] at hm
      -- the lines of the file are their own twins, and what they include has less room
      exact alike_leaveFile hst.context
        (alike_processLines ih (.refl _ 1 _) (hst.entered h path) hm)
        ((keepsStack_processFile h depth).dropLast_processLines h path 1 _ st)
        ((keepsStack_processFile h depth).dropLast_processLines h path 1 _ st')

/-- Where the same files are read, twins leave states that are alike, whatever they include. -/
theorem Blur.alike_processLines {b : Blur} {told told' : List Diagnostic} {lines lines' : List Text}
    (hlines : b.TwinLines number lines number' lines') (hst : st.Alike (b.after told told') st')
    (h : Host σ) (depth : Nat) :
    (processLines h (processFile h depth) number lines st).Alike (b.after told told')
      (processLines h (processFile h depth) number' lines' st') := by
  refine BuildFile.alike_processLines (likeFiles_processFile _ h depth) hlines hst fun m _ => ?_
  cases m with
  | line => trivial
  | request path st => exact id

end BuildFile

end Haybuild
