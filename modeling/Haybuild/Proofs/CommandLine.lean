import Haybuild.CommandLine
import Haybuild.Proofs.Derivation.Always
import Haybuild.Proofs.Drain.Complete
import Haybuild.Proofs.Graph.Provide

/-!
# The exit code

A run of the program that is asked to build first gets ready: it loads the build file, shows what it
read, and builds a graph without cycles (`Ready`). Until then no command of a recipe starts.
`exitCode_exact` says that the exit code is zero if and only if the program gets ready and carries
the graph out, so that nothing that went wrong on the way is lost. Arguments that cannot be read
have an exit code of their own.
-/

namespace Haybuild.CommandLine

variable {σ : Type} {h : Host σ} {settings : Settings} {r : Request} {ctx : BuildFile.Context}
  {s s' : σ} {g : Graph} {es fs : List Event}

/-- The build file is found and read without a fatal error, and no fault comes up while its
variables are shown. The host is then in state `s'`. -/
inductive Loads (h : Host σ) (r : Request) (s : σ) : BuildFile.Context → σ → Prop
  | intro {name st} {s' : σ} :
      (r.named?.bind fun name => nameFault? h s (Path.display name)) = none →
      discover (h.files s) r = .ok name →
      BuildFile.loadFile h (Path.display name) s = (st, none) →
      h.Faultless (Event.ofVariables st.context.vars) st.host →
      (h.derive (Event.ofVariables st.context.vars) st.host).2 = s' →
      Loads h r s st.context s'

/-- All is ready for the first command: the build file is loaded, every prerequisite is a target or
a file, and the graph has no cycle. -/
structure Ready (h : Host σ) (r : Request) (s : σ) (ctx : BuildFile.Context) (s' : σ) (g : Graph) :
    Prop where
  loads : Loads h r s ctx s'
  satisfied : ∀ recipe ∈ ctx.recipes, ∀ p ∈ recipe.prerequisites,
    Graph.Satisfied (h.files s').exists? ctx.recipes p
  built : Graph.build (h.files s').exists? ctx.recipes = .ok g
  acyclic : g.Acyclic

theorem Loads.unique {ctx' : BuildFile.Context} {s₁ : σ} (L : Loads h r s ctx s')
    (L' : Loads h r s ctx' s₁) : ctx' = ctx ∧ s₁ = s' := by
  obtain ⟨-, hname, hload, -, rfl⟩ := L
  obtain ⟨-, hname', hload', -, rfl⟩ := L'
  cases hname.symm.trans hname'
  cases hload.symm.trans hload'
  exact ⟨rfl, rfl⟩

theorem Ready.unique {ctx' : BuildFile.Context} {s₁ : σ} {g' : Graph} (R : Ready h r s ctx s' g)
    (R' : Ready h r s ctx' s₁ g') : ctx' = ctx ∧ s₁ = s' ∧ g' = g := by
  obtain ⟨rfl, rfl⟩ := R.loads.unique R'.loads
  cases R.built.symm.trans R'.built
  exact ⟨rfl, rfl, rfl⟩

theorem Finish.after_after (f : Finish σ) : (f.after fs).after es = f.after (es ++ fs) := by
  simp only [Finish.after, List.append_assoc]

/-! ## Before the first command -/

/-- No command of a recipe is started. -/
def Quiet (es : List Event) : Prop := ∀ recipe cmd, Event.command recipe cmd ∉ es

theorem Quiet.append (H : Quiet es) (H' : Quiet fs) : Quiet (es ++ fs) := by
  intro recipe cmd hmem
  exact (List.mem_append.1 hmem).elim (H recipe cmd) (H' recipe cmd)

theorem quiet_map {α : Type} {f : α → Event} (hf : ∀ a recipe cmd, f a ≠ .command recipe cmd)
    (as : List α) : Quiet (as.map f) := by
  intro recipe cmd hmem
  obtain ⟨a, -, ha⟩ := List.mem_map.1 hmem
  exact hf a recipe cmd ha

theorem quiet_errorEvent (halt : Halt) : Quiet [errorEvent halt] := by
  cases halt <;> simp [Quiet, errorEvent]

theorem quiet_of_discover {files : FileView} {e : Event} (he : discover files r = .error e) :
    Quiet [e] := by
  rw [discover] at he
  split at he <;> split at he <;> cases he <;> simp [Quiet]

theorem loadFailure_spec (r : Request) (path : Text) (halt : Halt) (s : σ) :
    (loadFailure r path halt s).code = 1 ∧ Quiet (loadFailure r path halt s).events := by
  unfold loadFailure
  split
  · exact ⟨rfl, by simp [Quiet, finish]⟩
  · exact ⟨rfl, quiet_errorEvent _⟩
  · exact ⟨rfl, by simp [Quiet, finish]⟩
  · exact ⟨rfl, by simp [Quiet, escape]⟩

/-- Showing what was loaded leads to the graph unless a fault comes up. -/
theorem showAndBuild_eq (settings : Settings) (r : Request)
    (F : h.Faultless (Event.ofVariables ctx.vars) s) :
    ∃ es, Quiet es ∧ showAndBuild h settings r ctx s =
      .after es (build h settings r ctx (h.derive (Event.ofVariables ctx.vars) s).2) := by
  obtain ⟨_, s', ⟨rows, rfl⟩, hshown⟩ := F.derive_eq (Derivation.always_ofVariables ctx.vars)
  refine ⟨.variableTable rows :: ctx.recipes.map Event.recipe, ?_, ?_⟩
  · have hrecipes : Quiet (ctx.recipes.map Event.recipe) := quiet_map (by simp) _
    simpa only [Quiet, List.mem_cons, reduceCtorEq, false_or] using hrecipes
  · rw [showAndBuild, hshown]

theorem showAndBuild_fault (settings : Settings) (r : Request)
    (F : ¬h.Faultless (Event.ofVariables ctx.vars) s) :
    (showAndBuild h settings r ctx s).code = 1 ∧
      Quiet (showAndBuild h settings r ctx s).events := by
  obtain ⟨fault, s', hfault⟩ : ∃ fault s', h.derive (Event.ofVariables ctx.vars) s =
      (.error fault, s') := by
    simpa [Host.Faultless] using F
  rw [showAndBuild, hfault]
  exact ⟨rfl, by simp [Quiet, escape]⟩

/-- A request loads its build file and goes on to the graph, or it ends before the first command. -/
theorem perform_cases (h : Host σ) (settings : Settings) (r : Request) (s : σ) :
    (∃ ctx s' es, Loads h r s ctx s' ∧ Quiet es ∧
      perform h settings r s = .after es (build h settings r ctx s')) ∨
    (∀ ctx s', ¬Loads h r s ctx s') ∧ (perform h settings r s).code = 1 ∧
      Quiet (perform h settings r s).events := by
  rw [perform]
  cases hfault : r.named?.bind fun name => nameFault? h s (Path.display name) with
  | some fault =>
    refine .inr ⟨?_, rfl, by simp [Quiet, escape]⟩
    rintro _ _ ⟨hnone, -, -, -, -⟩
    cases hfault.symm.trans hnone
  | none =>
    cases hname : discover (h.files s) r with
    | error e =>
      refine .inr ⟨?_, rfl, quiet_of_discover hname⟩
      rintro _ _ ⟨-, hok, -, -, -⟩
      cases hname.symm.trans hok
    | ok name =>
      dsimp only
      rcases hload : BuildFile.loadFile h (Path.display name) s with ⟨st, stop⟩
      have hreports : Quiet (st.reports.map Event.diagnostic) := quiet_map (by simp) _
      cases stop with
      | some halt =>
        obtain ⟨hcode, hquiet⟩ := loadFailure_spec r (Path.display name) halt st.host
        refine .inr ⟨?_, hcode, hreports.append hquiet⟩
        rintro _ _ ⟨-, hok, hload', -, -⟩
        cases hname.symm.trans hok
        cases hload.symm.trans hload'
      | none =>
        by_cases F : h.Faultless (Event.ofVariables st.context.vars) st.host
        · obtain ⟨es, hes, hshow⟩ := showAndBuild_eq settings r F
          refine .inl ⟨_, _, _, ⟨hfault, hname, hload, F, rfl⟩, hreports.append hes, ?_⟩
          dsimp only
          rw [hshow, Finish.after_after]
        · obtain ⟨hcode, hquiet⟩ := showAndBuild_fault settings r F
          refine .inr ⟨?_, hcode, hreports.append hquiet⟩
          rintro _ _ ⟨-, hok, hload', F', -⟩
          cases hname.symm.trans hok
          cases hload.symm.trans hload'
          exact F F'

/-- The graph of what was loaded is run, or the program ends before the first command. -/
theorem build_cases (h : Host σ) (settings : Settings) (hdry : r.dryRun = false)
    (ctx : BuildFile.Context) (s : σ) :
    (∃ g, Graph.build (h.files s).exists? ctx.recipes = .ok g ∧ g.Acyclic ∧
      build h settings r ctx s = runGraph h settings r ctx g s) ∨
    (∀ g, Graph.build (h.files s).exists? ctx.recipes = .ok g → ¬g.Acyclic) ∧
      (build h settings r ctx s).code = 1 ∧ Quiet (build h settings r ctx s).events := by
  rw [build]
  cases hbuild : Graph.build (h.files s).exists? ctx.recipes with
  | error halt => exact .inr ⟨by simp, rfl, quiet_errorEvent halt⟩
  | ok g =>
    have H := (Graph.build_reachable hbuild).valid
    dsimp only
    cases hplan : g.plan with
    | error halt =>
      refine .inr ⟨?_, rfl, quiet_errorEvent halt⟩
      rintro _ ⟨⟩ ha
      obtain ⟨m, -, -, hlevels⟩ := H.levels_ok ha
      rw [Graph.plan, hlevels] at hplan
      cases hplan
    | ok names =>
      refine .inl ⟨g, rfl, H.acyclic_of_plan hplan, ?_⟩
      simp only [hdry]
      rfl

/-- A request gets ready and runs its graph, or it ends before the first command. -/
theorem ready_cases (h : Host σ) (settings : Settings) (hdry : r.dryRun = false) (s : σ) :
    (∃ ctx s' g es, Ready h r s ctx s' g ∧
      perform h settings r s = .after es (runGraph h settings r ctx g s')) ∨
    (∀ ctx s' g, ¬Ready h r s ctx s' g) ∧ (perform h settings r s).code = 1 ∧
      Quiet (perform h settings r s).events := by
  rcases perform_cases h settings r s with ⟨ctx, s', es, L, hes, hrun⟩ | ⟨hnot, hcode, hquiet⟩
  · rcases build_cases h settings hdry ctx s' with ⟨g, hg, ha, hbuild⟩ | ⟨hnot, hcode, hquiet⟩
    · rw [hbuild] at hrun
      exact .inl ⟨ctx, s', g, es, ⟨L, Graph.satisfied_of_build hg, hg, ha⟩, hrun⟩
    · refine .inr ⟨fun ctx' s₁ g R => ?_, ?_, ?_⟩
      · obtain ⟨rfl, rfl⟩ := L.unique R.loads
        exact hnot g R.built R.acyclic
      · rw [hrun]
        exact hcode
      · rw [hrun]
        exact hes.append hquiet
  · exact .inr ⟨fun ctx s' g R => hnot ctx s' R.loads, hcode, hquiet⟩

/-! ## Running the graph -/

theorem runGraph_code {out : Option Halt × Drain σ}
    (hout : g.run h ctx.vars (r.options settings) s = out) :
    ((runGraph h settings r ctx g s).code = 0 ↔
      out.1 = none ∧ ∀ e ∈ out.2.results.entries, e.2 = .ok) ∧
    ((runGraph h settings r ctx g s).code = 0 ∨ (runGraph h settings r ctx g s).code = 1) := by
  obtain ⟨halt, d⟩ := out
  simp only [runGraph, hout]
  cases halt with
  | some halt => simp [finish]
  | none =>
    have hall : (d.results.entries.all fun e => e.2 = .ok) ↔
        ∀ e ∈ d.results.entries, e.2 = .ok := by
      simp only [List.all_eq_true, decide_eq_true_eq]
    simp only [finish, true_and, ← hall]
    split
    · next h => exact ⟨iff_of_true rfl h, .inl rfl⟩
    · next h => exact ⟨iff_of_false (by decide) h, .inr rfl⟩

/-- The program ends with zero after it ran a graph if and only if it carried the graph out. -/
theorem runGraph_code_iff (hg : g.Reachable) (ha : g.Acyclic)
    (hl : (g.labels.map Prod.snd).Nodup) (hw : 1 ≤ r.workers) :
    (runGraph h settings r ctx g s).code = 0 ↔
      g.CarriesOut h ctx.vars (r.options settings) s := by
  rw [(runGraph_code rfl).1]
  exact Graph.run_ok_iff hg.valid ha hl (by simp [Request.options]; omega)

/-- A request to build ends with zero if and only if the program gets ready and carries the graph
out. Otherwise it ends with one, and no command was started if the program did not get ready. -/
theorem perform_code_iff (hdry : r.dryRun = false) (hw : 1 ≤ r.workers)
    (hl : ∀ ctx s' g, Ready h r s ctx s' g → (g.labels.map Prod.snd).Nodup) :
    ((perform h settings r s).code = 0 ↔ ∃ ctx s' g, Ready h r s ctx s' g ∧
      g.CarriesOut h ctx.vars (r.options settings) s') ∧
    ((perform h settings r s).code = 0 ∨ (perform h settings r s).code = 1) ∧
    ((∀ ctx s' g, ¬Ready h r s ctx s' g) → Quiet (perform h settings r s).events) := by
  rcases ready_cases h settings hdry s with ⟨ctx, s', g, es, R, hperform⟩ | ⟨hnot, hcode, hquiet⟩
  · have hg := Graph.build_reachable R.built
    refine ⟨?_, ?_, fun hnot => absurd R (hnot ctx s' g)⟩
    · rw [hperform]
      refine (runGraph_code_iff hg R.acyclic (hl ctx s' g R) hw).trans ?_
      refine ⟨fun hrun => ⟨ctx, s', g, R, hrun⟩, ?_⟩
      rintro ⟨ctx', s₁, g', R', hrun⟩
      obtain ⟨rfl, rfl, rfl⟩ := R.unique R'
      exact hrun
    · rw [hperform]
      exact (runGraph_code rfl).2
  · refine ⟨iff_of_false ?_ ?_, .inr hcode, fun _ => hquiet⟩
    · rw [hcode]
      decide
    · rintro ⟨ctx, s', g, R, -⟩
      exact hnot ctx s' g R

/-- Arguments that cannot be read give the exit code two, and asking for help gives zero. Where a
build is asked for the exit code is zero if and only if the program gets ready, no fault comes up
while the environment of the commands is derived, and every command of every recipe is derived and
run and exits with zero, save those that fail to derive and ask to be neglected. Otherwise it is
one, and when it is so because the program did not get ready no command was started. -/
theorem exitCode_exact (h : Host σ) (settings : Settings) (arguments : List Text) (s : σ) :
    (∃ message, readArguments settings arguments = .error message ∧
      run h settings arguments s = ⟨2, [.exception message], false, none, s⟩) ∨
    (readArguments settings arguments = .ok .help ∧
      run h settings arguments s = ⟨0, [], false, none, s⟩) ∨
    ∃ r, readArguments settings arguments = .ok (.build r) ∧
      (r.dryRun = false → 1 ≤ r.workers →
        (∀ ctx s' g, Ready h r s ctx s' g → (g.labels.map Prod.snd).Nodup) →
        ((run h settings arguments s).code = 0 ↔ ∃ ctx s' g, Ready h r s ctx s' g ∧
          g.CarriesOut h ctx.vars (r.options settings) s') ∧
        ((run h settings arguments s).code = 0 ∨ (run h settings arguments s).code = 1) ∧
        ((∀ ctx s' g, ¬Ready h r s ctx s' g) → ∀ recipe cmd,
          .command recipe cmd ∉ (run h settings arguments s).events)) := by
  rw [run]
  rcases readArguments settings arguments with message | _ | r
  · exact .inl ⟨message, rfl, rfl⟩
  · exact .inr (.inl ⟨rfl, rfl⟩)
  · exact .inr (.inr ⟨r, rfl, perform_code_iff⟩)

/-- A host with one build file, on which commands end well unless they are longer than `limit`:
those cannot be started. -/
def oneFile (content : Text) (limit : Nat) : Host Unit where
  directory := ['/']
  files _ := ⟨(· = ("Hayfile" : Text)), (· = ("Hayfile" : Text)), fun _ => false, fun _ => []⟩
  read _ path := if path = ("Hayfile" : Text) then .ok (Utf8.encode content) else .error .notFound
  fileCount _ := 1
  run _ _ command _ :=
    if command.length ≤ limit then (.ok ⟨0, [], []⟩, ()) else (.error .argumentsTooLong, ())

theorem Loads.context_eq {content : Text} {limit : Nat} {s s' : Unit} (hr : r.file = none)
    (L : Loads (oneFile content limit) r s ctx s') :
    ctx = (BuildFile.loadFile (oneFile content limit) "Hayfile" ()).1.context := by
  obtain ⟨-, hname, hload, -, -⟩ := L
  have hdiscover : discover ((oneFile content limit).files s) r = .ok "Hayfile" := by
    rw [discover, Request.named?, hr]
    rfl
  cases hdiscover.symm.trans hname
  exact (congrArg (fun out => out.1.context) hload).symm

/-- The recipe `all` needs the recipe `a`, and both have a command. -/
def twoRecipes : Text := "all: a\n\tx\na:\n\ty\n"

theorem exitCode_exact_twoRecipes :
    (run (oneFile twoRecipes 1) { workers := 1 } [] ()).code = 0 ∧
    ∃ ctx s' g, Ready (oneFile twoRecipes 1) { workers := 1, failFast := true } () ctx s' g ∧
      g.CarriesOut (oneFile twoRecipes 1) ctx.vars { workers := some 1 } s' := by
  have hcode : (run (oneFile twoRecipes 1) { workers := 1 } [] ()).code = 0 := by decide +kernel
  have hrecipes : (BuildFile.loadFile (oneFile twoRecipes 1) "Hayfile" ()).1.context.recipes =
      [⟨["all"], ["a"], [⟨"x", false, 2, false, "Hayfile", "\tx", 1⟩]⟩,
        ⟨["a"], [], [⟨"y", false, 4, false, "Hayfile", "\ty", 1⟩]⟩] := by decide +kernel
  have hread : readArguments { workers := 1 } [] =
      .ok (.build { workers := 1, failFast := true }) := rfl
  rcases exitCode_exact (oneFile twoRecipes 1) { workers := 1 } [] () with
    ⟨_, hr, -⟩ | ⟨hr, -⟩ | ⟨r, hr, H⟩ <;> cases hread.symm.trans hr
  refine ⟨hcode, (H rfl (by decide) ?_).1.1 hcode⟩
  intro ctx s' g R
  have hbuilt := R.built
  rw [R.loads.context_eq rfl, hrecipes] at hbuilt
  cases hbuilt
  decide

/-- A variable asks the shell for what it prints, and the recipe `all` has nothing to do. -/
def askingVariable : Text := "A = $(shell : x)\nall:\n"

/-- Where the shell cannot be started for a variable the exit code is one, although the build file
is loaded, the graph has no cycle and every command there is, none, is carried out. -/
theorem exitCode_eq_one_of_unstartable : ∃ st g,
    discover ((oneFile askingVariable 1).files ()) { workers := 1, failFast := true } =
      .ok "Hayfile" ∧
    BuildFile.loadFile (oneFile askingVariable 1) "Hayfile" () = (st, none) ∧
    (∀ recipe ∈ st.context.recipes, recipe.prerequisites = [] ∧ recipe.commands = []) ∧
    Graph.build ((oneFile askingVariable 1).files st.host).exists? st.context.recipes = .ok g ∧
    g.Acyclic ∧ (g.labels.map Prod.snd).Nodup ∧
    (run (oneFile askingVariable 1) { workers := 1 } [] ()).code = 1 := by
  have hrecipes : (BuildFile.loadFile (oneFile askingVariable 1) "Hayfile" ()).1.context.recipes =
      [⟨["all"], [], []⟩] := by decide +kernel
  have hstop : (BuildFile.loadFile (oneFile askingVariable 1) "Hayfile" ()).2 = none := by
    decide +kernel
  obtain ⟨g, hbuild, hplan, hlabels⟩ : ∃ g,
      (∀ exists_, Graph.build exists_ [⟨["all"], [], []⟩] = .ok g) ∧ g.plan = .ok [["all"]] ∧
        (g.labels.map Prod.snd).Nodup := ⟨_, fun _ => rfl, rfl, by decide⟩
  refine ⟨_, g, rfl, Prod.ext rfl hstop, ?_, ?_, ?_, hlabels, by decide +kernel⟩
  · rw [hrecipes]
    simp
  · rw [hrecipes]
    exact hbuild _
  · exact (Graph.build_reachable (hbuild fun _ => false)).valid.acyclic_of_plan hplan

end Haybuild.CommandLine
