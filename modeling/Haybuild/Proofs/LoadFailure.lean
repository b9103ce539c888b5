import Haybuild.Proofs.BuildFile.Stop
import Haybuild.Proofs.CommandLine

/-!
# Failed loads

When the load of the build file fails, the program ends with the exit code one. It tells of the
diagnostic or of the path that could not be opened. Any other fault escapes it: there is one when a
file or the output of a command is not UTF-8, or when a null character stands in the name of a file,
in a command or in a pattern (`load_ends`).
-/

namespace Haybuild

namespace CommandLine

open BuildFile (loadFile LoadMeets stoppedBy_loadFile)

variable {σ : Type} {h : Host σ} {r : Request} {s : σ}

theorem perform_of_stopped {st : BuildFile.Loading σ} {halt : Halt} {name : Text}
    (settings : Settings)
    (hfault : (r.named?.bind fun name => nameFault? h s (Path.display name)) = none)
    (hname : discover (h.files s) r = .ok name)
    (hload : loadFile h (Path.display name) s = (st, some halt)) :
    perform h settings r s =
      .after (st.reports.map Event.diagnostic)
        (loadFailure r (Path.display name) halt st.host) := by
  rw [perform, hfault]
  dsimp only
  rw [hname]
  dsimp only
  rw [hload]

/-- An event tells why a load failed: it is the diagnostic, or names the path that could not be
opened. -/
inductive Reports (path : Text) : Halt → Event → Prop
  | diagnostic (d : Diagnostic) : Reports path (.error (.diagnostic d)) (.diagnostic d)
  | unopened {fault : Fault} : fault.IsPath → Reports path (.fault fault)
      (.error "Could not open hayfile" ("Could not open " ++ path) [fault.message] [])

/-- What stops a load is told, or it is a fault that escapes. -/
theorem loadFailure_cases (r : Request) (path : Text) (s : σ) {halt : Halt}
    (hhalt : ∀ e, halt = .error e → ∃ d, e = .diagnostic d) :
    (∃ e, Reports path halt e ∧ (∀ f, halt = .fault f → f.IsPath) ∧
      (loadFailure r path halt s).raised = none ∧ (loadFailure r path halt s).events = [e]) ∨
    ∃ fault, halt = .fault fault ∧ ¬fault.IsPath ∧
      (loadFailure r path halt s).raised = some fault := by
  cases halt with
  | error e =>
    obtain ⟨d, rfl⟩ := hhalt e rfl
    exact .inl ⟨_, .diagnostic d, nofun, rfl, rfl⟩
  | fault fault =>
    cases fault with
    | path cause p =>
      have hpath : (Fault.path cause p).IsPath := ⟨cause, p, rfl⟩
      refine .inl ⟨_, .unopened hpath, ?_, rfl, rfl⟩
      rintro _ ⟨⟩
      exact hpath
    | _ => exact .inr ⟨_, rfl, nofun, rfl⟩

/-- A load is stopped by diagnostics and, unless by the bound on files inside one another, by
exactly the faults that it meets. The program ends after it with the exit code one. A fault escapes
it if it does not tell of a path, that is, if a text holds a null character or bytes are not UTF-8;
otherwise the last event tells why the load failed. -/
theorem load_ends (h : Host σ) (path : Text) (s : σ) :
    (∀ e, (loadFile h path s).2 = some (.error e) → ∃ d, e = .diagnostic d) ∧
    ((loadFile h path s).2 ≠ some (.fault .includeDepth) →
      ∀ f, (loadFile h path s).2 = some (.fault f) ↔ LoadMeets h path s f) ∧
    (∀ f, LoadMeets h path s f → f.IsPath ∨ f = .embeddedNull ∨ ∃ flaw, f = .decoding flaw) ∧
    ∀ (settings : Settings) (r : Request) (name : Text) (halt : Halt),
      (r.named?.bind fun name => nameFault? h s (Path.display name)) = none →
      discover (h.files s) r = .ok name → path = Path.display name →
      (loadFile h path s).2 = some halt →
      (perform h settings r s).code = 1 ∧
        (∀ f, (perform h settings r s).raised = some f ↔ halt = .fault f ∧ ¬f.IsPath) ∧
        ((perform h settings r s).raised = none →
          ∃ e, (perform h settings r s).events.getLast? = some e ∧ Reports path halt e) := by
  have hstop := stoppedBy_loadFile h path s
  refine ⟨hstop.error, hstop.fault, fun f => LoadMeets.isOutside, ?_⟩
  rintro settings r name halt hfault hname rfl hhalt
  have hload : loadFile h (Path.display name) s =
      ((loadFile h (Path.display name) s).1, some halt) := Prod.ext rfl hhalt
  rw [perform_of_stopped settings hfault hname hload]
  refine ⟨(loadFailure_spec r _ halt _).1, ?_⟩
  have herror : ∀ e, halt = .error e → ∃ d, e = .diagnostic d := fun e he =>
    hstop.error e (he ▸ hhalt)
  dsimp only [Finish.after]
  rcases loadFailure_cases r (Path.display name) (loadFile h (Path.display name) s).1.host herror
    with ⟨e, he, hpath, hraised, hevents⟩ | ⟨fault, rfl, hpath, hraised⟩
  · rw [hraised, hevents, List.getLast?_concat]
    refine ⟨fun f => iff_of_false nofun fun ⟨hf, hnot⟩ => hnot (hpath f hf), fun _ => ?_⟩
    exact ⟨e, rfl, he⟩
  · rw [hraised]
    refine ⟨fun f => ?_, nofun⟩
    constructor
    · rintro ⟨⟩
      exact ⟨rfl, hpath⟩
    · rintro ⟨⟨⟩, -⟩
      rfl

/-- A host with one build file, whose commands write some output. -/
def flawedHost (file output : Bytes) : Host Unit where
  directory := ['/']
  files _ := ⟨(· = ("Hayfile" : Text)), (· = ("Hayfile" : Text)), fun _ => false, fun _ => []⟩
  read _ path := if path = ("Hayfile" : Text) then .ok file else .error .notFound
  fileCount _ := 1
  run _ _ _ _ := (.ok ⟨0, output, []⟩, ())

/-- A target is asked from the shell. -/
def askingTarget : Bytes := Utf8.encode "$(shell x): a"

theorem load_ends_askingTarget :
    LoadMeets (flawedHost askingTarget [0xFF]) "Hayfile" ()
        (.decoding ⟨0xFF, 0, 1, .startByte⟩) ∧
      (perform (flawedHost askingTarget [0xFF]) { workers := 1 } { workers := 1, failFast := true }
        ()).raised = some (.decoding ⟨0xFF, 0, 1, .startByte⟩) := by
  have hstop : (loadFile (flawedHost askingTarget [0xFF]) "Hayfile" ()).2 =
      some (.fault (.decoding ⟨0xFF, 0, 1, .startByte⟩)) := by
    decide +kernel
  obtain ⟨-, hmeets, -, hends⟩ := load_ends (flawedHost askingTarget [0xFF]) "Hayfile" ()
  refine ⟨(hmeets (by rw [hstop]; decide) _).1 hstop, ?_⟩
  obtain ⟨-, hraised, -⟩ := hends { workers := 1 } { workers := 1, failFast := true } "Hayfile" _
    rfl rfl (by decide +kernel) hstop
  exact (hraised _).2 ⟨rfl, nofun⟩

/-- A build file that is not UTF-8 ends its load with a fault that escapes, although the file can be
opened and read. -/
theorem load_escapes_of_flawed :
    (loadFile (flawedHost [0xFF] []) "Hayfile" ()).2 =
        some (.fault (.decoding ⟨0xFF, 0, 1, .startByte⟩)) ∧
      (run (flawedHost [0xFF] []) { workers := 1 } [] ()).raised =
        some (.decoding ⟨0xFF, 0, 1, .startByte⟩) ∧
      (run (flawedHost [0xFF] []) { workers := 1 } [] ()).events = [] := by
  refine ⟨?_, ?_, ?_⟩
  · decide +kernel
  · decide +kernel
  · decide +kernel

end CommandLine

end Haybuild
