import Haybuild.Proofs.BuildFile.Inlining
import Haybuild.Proofs.Text.Lines

/-!
# Files and their texts

A build file is loaded from its path or from its text. From its path, its line ends are unified, it
counts as being read itself, and it takes up room for a file inside another one. None of this shows,
unless the file is asked for again while it is being read: both loads end in the same way, with the
same reports, variables and recipes (`loadFile_eq_loadText`). The file goes by the name in which its
path is displayed.
-/

namespace Haybuild

namespace BuildFile

variable {σ : Type} {h : Host σ} {path content : Text} {s : σ}

instance (h : Host σ) (p : Text) : DecidablePred (Moment.Avoids h (· = p))
  | .line .. => isTrue trivial
  | .request path _ => inferInstanceAs (Decidable (¬Path.absolute h.directory path = p))

/-- What forgets nothing. -/
def Blur.sharp : Blur where
  filename := id
  command := id
  diagnostic := id
  command_congr c _ _ hf := congrArg (fun f => { c with filename := f }) hf
  diagnostic_congr d _ _ hf := congrArg (fun f => { d with filename := f }) hf

theorem Blur.halt_sharp : Blur.sharp.halt = id := by
  funext halt
  rcases halt with ⟨⟨⟩ | _⟩ | _ <;> rfl

theorem Blur.recipe_sharp : Blur.sharp.recipe = id := by
  funext r
  exact congrArg (fun commands => { r with commands }) (List.map_id r.commands)

/-- What may differ while a file is read from its path and from its text: whether it counts as being
read. -/
def Contrast.itself (p : Text) : Contrast :=
  { Blur.sharp with hidden := (· = p), told := [], told' := [] }

theorem alike_itself (h : Host σ) (path : Text) (s : σ) :
    ((Loading.start path s).entered h path).Alike (.itself (Path.absolute h.directory path))
      (.start (Path.display path) s) where
  context :=
    { filename := rfl
      vars := rfl
      recipes := rfl
      openRecipe := rfl
      skipping := rfl
      stack := by
        intro p hp
        have hne : p ≠ Path.absolute h.directory (Path.display path) := by
          rw [Path.absolute_display]
          exact hp
        simpa [Loading.entered, Loading.start, Loading.withContext] using hne }
  host := rfl
  reports := ⟨[], [], rfl, rfl, rfl⟩

/-- Both loads end in the same way. -/
structure Outcome.SameEnd (o o' : Outcome σ) : Prop where
  halt : o.2 = o'.2
  reports : o.1.reports = o'.1.reports
  host : o.1.host = o'.1.host
  vars : o.2 = none → o.1.context.vars = o'.1.context.vars
  recipes : o.2 = none → o.1.context.recipes = o'.1.context.recipes

theorem Outcome.SameEnd.leaveFile {o o' : Outcome σ} (H : o.SameEnd o') (outer : Text) :
    (leaveFile outer o).SameEnd o' := by
  obtain ⟨st, _ | halt⟩ := o
  · exact ⟨H.halt, H.reports, H.host, H.vars, H.recipes⟩
  · exact ⟨H.halt, H.reports, H.host, nofun, nofun⟩

/-- Where nothing is forgotten, only the files being read can differ in the end. -/
theorem Outcome.Alike.sameEnd {p : Text} {o o' : Outcome σ} (H : o.Alike (.itself p) o') :
    o.SameEnd o' where
  halt := by
    have hhalt := H.halt_eq
    rwa [show (Contrast.itself p).halt = id from Blur.halt_sharp, Option.map_id, id, id] at hhalt
  reports := by
    obtain ⟨news, news', hnews, hnews', hsame⟩ := H.outside.reports
    rw [show (Contrast.itself p).diagnostic = id from rfl, List.map_id, List.map_id] at hsame
    exact hnews.trans ((congrArg ([] ++ ·) hsame).trans hnews'.symm)
  host := H.outside.host
  vars hnone := by
    cases H with
    | read hst => exact hst.context.vars
    | stopped => cases hnone
  recipes hnone := by
    cases H with
    | read hst =>
      have hrecipes := hst.context.recipes
      rwa [show (Contrast.itself p).recipe = id from Blur.recipe_sharp, List.map_id, List.map_id]
        at hrecipes
    | stopped => cases hnone

/-- Let a file hold a text, in whatever line ends, and let nobody ask for it again while it is being
read. Loading it by its path and loading its text under the name that the path is displayed by end
in the same way: with the same error or none, the same reports and the same host, and where there is
no error with the same variables and recipes. Only the bound on files inside one another is met one
file earlier. -/
theorem loadFile_eq_loadText (h : Host σ) (path content : Text) (bytes : Bytes) (s : σ)
    (hnull : '\x00' ∉ Path.display path) (hbytes : h.read s (Path.display path) = .ok bytes)
    (hcontent : Utf8.decode bytes = .ok content)
    (honce : ∀ m ∈ fileMoments h (includeLimit h s) path (.start path s),
      m.Avoids h (· = Path.absolute h.directory path))
    (hroom : (loadFile h path s).2 ≠ some (.fault .includeDepth)) :
    (loadFile h path s).SameEnd (loadText h (Path.display path) content s) := by
  obtain ⟨depth, hdepth⟩ : ∃ depth, includeLimit h s = depth + 1 := ⟨h.fileCount s + 999, rfl⟩
  have hread : h.readText (Loading.start path s).host (Path.display path) =
      .ok (Text.unifyNewlines content) := by
    rw [Host.readText]
    simp [hnull, Loading.start, hbytes, hcontent]
  have hlines : Text.uncomment "#" (Text.unifyNewlines content) = Text.uncomment "#" content := by
    rw [Text.uncomment, Text.lines_unifyNewlines, Text.uncomment]
  rw [hdepth, fileMoments, hread] at honce
  dsimp only at honce
  rw [hlines] at honce
  have hend := (alike_processLines (likeFiles_processFile _ h depth) (.refl _ 1 _)
    (alike_itself h path s) honce).sameEnd.leaveFile
      (Loading.start path s).context.filename
  have hfile : loadFile h path s = leaveFile (Loading.start path s).context.filename
      (processLines h (processFile h depth) 1 (Text.uncomment "#" content)
        ((Loading.start path s).entered h path)) := by
    rw [loadFile, hdepth, processFile_succ, hread, ← hlines]
  rw [← hfile] at hend
  -- what ends with less room ends in the same way with the room that the text has
  have htext : loadText h (Path.display path) content s =
      processLines h (processFile h depth) 1 (Text.uncomment "#" content)
        (.start (Path.display path) s) := by
    rw [loadText, hdepth]
    apply (processFile_mono h (Nat.le_succ depth)).processLines
    rw [Outcome.Roomy, ← hend.halt]
    exact hroom
  rwa [htext]

/-- A build file in mixed line ends, with a line that fails and is passed over, and a file that it
includes. -/
def kitchenFile : Text :=
  "-$(NOPE):\r\tlost\r\ninclude pies\nall: pie\r\n\tbake $(DIR)\u2028"

/-- The kitchen has two files and no shell. -/
def kitchen : Host Unit where
  directory := ['/']
  files _ := ⟨fun p => p = "Hayfile" || p = "pies", fun p => p = "Hayfile" || p = "pies",
    fun _ => false, fun _ => []⟩
  read _ p := .ok (Utf8.encode (if p = "pies" then "DIR = out\npie: apple\n" else kitchenFile))
  fileCount _ := 2
  run _ _ _ _ := (.error .notFound, ())

theorem loadFile_eq_loadText_kitchen :
    (loadFile kitchen "./Hayfile" ()).2 = none ∧
      (loadFile kitchen "./Hayfile" ()).1.reports.length = 1 ∧
      (loadFile kitchen "./Hayfile" ()).SameEnd (loadText kitchen "Hayfile" kitchenFile ()) := by
  have hname : Path.display "./Hayfile" = "Hayfile" := by decide +kernel
  have hread : (loadFile kitchen "./Hayfile" ()).2 = none := by decide +kernel
  have hdecode : Utf8.decode (Utf8.encode kitchenFile) = .ok kitchenFile := by decide +kernel
  have honce : ∀ m ∈ fileMoments kitchen (includeLimit kitchen ()) "./Hayfile"
      (.start "./Hayfile" ()),
      m.Avoids kitchen (· = Path.absolute kitchen.directory "./Hayfile") := by
    decide +kernel
  have hend := loadFile_eq_loadText kitchen "./Hayfile" kitchenFile (Utf8.encode kitchenFile) ()
    (by rw [hname]; decide) (by rw [hname]; rfl) hdecode honce (by rw [hread]; nofun)
  rw [hname] at hend
  exact ⟨hread, by decide +kernel, hend⟩

/-- Under another name than the one that the path is displayed by, the text leaves other
recipes. -/
theorem loadFile_ne_loadText_dotted :
    kitchen.read () "./Hayfile" = .ok (Utf8.encode kitchenFile) ∧
      (loadFile kitchen "./Hayfile" ()).2 = none ∧
      (loadText kitchen "./Hayfile" kitchenFile ()).2 = none ∧
      (loadFile kitchen "./Hayfile" ()).1.context.recipes ≠
        (loadText kitchen "./Hayfile" kitchenFile ()).1.context.recipes := by
  refine ⟨rfl, ?_, ?_, ?_⟩ <;> decide +kernel

end BuildFile

end Haybuild
