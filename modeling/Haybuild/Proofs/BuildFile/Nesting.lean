import Haybuild.Proofs.BuildFile.Moment
import Haybuild.Proofs.Path
import Mathlib.Data.List.Nodup
import Mathlib.Data.List.Perm.Subperm

/-!
# Files inside one another

Files cannot include one another forever. While a load asks for no more than finitely many files,
the files being read are all different (`include_nesting`): a file that is entered is a new one
(`Fits.enter`), and one that is being read is not entered again. So the bound on files inside one
another is never met.
-/

namespace Haybuild

namespace BuildFile

variable {σ : Type} {h : Host σ} {readFile : Text → Loading σ → Outcome σ}
  {inside : Text → Loading σ → List (Moment σ)} {source : Text} {number room : Nat}
  {st : Loading σ} {files stack : List Text}

/-- The files being read are different ones, and each is among the given files. -/
structure IsNest (files stack : List Text) : Prop where
  nodup : stack.Nodup
  subset : ∀ p ∈ stack, p ∈ files

theorem IsNest.nil (files : List Text) : IsNest files [] :=
  ⟨.nil, List.forall_mem_nil _⟩

theorem IsNest.push {p : Text} (H : IsNest files stack) (hp : p ∈ files) (hnew : p ∉ stack) :
    IsNest files (stack ++ [p]) where
  nodup := by
    rw [← List.concat_eq_append]
    exact H.nodup.concat hnew
  subset q hq := by
    rcases List.mem_append.1 hq with hq | hq
    · exact H.subset q hq
    · exact List.mem_singleton.1 hq ▸ hp

theorem IsNest.length_le (H : IsNest files stack) : stack.length ≤ files.length :=
  (List.subperm_of_subset H.nodup H.subset).length_le

/-- Besides the files being read there is room for all the others. -/
structure Fits (files : List Text) (room : Nat) (stack : List Text) : Prop
    extends IsNest files stack where
  room : files.length ≤ stack.length + room

namespace Fits

variable {p : Text}

/-- A file that is entered takes the room of one that was not being read. -/
theorem enter (H : Fits files (room + 1) stack) (hp : p ∈ files) (hnew : p ∉ stack) :
    Fits files room (stack ++ [p]) where
  toIsNest := H.toIsNest.push hp hnew
  room := by
    have hroom := H.room
    rw [List.length_append, List.length_singleton]
    omega

theorem mem_of_full (H : Fits files 0 stack) (hp : p ∈ files) : p ∈ stack := by
  by_contra hnew
  have hlength := (H.toIsNest.push hp hnew).length_le
  have hroom := H.room
  rw [List.length_append, List.length_singleton] at hlength
  omega

end Fits

/-- Wherever a relative path leads to a file, that file is among the given ones. -/
def FilesAmong (h : Host σ) (files : List Text) (s : σ) : Prop :=
  ∀ path, path.head? ≠ some '/' → h.hasFile s path = true → Path.absolute h.directory path ∈ files

/-- What is asked for is a relative path, where there are no files but the given ones. -/
def Moment.Confined (h : Host σ) (files : List Text) : Moment σ → Prop
  | line .. => True
  | request path st => path.head? ≠ some '/' ∧ FilesAmong h files st.host

/-- The bound on files inside one another is not met, and whenever something happens the files being
read are different ones. -/
structure Nested (files : List Text) (o : Outcome σ) (moments : List (Moment σ)) : Prop where
  roomy : o.Roomy
  nest : ∀ m ∈ moments, IsNest files m.stack

theorem Nested.nil (files : List Text) {o : Outcome σ} (ho : o.Roomy) : Nested files o [] :=
  ⟨ho, List.forall_mem_nil _⟩

theorem Nested.andThen {o : Outcome σ} {f : Loading σ → Outcome σ} {ms : List (Moment σ)}
    {g : Loading σ → List (Moment σ)} (H : Nested files o ms)
    (hfits : Fits files room st.context.includeStack)
    (hstack : o.1.context.includeStack = st.context.includeStack)
    (hnext : ∀ st', o = (st', none) → Fits files room st'.context.includeStack →
      Nested files (f st') (g st')) :
    Nested files (o.andThen f) (ms ++ o.moments g) := by
  obtain ⟨st', _ | halt⟩ := o
  · have hst' : Fits files room st'.context.includeStack := by
      rw [← hstack] at hfits
      exact hfits
    obtain ⟨hroomy, hnest⟩ := hnext st' rfl hst'
    exact ⟨hroomy, List.forall_mem_append.2 ⟨H.nest, hnest⟩⟩
  · exact ⟨H.roomy, List.forall_mem_append.2 ⟨H.nest, List.forall_mem_nil _⟩⟩

/-- With room for the files that are not being read yet, each of them can be read. -/
def Nests (h : Host σ) (files : List Text) (readFile : Text → Loading σ → Outcome σ)
    (inside : Text → Loading σ → List (Moment σ)) (room : Nat) : Prop :=
  ∀ path st, Fits files room st.context.includeStack →
    Path.absolute h.directory path ∉ st.context.includeStack →
    Path.absolute h.directory path ∈ files →
    (∀ m ∈ inside path st, m.Confined h files) →
    Nested files (readFile path st) (inside path st)

namespace Nests

theorem includeOne (H : Nests h files readFile inside room) (r : Reading) (derived : Text)
    {piece : Text.Slice} (hst : Fits files room st.context.includeStack)
    (hconf : ∀ m ∈ pathMoments h inside (Text.unquote "'" piece.text) st, m.Confined h files) :
    Nested files (includeOne h readFile r derived piece st)
      (pathMoments h inside (Text.unquote "'" piece.text) st) := by
  rw [BuildFile.includeOne]
  rw [pathMoments] at hconf ⊢
  generalize Text.unquote "'" piece.text = path at hconf ⊢
  cases hproblem : includeProblem? h st path with
  | none =>
    obtain ⟨hfile, hnew⟩ := includeProblem?_eq_none_iff.1 hproblem
    rw [if_pos hfile, if_neg hnew] at hconf ⊢
    obtain ⟨⟨hrelative, hfiles⟩, hinside⟩ := List.forall_mem_cons.1 hconf
    obtain ⟨hroomy, hnest⟩ := H path st hst hnew (hfiles path hrelative hfile) hinside
    exact ⟨hroomy, List.forall_mem_cons.2 ⟨hst.toIsNest, hnest⟩⟩
  | some message =>
    refine ⟨roomy_reportOrStop _ _ _, ?_⟩
    split
    · next hfile =>
      have hopen : Path.absolute h.directory path ∈ st.context.includeStack := by
        by_contra hnew
        rw [includeProblem?_eq_none_iff.2 ⟨hfile, hnew⟩] at hproblem
        cases hproblem
      rw [if_pos hopen]
      exact List.forall_mem_cons.2 ⟨hst.toIsNest, List.forall_mem_nil _⟩
    · exact List.forall_mem_nil _

theorem includeAll (H : Nests h files readFile inside room) (hkeeps : KeepsStack readFile)
    {r : Reading} {derived : Text} {pieces : List Text.Slice}
    (hst : Fits files room st.context.includeStack)
    (hconf : ∀ m ∈ includeMoments h readFile inside r derived pieces st, m.Confined h files) :
    Nested files (includeAll h readFile r derived pieces st)
      (includeMoments h readFile inside r derived pieces st) := by
  induction pieces generalizing st with
  | nil => exact .nil files .of_none
  | cons piece pieces ih =>
    rw [includeMoments] at hconf ⊢
    rw [includeAll_cons]
    obtain ⟨hfirst, hrest⟩ := List.forall_mem_append.1 hconf
    refine (H.includeOne r derived hst hfirst).andThen hst (hkeeps.includeOne h r derived piece st)
      fun st' hout hst' => ?_
    rw [hout] at hrest
    exact ih hst' hrest

theorem processLine (H : Nests h files readFile inside room) (hkeeps : KeepsStack readFile)
    (hst : Fits files room st.context.includeStack)
    (hconf : ∀ m ∈ lineMoments h readFile inside source number st, m.Confined h files) :
    Nested files (processLine h readFile source number st)
      (lineMoments h readFile inside source number st) := by
  rw [lineMoments] at hconf ⊢
  rcases processLine_cases h source number st with
    ⟨derived, hkind, hline⟩ | ⟨hkind, out, hroomy, hline⟩
  · rw [hkind, List.forall_mem_cons] at hconf
    rw [hkind, hline]
    have hderived : ∀ s, Fits files room (st.derived s).context.includeStack := fun _ => hst
    obtain ⟨hroomy, hnest⟩ := H.includeAll hkeeps (hderived _) hconf.2
    exact ⟨hroomy, List.forall_mem_cons.2 ⟨hst.toIsNest, hnest⟩⟩
  · rw [hline]
    refine ⟨hroomy, List.forall_mem_cons.2 ⟨hst.toIsNest, ?_⟩⟩
    cases hkind' : kindOf h source st with
    | inclusion derived => exact absurd hkind' (hkind derived)
    | _ => exact List.forall_mem_nil _

theorem processLines (H : Nests h files readFile inside room) (hkeeps : KeepsStack readFile)
    {lines : List Text} (hst : Fits files room st.context.includeStack)
    (hconf : ∀ m ∈ linesMoments h readFile inside number lines st, m.Confined h files) :
    Nested files (processLines h readFile number lines st)
      (linesMoments h readFile inside number lines st) := by
  induction lines generalizing number st with
  | nil => exact .nil files .of_none
  | cons source lines ih =>
    rw [linesMoments] at hconf ⊢
    rw [processLines_cons]
    obtain ⟨hfirst, hrest⟩ := List.forall_mem_append.1 hconf
    refine (H.processLine hkeeps hst hfirst).andThen hst (hkeeps.processLine h source number st)
      fun st' hout hst' => ?_
    rw [hout] at hrest
    exact ih hst' hrest

end Nests

theorem roomy_leaveFile (outer : Text) {out : Outcome σ} (H : out.Roomy) :
    (leaveFile outer out).Roomy :=
  H

theorem nests_processFile (h : Host σ) (files : List Text) (depth : Nat) :
    Nests h files (processFile h depth) (fileMoments h depth) depth := by
  induction depth with
  | zero =>
    -- with no room left every file is being read, so no file is entered here
    intro path st hst hnew hfile
    exact absurd (hst.mem_of_full hfile) hnew
  | succ depth ih =>
    intro path st hst hnew hfile hconf
    rw [processFile_succ]
    rw [fileMoments] at hconf ⊢
    cases hread : h.readText st.host (Path.display path) with
    | error fault => exact .nil files (.of_fault (Host.ne_includeDepth_of_readText hread))
    | ok source =>
      rw [hread] at hconf
      have hentered : Fits files depth (st.entered h path).context.includeStack := by
        have henter := hst.enter hfile hnew
        rw [← Path.absolute_display] at henter
        exact henter
      obtain ⟨hroomy, hnest⟩ := ih.processLines (keepsStack_processFile h depth) hentered hconf
      exact ⟨roomy_leaveFile st.context.filename hroomy, hnest⟩

/-- A file that cannot be read ends the load at once. -/
theorem nested_of_unreadable {path : Text} {fault : Fault} {depth : Nat}
    (hread : h.readText st.host (Path.display path) = .error fault) :
    Nested files (processFile h (depth + 1) path st) (fileMoments h (depth + 1) path st) := by
  rw [processFile_succ, fileMoments, hread]
  exact .nil files (.of_fault (Host.ne_includeDepth_of_readText hread))

/-- Let a load ask for files by relative paths, where there are no files but finitely many given
ones. Whenever a line is read, the files being read are different ones of those, so the load ends
without meeting the bound on files inside one another, and as it would under every greater bound. -/
theorem include_nesting (h : Host σ) (files : List Text) (s : σ)
    (hlimit : files.length ≤ includeLimit h s) :
    let depth := includeLimit h s
    (∀ filename source,
      let lines := Text.uncomment "#" source
      let start := Loading.start filename s
      let moments := linesMoments h (processFile h depth) (fileMoments h depth) 1 lines start
      (∀ m ∈ moments, m.Confined h files) →
        (∀ m ∈ moments, m.stack.Nodup ∧ (∀ p ∈ m.stack, p ∈ files) ∧
          m.stack.length ≤ files.length) ∧
        (loadText h filename source s).2 ≠ some (.fault .includeDepth) ∧
        ∀ depth' ≥ depth,
          processLines h (processFile h depth') 1 lines start = loadText h filename source s) ∧
    ∀ path,
      let moments := fileMoments h depth path (.start path s)
      (∀ source, h.readText s (Path.display path) = .ok source →
        Path.absolute h.directory path ∈ files) →
      (∀ m ∈ moments, m.Confined h files) →
        (∀ m ∈ moments, m.stack.Nodup ∧ (∀ p ∈ m.stack, p ∈ files) ∧
          m.stack.length ≤ files.length) ∧
        (loadFile h path s).2 ≠ some (.fault .includeDepth) ∧
        ∀ depth' ≥ depth, processFile h depth' path (.start path s) = loadFile h path s := by
  intro depth
  have hnests := nests_processFile h files depth
  have hstart : ∀ filename, Fits files depth (Loading.start filename s).context.includeStack :=
    fun _ => ⟨.nil files, by simpa [Loading.start] using hlimit⟩
  constructor
  · intro filename source lines start moments hconf
    obtain ⟨hroomy, hnest⟩ := hnests.processLines (keepsStack_processFile h depth)
      (hstart filename) hconf
    refine ⟨fun m hm => ⟨(hnest m hm).nodup, (hnest m hm).subset, (hnest m hm).length_le⟩, hroomy,
      fun depth' hdepth => ?_⟩
    exact (processFile_mono h hdepth).processLines 1 lines start hroomy
  · intro path moments hpath hconf
    have hread : Nested files (processFile h depth path (.start path s)) moments := by
      cases hsource : h.readText s (Path.display path) with
      | ok source =>
        exact hnests path _ (hstart path) List.not_mem_nil (hpath source hsource) hconf
      | error fault => exact nested_of_unreadable hsource
    obtain ⟨hroomy, hnest⟩ := hread
    refine ⟨fun m hm => ⟨(hnest m hm).nodup, (hnest m hm).subset, (hnest m hm).length_le⟩, hroomy,
      fun depth' hdepth => ?_⟩
    exact processFile_mono h hdepth path _ hroomy

/-- Two files that include each other, and one of them itself, without minding that it fails. -/
def shelf : Host Unit where
  directory := ['/']
  files _ :=
    ⟨fun p => p = ['a'] || p = ['b'], fun p => p = ['a'] || p = ['b'], fun _ => false, fun _ => []⟩
  read _ p :=
    if p = ['a'] then .ok (Utf8.encode "-include b a") else .ok (Utf8.encode "x = 1\n-include a")
  fileCount _ := 2
  run _ _ _ _ := (.error .notFound, ())

theorem filesAmong_shelf : FilesAmong shelf ["/a", "/b"] () := by
  intro path _ hfile
  have hexists : (decide (path = ['a']) || decide (path = ['b'])) = true :=
    (Bool.and_eq_true_iff.1 hfile).1
  rcases Bool.or_eq_true_iff.1 hexists with ha | hb
  · rw [of_decide_eq_true ha]
    decide
  · rw [of_decide_eq_true hb]
    decide

theorem include_nesting_shelf :
    (loadText shelf "Hayfile" "include b" ()).2 ≠ some (.fault .includeDepth) ∧
      (loadFile shelf "a" ()).2 ≠ some (.fault .includeDepth) := by
  have hconfined : ∀ moments : List (Moment Unit),
      (moments.all fun m => match m with
        | .line .. => true
        | .request path _ => path.head? ≠ some '/') = true →
      ∀ m ∈ moments, m.Confined shelf ["/a", "/b"] := by
    intro moments H m hm
    cases m with
    | line => trivial
    | request path st => exact ⟨by simpa using List.all_eq_true.1 H _ hm, filesAmong_shelf⟩
  obtain ⟨htext, hfile⟩ := include_nesting shelf ["/a", "/b"] () (by decide)
  refine ⟨(htext "Hayfile" "include b" (hconfined _ (by decide +kernel))).2.1, ?_⟩
  exact (hfile "a" (fun _ _ => by decide) (hconfined _ (by decide +kernel))).2.1

end BuildFile

end Haybuild
