import Haybuild.Proofs.BuildFile.Moment

/-!
# What lines tell

A line tells a diagnostic if it is a stray shell line, fails to derive, is no rule, or asks for a
file that cannot be included (`Voices`). Whatever a load reports, and whatever diagnostic stops it,
is told by one of the lines that are read, be it in a file that another one includes
(`TellsLines.processLine`).
-/

namespace Haybuild

namespace BuildFile

variable {σ : Type} {h : Host σ} {readFile : Text → Loading σ → Outcome σ}
  {inside : Text → Loading σ → List (Moment σ)} {source : Text} {number : Nat}
  {st st' : Loading σ} {d : Diagnostic} {p q : Diagnostic → Prop} {ms : List (Moment σ)}

/-- The line itself tells the diagnostic when it is read in the state. -/
inductive Voices (h : Host σ) (source : Text) (number : Nat) (st : Loading σ) : Diagnostic → Prop
  | stray : kindOf h source st = .shell →
      Voices h source number st (strayDiagnostic st.context.filename source number)
  | subcall {e : Derivation.Error} : kindOf h source st = .underivable e →
      Voices h source number st
        ((Reading.ofSource source number).subcallDiagnostic st.context.filename e)
  | malformed {derived : Text} {e : Rule.Fault} : kindOf h source st = .malformed e →
      Rule.parse derived = .error e →
      Voices h source number st
        ((Reading.ofSource source number).ruleDiagnostic st.context.filename derived e)
  | inclusion {derived message : Text} {piece : Text.Slice} {st' : Loading σ} :
      kindOf h source st = .inclusion derived →
      piece ∈ (Text.splitBalanced " " "'" derived).drop 1 →
      includeProblem? h st' (Text.unquote "'" piece.text) = some message →
      Voices h source number st
        ((Reading.ofSource source number).includeDiagnostic st.context.filename derived message
          piece.offset)

/-- One of the lines that are read tells the diagnostic. -/
def VoicedAmong (h : Host σ) (ms : List (Moment σ)) (d : Diagnostic) : Prop :=
  ∃ source number st, .line source number st ∈ ms ∧ Voices h source number st d

theorem VoicedAmong.append_left (H : VoicedAmong h ms d) (ms' : List (Moment σ)) :
    VoicedAmong h (ms ++ ms') d := by
  obtain ⟨source, number, st, hmem, hvoice⟩ := H
  exact ⟨source, number, st, List.mem_append_left _ hmem, hvoice⟩

theorem VoicedAmong.append_right (ms : List (Moment σ)) {ms' : List (Moment σ)}
    (H : VoicedAmong h ms' d) : VoicedAmong h (ms ++ ms') d := by
  obtain ⟨source, number, st, hmem, hvoice⟩ := H
  exact ⟨source, number, st, List.mem_append_right _ hmem, hvoice⟩

/-! ## What an outcome tells -/

/-- The diagnostics reported since a state, and the one that stops reading, satisfy `p`. -/
structure Outcome.TellsOnly (o : Outcome σ) (st : Loading σ) (p : Diagnostic → Prop) : Prop where
  reports : ∃ news, o.1.reports = st.reports ++ news ∧ ∀ d ∈ news, p d
  halt : ∀ d, o.2 = some (.error (.diagnostic d)) → p d

namespace Outcome.TellsOnly

variable {o : Outcome σ}

theorem none (hreports : st'.reports = st.reports) : TellsOnly (st', Option.none) st p :=
  ⟨⟨[], by simpa using hreports, nofun⟩, nofun⟩

theorem diagnostic (hreports : st'.reports = st.reports) (hd : p d) :
    TellsOnly (st', some (.error (.diagnostic d))) st p where
  reports := ⟨[], by simpa using hreports, nofun⟩
  halt := by
    rintro _ ⟨⟩
    exact hd

theorem fault (hreports : st'.reports = st.reports) (fault : Fault) :
    TellsOnly (st', some (.fault fault)) st p :=
  ⟨⟨[], by simpa using hreports, nofun⟩, nofun⟩

theorem report (hreports : st'.reports = st.reports ++ [d]) (hd : p d) :
    TellsOnly (st', Option.none) st p :=
  ⟨⟨[d], hreports, by simpa using hd⟩, nofun⟩

theorem reportOrStop (st : Loading σ) (hd : p d) (neglect : Bool) :
    (st.reportOrStop d neglect).TellsOnly st p := by
  cases neglect with
  | true => exact report rfl hd
  | false => exact diagnostic rfl hd

theorem of_reports_eq (H : o.TellsOnly st' p) (hreports : st'.reports = st.reports) :
    o.TellsOnly st p :=
  ⟨hreports ▸ H.reports, H.halt⟩

theorem mono (H : o.TellsOnly st p) (hpq : ∀ d, p d → q d) : o.TellsOnly st q where
  reports := by
    obtain ⟨news, hnews, hp⟩ := H.reports
    exact ⟨news, hnews, fun d hd => hpq d (hp d hd)⟩
  halt d hd := hpq d (H.halt d hd)

theorem andThen {f : Loading σ → Outcome σ} (H : o.TellsOnly st p)
    (hf : ∀ st', o = (st', Option.none) → (f st').TellsOnly st' p) :
    (o.andThen f).TellsOnly st p := by
  obtain ⟨st', _ | halt⟩ := o
  · obtain ⟨news, hnews, hp⟩ := H.reports
    obtain ⟨⟨news', hnews', hp'⟩, hhalt⟩ := hf st' rfl
    refine ⟨⟨news ++ news', ?_, List.forall_mem_append.2 ⟨hp, hp'⟩⟩, hhalt⟩
    rw [andThen_none, hnews', hnews, List.append_assoc]
  · exact H

end Outcome.TellsOnly

/-! ## Every way through a load -/

/-- Reading a file tells what its lines tell, and leaves the name of the file that includes it. -/
structure TellsLines (h : Host σ) (readFile : Text → Loading σ → Outcome σ)
    (inside : Text → Loading σ → List (Moment σ)) : Prop where
  tells : ∀ path st, (readFile path st).TellsOnly st (VoicedAmong h (inside path st))
  filename : ∀ path st, (readFile path st).1.context.filename = st.context.filename

namespace TellsLines

theorem filename_includeOne (H : TellsLines h readFile inside) (r : Reading) (derived : Text)
    (piece : Text.Slice) (st : Loading σ) :
    (includeOne h readFile r derived piece st).1.context.filename = st.context.filename := by
  rw [BuildFile.includeOne]
  split
  · exact H.filename _ st
  · rw [Loading.reportOrStop]
    split <;> rfl

theorem includeOne (H : TellsLines h readFile inside) (r : Reading) (derived : Text)
    (piece : Text.Slice) (st : Loading σ)
    (hown : ∀ message, includeProblem? h st (Text.unquote "'" piece.text) = some message →
      p (r.includeDiagnostic st.context.filename derived message piece.offset))
    (hinside : ∀ d, VoicedAmong h (pathMoments h inside (Text.unquote "'" piece.text) st) d → p d) :
    (includeOne h readFile r derived piece st).TellsOnly st p := by
  rw [BuildFile.includeOne]
  cases hproblem : includeProblem? h st (Text.unquote "'" piece.text) with
  | none =>
    obtain ⟨hfile, hnew⟩ := includeProblem?_eq_none_iff.1 hproblem
    rw [pathMoments, if_pos hfile, if_neg hnew] at hinside
    exact (H.tells _ st).mono fun d hd => hinside d (hd.append_right [_])
  | some message => exact .reportOrStop st (hown message hproblem) _

theorem includeAll (H : TellsLines h readFile inside) (r : Reading) (derived filename : Text)
    (pieces : List Text.Slice) (hname : st.context.filename = filename)
    (hown : ∀ piece ∈ pieces, ∀ (st' : Loading σ) message,
      includeProblem? h st' (Text.unquote "'" piece.text) = some message →
      p (r.includeDiagnostic filename derived message piece.offset))
    (hinside : ∀ d, VoicedAmong h (includeMoments h readFile inside r derived pieces st) d → p d) :
    (includeAll h readFile r derived pieces st).TellsOnly st p := by
  induction pieces generalizing st with
  | nil => exact .none rfl
  | cons piece pieces ih =>
    obtain ⟨hfirst, hrest⟩ := List.forall_mem_cons.1 hown
    rw [includeMoments] at hinside
    rw [includeAll_cons]
    have hone := H.includeOne r derived piece st (hname ▸ hfirst st) fun d hd =>
      hinside d (hd.append_left _)
    refine hone.andThen fun st' hout => ?_
    have hname' := (H.filename_includeOne r derived piece st).trans hname
    rw [hout] at hinside hname'
    exact ih hname' hrest fun d hd => hinside d (VoicedAmong.append_right _ hd)

/-- What a line and the files that it includes tell. -/
theorem processLine (H : TellsLines h readFile inside) (source : Text) (number : Nat)
    (st : Loading σ) :
    (processLine h readFile source number st).TellsOnly st
      (VoicedAmong h (lineMoments h readFile inside source number st)) := by
  have hline : ∀ d, Voices h source number st d →
      VoicedAmong h (lineMoments h readFile inside source number st) d := fun d hd =>
    ⟨source, number, st, List.mem_cons_self, hd⟩
  rcases processLine_cases h source number st with ⟨derived, hkind, hincludes⟩ | ⟨hkind, -⟩
  · rw [hincludes]
    refine .of_reports_eq (H.includeAll _ derived st.context.filename _ ?_ ?_ fun d hd => ?_) ?_
    · rfl
    · exact fun piece hpiece st' message hproblem =>
        hline _ (.inclusion hkind hpiece hproblem)
    · rw [lineMoments, hkind]
      exact hd.append_right [_]
    · rfl
  · have hstep := lineStep h readFile source number st
    generalize hk : kindOf h source st = kind at hstep hkind
    generalize BuildFile.processLine h readFile source number st = out at hstep ⊢
    cases hstep with
    | blank | command | dropped | assignment | nothing | rule => exact .none rfl
    | stray => exact .diagnostic rfl (hline _ (.stray hk))
    | inclusion => exact absurd rfl (hkind _)
    | malformed hparse => exact .diagnostic rfl (hline _ (.malformed hk hparse))
    | neglected => exact .report rfl (hline _ (.subcall hk))
    | underivable => exact .diagnostic rfl (hline _ (.subcall hk))
    | faulted =>
      refine .fault ?_ _
      rfl

theorem processLines (H : TellsLines h readFile inside) (number : Nat) (lines : List Text)
    (st : Loading σ) :
    (processLines h readFile number lines st).TellsOnly st
      (VoicedAmong h (linesMoments h readFile inside number lines st)) := by
  induction lines generalizing number st with
  | nil => exact .none rfl
  | cons source lines ih =>
    rw [processLines_cons, linesMoments]
    refine ((H.processLine source number st).mono fun d hd => hd.append_left _).andThen
      fun st' hout => (ih (number + 1) st').mono fun d hd => ?_
    rw [hout]
    exact hd.append_right _

end TellsLines

theorem tellsLines_processFile (h : Host σ) (depth : Nat) :
    TellsLines h (processFile h depth) (fileMoments h depth) := by
  induction depth with
  | zero => exact ⟨fun path st => .fault rfl _, fun path st => rfl⟩
  | succ depth ih =>
    constructor
    · intro path st
      rw [processFile_succ, fileMoments]
      cases h.readText st.host (Path.display path) with
      | error fault => exact .fault rfl _
      | ok source =>
        have hlines := ih.processLines 1 (Text.uncomment "#" source) (st.entered h path)
        dsimp only
        generalize BuildFile.processLines h (processFile h depth) 1 (Text.uncomment "#" source)
          (st.entered h path) = out at hlines ⊢
        obtain ⟨st', stop⟩ := out
        exact ⟨hlines.reports, hlines.halt⟩
    · intro path st
      rw [processFile_succ]
      cases h.readText st.host (Path.display path) with
      | error fault => rfl
      | ok source =>
        dsimp only
        generalize BuildFile.processLines h (processFile h depth) 1 (Text.uncomment "#" source)
          (st.entered h path) = out
        obtain ⟨st', _ | halt⟩ := out <;> rfl

end BuildFile

end Haybuild
