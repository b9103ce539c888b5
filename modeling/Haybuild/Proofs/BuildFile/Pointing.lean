import Haybuild.Proofs.BuildFile.Loaded
import Haybuild.Proofs.BuildFile.Section
import Haybuild.Proofs.BuildFile.Voice
import Haybuild.Proofs.Derivation.Culprit
import Haybuild.Proofs.Execution
import Haybuild.Proofs.Text.Balanced

/-!
# Where diagnostics point

The diagnostic for a line that fails to derive is meant to point at the reference at fault. Its
column is the sum of what stands before the content, without the blanks in front of it, and of the
first offset of the reference in the content. So it points at the culprit if and only if no blanks
stand in front of the content, the reference is written there as it is derived, and it stands
nowhere before (`Locates.points_iff`). The column of a path that cannot be included is right if and
only if no blanks stand in front of the content, or the line was derived to another one
(`diagnostics_point`).
-/

namespace Haybuild

/-- The diagnostic points at a text, which stands at this place in the diagnostic's line. -/
structure Diagnostic.PointsAt (d : Diagnostic) (u : Text) (place : Nat) : Prop where
  column : d.column = place
  stands : u.StandsAt d.text place

namespace BuildFile

variable {σ : Type} {h : Host σ} {vars : Variables} {debug : Bool} {source t u b written : Text}
  {write : Text → Text} {d : Diagnostic} {e : Derivation.Error} {s s' : σ}

/-! ## Places in a line -/

/-- The number of blanks in front of the content of a line. -/
def gap (source : Text) : Nat :=
  ((Line.ofText source).content.takeWhile Text.isBlank).length

/-- The column where the content of a line starts. -/
def contentColumn (source : Text) : Nat :=
  (Line.ofText source).split + gap source

theorem standsAt_contentOf (source : Text) :
    (contentOf source).StandsAt source (contentColumn source) := by
  have htrim : contentOf source <+: Text.trimLeft (Line.ofText source).content :=
    List.rdropWhile_prefix _ _
  have hdrop : (Line.ofText source).content.drop (gap source) =
      Text.trimLeft (Line.ofText source).content := by
    conv_lhs => rw [← List.takeWhile_append_dropWhile (p := Text.isBlank)
      (l := (Line.ofText source).content)]
    exact List.drop_left
  rwa [Text.StandsAt, contentColumn, ← List.drop_drop, ← Line.content_ofText, hdrop]

/-- The diagnostic is about a reference `u` that the line has in the form `written`, with `b` before
it in the content. It points there if and only if no blanks stand in front of the content, the
reference is written as it is, and it stands nowhere before. -/
structure Locates (d : Diagnostic) (source b written u : Text) : Prop where
  front : b ++ written <+: contentOf source
  stands : written.StandsAt source (contentColumn source + b.length)
  points_iff : d.PointsAt u (contentColumn source + b.length) ↔
    gap source = 0 ∧ written = u ∧ ∀ i < b.length, ¬u.StandsAt (contentOf source) i

theorem locates (htext : d.text = source)
    (hcolumn : d.column = (Line.ofText source).split + offsetOf u (contentOf source))
    (hne : u ≠ []) (hlength : u.length ≤ written.length)
    (hwritten : u <+: written → written = u) (hfront : b ++ written <+: contentOf source) :
    Locates d source b written u := by
  have hstands := Text.standsAt_of_append_prefix hfront
  have hline := hstands.trans (standsAt_contentOf source)
  refine ⟨hfront, hline, ?_, ?_⟩
  · rintro ⟨hplace, hpoint⟩
    rw [htext] at hpoint
    have hself := hwritten (List.prefix_of_prefix_length_le hpoint hline hlength)
    rw [hself] at hstands
    have hle := offsetOf_le hne hstands
    rw [hcolumn, contentColumn] at hplace
    exact ⟨by omega, hself, (offsetOf_eq_iff hne hstands).1 (by omega)⟩
  · rintro ⟨hgap, rfl, hfirst⟩
    have hoffset := (offsetOf_eq_iff hne hstands).2 hfirst
    constructor
    · rw [hcolumn, hoffset, contentColumn, hgap]
      simp
    · rwa [htext]

/-! ## Failing derivations -/

/-- A way to write texts into a line, one character after the other. A text that stands at the front
of how it is written is written as it is. -/
structure IsWriting (write : Text → Text) : Prop where
  append : ∀ t u, write (t ++ u) = write t ++ write u
  length_le : ∀ t, t.length ≤ (write t).length
  eq_of_prefix : ∀ t, t <+: write t → write t = t

theorem IsWriting.id : IsWriting id :=
  ⟨fun _ _ => rfl, fun _ => le_rfl, fun _ _ => rfl⟩

theorem IsWriting.escape {mark : Char} (hmark : mark ≠ '\\') : IsWriting (Text.escape mark) where
  append := Text.escape_append mark
  length_le t := by
    induction t with
    | nil => exact Nat.zero_le _
    | cons c t ih =>
      by_cases hc : c = mark
      · rw [hc, Text.escape_cons_self, List.length_cons, List.length_cons, List.length_cons]
        omega
      · rw [Text.escape_cons_of_ne hc, List.length_cons, List.length_cons]
        omega
  eq_of_prefix _ ht := Text.escape_of_notMem (Text.notMem_of_prefix_escape hmark ht)

/-- The diagnostic is about a line whose content is what `write` makes of a text that fails to
derive, at one of its pieces. If the reference at fault is written in that piece, be it all of the
piece or an argument in it, then the diagnostic is about what is written there. -/
structure Blames (h : Host σ) (vars : Variables) (debug : Bool) (source t : Text)
    (write : Text → Text) (s : σ) (d : Diagnostic) : Prop where
  text : d.text = source
  content : contentOf source = write t
  culprit : ∃ e before p, FailsAt h vars debug t s e before p ∧ d.message = e.message ∧
    ∀ x y, p.source = x ++ (e.reference ++ y) → e.reference ≠ [] →
      Locates d source (write (before.flatMap Piece.source ++ x)) (write e.reference) e.reference

theorem IsWriting.blames (hwrite : IsWriting write) (htext : d.text = source)
    (hcontent : contentOf source = write t) (hmessage : d.message = e.message)
    (hcolumn : d.column = (Line.ofText source).split + offsetOf e.reference (contentOf source))
    (hfails : h.derive (derive vars debug t) s = (.ok (.error e), s')) :
    Blames h vars debug source t write s d where
  text := htext
  content := hcontent
  culprit := by
    obtain ⟨before, p, hp⟩ := exists_failsAt hfails
    refine ⟨e, before, p, hp, hmessage, fun x y hpiece hne => ?_⟩
    refine locates htext hcolumn hne (hwrite.length_le _) (hwrite.eq_of_prefix _) ?_
    obtain ⟨after, hcut⟩ := hp.cut
    have ht : t = before.flatMap Piece.source ++ x ++ e.reference ++
        (y ++ after.flatMap Piece.source) := by
      rw [(pieces_eq_append hcut).1, List.flatMap_cons, hpiece]
      simp only [List.append_assoc]
    rw [hcontent, ht, hwrite.append _ (y ++ _), hwrite.append _ e.reference]
    exact List.prefix_append _ _

/-! ## Lines -/

/-- The diagnostic is about a path that an include line asks for. The line may have been derived to
another one, which is then the one that is shown. -/
def NamesPath (h : Host σ) (source : Text) (st : Loading σ) (d : Diagnostic) : Prop :=
  ∃ derived piece st', kindOf h source st = .inclusion derived ∧
    piece ∈ (Text.splitBalanced " " "'" derived).drop 1 ∧
    includeProblem? h st' (Text.unquote "'" piece.text) = some d.message ∧
    if derived = contentOf source then
      d.text = source ∧ piece.text.StandsAt source (contentColumn source + piece.offset) ∧
        (d.PointsAt piece.text (contentColumn source + piece.offset) ↔ gap source = 0)
    else d.text = derived ∧ d.PointsAt piece.text piece.offset

/-- What a line says of where its diagnostics point. -/
structure Told (h : Host σ) (source : Text) (st : Loading σ) (d : Diagnostic) : Prop where
  subcall : d.kind = .subcall →
    Blames h st.context.vars (Line.ofText source).debug source
      (Text.replaceAll "\\=" "=" (contentOf source)) (Text.escape '=') st.host d
  inclusion : d.kind = .inclusion → NamesPath h source st d

theorem derive_of_underivable {st : Loading σ} (hkind : kindOf h source st = .underivable e) :
    Text.findUnescaped "=" (contentOf source) = none ∧
      (h.derive (derivationOf st.context.vars source) st.host).1 = .ok (.error e) := by
  rw [kindOf] at hkind
  split at hkind
  · cases hkind
  · split at hkind
    · cases hkind
    · split at hkind
      · cases hkind
      · next hassign =>
        refine ⟨Option.not_isSome_iff_eq_none.1 hassign, ?_⟩
        generalize (h.derive (derivationOf st.context.vars source) st.host).1 = outcome at hkind
        obtain _ | _ | value := outcome
        · cases hkind
        · cases hkind
          rfl
        · simp only [kindOfOutcome, kindOfDerived] at hkind
          split at hkind
          · cases hkind
          · split at hkind <;> cases hkind

theorem told_subcall {st : Loading σ} (number : Nat)
    (hkind : kindOf h source st = .underivable e) :
    Told h source st ((Reading.ofSource source number).subcallDiagnostic st.context.filename e) where
  subcall _ := by
    obtain ⟨hassign, hderive⟩ := derive_of_underivable hkind
    exact (IsWriting.escape (by decide)).blames rfl
      (Text.escape_replaceAll (by decide) hassign).symm rfl rfl (Prod.ext hderive rfl)
  inclusion := nofun

theorem told_inclusion {st st' : Loading σ} {derived message : Text} {piece : Text.Slice}
    (number : Nat) (hkind : kindOf h source st = .inclusion derived)
    (hpiece : piece ∈ (Text.splitBalanced " " "'" derived).drop 1)
    (hproblem : includeProblem? h st' (Text.unquote "'" piece.text) = some message) :
    Told h source st ((Reading.ofSource source number).includeDiagnostic st.context.filename derived
      message piece.offset) where
  subcall := nofun
  inclusion _ := by
    refine ⟨derived, piece, st', hkind, hpiece, hproblem, ?_⟩
    have hstands :=
      ((Text.mem_splitBalanced_iff (by decide)).1 (List.mem_of_mem_drop hpiece)).stands
    have hcontent : (Reading.ofSource source number).content = contentOf source := rfl
    rw [Reading.includeDiagnostic, hcontent]
    split
    · next hsame =>
      rw [hsame] at hstands
      have hline := hstands.trans (standsAt_contentOf source)
      refine ⟨rfl, hline, ?_⟩
      constructor
      · rintro ⟨hcolumn, -⟩
        have hcolumn : (((Line.ofText source).split : Int) + piece.offset) =
            (contentColumn source + piece.offset : Nat) := hcolumn
        rw [contentColumn] at hcolumn
        omega
      · intro hgap
        refine ⟨?_, hline⟩
        rw [contentColumn, hgap]
        exact (Int.natCast_add _ _).symm
    · exact ⟨rfl, rfl, hstands⟩

/-- What lines tell says where it points. -/
theorem Voices.told {number : Nat} {st : Loading σ} (H : Voices h source number st d) :
    Told h source st d := by
  cases H with
  | stray | malformed => exact ⟨nofun, nofun⟩
  | subcall hkind => exact told_subcall number hkind
  | inclusion hkind hpiece hproblem => exact told_inclusion number hkind hpiece hproblem

/-- A command that fails to derive is shown in the line where it was written. -/
theorem blames_diagnose {c : Command} {vars : Variables}
    (hc : ∃ filename source number, (Line.ofText source).shell ∧
      c = commandOf filename source number)
    (hfails : h.derive (derive vars c.debug c.text) s = (.ok (.error e), s')) :
    Blames h vars c.debug c.source c.text id s (c.diagnose e) := by
  obtain ⟨filename, source, number, hshell, rfl⟩ := hc
  have hne : source ≠ [] := by
    rintro rfl
    cases hshell
  exact IsWriting.id.blames (if_neg hne) rfl rfl rfl hfails

/-- Whatever a line tells, be it a line of a file that it includes, and whatever the execution of a
loaded recipe tells, is about the piece at which the line fails to derive or about the path that
cannot be included. It points at it in the cases that `Locates` and `NamesPath` list and in no
others. -/
theorem diagnostics_point (h : Host σ) :
    (∀ depth source number st,
      (processLine h (processFile h depth) source number st).TellsOnly st fun d =>
        ∃ source' number' st', .line source' number' st' ∈
            lineMoments h (processFile h depth) (fileMoments h depth) source number st ∧
          Told h source' st' d) ∧
    ∀ st, Loaded h st → ∀ r ∈ st.context.recipes, ∀ setting checks s,
      (r.execute h setting checks s).TellsOnly fun d =>
        ∃ c ∈ r.commands, ∃ s', Blames h setting.vars c.debug c.source c.text id s' d := by
  constructor
  · intro depth source number st
    refine ((tellsLines_processFile h depth).processLine source number st).mono fun d hd => ?_
    obtain ⟨source', number', st', hmem, hvoices⟩ := hd
    exact ⟨source', number', st', hmem, hvoices.told⟩
  · intro st hst r hr setting checks s
    refine (r.tellsOnly_execute h setting checks s).mono fun d hd => ?_
    obtain ⟨c, hc, e, s₁, s₂, hderive, rfl⟩ := hd
    exact ⟨c, hc, s₁, blames_diagnose (hst.shellWritten r hr c hc) hderive⟩

/-- The command of a line, without blanks in front of it, that asks for an unknown variable. -/
def echoCommand : Command :=
  ⟨"echo $(NOPE)", false, 2, false, "Hayfile", "\techo $(NOPE)", 1⟩

/-- The error of a reference to an unknown variable. -/
def unknownError (debug : Bool) : Derivation.Error :=
  ⟨.unknown "$(NOPE)" "NOPE", "$(NOPE)", [], debug⟩

theorem diagnostics_point_echo : ∃ st r,
    (loadText bareHost "Hayfile" "all:\n\techo $(NOPE)" ()).1 = st ∧ st.context.recipes = [r] ∧
      r.commands = [echoCommand] ∧
      let d := echoCommand.diagnose (unknownError false)
      (r.execute bareHost ⟨.empty, [], standardShell⟩ none ()).ending = .failed (.diagnostic d) ∧
      d.PointsAt "$(NOPE)" 6 ∧
      ∃ c ∈ r.commands, ∃ s', Blames bareHost .empty c.debug c.source c.text id s' d := by
  have hrecipes : (loadText bareHost "Hayfile" "all:\n\techo $(NOPE)" ()).1.context.recipes =
      [⟨["all"], [], [echoCommand]⟩] := by decide +kernel
  have hending : (Recipe.execute ⟨["all"], [], [echoCommand]⟩ bareHost
      ⟨.empty, [], standardShell⟩ none ()).ending =
        .failed (.diagnostic (echoCommand.diagnose (unknownError false))) := by decide +kernel
  refine ⟨_, _, rfl, hrecipes, rfl, hending, ⟨by decide +kernel, by decide⟩, ?_⟩
  exact ((diagnostics_point bareHost).2 _ (loaded_loadText _ _ _ _) _
    (hrecipes ▸ List.mem_cons_self) ⟨.empty, [], standardShell⟩ none ()).ending _ hending

/-- Blanks between the markers and the content are not counted: the diagnostic for this line points
at the first of them and not at the reference behind them. -/
theorem not_pointsAt_of_gap : ∃ d p,
    (processLine bareHost (processFile bareHost 0) "+   $(NOPE): x" 1 (.start "Hayfile" ())).2 =
        some (.error (.diagnostic d)) ∧
      d.kind = .subcall ∧ d.text = "+   $(NOPE): x" ∧
      FailsAt bareHost .empty true "$(NOPE): x" () (unknownError true) [] p ∧
      (unknownError true).reference = p.source ∧
      d.column = 1 ∧ ¬p.source.StandsAt d.text 1 ∧ p.source.StandsAt d.text 4 := by
  have hstop : (processLine bareHost (processFile bareHost 0) "+   $(NOPE): x" 1
      (.start "Hayfile" ())).2 = some (.error (.diagnostic
        ((Reading.ofSource "+   $(NOPE): x" 1).subcallDiagnostic "Hayfile"
          (unknownError true)))) := by
    decide +kernel
  have hpieces : pieces "$(NOPE): x" =
      [] ++ .reference ⟨.round, "NOPE"⟩ :: [.literal ':', .literal ' ', .literal 'x'] := by
    decide +kernel
  refine ⟨_, _, hstop, rfl, rfl, ⟨⟨_, hpieces⟩, [], (), (), ?_, ?_⟩, rfl, by decide +kernel,
    by decide, by decide⟩
  · rw [derive_of_not_mem _ _ (by simp), Host.derive]
    rfl
  · decide +kernel

end BuildFile

end Haybuild
