import Haybuild.Proofs.Drain.Run
import Haybuild.Proofs.Graph.Plan

/-!
# Runs that keep going

A run that keeps going executes all that no failure cost: `run_keepGoing_exact` says for every node
of a graph without cycles whether it is executed, in which round, and what becomes of it, whatever
schedule the host has.
-/

namespace Haybuild
open Relation

namespace Drain

variable {σ : Type} {g : Graph} {crew : Crew σ} {s : σ} {rs : List (List LogEntry)} {d : Drain σ}
  {n : Int} {p : Int → Prop} {halt : Option Halt}

/-- In a graph without cycles no run is stuck. -/
theorem Ends.ne_error (E : Ends g crew s halt d) (H : g.Valid) (ha : g.Acyclic) (e : BuildError) :
    halt ≠ some (.error e) := by
  cases E with
  | finished => simp
  | stopped => simp
  | aborted => simp
  | stuck P hsize hne =>
    obtain ⟨n, hn⟩ := List.exists_mem_of_ne_nil _ <|
      mt List.length_eq_zero_iff.2 (d.graph.length_nodes ▸ hsize)
    rw [Graph.mem_nodes] at hn
    obtain ⟨k, hk⟩ := H.acyclic_iff.1 ha n (P.part.contains_iff.1 hn).1
    exact absurd hne (P.part.frontier_ne_nil H hn hk)

/-- A run that keeps going finishes its graph if it has no cycles and no execution is aborted. -/
theorem Ends.progress (E : Ends g crew s halt d) (H : g.Valid) (ha : g.Acyclic)
    (hff : crew.failFast = false ∨ ∀ x ∈ d.log, ¬x.Failed) (hx : ∀ x ∈ d.log, ¬x.Aborted) :
    halt = none ∧ d.graph.size = 0 ∧ ∃ rs, Progress g crew s rs d := by
  have hne := E.ne_error H ha
  cases E with
  | finished P hsize => exact ⟨rfl, hsize, _, P⟩
  | stuck => exact absurd rfl (hne _)
  | @stopped rs xs _ hstop S =>
    obtain ⟨x, hx', hfailed⟩ := S.failed
    rcases hff with hff | hff
    · cases hstop.symm.trans hff
    · exact absurd hfailed (hff x (by simp [S.history.log, hx']))
  | aborted _ hmem hfault => exact absurd (LogEntry.aborted_iff.2 ⟨_, hfault⟩) (hx _ hmem)

/-- The node is executed exactly once, in the given round, and goes through; all that it needs has
gone through before. -/
def Timely (g : Graph) (rounds : List (List LogEntry)) (round : Nat) (n : Int) : Prop :=
  ∃ before x after, rounds.flatten = before ++ x :: after ∧ x.node = n ∧ x.Completed ∧
    (∀ y ∈ before ++ after, y.node ≠ n) ∧ (∃ xs, rounds[round - 1]? = some xs ∧ x ∈ xs) ∧
    ∀ b, g.Needs n b → ∃ y ∈ before, y.node = b ∧ y.Completed

theorem History.timely (A : History g crew s rs p d) (H : g.Valid)
    (hok : ∀ x ∈ rs.flatten, ¬x.Failed → x.Completed) {i : Nat} (hi : g.OnLevel i n)
    (hlt : i < rs.length) (hfailed : ¬FailedIn rs.flatten n) (hlost : ¬Lost g rs.flatten n) :
    Timely g rs (i + 1) n := by
  obtain ⟨x, hx, rfl⟩ := List.mem_map.1 (((A.rounds i hlt).mem_iff n).2 ⟨hi, hlost⟩)
  have hmem : x ∈ rs.flatten := List.mem_flatten_of_mem (List.getElem_mem hlt) hx
  obtain ⟨us, vs, hxs⟩ := List.append_of_mem hx
  have hsplit :
      rs.flatten = ((rs.take i).flatten ++ us) ++ x :: (vs ++ (rs.drop (i + 1)).flatten) := by
    conv_lhs => rw [← List.take_append_drop i rs, List.drop_eq_getElem_cons hlt, hxs]
    simp
  refine ⟨_, x, _, hsplit, rfl, hok x hmem fun h => hfailed ⟨x, hmem, rfl, h⟩, fun y hy => ?_,
    ⟨rs[i], by simp [hlt], hx⟩, fun b hb => ?_⟩
  · have hnodup := A.nodup H
    rw [hsplit, List.map_append, List.map_cons, List.nodup_middle, ← List.map_append] at hnodup
    exact fun h => (List.nodup_cons.1 hnodup).1 (h ▸ List.mem_map_of_mem hy)
  · obtain ⟨j, hji, hj⟩ := H.onLevel_needs hi hb
    have hjlt : j < rs.length := Nat.lt_trans hji hlt
    obtain ⟨y, hy, rfl⟩ := List.mem_map.1 (((A.rounds j hjlt).mem_iff b).2
      ⟨hj, fun h => hlost (h.of_needs hb)⟩)
    have hy' : y ∈ rs.flatten := List.mem_flatten_of_mem (List.getElem_mem hjlt) hy
    refine ⟨y, List.mem_append_left _ (List.mem_flatten_of_mem (l := rs[j]) ?_ hy), rfl, ?_⟩
    · exact List.mem_take_iff_getElem.2 ⟨j, by omega, rfl⟩
    · exact hok y hy' fun h => hlost ⟨y.node, .single hb, y, hy', rfl, h⟩

namespace Progress

variable (P : Progress g crew s rs d) (H : g.Valid) (hf : ∀ x ∈ rs.flatten, ¬x.Failed)
include P H hf

/-- A run without failures executes the levels of the graph. -/
theorem map_roundNodes : rs.map (roundNodes g) = (List.range rs.length).map g.level :=
  P.history.map_roundNodes H fun _ _ _ _ => not_lost_of_not_failed hf

/-- A run without failures that finds no frontier has gone through all levels. -/
theorem hasHeight (hne : d.graph.frontier = []) : g.HasHeight rs.length := by
  constructor
  · refine List.eq_nil_iff_forall_not_mem.2 fun n hn => ?_
    have := (P.mem_frontier H).2 ⟨H.mem_level.1 hn, not_lost_of_not_failed hf⟩
    rw [hne] at this
    cases this
  · intro i hi hnil
    have R := P.history.rounds i hi
    obtain ⟨x, hx⟩ := List.exists_mem_of_ne_nil _ R.ne_nil
    have := H.mem_level.2 ((R.mem_iff _).1 (List.mem_map_of_mem hx)).1
    rw [hnil] at this
    cases this

/-- A run without failures that leaves no node has executed them all. -/
theorem mem_map_node (hsize : d.graph.size = 0) (hn : g.contains n) :
    n ∈ rs.flatten.map LogEntry.node := by
  have hlost : ¬Lost g rs.flatten n := not_lost_of_not_failed hf
  refine (P.history.mem_map_node H).2 ⟨?_, hlost⟩
  by_contra hdone
  exact Graph.not_contains_of_size_eq_zero hsize (P.part.contains_iff.2 ⟨hn, hdone, hlost⟩)

end Progress

section
variable (hlabel : crew.label = Graph.labelOf g.labels)
include hlabel

/-- Without failures every result is `ok`. -/
theorem Progress.status?_eq_ok {x : LogEntry} (P : Progress g crew s rs d)
    (hf : ∀ x ∈ rs.flatten, ¬x.Failed) (hx : x ∈ rs.flatten) :
    g.status? d.results x.node = some .ok := by
  have R := P.history.results
  rw [hlabel] at R
  obtain ⟨st, hst⟩ := Option.isSome_iff_exists.1 (R.executed x hx)
  refine Eq.trans hst ?_
  rcases R.get? _ st hst with ⟨y, hy, -, hstatus⟩ | ⟨-, n, ⟨-, hlost⟩, -⟩
  · rw [← hstatus]
    exact P.completed hy (hf y hy)
  · exact absurd hlost (not_lost_of_not_failed hf)

/-- A run that finished its graph accounts for every node. -/
theorem Progress.accounts (P : Progress g crew s rs d) (H : g.Valid)
    (hl : (g.labels.map Prod.snd).Nodup) (hsize : d.graph.size = 0) :
    Accounts g rs.flatten (fun n => g.contains n ∧ Lost g rs.flatten n) d.results where
  distinct := hl
  reported := hlabel ▸ P.history.results
  nodup := P.history.nodup H
  contains x hx := H.contains_of_doneBy
    ((P.history.mem_map_node H).1 (List.mem_map_of_mem hx)).1
  skipped n hn := ⟨hn.1, fun h => ((P.history.mem_map_node H).1 h).2 hn.2⟩
  complete n hn := by
    rw [P.history.mem_map_node H]
    have := mt P.part.contains_iff.2 (Graph.not_contains_of_size_eq_zero (n := n) hsize)
    tauto

end

end Drain

namespace Graph
open Drain

variable {σ : Type} {g : Graph} {h : Host σ} {vars : Variables} {o : Options} {s s' : σ}
  {environment : Environment}

/-- A run that keeps going finishes every graph without cycles whose nodes do not share labels. A
node fails when its execution does, and is skipped, and never does anything, when it needs one that
fails. Every other node is executed once, in the round of its level in the plan, after all that it
needs has gone through, and goes through. The frontiers are announced as the rounds have them, and
the journal is what the host did and explains how each execution ended. Where recipes run in turn,
each execution starts on the host that the one before it left, and the events are theirs. -/
theorem run_keepGoing_exact (hg : g.Reachable) (ha : g.Acyclic)
    (hl : (g.labels.map Prod.snd).Nodup) (hs : Starts h vars o s environment s')
    (hk : o.failFast = false) (hx : ∀ x ∈ (g.run h vars o s).2.log, ¬x.Aborted) :
    ∃ levels rounds d, g.levels = .ok levels ∧ g.run h vars o s = (none, d) ∧
      d.log = rounds.flatten ∧ Event.announced d.events = announcements g rounds ∧
      (∀ n, g.contains n →
        (g.status? d.results n = some .failed ↔ FailedIn rounds.flatten n) ∧
        (g.status? d.results n = some .skipped ↔ Lost g rounds.flatten n) ∧
        (Lost g rounds.flatten n →
          n ∉ rounds.flatten.map LogEntry.node ∧ deedsOf n d.journal = []) ∧
        (¬FailedIn rounds.flatten n → ¬Lost g rounds.flatten n →
          g.status? d.results n = some .ok ∧ Timely g rounds (levelIn levels n) n)) ∧
      (rounds.flatten.map LogEntry.node).Nodup ∧
      (∀ t, d.results.get? t ≠ some .cancelled) ∧
      d.results.names.Perm (g.labels.map Prod.snd) ∧ d.graph.size = 0 ∧
      Recorded g (g.crew h vars environment o) s' d ∧
      (h.InTurn → InOrder g (g.crew h vars environment o) s' rounds d) := by
  have H := hg.valid
  obtain ⟨m, hm, hall, hlevels⟩ := H.levels_ok ha
  obtain ⟨halt, d, hrun, E⟩ := drain_ends H (g.crew h vars environment o) s'
  rw [hs.run_eq, hrun] at hx ⊢
  obtain ⟨rfl, hsize, rounds, P⟩ := E.progress H ha (.inl hk) hx
  have A := P.accounts rfl H hl hsize
  have hok : ∀ x ∈ rounds.flatten, ¬x.Failed → x.Completed := fun x hx => P.completed hx
  refine ⟨_, rounds, d, hlevels, rfl, P.history.log, P.history.announced, fun n hn => ?_,
    A.nodup, fun t ht => ?_, A.names_perm, hsize, P.history.recorded, P.history.inOrder⟩
  · refine ⟨A.failed_iff hn, (A.skipped_iff hn).trans (and_iff_right hn), fun hlost => ?_, ?_⟩
    · have hnot := (A.skipped n ⟨hn, hlost⟩).2
      exact ⟨hnot, P.history.deedsOf_eq_nil hnot⟩
    · intro hfailed hlost
      have hmem := (A.complete n hn).resolve_left fun hskip => hlost hskip.2
      obtain ⟨i, hi, hlevel⟩ := exists_onLevel ((P.history.mem_map_node H).1 hmem).1
      rw [H.levelIn_of_onLevel hall hlevel]
      refine ⟨?_, P.history.timely H hok hlevel hi hfailed hlost⟩
      obtain ⟨x, hx, rfl⟩ := List.mem_map.1 hmem
      exact (A.status?_executed hx).trans (hok x hx fun hf => hfailed ⟨x, hx, rfl, hf⟩)
  · rcases A.reported.get? t _ ht with ⟨x, hx, -, hst⟩ | ⟨hst, -⟩
    · have hf : ¬x.Failed := fun hf => by cases hst.symm.trans hf
      cases hst.symm.trans (hok x hx hf)
    · cases hst

/-- The diamond on a host on which the command `b` fails. -/
theorem run_keepGoing_exact_diamond : ∃ g, build (fun _ => false) diamond = .ok g ∧
    ∃ d, g.run (.answering fun c => if c = ['b'] then 1 else 0) .empty { failFast := false } () =
        (none, d) ∧
      d.results.names.Perm [['a'], ['b'], ['c'], ['d']] ∧ d.graph.size = 0 := by
  obtain ⟨g, hg, hr, hplan, hlabels, hplain⟩ := build_diamond
  have hl : g.labels.map Prod.snd = [['a'], ['b'], ['c'], ['d']] := by rw [hlabels]; rfl
  have hs := starts_answering (o := { failFast := false }) (fun c => if c = ['b'] then 1 else 0) rfl
  obtain ⟨-, -, d, -, hrun, -, -, -, -, -, hnames, hsize, -⟩ :=
    run_keepGoing_exact hr (hr.valid.acyclic_of_plan hplan) (hl ▸ by decide) hs rfl
      fun x hx => (not_aborted_answering _ hr.valid hs rfl hplain x hx).1
  exact ⟨g, hg, d, hrun, hl ▸ hnames, hsize⟩

end Graph

end Haybuild
