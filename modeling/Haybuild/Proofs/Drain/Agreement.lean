import Haybuild.Proofs.Drain.KeepGoing

/-!
# Plans and runs agree

A plan and a run find the levels of a graph in different ways, the one by counting needs and the
other by removing nodes. `run_agrees_with_plan` says that they find the same ones, also where a
cycle stops both, and that a run of a graph that has a plan is never stuck, whatever fails in it.
None of this depends on the schedule of the host.
-/

namespace Haybuild

variable {σ : Type}

namespace Drain

variable {g : Graph} {crew : Crew σ} {s : σ} {rs : List (List LogEntry)} {d : Drain σ} {n : Int}

/-- A run without failures that is stuck leaves the nodes that a plan finds stuck. -/
theorem Progress.sortedNames_eq (P : Progress g crew s rs d) (hf : ∀ x ∈ rs.flatten, ¬x.Failed) :
    d.graph.sortedNames d.graph.nodes =
      g.sortedNames (g.nodes.filter fun n => !g.doneBy rs.length n) := by
  classical
  have hnodes : d.graph.nodes = g.nodes.filter fun n => !g.doneBy rs.length n := by
    rw [P.part.nodes_eq]
    refine List.filter_congr fun n _ => ?_
    simp [not_lost_of_not_failed hf]
  rw [Graph.sortedNames, Graph.sortedNames, ← hnodes]
  refine congrArg Text.sort (List.map_congr_left fun n hn => P.part.nameOf_eq ?_)
  exact Graph.mem_nodes.1 hn

/-- What a run without failures announces: its rounds. -/
theorem Progress.announced_eq (P : Progress g crew s rs d) (H : g.Valid)
    (hf : ∀ x ∈ rs.flatten, ¬x.Failed) :
    Event.announced d.events =
      ((((List.range rs.length).map g.level).map (·.map g.nameOf)).zipIdx 1).map
        fun e => ((e.2 : Int), e.1) := by
  rw [P.history.announced, ← P.map_roundNodes H hf, List.map_map, List.zipIdx_map, List.map_map]
  rfl

/-- The results of a run that finished without failures. -/
theorem Progress.get?_eq (P : Progress g crew s rs d) (H : g.Valid)
    (hlabel : crew.label = Graph.labelOf g.labels) (hf : ∀ x ∈ rs.flatten, ¬x.Failed)
    (hsize : d.graph.size = 0) (t : Text) :
    d.results.get? t = if t ∈ g.labels.map Prod.snd then some .ok else none := by
  split
  · next ht =>
    obtain ⟨n, hn, rfl⟩ := Graph.mem_snd_labels.1 ht
    obtain ⟨x, hx, rfl⟩ := List.mem_map.1 (P.mem_map_node H hf hsize hn)
    exact P.status?_eq_ok hlabel hf hx
  · next ht =>
    refine Option.eq_none_iff_forall_ne_some.2 fun st hst => ht ?_
    rw [Graph.mem_snd_labels, ← hlabel]
    rcases P.history.results.get? t st hst with ⟨x, hx, rfl, -⟩ | ⟨-, n, ⟨hn, -⟩, rfl⟩
    · have hx := P.history.doneBy H (List.mem_map_of_mem hx)
      exact ⟨_, H.contains_of_doneBy hx, rfl⟩
    · exact ⟨n, hn, rfl⟩

/-- A run without failures of a graph with cycles executes the nodes that reach none, and is stuck
at the others. -/
theorem Ends.stuck_of_not_acyclic {halt : Option Halt} (E : Ends g crew s halt d) (H : g.Valid)
    (ha : ¬g.Acyclic) (hx : ∀ x ∈ d.log, ¬x.Failed ∧ ¬x.Aborted) :
    ∃ rs, Progress g crew s rs d ∧ d.graph.frontier = [] ∧
      halt = some (.error (.cycle (d.graph.sortedNames d.graph.nodes))) := by
  cases E with
  | @finished rs _ P hsize =>
    refine absurd (H.acyclic_iff.2 fun n hn => ⟨rs.length, ?_⟩) ha
    have hf : ∀ x ∈ rs.flatten, ¬x.Failed := fun x hx' => (hx x (P.history.log ▸ hx')).1
    exact P.history.doneBy H (P.mem_map_node H hf hsize hn)
  | stuck P _ hne => exact ⟨_, P, hne, rfl⟩
  | @stopped rs xs _ _ S =>
    obtain ⟨x, hx', hf⟩ := S.failed
    exact absurd hf (hx x (by simp [S.history.log, hx'])).1
  | aborted _ hmem hfault => exact absurd (LogEntry.aborted_iff.2 ⟨_, hfault⟩) (hx _ hmem).2

end Drain

namespace Graph
open Drain

variable {g : Graph} {h : Host σ} {vars : Variables} {o : Options} {s s' : σ}
  {environment : Environment}

/-- No run of a graph without cycles ends with a cycle error. -/
theorem run_ne_cycle (H : g.Valid) (ha : g.Acyclic) (stuck : List Text) :
    (g.run h vars o s).1 ≠ some (.error (.cycle stuck)) := by
  rcases run_cases g h vars o s with ⟨environment, s', hs⟩ | ⟨fault, hrun⟩ | ⟨e, hrun⟩
  · obtain ⟨halt, d, hrun, E⟩ := drain_ends H (g.crew h vars environment o) s'
    rw [hs.run_eq, hrun]
    exact E.ne_error H ha _
  · rw [hrun]
    simp
  · rw [hrun]
    simp

/-- The plan of a graph and its runs agree. When no execution fails, in either mode, a run announces
the levels of the plan in their order and reports every label as `ok`; where the plan is a cycle
error, it executes the nodes that reach no cycle, each once, and ends with the same error. A run of
a graph that has a plan never ends with a cycle error, whatever fails. -/
theorem run_agrees_with_plan (hg : g.Reachable) :
    (∀ environment s', Starts h vars o s environment s' →
      (∀ x ∈ (g.run h vars o s).2.log, ¬x.Failed ∧ ¬x.Aborted) →
        (∀ names, g.plan = .ok names → ∃ d, g.run h vars o s = (none, d) ∧
          Event.announced d.events = (names.zipIdx 1).map (fun e => ((e.2 : Int), e.1)) ∧
          ∀ t, d.results.get? t = if t ∈ g.labels.map Prod.snd then some .ok else none) ∧
        ∀ stuck, g.plan = .error (.error (.cycle stuck)) →
          (g.run h vars o s).1 = some (.error (.cycle stuck)) ∧
          ((g.run h vars o s).2.log.map LogEntry.node).Nodup ∧
          ∀ n, n ∈ (g.run h vars o s).2.log.map LogEntry.node ↔
            g.contains n ∧ ¬g.ReachesCycle n) ∧
    ∀ names, g.plan = .ok names → ∀ stuck, (g.run h vars o s).1 ≠ some (.error (.cycle stuck)) := by
  have H := hg.valid
  refine ⟨fun environment s' hs hx => ?_, fun names hplan stuck =>
    run_ne_cycle H (H.acyclic_of_plan hplan) stuck⟩
  obtain ⟨halt, d, hrun, E⟩ := drain_ends H (g.crew h vars environment o) s'
  rw [hs.run_eq, hrun] at hx ⊢
  refine ⟨fun names hplan => ?_, fun stuck hplan => ?_⟩
  · have ha := H.acyclic_of_plan hplan
    obtain ⟨rfl, hsize, rs, P⟩ :=
      E.progress H ha (.inr fun x hx' => (hx x hx').1) fun x hx' => (hx x hx').2
    have hf : ∀ x ∈ rs.flatten, ¬x.Failed := fun x hx' => (hx x (P.history.log ▸ hx')).1
    obtain ⟨m, hm, -, hlevels⟩ := H.levels_ok ha
    have hheight := P.hasHeight H hf (P.part.valid.frontier_eq_nil_of_size hsize)
    rw [plan, hlevels, height_unique hm hheight] at hplan
    cases hplan
    exact ⟨d, rfl, P.announced_eq H hf, P.get?_eq H rfl hf hsize⟩
  · have ha : ¬g.Acyclic := fun ha => by
      obtain ⟨m, -, -, hlevels⟩ := H.levels_ok ha
      rw [plan, hlevels] at hplan
      cases hplan
    obtain ⟨rs, P, hne, rfl⟩ := E.stuck_of_not_acyclic H ha hx
    have hf : ∀ x ∈ rs.flatten, ¬x.Failed := fun x hx' => (hx x (P.history.log ▸ hx')).1
    obtain ⟨m, hm, hlevels⟩ := H.levels_cycle ha
    have hheight := P.hasHeight H hf hne
    rw [plan, hlevels, height_unique hm hheight, ← P.sortedNames_eq hf] at hplan
    cases hplan
    dsimp only
    rw [P.history.log]
    refine ⟨rfl, P.history.nodup H, fun n => ?_⟩
    rw [P.history.mem_map_node H, and_iff_left (not_lost_of_not_failed hf)]
    constructor
    · intro hdone
      have hn := H.contains_of_doneBy hdone
      exact ⟨hn, (H.doneBy_height_iff hheight hn).1 hdone⟩
    · rintro ⟨hn, hcycle⟩
      exact (H.doneBy_height_iff hheight hn).2 hcycle

/-- Recipes `a` and `b` need one another, and `c` needs nothing. -/
def tangle : List Recipe :=
  [⟨[['a']], [['b']], []⟩, ⟨[['b']], [['a']], []⟩, ⟨[['c']], [], [{ text := ['c'] }]⟩]

theorem build_tangle : ∃ g, build (fun _ => false) tangle = .ok g ∧ g.Reachable ∧
    g.plan = .error (.error (.cycle [['a'], ['b']])) ∧
    ∀ e ∈ g.recipes.entries, ∀ c ∈ e.2.commands, '$' ∉ c.text ∧ '\x00' ∉ c.text := by
  have hg : build (fun _ => false) tangle = .ok _ := rfl
  exact ⟨_, hg, build_reachable hg, rfl, by decide⟩

/-- The diamond and the tangle on a host on which every command ends well. -/
theorem run_agrees_with_plan_diamond_tangle :
    (∃ g d, build (fun _ => false) diamond = .ok g ∧
      g.run (.answering fun _ => 0) .empty {} () = (none, d) ∧
      Event.announced d.events = [(1, [['d']]), (2, [['b'], ['c']]), (3, [['a']])]) ∧
    ∃ g, build (fun _ => false) tangle = .ok g ∧
      (g.run (.answering fun _ => 0) .empty {} ()).1 =
        some (.error (.cycle [['a'], ['b']])) := by
  have hs := starts_answering (o := {}) (fun _ => 0) rfl
  constructor
  · obtain ⟨g, hg, hr, hplan, -, hplain⟩ := build_diamond
    obtain ⟨hagree, -⟩ := run_agrees_with_plan (h := .answering fun _ => 0) (o := {}) (s := ()) hr
    obtain ⟨hnames, -⟩ := hagree [] () hs fun x hx => by
      obtain ⟨haborted, hfailed⟩ := not_aborted_answering _ hr.valid hs rfl hplain x hx
      exact ⟨hfailed (by simp), haborted⟩
    obtain ⟨d, hrun, hannounced, -⟩ := hnames _ hplan
    exact ⟨g, d, hg, hrun, hannounced⟩
  · obtain ⟨g, hg, hr, hplan, hplain⟩ := build_tangle
    obtain ⟨hagree, -⟩ := run_agrees_with_plan (h := .answering fun _ => 0) (o := {}) (s := ()) hr
    obtain ⟨-, hstuck⟩ := hagree [] () hs fun x hx => by
      obtain ⟨haborted, hfailed⟩ := not_aborted_answering _ hr.valid hs rfl hplain x hx
      exact ⟨hfailed (by simp), haborted⟩
    exact ⟨g, hg, (hstuck _ hplan).1⟩

end Graph

end Haybuild
